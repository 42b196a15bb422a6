import DocBase.Proofs.Sql.Pieces
import Mathlib.Data.List.Induction

namespace DocBase.Sql

/-- Blanks, and comments with the ends of their lines. The flag is for a gap at the end of the text,
where the last comment may end with the text. -/
inductive Gap : Bool → List Char → Prop
  | nil {last : Bool} : Gap last []
  | blank {last : Bool} {c : Char} {cs : List Char} : Text.isBlank c → Gap last cs →
      Gap last (c :: cs)
  | comment {last : Bool} {body cs : List Char} : '\n' ∉ body → Gap last cs →
      Gap last ('-' :: '-' :: (body ++ '\n' :: cs))
  | ending {body : List Char} : '\n' ∉ body → Gap true ('-' :: '-' :: body)

def lastColumn (cs : List Char) : Nat := (cs.reverse.takeWhile (· ≠ '\n')).length

def endPlace (cs : List Char) : Position := ⟨cs.count '\n' + 1, lastColumn cs⟩

/-- The place of what stands behind a text, lines and columns counted from one. -/
def placeBehind (cs : List Char) : Position := ⟨cs.count '\n' + 1, lastColumn cs + 1⟩

/-- The tokens of a text that is cut into gaps and pieces. What stands before the text counts for
the places only. -/
inductive Cut : List Char → List Char → List Token → Prop
  | ending {before gap : List Char} : Gap true gap →
      Cut before gap [⟨.endOfText, "", endPlace (before ++ gap)⟩]
  | token {before gap piece rest : List Char} {kind : TokenKind} {literal : String}
      {ts : List Token} : Gap false gap → Piece kind literal piece rest →
      Cut (before ++ gap ++ piece) rest ts →
      Cut before (gap ++ (piece ++ rest)) (⟨kind, literal, placeBehind (before ++ gap)⟩ :: ts)
  | unterminated {before gap rest : List Char} {literal : String} : Gap false gap →
      Unterminated literal rest →
      Cut before (gap ++ rest)
        [⟨.illegal, literal, placeBehind (before ++ gap)⟩,
          ⟨.endOfText, "", endPlace (before ++ gap ++ rest)⟩]

section
variable {cs rest gap gap' body : List Char} {c d : Char} {comment last : Bool}

theorem Gap.append (h : Gap last gap) (hl : last = false) (h' : Gap comment gap') :
    Gap comment (gap ++ gap') := by
  induction h with
  | nil => exact h'
  | blank hb _ ih => exact .blank hb (ih hl)
  | comment hn _ ih =>
    rw [List.cons_append, List.cons_append, List.append_assoc, List.cons_append]
    exact .comment hn (ih hl)
  | ending _ => cases hl

theorem gap_comment_cons_iff (hd : d ≠ '\n') :
    Gap last ('-' :: '-' :: d :: gap) ↔ Gap last ('-' :: '-' :: gap) := by
  constructor
  · intro h
    generalize hs : '-' :: '-' :: d :: gap = cs at h
    cases h with
    | nil => cases hs
    | blank hb _ =>
      cases hs
      cases hb
    | @comment _ body cs hn hc =>
      cases body with
      | nil =>
        cases hs
        exact absurd rfl hd
      | cons e body =>
        cases hs
        exact .comment (fun hm => hn (.tail _ hm)) hc
    | ending hn =>
      cases hs
      exact .ending fun hm => hn (.tail _ hm)
  · intro h
    have hcons {body : List Char} (hn : '\n' ∉ body) : '\n' ∉ d :: body := by
      intro hm
      rcases List.mem_cons.1 hm with he | hm
      · exact hd he.symm
      · exact hn hm
    generalize hs : '-' :: '-' :: gap = cs at h
    cases h with
    | nil => cases hs
    | blank hb _ =>
      cases hs
      cases hb
    | @comment _ body _ hn hc =>
      cases hs
      exact .comment (hcons hn) hc
    | ending hn =>
      cases hs
      exact .ending (hcons hn)

theorem skipLayout_comment (hn : '\n' ∉ body) (cs : List Char) :
    skipLayout true (body ++ cs) = skipLayout true cs := by
  induction body with
  | nil => rfl
  | cons c body ih =>
    obtain ⟨hc, hb⟩ := not_or.1 (mt List.mem_cons.2 hn)
    have hne : (c != '\n') = true := bne_iff_ne.2 (Ne.symm hc)
    rw [List.cons_append, skipLayout, hne, ih hb]

theorem Gap.skipLayout_append (h : Gap last gap) (hl : last = false ∨ cs = []) :
    skipLayout false (gap ++ cs) = skipLayout false cs := by
  induction h with
  | nil => rfl
  | blank hb _ ih => rw [List.cons_append, skipLayout, if_pos hb, ih hl]
  | @comment _ body gap hn _ ih =>
    have hc : skipLayout false ('-' :: '-' :: (body ++ '\n' :: gap) ++ cs) =
        skipLayout true (body ++ '\n' :: gap ++ cs) := rfl
    rw [hc, List.append_assoc, skipLayout_comment hn]
    exact ih hl
  | @ending body hn =>
    obtain rfl := hl.resolve_left (by decide)
    have hc : skipLayout false ('-' :: '-' :: body ++ []) = skipLayout true (body ++ []) := rfl
    rw [hc, skipLayout_comment hn]
    rfl

/-- What is skipped is a gap, of which two hyphens are missing where a comment is open. -/
theorem exists_gap (h : skipLayout comment cs = rest) :
    ∃ gap, cs = gap ++ rest ∧ Gap rest.isEmpty (if comment then '-' :: '-' :: gap else gap) ∧
      ∀ c tail, rest = c :: tail → Starts c tail := by
  induction cs generalizing comment with
  | nil =>
    cases comment with
    | true =>
      cases h
      exact ⟨[], rfl, .ending List.not_mem_nil, nofun⟩
    | false =>
      cases h
      exact ⟨[], rfl, .nil, nofun⟩
  | cons d cs ih =>
    cases comment with
    | true =>
      obtain ⟨gap, rfl, hg, hs⟩ := ih h
      refine ⟨d :: gap, rfl, ?_, hs⟩
      rw [if_pos rfl]
      by_cases hd : d = '\n'
      · subst hd
        exact .comment List.not_mem_nil hg
      · rw [if_pos (bne_iff_ne.2 hd)] at hg
        exact (gap_comment_cons_iff hd).2 hg
    | false =>
      rw [skipLayout] at h
      split at h
      · next hb =>
        obtain ⟨gap, rfl, hg, hs⟩ := ih h
        exact ⟨d :: gap, rfl, .blank hb hg, hs⟩
      · next hb =>
        split at h
        · next hm =>
          obtain ⟨rfl, hh⟩ := hm
          obtain ⟨gap, rfl, hg, hs⟩ := ih h
          -- The first character of the comment is its second hyphen.
          cases gap with
          | nil =>
            rw [List.nil_append] at hh
            cases rest with
            | nil => cases hh
            | cons e rest =>
              have hx : skipLayout false (['-', '-'] ++ ['x']) = ['x'] :=
                hg.skipLayout_append (.inl rfl)
              cases hx
          | cons e gap =>
            cases hh
            exact ⟨_, rfl, (gap_comment_cons_iff (by decide)).1 hg, hs⟩
        · next hm =>
          have hnot : d = '-' → cs.head? ≠ some '-' := fun he hh => hm ⟨he, hh⟩
          refine ⟨[], h, ?_, ?_⟩
          · exact .nil
          · subst h
            rintro c tail ⟨⟩
            exact ⟨Bool.eq_false_iff.2 hb, hnot⟩

/-- Every text starts with a gap, which is all of it or ends where a token starts. -/
theorem exists_gap_append (cs : List Char) :
    ∃ gap rest, cs = gap ++ rest ∧ Gap rest.isEmpty gap ∧
      ∀ c tail, rest = c :: tail → Starts c tail := by
  have hs : skipLayout false cs = _ := rfl
  obtain ⟨gap, he, hg, hstart⟩ := exists_gap hs
  exact ⟨gap, _, he, hg, hstart⟩

end

section
variable {before cs rest gap piece : List Char} {c : Char} {ts : List Token}

theorem Position.advance_append (p : Position) (cs ds : List Char) :
    p.advance (cs ++ ds) = (p.advance cs).advance ds := by
  induction cs generalizing p with
  | nil => rfl
  | cons c cs ih => exact ih _

theorem start_advance (cs : List Char) : Position.start.advance cs = endPlace cs := by
  induction cs using List.reverseRecOn with
  | nil => rfl
  | append_singleton cs c ih =>
    rw [Position.advance_append, ih, endPlace, endPlace, List.count_append, lastColumn, lastColumn,
      List.reverse_append, List.reverse_singleton, List.singleton_append, List.takeWhile_cons]
    by_cases hc : c = '\n'
    · subst hc
      rfl
    · simp [Position.advance, hc]

theorem advance_endPlace (before cs : List Char) :
    (endPlace before).advance cs = endPlace (before ++ cs) := by
  rw [← start_advance, ← start_advance, Position.advance_append]

theorem endPlace_append_singleton (hc : c ≠ '\n') (cs : List Char) :
    endPlace (cs ++ [c]) = placeBehind cs := by
  rw [← advance_endPlace, Position.advance, if_neg hc]
  rfl

theorem passed_append (cs rest : List Char) : passed (cs ++ rest) rest = cs := by
  rw [passed, List.length_append, Nat.add_sub_cancel, List.take_left]

theorem tokensFrom_gap (hg : Gap true gap) :
    tokensFrom (endPlace before) gap = [⟨.endOfText, "", endPlace (before ++ gap)⟩] := by
  have hs : skipLayout false gap = [] := by
    have h : skipLayout false (gap ++ []) = [] := hg.skipLayout_append (.inr rfl)
    rwa [List.append_nil] at h
  have hp := passed_append gap []
  rw [List.append_nil] at hp
  rw [tokensFrom]
  split
  · rw [hs, hp, advance_endPlace]
  · next hc => cases hs.symm.trans hc

theorem tokensFrom_gap_append {lexeme : Lexeme} (hg : Gap false gap) (hs : Starts c rest)
    (hr : Lexeme.read c rest = lexeme) (he : c :: rest = piece ++ lexeme.rest) :
    tokensFrom (endPlace before) (gap ++ c :: rest) =
      ⟨lexeme.kind, lexeme.literal, placeBehind (before ++ gap)⟩ ::
        tokensFrom (endPlace (before ++ gap ++ piece)) lexeme.rest := by
  have hskip : skipLayout false (gap ++ c :: rest) = c :: rest := by
    rw [hg.skipLayout_append (.inl rfl), skipLayout_of_start hs.not_blank hs.not_comment]
  have hc : c ≠ '\n' := by
    rintro rfl
    cases hs.not_blank
  rw [tokensFrom]
  split
  · next hn => cases hn.symm.trans hskip
  · next d tail hd =>
    cases hd.symm.trans hskip
    dsimp only
    rw [hskip, passed_append, hr, he, passed_append]
    simp only [advance_endPlace, endPlace_append_singleton hc]

theorem Cut.tokensFrom_eq (h : Cut before cs ts) : tokensFrom (endPlace before) cs = ts := by
  induction h with
  | ending hg => exact tokensFrom_gap hg
  | token hg hp _ ih =>
    obtain ⟨c, tail, rfl, hs, hr⟩ := hp.leads
    rw [List.cons_append, tokensFrom_gap_append hg hs hr List.cons_append.symm, ih]
  | @unterminated before gap rest literal hg hu =>
    cases rest with
    | nil => cases hu
    | cons c rest =>
      obtain ⟨hs, hr⟩ := hu.read_eq
      have he : c :: rest = c :: rest ++ [] := (List.append_nil _).symm
      rw [tokensFrom_gap_append hg hs hr he, tokensFrom_gap .nil, List.append_nil]

/-- Every text can be cut up, and the tokens are those of the pieces. -/
theorem cut_tokensFrom (before cs : List Char) :
    Cut before cs (tokensFrom (endPlace before) cs) := by
  induction hn : cs.length using Nat.strongRecOn generalizing before cs with
  | ind n ih =>
    obtain ⟨gap, rest, rfl, hg, hs⟩ := exists_gap_append cs
    cases rest with
    | nil =>
      rw [List.append_nil, tokensFrom_gap hg]
      exact .ending hg
    | cons c rest =>
      have hstart := hs c rest rfl
      rcases Lexeme.sliced_read hstart with ⟨piece, hp, he⟩ | ⟨literal, hu, hread⟩
      · have hl := Lexeme.length_rest_read_le c rest
        rw [List.length_append, List.length_cons] at hn
        rw [tokensFrom_gap_append hg hstart rfl he, he]
        exact .token hg hp (ih _ (by omega) _ _ rfl)
      · have he : c :: rest = c :: rest ++ [] := (List.append_nil _).symm
        rw [tokensFrom_gap_append hg hstart hread he, tokensFrom_gap .nil, List.append_nil]
        exact .unterminated hg hu

theorem cut_iff_tokensFrom : Cut before cs ts ↔ ts = tokensFrom (endPlace before) cs := by
  constructor
  · exact fun h => h.tokensFrom_eq.symm
  · rintro rfl
    exact cut_tokensFrom before cs

theorem tokensFrom_piece {kind : TokenKind} {literal : String} (hg : Gap false gap)
    (hp : Piece kind literal piece rest) :
    tokensFrom (endPlace before) (gap ++ (piece ++ rest)) =
      ⟨kind, literal, placeBehind (before ++ gap)⟩ ::
        tokensFrom (endPlace (before ++ gap ++ piece)) rest :=
  (Cut.token hg hp (cut_tokensFrom _ rest)).tokensFrom_eq

theorem Piece.length_pos {kind : TokenKind} {literal : String}
    (h : Piece kind literal piece rest) : 0 < piece.length := by
  obtain ⟨c, tail, rfl, -⟩ := h.leads
  exact Nat.succ_pos _

theorem Unterminated.length_pos {literal : String} (h : Unterminated literal cs) :
    0 < cs.length := by
  cases h <;> exact Nat.succ_pos _

theorem Cut.length_le (h : Cut before cs ts) : ts.length ≤ cs.length + 1 := by
  induction h with
  | ending _ => exact Nat.succ_le_succ (Nat.zero_le _)
  | token _ hp _ ih =>
    have hpos := hp.length_pos
    simp only [List.length_append, List.length_cons]
    omega
  | unterminated _ hu =>
    have hpos := hu.length_pos
    simp only [List.length_append, List.length_cons, List.length_nil]
    omega

end

/-- The last token and no other marks the end of the text, there are at most as many others as
characters, and the text can be cut into gaps and pieces, of which they are always the tokens. -/
theorem tokens_cut (text : String) :
    Ended (tokens text) ∧ (tokens text).length ≤ text.length + 1 ∧
      ∀ ts, Cut [] text.toList ts ↔ ts = tokens text := by
  have hcut : ∀ ts, Cut [] text.toList ts ↔ ts = tokens text := fun ts => cut_iff_tokensFrom
  refine ⟨(tokensFrom_spec .start text.toList).1, ?_, hcut⟩
  rw [← String.length_toList]
  exact ((hcut _).2 rfl).length_le

end DocBase.Sql
