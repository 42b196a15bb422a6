import DocBase.Proofs.Sql.Segments
import DocBase.Proofs.Sql.Uniform
import DocBase.Proofs.Text.Casing

namespace DocBase.Sql

open Text

/-- Layout that is put into a text: none, or some that starts with a blank. -/
structure Fresh (more : List Char) : Prop where
  gap : Gap false more
  blank : ∀ c ∈ more.head?, isBlank c

/-- A gap with fresh layout somewhere between its blanks and comments. Behind a comment that ends
with the text, the layout is at the end of it. -/
inductive Widened : Bool → List Char → List Char → Prop
  | between {last : Bool} {front back more : List Char} : Gap false front → Gap last back →
      Fresh more → Widened last (front ++ back) (front ++ (more ++ back))
  | behind {gap more : List Char} : Gap true gap → Fresh more → Widened true gap (gap ++ more)

/-- A piece that may be written with other ASCII letters if it is a keyword. -/
def Recased (kind : TokenKind) (piece piece' : List Char) : Prop :=
  piece' = piece ∨ (∃ k, kind = .keyword k) ∧ piece.map Char.toLower = piece'.map Char.toLower

/-- A text with more layout between its tokens and with keywords in other letters. Behind a quote
that is never closed nothing is changed. -/
inductive Relaid : List Char → List Char → Prop
  | ending {gap gap' : List Char} : Widened true gap gap' → Relaid gap gap'
  | token {gap gap' piece piece' rest rest' : List Char} {kind : TokenKind} {literal : String} :
      Widened false gap gap' → Piece kind literal piece rest → Recased kind piece piece' →
      Relaid rest rest' → Relaid (gap ++ (piece ++ rest)) (gap' ++ (piece' ++ rest'))
  | unterminated {gap gap' rest : List Char} {literal : String} : Widened false gap gap' →
      Unterminated literal rest → Relaid (gap ++ rest) (gap' ++ rest)

section
variable {cs gap gap' more : List Char} {last : Bool}

theorem Gap.weaken (h : Gap last gap) : Gap true gap := by
  induction h with
  | nil => exact .nil
  | blank hb _ ih => exact .blank hb ih
  | comment hn _ ih => exact .comment hn ih
  | ending hn => exact .ending hn

theorem Gap.head (h : Gap last gap) : ∀ c ∈ gap.head?, isBlank c ∨ c = '-' := by
  intro c hc
  cases h with
  | nil => cases hc
  | blank hb _ =>
    cases hc
    exact .inl hb
  | comment _ _ =>
    cases hc
    exact .inr rfl
  | ending _ =>
    cases hc
    exact .inr rfl

theorem Gap.comment_append (h : Gap last more) {body : List Char} (hn : '\n' ∉ body) :
    Gap true ('-' :: '-' :: (body ++ more)) := by
  induction h generalizing body with
  | nil =>
    rw [List.append_nil]
    exact .ending hn
  | @blank _ c cs hb hg ih =>
    by_cases hc : c = '\n'
    · subst hc
      exact .comment hn hg.weaken
    · have hn' : '\n' ∉ body ++ [c] := by
        intro hm
        rcases List.mem_append.1 hm with hm | hm
        · exact hn hm
        · exact hc (List.mem_singleton.1 hm).symm
      have hg' := ih hn'
      rwa [List.append_assoc] at hg'
  | @comment _ inner cs hi hg ih =>
    have hn' : '\n' ∉ body ++ '-' :: '-' :: inner := by
      simp [hn, hi]
    have hg' : Gap true _ := .comment hn' hg.weaken
    rwa [List.append_assoc] at hg'
  | @ending inner hi =>
    have hn' : '\n' ∉ body ++ '-' :: '-' :: inner := by
      simp [hn, hi]
    exact .ending hn'

theorem Gap.append_last (h : Gap last gap) (hm : Gap false more) : Gap true (gap ++ more) := by
  induction h with
  | nil => exact hm.weaken
  | blank hb _ ih => exact .blank hb ih
  | comment hn _ ih =>
    rw [List.cons_append, List.cons_append, List.append_assoc, List.cons_append]
    exact .comment hn ih
  | ending hn => exact hm.comment_append hn

theorem Widened.gaps (h : Widened last gap gap') : Gap last gap ∧ Gap last gap' := by
  cases h with
  | between hf hb hm => exact ⟨hf.append rfl hb, hf.append rfl (hm.gap.append rfl hb)⟩
  | behind hg hm => exact ⟨hg, hg.append_last hm.gap⟩

theorem Fresh.cons {c : Char} (hb : isBlank c) (hm : Gap false more) : Fresh (c :: more) := by
  refine ⟨.blank hb hm, fun d hd => ?_⟩
  cases hd
  exact hb

theorem Widened.refl (h : Gap last gap) : Widened last gap gap :=
  .between .nil h ⟨.nil, nofun⟩

end

/-- A text starts as another one does, but for the case of a letter, or with a blank. -/
def StartsLike (cs cs' : List Char) : Prop :=
  ∀ c' ∈ cs'.head?, isBlank c' ∨ ∃ c ∈ cs.head?, c.toLower = c'.toLower

section
variable {cs cs' gap gap' more piece piece' rest rest' : List Char} {last : Bool} {c d : Char}
  {kind : TokenKind} {literal : String}

theorem StartsLike.refl (cs : List Char) : StartsLike cs cs :=
  fun c hc => .inr ⟨c, hc, rfl⟩

theorem StartsLike.append (front : List Char) (h : StartsLike cs cs') :
    StartsLike (front ++ cs) (front ++ cs') := by
  cases front with
  | nil => exact h
  | cons c front =>
    intro c' hc
    cases hc
    exact .inr ⟨c, rfl, rfl⟩

theorem StartsLike.fresh (hm : Fresh more) (h : StartsLike cs cs') :
    StartsLike cs (more ++ cs') := by
  cases more with
  | nil => exact h
  | cons c more => exact fun c' hc => .inl (hm.blank c' hc)

theorem StartsLike.stops {p : Char → Bool} (h : StartsLike cs cs')
    (hb : ∀ c, isBlank c → p c = false) (hl : ∀ c : Char, p c.toLower = p c)
    (hc : ∀ c ∈ cs.head?, p c = false) : ∀ c ∈ cs'.head?, p c = false := by
  intro c' hc'
  rcases h c' hc' with hblank | ⟨c, hm, he⟩
  · exact hb c' hblank
  · rw [← hl, ← he, hl]
    exact hc c hm

theorem StartsLike.head?_eq (h : StartsLike cs cs') (hb : isBlank c = false)
    (ha : c.isAlpha = false) (hc : cs'.head? = some c) : cs.head? = some c := by
  rcases h c hc with hblank | ⟨d, hd, he⟩
  · exact absurd hblank (Bool.eq_false_iff.1 hb)
  · rwa [← eq_of_toLower_eq he ha]

theorem Widened.startsLike (h : Widened last gap gap') (ht : StartsLike cs cs') :
    StartsLike (gap ++ cs) (gap' ++ cs') := by
  cases h with
  | @between _ front back more _ _ hm =>
    rw [List.append_assoc, List.append_assoc, List.append_assoc]
    exact ((ht.append back).fresh hm).append front
  | @behind gap more _ hm =>
    rw [List.append_assoc]
    exact (ht.fresh hm).append gap

theorem Piece.ne_nil (h : Piece kind literal piece rest) : piece ≠ [] := by
  obtain ⟨c, tail, rfl, -⟩ := h.leads
  exact List.cons_ne_nil _ _

theorem Recased.startsLike (h : Recased kind piece piece') (hne : piece ≠ []) :
    StartsLike (piece ++ rest) (piece' ++ rest') := by
  obtain ⟨c, tail, rfl⟩ := List.exists_cons_of_ne_nil hne
  rcases h with rfl | ⟨-, hl⟩
  · intro c' hc
    cases hc
    exact .inr ⟨c, rfl, rfl⟩
  · obtain ⟨c', tail', rfl, hc, -⟩ := List.map_eq_cons_iff.1 hl.symm
    intro d hd
    cases hd
    exact .inr ⟨c, rfl, hc.symm⟩

theorem Relaid.startsLike (h : Relaid cs cs') : StartsLike cs cs' := by
  cases h with
  | ending hw =>
    have hs := hw.startsLike (StartsLike.refl [])
    rwa [List.append_nil, List.append_nil] at hs
  | token hw hp hr _ => exact hw.startsLike (hr.startsLike hp.ne_nil)
  | unterminated hw _ => exact hw.startsLike (StartsLike.refl _)

theorem isDigit_stops (h : StartsLike cs cs') (hc : ∀ c ∈ cs.head?, c.isDigit = false) :
    ∀ c ∈ cs'.head?, c.isDigit = false :=
  h.stops (fun _ hb => isDigit_of_isBlank hb) isDigit_toLower hc

theorem isWordChar_toLower (c : Char) : isWordChar c.toLower = isWordChar c :=
  apply_toLower (by decide) c

theorem isWordChar_stops (h : StartsLike cs cs') (hc : ∀ c ∈ cs.head?, isWordChar c = false) :
    ∀ c ∈ cs'.head?, isWordChar c = false :=
  h.stops (fun _ hb => isWordChar_of_isBlank hb) isWordChar_toLower hc

/-- A gap does not start with a point, so a text that does starts with a piece. -/
theorem Gap.eq_nil_of_point (h : Gap last gap) (hp : (gap ++ cs).head? = some '.') : gap = [] := by
  cases gap with
  | nil => rfl
  | cons c gap =>
    cases hp
    rcases h.head '.' rfl with hb | he
    · cases hb
    · cases he

theorem Piece.eq_of_point (h : Piece kind literal piece rest) (hp : piece.head? = some '.') :
    piece = ['.'] ∧ ∀ k, kind ≠ .keyword k := by
  obtain ⟨c, tail, rfl, -, hr⟩ := h.leads
  cases hp
  have hdot : Lexeme.read '.' (tail ++ rest) = ⟨.sign .dot, ".", tail ++ rest⟩ := rfl
  obtain ⟨rfl, -, he⟩ := Lexeme.mk.inj (hr.symm.trans hdot)
  rw [List.self_eq_append_left.1 he]
  exact ⟨rfl, nofun⟩

theorem Widened.eq_nil (h : Widened last gap gap') (hn : gap' = []) : gap = [] := by
  cases h with
  | between _ _ _ =>
    rw [List.append_eq_nil_iff, List.append_eq_nil_iff] at hn
    rw [hn.1, hn.2.2, List.append_nil]
  | behind _ _ => exact (List.append_eq_nil_iff.1 hn).1

theorem Relaid.point {ds : List Char} (h : Relaid cs ('.' :: d :: ds)) (hd : d.isDigit) :
    ∃ e es, cs = '.' :: e :: es ∧ e.isDigit := by
  generalize hs : '.' :: d :: ds = cs' at h
  have hpoint : cs'.head? = some '.' := hs ▸ rfl
  cases h with
  | ending hw =>
    rw [← List.append_nil cs'] at hpoint
    rw [hw.gaps.2.eq_nil_of_point hpoint] at hs
    cases hs
  | @token gap gap' piece piece' rest rest' kind literal hw hp hr hrest =>
    obtain rfl := hw.gaps.2.eq_nil_of_point hpoint
    obtain rfl := hw.eq_nil rfl
    have hhead : (piece ++ rest).head? = some '.' :=
      (hr.startsLike hp.ne_nil).head?_eq rfl rfl hpoint
    obtain ⟨rfl, hk⟩ := hp.eq_of_point (List.head?_append_of_ne_nil _ hp.ne_nil ▸ hhead)
    obtain rfl := hr.resolve_right fun h => h.1.elim hk
    cases hs
    rcases hrest.startsLike d rfl with hb | ⟨e, he, hl⟩
    · exact absurd hd (Bool.eq_false_iff.1 (isDigit_of_isBlank hb))
    · obtain ⟨es, rfl⟩ := List.head?_eq_some_iff.1 he
      refine ⟨e, es, rfl, ?_⟩
      rw [← isDigit_toLower, hl, isDigit_toLower, hd]
  | unterminated hw hu =>
    rw [hw.gaps.2.eq_nil_of_point hpoint] at hs
    cases hu with
    | string hq _ =>
      cases hs
      rcases hq with hq | hq <;> cases hq
    | name _ => cases hs

theorem Sign.Written.plain {s : Sign} {symbol : List Char} (h : s.Written symbol) :
    ∀ c ∈ symbol, isBlank c = false ∧ c.isAlpha = false := by
  have hall : symbol.all fun c => !isBlank c && !c.isAlpha := by
    cases h with
    | symbol => cases s <;> decide
    | angles => decide
  intro c hc
  simpa using List.all_eq_true.1 hall c hc

theorem StartsLike.not_written {symbol : List Char} (h : StartsLike cs cs')
    (hc : ∀ d ∈ cs.head?, ∀ s : Sign, ¬ s.Written (symbol ++ [d])) :
    ∀ d ∈ cs'.head?, ∀ s : Sign, ¬ s.Written (symbol ++ [d]) := by
  intro d hd s hw
  obtain ⟨hb, ha⟩ := hw.plain d (List.mem_append_right _ (.head _))
  exact hc d (h.head?_eq hb ha hd) s hw

theorem StartsLike.not_hyphens {symbol : List Char} (h : StartsLike cs cs') (hne : symbol ≠ [])
    (hc : ¬ ['-', '-'] <+: symbol ++ cs) : ¬ ['-', '-'] <+: symbol ++ cs' := by
  obtain ⟨c, tail, rfl⟩ := List.exists_cons_of_ne_nil hne
  rw [List.cons_append, hyphens_prefix_iff] at hc ⊢
  exact fun hh => hc ⟨hh.1, (h.append tail).head?_eq rfl rfl hh.2⟩

/-- A piece is one in front of whatever starts like what stands behind it. -/
theorem Piece.startsLike (h : Piece kind literal piece rest) (hs : StartsLike rest rest')
    (hpoint : ∀ d ds, rest' = '.' :: d :: ds → d.isDigit →
      ∃ e es, rest = '.' :: e :: es ∧ e.isDigit) : Piece kind literal piece rest' := by
  cases h with
  | word hc hw hstop => exact .word hc hw (isWordChar_stops hs hstop)
  | integer hne hd hstop hp =>
    refine .integer hne hd (isDigit_stops hs hstop) ?_
    intro d ds he
    rw [Bool.eq_false_iff]
    intro hdigit
    obtain ⟨e, es, rfl, he⟩ := hpoint d ds he hdigit
    exact Bool.false_ne_true ((hp e es rfl).symm.trans he)
  | float hw hf hd hstop => exact .float hw hf hd (isDigit_stops hs hstop)
  | sign hw hlong hm => exact .sign hw (hs.not_written hlong) (hs.not_hyphens hw.ne_nil hm)
  | string hq hstop =>
    refine .string hq ?_
    intro hh
    apply hstop
    rcases hq with rfl | rfl
    · exact hs.head?_eq rfl rfl hh
    · exact hs.head?_eq rfl rfl hh
  | name hstop => exact .name fun hh => hstop (hs.head?_eq rfl rfl hh)
  | @stray c _ hb hw hq hsign hpair =>
    have hpair' : ∀ d ∈ rest'.head?, ∀ s : Sign, ¬ s.Written ([c] ++ [d]) :=
      hs.not_written hpair
    exact .stray hb hw hq hsign hpair'

theorem Piece.relaid (h : Piece kind literal piece rest) (hr : Relaid rest rest') :
    Piece kind literal piece rest' := by
  apply h.startsLike hr.startsLike
  rintro d ds rfl hd
  exact hr.point hd

theorem kind_ofWord_eq {a b : String} (h : equalsIgnoringCase a b) {k : Keyword}
    (hk : TokenKind.ofWord a = .keyword k) : TokenKind.ofWord b = .keyword k := by
  have hw : Keyword.ofWord? b = Keyword.ofWord? a := by
    rw [Keyword.ofWord?, Keyword.ofWord?, capitalize_eq h]
  rw [TokenKind.ofWord] at hk ⊢
  rw [hw]
  cases ha : Keyword.ofWord? a with
  | none =>
    rw [ha] at hk
    cases hk
  | some k' => rwa [ha] at hk

theorem Piece.recase {k : Keyword} (h : Piece (.keyword k) literal piece rest)
    (hl : piece.map Char.toLower = piece'.map Char.toLower) :
    ∃ literal', Piece (.keyword k) literal' piece' rest ∧ equalsIgnoringCase literal literal' := by
  generalize hkind : TokenKind.keyword k = kind at h
  cases h with
  | @word c cs _ hc hw hstop =>
    obtain ⟨c', cs', rfl, hcc, hcs⟩ := List.map_eq_cons_iff.1 hl.symm
    have he : equalsIgnoringCase (.ofList (c :: cs)) (.ofList (c' :: cs')) := by
      rw [equalsIgnoringCase, String.toList_ofList, String.toList_ofList, hl, beq_self_eq_true]
    have hc' : isLetter c' := by
      rw [← isLetter_toLower, hcc, isLetter_toLower, hc]
    have hw' : ∀ d ∈ cs', isWordChar d := by
      intro d hd
      obtain ⟨e, hm, hde⟩ := List.mem_map.1 (hcs ▸ List.mem_map_of_mem hd)
      rw [← isWordChar_toLower, ← hde, isWordChar_toLower, hw e hm]
    have hp : Piece (.ofWord (.ofList (c' :: cs'))) (.ofList (c' :: cs')) (c' :: cs') rest :=
      .word hc' hw' hstop
    rw [kind_ofWord_eq he hkind.symm] at hp
    rw [← hkind]
    exact ⟨_, hp, he⟩
  | _ => cases hkind

/-- Changed texts are cut into as many pieces, and their tokens are akin. -/
theorem Relaid.cut (h : Relaid cs cs') (before before' : List Char) :
    ∃ ts ts', Cut before cs ts ∧ Cut before' cs' ts' ∧ AllAkin ts ts' := by
  induction h generalizing before before' with
  | ending hw =>
    obtain ⟨hg, hg'⟩ := hw.gaps
    exact ⟨_, _, .ending hg, .ending hg', .cons ⟨rfl, .inl rfl⟩ .nil⟩
  | @token gap gap' piece piece' rest rest' kind literal hw hp hr hrest ih =>
    obtain ⟨hg, hg'⟩ := hw.gaps
    obtain ⟨ts, ts', hts, hts', ha⟩ := ih (before ++ gap ++ piece) (before' ++ gap' ++ piece')
    have hp' := hp.relaid hrest
    rcases hr with rfl | ⟨⟨k, rfl⟩, hl⟩
    · exact ⟨_, _, .token hg hp hts, .token hg' hp' hts', .cons ⟨rfl, .inl rfl⟩ ha⟩
    · obtain ⟨literal', hp'', he⟩ := hp'.recase hl
      exact ⟨_, _, .token hg hp hts, .token hg' hp'' hts', .cons ⟨rfl, .inr ⟨⟨k, rfl⟩, he⟩⟩ ha⟩
  | unterminated hw hu =>
    obtain ⟨hg, hg'⟩ := hw.gaps
    exact ⟨_, _, .unterminated hg hu, .unterminated hg' hu,
      .cons ⟨rfl, .inl rfl⟩ (.cons ⟨rfl, .inl rfl⟩ .nil)⟩

end

/-- A text with more layout and with keywords in other letters has akin tokens, and is the same
statement or is refused with an akin error. -/
theorem parse_of_relaid {text text' : String} (h : Relaid text.toList text'.toList) :
    AllAkin (tokens text) (tokens text') ∧
      ((∃ s, parse text = .ok s ∧ parse text' = .ok s) ∨
        ∃ e e', parse text = .error e ∧ parse text' = .error e' ∧ e.Akin e') := by
  obtain ⟨ts, ts', hcut, hcut', ha⟩ := h.cut [] []
  have hts : ts = tokens text := cut_iff_tokensFrom.1 hcut
  have hts' : ts' = tokens text' := cut_iff_tokensFrom.1 hcut'
  rw [hts, hts'] at ha
  exact ⟨ha, parse_of_allAkin ha⟩

/-- A keyword in other letters, a comment in a gap, and a blank between two tokens without one. -/
theorem parse_of_relaid_comment :
    let text := "is<t--"
    let text' := "Is --c\n<\tt--\n"
    Relaid text.toList text'.toList ∧ AllAkin (tokens text) (tokens text') ∧
      ((∃ s, parse text = .ok s ∧ parse text' = .ok s) ∨
        ∃ e e', parse text = .error e ∧ parse text' = .error e' ∧ e.Akin e') := by
  intro text text'
  have htab : Fresh ['\t'] := .cons rfl .nil
  have hline : Fresh ['\n'] := .cons rfl .nil
  have hcomment : Fresh [' ', '-', '-', 'c', '\n'] :=
    .cons rfl (@Gap.comment _ ['c'] _ (by decide) .nil)
  have hend : Relaid ['-', '-'] ['-', '-', '\n'] :=
    .ending (.behind (.ending List.not_mem_nil) hline)
  have hname : Relaid ['t', '-', '-'] ['\t', 't', '-', '-', '\n'] := by
    have hstop : ∀ c ∈ ['-', '-'].head?, isWordChar c = false := by
      rintro c ⟨⟩
      rfl
    have hp : Piece _ _ ['t'] ['-', '-'] := .word (by decide) (List.forall_mem_nil _) hstop
    exact .token (.between .nil .nil htab) hp (.inl rfl) hend
  have hsign : Relaid ['<', 't', '-', '-']
      [' ', '-', '-', 'c', '\n', '<', '\t', 't', '-', '-', '\n'] := by
    have hlong : ∀ d ∈ ['t', '-', '-'].head?, ∀ s : Sign, ¬ s.Written (['<'] ++ [d]) := by
      rintro d ⟨⟩ s hw
      exact absurd hw.pair (by decide)
    have hp : Piece _ _ ['<'] ['t', '-', '-'] := .sign (.symbol .less) hlong (by decide)
    exact .token (.between .nil .nil hcomment) hp (.inl rfl) hname
  have hrel : Relaid text.toList text'.toList := by
    have hstop : ∀ c ∈ ['<', 't', '-', '-'].head?, isWordChar c = false := by
      rintro c ⟨⟩
      rfl
    have hp : Piece _ _ ['i', 's'] ['<', 't', '-', '-'] :=
      .word (by decide) (List.forall_mem_singleton.2 (by decide)) hstop
    have hcase : Recased (.ofWord (.ofList ['i', 's'])) ['i', 's'] ['I', 's'] :=
      .inr ⟨⟨.IS, by decide⟩, by decide⟩
    have ht : text.toList = ['i', 's'] ++ ['<', 't', '-', '-'] := by decide
    have ht' : text'.toList =
        ['I', 's'] ++ [' ', '-', '-', 'c', '\n', '<', '\t', 't', '-', '-', '\n'] := by decide
    rw [ht, ht']
    exact .token (.refl .nil) hp hcase hsign
  exact ⟨hrel, parse_of_relaid hrel⟩

end DocBase.Sql
