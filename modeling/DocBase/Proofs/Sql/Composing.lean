import DocBase.Proofs.Sql.Places
import DocBase.Proofs.Sql.Relaying

namespace DocBase.Sql

/-- A kind of tokens that stand for something, neither for an error nor for the end. -/
structure TokenKind.Proper (k : TokenKind) : Prop where
  legal : k ≠ .illegal
  word : k ≠ .endOfText

/-- A token that is written with a blank behind it. -/
def Token.Writable (t : Token) : Prop :=
  ∃ piece, ∀ rest, Piece t.kind t.literal piece (' ' :: rest)

theorem startsLike_blank (cs rest : List Char) : StartsLike cs (' ' :: rest) := by
  rintro c ⟨⟩
  exact .inl rfl

theorem Piece.before_blank {kind : TokenKind} {literal : String} {piece rest : List Char}
    (h : Piece kind literal piece rest) (rest' : List Char) :
    Piece kind literal piece (' ' :: rest') :=
  h.startsLike (startsLike_blank rest rest') nofun

theorem Piece.writable {kind : TokenKind} {literal : String} {piece rest : List Char}
    (h : Piece kind literal piece rest) (p : Position) : Token.Writable ⟨kind, literal, p⟩ :=
  ⟨piece, h.before_blank⟩

theorem Cut.writable {before cs : List Char} {ts : List Token} (h : Cut before cs ts) {t : Token}
    (ht : t ∈ ts) (hk : t.kind.Proper) : t.Writable := by
  induction h with
  | ending _ =>
    rw [List.mem_singleton.1 ht] at hk
    exact absurd rfl hk.word
  | token _ hp _ ih =>
    rcases List.mem_cons.1 ht with rfl | ht
    · exact hp.writable _
    · exact ih ht
  | unterminated _ _ =>
    rcases List.mem_cons.1 ht with rfl | ht
    · exact absurd rfl hk.legal
    · rw [List.mem_singleton.1 ht] at hk
      exact absurd rfl hk.word

theorem writable_of_mem_tokens {text : String} {t : Token} (ht : t ∈ tokens text)
    (hk : t.kind.Proper) : t.Writable :=
  (cut_tokensFrom [] text.toList).writable ht hk

theorem exists_cut_alike {ts : List Token} (h : ∀ t ∈ ts, t.Writable) (before : List Char) :
    ∃ cs us e, Cut before (' ' :: cs) (us ++ [e]) ∧ AllAlike ts us := by
  have hgap (last : Bool) : Gap last [' '] := .blank rfl .nil
  induction ts generalizing before with
  | nil => exact ⟨[], [], _, .ending (hgap true), .nil⟩
  | cons t ts ih =>
    obtain ⟨piece, hp⟩ := h t (.head _)
    obtain ⟨cs, us, e, hcut, ha⟩ := ih (fun t ht => h t (.tail _ ht)) (before ++ [' '] ++ piece)
    exact ⟨piece ++ ' ' :: cs, _ :: us, e, .token (hgap false) (hp cs) hcut, .cons ⟨rfl, rfl⟩ ha⟩

/-- Tokens that can be written are those of a text, but for their places. -/
theorem exists_words_alike {ts : List Token} (h : ∀ t ∈ ts, t.Writable) :
    ∃ text, AllAlike ts (words text) := by
  obtain ⟨cs, us, e, hcut, ha⟩ := exists_cut_alike h []
  refine ⟨.ofList (' ' :: cs), ?_⟩
  have htokens : tokens (.ofList (' ' :: cs)) = us ++ [e] := by
    rw [tokens, String.toList_ofList]
    exact (cut_iff_tokensFrom.1 hcut).symm
  rwa [words_eq htokens]

theorem lastColumn_append {cs more : List Char} (h : '\n' ∉ more) :
    lastColumn (cs ++ more) = lastColumn cs + more.length := by
  have hall : ∀ c ∈ more.reverse, decide (c ≠ '\n') := by
    intro c hc
    exact decide_eq_true fun he => h (he ▸ List.mem_reverse.1 hc)
  rw [lastColumn, List.reverse_append, List.takeWhile_append_of_pos hall, List.length_append,
    List.length_reverse, Nat.add_comm]
  rfl

theorem placeBehind_append_ne {more : List Char} (h : more ≠ []) (cs : List Char) :
    placeBehind (cs ++ more) ≠ placeBehind cs := by
  intro he
  obtain ⟨hline, hcolumn⟩ := Position.mk.inj he
  rw [List.count_append] at hline
  have hnone : '\n' ∉ more := List.count_eq_zero.1 (by omega)
  have hpos := List.length_pos_iff.2 h
  rw [lastColumn_append hnone] at hcolumn
  omega

theorem Piece.kind_ne {kind : TokenKind} {literal : String} {piece rest : List Char}
    (h : Piece kind literal piece rest) : kind ≠ .endOfText := by
  intro he
  cases h with
  | @word c cs _ _ _ _ =>
    rw [TokenKind.ofWord] at he
    cases hk : Keyword.ofWord? (.ofList (c :: cs)) with
    | some _ | none =>
      rw [hk] at he
      cases he
  | _ => cases he

theorem Cut.place {before cs : List Char} {ts : List Token} (h : Cut before cs ts) {t : Token}
    (ht : t ∈ ts) (hk : t.kind ≠ .endOfText) :
    ∃ more, t.position = placeBehind (before ++ more) := by
  induction h with
  | ending _ =>
    rw [List.mem_singleton.1 ht] at hk
    exact absurd rfl hk
  | @token before gap piece _ _ _ _ _ _ _ ih =>
    rcases List.mem_cons.1 ht with rfl | ht
    · exact ⟨gap, rfl⟩
    · obtain ⟨more, hm⟩ := ih ht
      exact ⟨gap ++ (piece ++ more), by rw [hm, List.append_assoc, List.append_assoc]⟩
  | @unterminated before gap _ _ _ _ =>
    rcases List.mem_cons.1 ht with rfl | ht
    · exact ⟨gap, rfl⟩
    · rw [List.mem_singleton.1 ht] at hk
      exact absurd rfl hk

theorem Cut.nodup {before cs : List Char} {ts : List Token} (h : Cut before cs ts) : ts.Nodup := by
  induction h with
  | ending _ => exact List.pairwise_singleton _ _
  | @token before gap piece rest kind literal ts _ hp hrest ih =>
    refine List.nodup_cons.2 ⟨fun hm => ?_, ih⟩
    obtain ⟨more, hplace⟩ := hrest.place hm hp.kind_ne
    rw [List.append_assoc] at hplace
    have hne : piece ++ more ≠ [] := List.append_ne_nil_of_left_ne_nil hp.ne_nil more
    exact placeBehind_append_ne hne _ hplace.symm
  | unterminated _ _ =>
    refine List.nodup_cons.2 ⟨fun hm => ?_, List.pairwise_singleton _ _⟩
    cases List.mem_singleton.1 hm

theorem nodup_tokens (text : String) : (tokens text).Nodup :=
  (cut_tokensFrom [] text.toList).nodup

/-- A kind that is expected by itself and that a token can be written with. -/
structure TokenKind.Usual (k : TokenKind) : Prop where
  exact : k.Exact
  legal : k ≠ .illegal
  written : ∃ t : Token, t.kind = k ∧ t.Writable

theorem Token.exists_writable {kind : TokenKind} {literal : String} {piece : List Char}
    (h : Piece kind literal piece [' ']) : ∃ t : Token, t.kind = kind ∧ t.Writable :=
  ⟨_, rfl, h.writable .start⟩

theorem exists_writable_name :
    ∃ (t : Token) (name : String), t.kind = .identifier name ∧ t.Writable := by
  obtain ⟨t, hk, ht⟩ := Token.exists_writable (@Piece.name ['a'] [' '] nofun)
  exact ⟨t, _, hk, ht⟩

theorem exists_writable_integer : ∃ t : Token, t.IsInteger ['0'] ∧ t.Writable := by
  have hdigits : ∀ d ∈ ['0'], d.isDigit := List.forall_mem_singleton.2 rfl
  have hstop : ∀ d ∈ [' '].head?, d.isDigit = false := by
    rintro d ⟨⟩
    rfl
  have hp : Piece .integer (.ofList ['0']) ['0'] [' '] :=
    .integer (List.cons_ne_nil _ _) hdigits hstop nofun
  exact ⟨_, ⟨rfl, String.toList_ofList, List.cons_ne_nil _ _, hdigits⟩, hp.writable .start⟩

namespace TokenKind.Usual

theorem proper {k : TokenKind} (h : k.Usual) : k.Proper where
  legal := h.legal
  word := by
    obtain ⟨t, rfl, piece, hp⟩ := h.written
    exact (hp []).kind_ne

theorem keyword (k : Keyword) : Usual (.keyword k) where
  exact := .keyword k
  legal := nofun
  written := by
    have hne : k.spelling.toList ≠ [] := by
      cases k <;> decide
    obtain ⟨c, cs, hc⟩ := List.exists_cons_of_ne_nil hne
    have hletter {d : Char} (hd : d ∈ c :: cs) : Text.isLetter d :=
      isLetter_of_mem_spelling (hc ▸ hd)
    have hw : ∀ d ∈ cs, isWordChar d := fun d hd => by
      rw [isWordChar, hletter (.tail _ hd), Bool.true_or]
    have hstop : ∀ d ∈ [' '].head?, isWordChar d = false := by
      rintro d ⟨⟩
      exact isWordChar_of_isBlank rfl
    have hp : Piece (.ofWord (.ofList (c :: cs))) _ _ [' '] := .word (hletter (.head _)) hw hstop
    have hkind : TokenKind.ofWord (.ofList (c :: cs)) = .keyword k := by
      rw [← hc, String.ofList_toList]
      cases k <;> rfl
    rw [hkind] at hp
    exact Token.exists_writable hp

theorem sign (s : Sign) : Usual (.sign s) where
  exact := .sign s
  legal := nofun
  written := by
    have hlong : ∀ d ∈ [' '].head?, ∀ s' : Sign, ¬ s'.Written (s.symbol ++ [d]) := by
      rintro d ⟨⟩ s' hw
      have hb := (hw.plain ' ' (by simp)).1
      cases hb
    have hp : Piece (.sign s) (.ofList s.symbol) s.symbol [' '] := by
      apply Piece.sign (.symbol s) hlong
      cases s <;> decide
    exact Token.exists_writable hp

theorem integer : Usual .integer where
  exact := .integer
  legal := nofun
  written := by
    obtain ⟨t, ht, hw⟩ := exists_writable_integer
    exact ⟨t, ht.1, hw⟩

end TokenKind.Usual

end DocBase.Sql
