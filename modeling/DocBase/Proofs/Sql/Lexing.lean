import DocBase.Proofs.Sql.Reading

namespace DocBase.Sql

namespace Lexeme

/-- A lexeme that is no end mark and holds its digits if it is a number, wherever it stands. -/
def Sound (lexeme : Lexeme) : Prop :=
  lexeme.kind ≠ .endOfText ∧ ∀ p : Position, (⟨lexeme.kind, lexeme.literal, p⟩ : Token).Lexed

theorem Sound.of_other {lexeme : Lexeme} (he : lexeme.kind ≠ .endOfText)
    (hi : lexeme.kind ≠ .integer) (hf : lexeme.kind ≠ .float) : lexeme.Sound :=
  ⟨he, fun _ => ⟨fun h => absurd h hi, fun h => absurd h hf⟩⟩

theorem mem_takeWhile_isDigit {c d : Char} {cs : List Char} (hc : c.isDigit)
    (hd : d ∈ c :: cs.takeWhile Char.isDigit) : d.isDigit := by
  rcases List.mem_cons.1 hd with rfl | hd
  · exact hc
  · exact List.all_eq_true.1 List.all_takeWhile d hd

theorem sound_integer {c : Char} {cs rest : List Char} (hc : c.isDigit) :
    (⟨.integer, .ofList (c :: cs.takeWhile Char.isDigit), rest⟩ : Lexeme).Sound := by
  refine ⟨nofun, ?_⟩
  intro p
  refine ⟨?_, nofun⟩
  intro _
  refine ⟨c :: cs.takeWhile Char.isDigit, rfl, String.toList_ofList, List.cons_ne_nil _ _, ?_⟩
  intro d hd
  exact mem_takeWhile_isDigit hc hd

theorem sound_float {c d : Char} {cs ds rest : List Char} (hc : c.isDigit) (hd : d.isDigit) :
    (⟨.float, .ofList (c :: cs.takeWhile Char.isDigit ++ '.' :: d :: ds.takeWhile Char.isDigit),
      rest⟩ : Lexeme).Sound := by
  refine ⟨nofun, ?_⟩
  intro p
  refine ⟨nofun, ?_⟩
  intro _
  refine ⟨c :: cs.takeWhile Char.isDigit, d :: ds.takeWhile Char.isDigit, rfl,
    String.toList_ofList, List.cons_ne_nil _ _, List.cons_ne_nil _ _, ?_⟩
  intro e he
  rcases List.mem_append.1 he with he | he
  · exact mem_takeWhile_isDigit hc he
  · exact mem_takeWhile_isDigit hd he

theorem sound_ofNumber {c : Char} (hc : c.isDigit) (cs : List Char) : (ofNumber c cs).Sound := by
  simp only [ofNumber]
  split
  · split
    · next hd => exact sound_float hc hd
    · exact sound_integer hc
  · exact sound_integer hc

theorem sound_ofWord (word rest : List Char) : (ofWord word rest).Sound := by
  simp only [ofWord]
  split <;> exact .of_other (by simp) (by simp) (by simp)

theorem sound_ofString (quote : Char) (cs : List Char) : (ofString quote cs).Sound := by
  simp only [ofString]
  split <;> exact .of_other (by simp) (by simp) (by simp)

theorem sound_ofQuotedName (cs : List Char) : (ofQuotedName cs).Sound := by
  simp only [ofQuotedName]
  split <;> exact .of_other (by simp) (by simp) (by simp)

theorem sound_of_sign? {c : Char} {cs : List Char} {lexeme : Lexeme}
    (h : sign? c cs = some lexeme) : lexeme.Sound := by
  unfold sign? at h
  split at h <;> cases h <;> exact .of_other (by simp) (by simp) (by simp)

theorem sound_read (c : Char) (cs : List Char) : (read c cs).Sound := by
  simp only [read]
  split
  · next h => exact sound_of_sign? h
  · split
    · exact sound_ofString c cs
    · split
      · exact sound_ofQuotedName cs
      · split
        · exact sound_ofWord _ _
        · split
          · next hc => exact sound_ofNumber hc cs
          · exact .of_other (by simp) (by simp) (by simp)

end Lexeme

/-- Tokens of which the last one and no other marks the end of the text. -/
def Ended (ts : List Token) : Prop :=
  ∃ us e, ts = us ++ [e] ∧ e.kind = .endOfText ∧ ∀ t ∈ us, t.kind ≠ .endOfText

theorem tokensFrom_spec (p : Position) (cs : List Char) :
    Ended (tokensFrom p cs) ∧ ∀ t ∈ tokensFrom p cs, t.Lexed := by
  fun_induction tokensFrom p cs with
  | case1 p cs q h =>
    refine ⟨⟨[], _, rfl, rfl, nofun⟩, ?_⟩
    intro t ht
    obtain rfl := List.mem_singleton.1 ht
    exact ⟨nofun, nofun⟩
  | case2 p cs q c rest h lexeme ih =>
    have hs : lexeme.Sound := Lexeme.sound_read c rest
    obtain ⟨⟨us, e, hus, he, hn⟩, hl⟩ := ih
    constructor
    · refine ⟨_ :: us, e, congrArg (List.cons _) hus, he, ?_⟩
      intro t ht
      rcases List.mem_cons.1 ht with rfl | ht
      · exact hs.1
      · exact hn t ht
    · intro t ht
      rcases List.mem_cons.1 ht with rfl | ht
      · exact hs.2 _
      · exact hl t ht

/-- The tokens of a text up to the one that marks its end. -/
def words (text : String) : List Token := (tokens text).takeWhile fun t => t.kind ≠ .endOfText

theorem tokens_eq (text : String) :
    ∃ e, tokens text = words text ++ [e] ∧ e.kind = .endOfText := by
  obtain ⟨us, e, h, he, hn⟩ := (tokensFrom_spec .start text.toList).1
  have hw : words text = us := by
    rw [words, tokens, h, List.takeWhile_append_of_pos fun t ht => decide_eq_true (hn t ht),
      List.takeWhile_cons_of_neg (by simp [he]), List.append_nil]
  exact ⟨e, by rw [hw, tokens, h], he⟩

theorem lexed_of_mem_tokens {text : String} {t : Token} (h : t ∈ tokens text) : t.Lexed :=
  (tokensFrom_spec .start text.toList).2 t h

theorem kind_of_mem_words {text : String} {t : Token} (h : t ∈ words text) :
    t.kind ≠ .endOfText :=
  of_decide_eq_true (List.all_eq_true.1 List.all_takeWhile t h)

end DocBase.Sql
