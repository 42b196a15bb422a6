import DocBase.Proofs.Numeral.Grammar
import DocBase.Proofs.Text.Blank
import DocBase.Proofs.Value

namespace DocBase.Value

open Text

/-- One or more hexadecimal digits of a value that fits 64 bits. -/
structure Hexadecimal (digits : List Char) : Prop where
  ne_nil : digits ≠ []
  each : ∀ c ∈ digits, (hexDigit? c).isSome
  small : hexValue digits < UInt64.size

/-- The spellings of numbers, and the numbers they stand for. -/
inductive Numerical : List Char → Binary64 → Prop
  | empty : Numerical [] .zero
  | infinity {sign : List Char} {negative : Bool} : Numeral.Signed sign negative →
      Numerical (sign ++ "Infinity".toList) (.infinite negative)
  | hexadecimal {mark : Char} {digits : List Char} : mark = 'x' ∨ mark = 'X' →
      Hexadecimal digits → Numerical ('0' :: mark :: digits) (.ofInt (hexValue digits))
  | decimal {cs : List Char} {n : Numeral} : Numeral.Written cs n → Numerical cs n.toBinary64

/-- A plus between the prefix and the digits of a hexadecimal numeral. -/
inductive PlusHexadecimal : List Char → Binary64 → Prop
  | plus {mark : Char} {digits : List Char} : mark = 'x' ∨ mark = 'X' → Hexadecimal digits →
      PlusHexadecimal ('0' :: mark :: '+' :: digits) (.ofInt (hexValue digits))

variable {cs digits : List Char} {f : Binary64} {n : Nat} {s : String}

theorem foldlM_hexDigit?_eq_some_iff {start : Nat} :
    cs.foldlM (fun n c => (hexDigit? c).map (16 * n + ·)) start = some n ↔
      (∀ c ∈ cs, (hexDigit? c).isSome) ∧
        cs.foldl (fun n c => 16 * n + (hexDigit? c).getD 0) start = n := by
  induction cs generalizing start with
  | nil => simp
  | cons c cs ih =>
    rw [List.foldlM_cons]
    cases hc : hexDigit? c with
    | none => simp [hc]
    | some d => simp [hc, ih]

theorem unsigned_eq_some_iff :
    (if digits.isEmpty then none
      else do
        let n ← digits.foldlM (fun n c => (hexDigit? c).map (16 * n + ·)) 0
        if n < UInt64.size then some n else none) = some n ↔
      Hexadecimal digits ∧ hexValue digits = n := by
  constructor
  · intro h
    split at h
    · cases h
    · next hne =>
      obtain ⟨m, hm, h⟩ := Option.bind_eq_some_iff.1 h
      obtain ⟨heach, hvalue⟩ := foldlM_hexDigit?_eq_some_iff.1 hm
      split at h
      · next hlt =>
        cases h
        exact ⟨⟨fun h => hne (List.isEmpty_iff.2 h), heach, lt_of_eq_of_lt hvalue hlt⟩, hvalue⟩
      · cases h
  · rintro ⟨⟨hne, heach, hlt⟩, rfl⟩
    rw [if_neg (mt List.isEmpty_iff.1 hne)]
    refine Option.bind_eq_some_iff.2 ⟨_, foldlM_hexDigit?_eq_some_iff.2 ⟨heach, rfl⟩, ?_⟩
    exact if_pos hlt

theorem Hexadecimal.head_ne_plus (h : Hexadecimal digits) : digits.head? ≠ some '+' := by
  intro hp
  cases h.each '+' (List.mem_of_mem_head? hp)

theorem hexadecimal?_eq_some_iff_of_head_ne (h : cs.head? ≠ some '+') :
    hexadecimal? cs = some n ↔ Hexadecimal cs ∧ hexValue cs = n := by
  rw [hexadecimal?]
  · exact unsigned_eq_some_iff
  · rintro rest rfl
    exact h rfl

/-- Digits are read with and without a plus in front of them. -/
theorem hexadecimal?_eq_some_iff : hexadecimal? cs = some n ↔
    ∃ digits, (cs = digits ∨ cs = '+' :: digits) ∧ Hexadecimal digits ∧ hexValue digits = n := by
  constructor
  · intro h
    by_cases hp : cs.head? = some '+'
    · obtain ⟨digits, rfl⟩ := List.head?_eq_some_iff.1 hp
      exact ⟨digits, .inr rfl, unsigned_eq_some_iff.1 h⟩
    · exact ⟨cs, .inl rfl, (hexadecimal?_eq_some_iff_of_head_ne hp).1 h⟩
  · rintro ⟨digits, rfl | rfl, hd⟩
    · exact (hexadecimal?_eq_some_iff_of_head_ne hd.1.head_ne_plus).2 hd
    · exact unsigned_eq_some_iff.2 hd

theorem numerical_of_hexadecimal? {mark : Char} (hm : mark = 'x' ∨ mark = 'X')
    (h : (match hexadecimal? digits with
      | some n => Binary64.ofInt n
      | none => .nan) = f) (hf : f ≠ .nan) :
    Numerical ('0' :: mark :: digits) f ∨ PlusHexadecimal ('0' :: mark :: digits) f := by
  split at h
  · next n hn =>
    obtain ⟨digits, he, hd, rfl⟩ := hexadecimal?_eq_some_iff.1 hn
    rcases he with rfl | rfl
    · exact .inl (h ▸ .hexadecimal hm hd)
    · exact .inr (h ▸ .plus hm hd)
  · exact absurd h.symm hf

theorem numerical_of_numberOfText (h : numberOfText s = f) (hf : f ≠ .nan) :
    Numerical (trim s.toList) f ∨ PlusHexadecimal (trim s.toList) f := by
  unfold numberOfText at h
  split at h
  · next he =>
    rw [he]
    exact .inl (h ▸ .empty)
  · next digits he =>
    rw [he]
    exact numerical_of_hexadecimal? (.inl rfl) h hf
  · next digits he =>
    rw [he]
    exact numerical_of_hexadecimal? (.inr rfl) h hf
  · left
    split at h
    · next hi =>
      rcases hi with hi | hi
      · rw [hi]
        exact h ▸ .infinity .absent
      · rw [hi]
        exact h ▸ .infinity .plus
    split at h
    · next hi =>
      rw [hi]
      exact h ▸ .infinity .minus
    split at h
    · next n hn => exact h ▸ .decimal (Numeral.ofText?_eq_some_iff.1 hn)
    · exact absurd h.symm hf

theorem numberOfText_hexadecimal {mark : Char} (hs : trim s.toList = '0' :: mark :: digits)
    (hm : mark = 'x' ∨ mark = 'X') (h : hexadecimal? digits = some n) :
    numberOfText s = .ofInt n := by
  unfold numberOfText
  rcases hm with rfl | rfl
  · simp only [hs, h]
  · simp only [hs, h]

theorem numberOfText_decimal {numeral : Numeral} (h : Numeral.Written (trim s.toList) numeral) :
    numberOfText s = numeral.toBinary64 := by
  have habsent {c : Char} (hc : ¬ Numeral.IsPart c) : c ∉ trim s.toList :=
    fun hm => hc (h.isPart c hm)
  have hx : 'x' ∉ trim s.toList := habsent (by decide)
  have hX : 'X' ∉ trim s.toList := habsent (by decide)
  have hI : 'I' ∉ trim s.toList := habsent (by decide)
  unfold numberOfText
  split
  · next he => exact absurd he h.ne_nil
  · next he => exact absurd (he ▸ .tail _ (.head _)) hx
  · next he => exact absurd (he ▸ .tail _ (.head _)) hX
  · have hne {cs : List Char} (hm : 'I' ∈ cs) : trim s.toList ≠ cs := fun he => hI (he ▸ hm)
    rw [if_neg (not_or.2 ⟨hne (by decide), hne (by decide)⟩), if_neg (hne (by decide)), h.ofText?]

theorem Numerical.numberOfText_eq (h : Numerical (trim s.toList) f) : numberOfText s = f := by
  generalize hs : trim s.toList = cs at h
  cases h with
  | empty => simp only [numberOfText, hs]
  | infinity hsign =>
    unfold numberOfText
    rw [hs]
    cases hsign <;> rfl
  | hexadecimal hm hd =>
    exact numberOfText_hexadecimal hs hm (hexadecimal?_eq_some_iff.2 ⟨_, .inl rfl, hd, rfl⟩)
  | decimal hw =>
    subst hs
    exact numberOfText_decimal hw

theorem PlusHexadecimal.numberOfText_eq (h : PlusHexadecimal (trim s.toList) f) :
    numberOfText s = f := by
  generalize hs : trim s.toList = cs at h
  cases h with
  | plus hm hd =>
    exact numberOfText_hexadecimal hs hm (hexadecimal?_eq_some_iff.2 ⟨_, .inr rfl, hd, rfl⟩)

theorem not_isBlank_of_hexDigit? {c : Char} (h : (hexDigit? c).isSome) : isBlank c = false := by
  rw [Bool.eq_false_iff]
  intro hb
  have hn : (hexDigit? c).isSome = false :=
    eq_false_of_isBlank (p := fun c => (hexDigit? c).isSome) (by decide) hb
  exact Bool.false_ne_true (hn.symm.trans h)

theorem not_isBlank_of_isPart {c : Char} (h : Numeral.IsPart c) : isBlank c = false := by
  rw [Bool.eq_false_iff]
  intro hb
  have hn : decide (Numeral.IsPart c) = false :=
    eq_false_of_isBlank (p := fun c => decide (Numeral.IsPart c)) (by decide) hb
  exact of_decide_eq_false hn h

theorem not_isBlank_of_prefixed {mark : Char} (hm : mark = 'x' ∨ mark = 'X') {cs : List Char}
    (h : ∀ c ∈ cs, isBlank c = false) : ∀ c ∈ '0' :: mark :: cs, isBlank c = false := by
  rcases hm with rfl | rfl
  · exact List.forall_mem_cons.2 ⟨by decide, List.forall_mem_cons.2 ⟨by decide, h⟩⟩
  · exact List.forall_mem_cons.2 ⟨by decide, List.forall_mem_cons.2 ⟨by decide, h⟩⟩

theorem Numerical.not_isBlank (h : Numerical cs f) : ∀ c ∈ cs, isBlank c = false := by
  cases h with
  | empty => exact nofun
  | @infinity sign _ hs =>
    have hall : (sign ++ "Infinity".toList).all fun c => !isBlank c := by
      cases hs <;> decide
    intro c hc
    simpa using List.all_eq_true.1 hall c hc
  | hexadecimal hm hd =>
    exact not_isBlank_of_prefixed hm fun c hc => not_isBlank_of_hexDigit? (hd.each c hc)
  | decimal hw => exact fun c hc => not_isBlank_of_isPart (hw.isPart c hc)

theorem PlusHexadecimal.not_isBlank (h : PlusHexadecimal cs f) :
    ∀ c ∈ cs, isBlank c = false := by
  cases h with
  | plus hm hd =>
    refine not_isBlank_of_prefixed hm (List.forall_mem_cons.2 ⟨by decide, ?_⟩)
    exact fun c hc => not_isBlank_of_hexDigit? (hd.each c hc)

theorem Numerical.ne_nan (h : Numerical cs f) : f ≠ .nan := by
  cases h with
  | empty => exact Binary64.ofRank_ne_nan _ _
  | infinity _ => exact nofun
  | hexadecimal _ _ => exact Binary64.ofInt_ne_nan _
  | decimal _ => exact Binary64.ofDecimal_ne_nan _ _ _

theorem PlusHexadecimal.ne_nan (h : PlusHexadecimal cs f) : f ≠ .nan := by
  cases h with
  | plus _ _ => exact Binary64.ofInt_ne_nan _

theorem PlusHexadecimal.not_numerical {g : Binary64} (h : PlusHexadecimal cs f) :
    ¬ Numerical cs g := by
  intro hn
  obtain ⟨hm, -⟩ := h
  generalize hs : '0' :: _ :: '+' :: _ = cs at hn
  cases hn with
  | empty => cases hs
  | infinity hsign => cases hsign <;> simp at hs
  | hexadecimal _ hd =>
    cases hs
    exact hd.head_ne_plus rfl
  | decimal hw =>
    subst hs
    have hpart := hw.isPart _ (.tail _ (.head _))
    rcases hm with rfl | rfl
    · exact absurd hpart (by decide)
    · exact absurd hpart (by decide)

/-- A text is a number exactly when there is the spelling of one between the blanks around it, or
hexadecimal digits with a plus in front of them. -/
theorem text_toNumber_eq_iff (s : String) (f : Binary64) :
    (text s).toNumber = f ∧ f ≠ .nan ↔
      ∃ core, Framed core s.toList ∧ (Numerical core f ∨ PlusHexadecimal core f) := by
  constructor
  · rintro ⟨h, hf⟩
    exact ⟨trim s.toList, framed_trim _, numerical_of_numberOfText h hf⟩
  · rintro ⟨core, hframed, h | h⟩
    · rw [← hframed.trim_eq h.not_isBlank] at h
      exact ⟨h.numberOfText_eq, h.ne_nan⟩
    · rw [← hframed.trim_eq h.not_isBlank] at h
      exact ⟨h.numberOfText_eq, h.ne_nan⟩

/-- Behind the prefix a plus is skipped, unlike a minus. -/
theorem text_toNumber_of_plus_hexadecimal :
    (text "0x+1F").toNumber = .ofInt 31 ∧ (text "0x-1F").toNumber = .nan ∧
      ¬ ∃ core f, Framed core "0x+1F".toList ∧ Numerical core f := by
  refine ⟨by decide +kernel, by decide +kernel, ?_⟩
  rintro ⟨core, f, hframed, h⟩
  have hcore : core = "0x+1F".toList := by
    rw [← hframed.trim_eq h.not_isBlank]
    decide
  have hplus : PlusHexadecimal core (.ofInt 31) := by
    have heach : ∀ c ∈ ['1', 'F'], (hexDigit? c).isSome := List.all_eq_true.1 (by decide)
    have hdigits : Hexadecimal ['1', 'F'] := ⟨by decide, heach, by decide⟩
    rw [hcore]
    exact .plus (.inl rfl) hdigits
  exact hplus.not_numerical h

end DocBase.Value
