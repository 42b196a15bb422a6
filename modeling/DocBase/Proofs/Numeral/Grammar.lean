import DocBase.Proofs.Numeral

namespace DocBase.Numeral

/-- A sign that may be missing, and whether it is a minus. -/
inductive Signed : List Char → Bool → Prop
  | absent : Signed [] false
  | plus : Signed ['+'] false
  | minus : Signed ['-'] true

/-- A point and the digits behind it, which may all be missing. -/
inductive Fractional : List Char → Option (List Char) → Prop
  | absent : Fractional [] none
  | point {digits : List Char} : (∀ c ∈ digits, c.isDigit) →
      Fractional ('.' :: digits) (some digits)

/-- An exponent that may be missing: its mark, a sign, and at least one digit. -/
inductive Exponential : List Char → Option Int → Prop
  | absent : Exponential [] none
  | marked {mark : Char} {sign digits : List Char} {negative : Bool} : mark = 'e' ∨ mark = 'E' →
      Signed sign negative → digits ≠ [] → (∀ c ∈ digits, c.isDigit) →
      Exponential (mark :: (sign ++ digits))
        (some (if negative then -(digitsValue digits : Int) else digitsValue digits))

/-- A numeral as it is written. There are digits on at least one side of the point. -/
inductive Written : List Char → Numeral → Prop
  | parts {sign tail scale : List Char} {n : Numeral} : Signed sign n.negative →
      (∀ c ∈ n.whole, c.isDigit) → Fractional tail n.fraction → Exponential scale n.exponent →
      n.whole ≠ [] ∨ n.fraction.getD [] ≠ [] → Written (sign ++ (n.whole ++ (tail ++ scale))) n

section
variable {cs rest sign digits tail scale : List Char} {negative : Bool}
  {fraction : Option (List Char)} {exponent : Option Int} {n : Numeral}

theorem digits_of_span (h : cs.span Char.isDigit = (digits, rest)) :
    (∀ c ∈ digits, c.isDigit) ∧ Ends rest ∧ cs = digits ++ rest := by
  rw [List.span_eq_takeWhile_dropWhile] at h
  cases h
  exact ⟨fun c hc => Text.of_mem_takeWhile hc, Text.stops_dropWhile Char.isDigit cs,
    List.takeWhile_append_dropWhile.symm⟩

theorem signed_of_scanSign (h : scanSign cs = (negative, rest)) :
    ∃ sign, Signed sign negative ∧ cs = sign ++ rest := by
  unfold scanSign at h
  split at h
  · cases h
    exact ⟨_, .minus, rfl⟩
  · cases h
    exact ⟨_, .plus, rfl⟩
  · cases h
    exact ⟨_, .absent, rfl⟩

theorem fractional_of_scanFraction (h : scanFraction cs = (fraction, rest)) :
    ∃ tail, Fractional tail fraction ∧ cs = tail ++ rest := by
  unfold scanFraction at h
  split at h
  · next behind =>
    cases h
    have hs : behind.span Char.isDigit = _ := rfl
    obtain ⟨hd, -, he⟩ := digits_of_span hs
    exact ⟨_, .point hd, congrArg ('.' :: ·) he⟩
  · cases h
    exact ⟨_, .absent, rfl⟩

theorem exponential_of_scanExponent? (h : scanExponent? cs = some (exponent, rest)) :
    ∃ scale, Exponential scale exponent ∧ cs = scale ++ rest := by
  cases cs with
  | nil =>
    cases h
    exact ⟨_, .absent, rfl⟩
  | cons mark behind =>
    rw [scanExponent?] at h
    split at h
    · next hm =>
      rcases hs : scanSign behind with ⟨negative, unsigned⟩
      rcases hd : unsigned.span Char.isDigit with ⟨digits, behind'⟩
      simp only [hs, hd] at h
      split at h
      · cases h
      · next hne =>
        cases h
        obtain ⟨sign, hsign, rfl⟩ := signed_of_scanSign hs
        obtain ⟨hdigits, -, rfl⟩ := digits_of_span hd
        refine ⟨_, .marked hm hsign (fun h => hne (List.isEmpty_iff.2 h)) hdigits, ?_⟩
        rw [List.cons_append, List.append_assoc]
    · cases h
      exact ⟨_, .absent, rfl⟩

theorem written_of_ofText? (h : ofText? cs = some n) : Written cs n := by
  rw [ofText?] at h
  rcases hs : scanSign cs with ⟨negative, unsigned⟩
  rcases hw : unsigned.span Char.isDigit with ⟨whole, behind⟩
  rcases hf : scanFraction behind with ⟨fraction, behind'⟩
  simp only [hs, hw, hf, Option.bind_eq_bind, Option.bind_eq_some_iff] at h
  obtain ⟨⟨exponent, last⟩, he, h⟩ := h
  obtain ⟨sign, hsign, rfl⟩ := signed_of_scanSign hs
  obtain ⟨hwhole, -, rfl⟩ := digits_of_span hw
  obtain ⟨tail, htail, rfl⟩ := fractional_of_scanFraction hf
  obtain ⟨scale, hscale, rfl⟩ := exponential_of_scanExponent? he
  split at h
  · next hc =>
    cases h
    rw [Bool.and_eq_true, Bool.not_eq_true', Bool.and_eq_false_iff, List.isEmpty_iff,
      List.isEmpty_eq_false_iff, List.isEmpty_eq_false_iff] at hc
    obtain ⟨rfl, hne⟩ := hc
    rw [List.append_nil]
    exact .parts (n := ⟨negative, whole, fraction, exponent⟩) hsign hwhole htail hscale hne
  · cases h

theorem Signed.scanSign_append (h : Signed sign negative)
    (hr : ∀ c ∈ rest.head?, c ≠ '-' ∧ c ≠ '+') : scanSign (sign ++ rest) = (negative, rest) := by
  cases h with
  | plus => rfl
  | minus => rfl
  | absent =>
    rw [List.nil_append]
    unfold scanSign
    split
    · exact absurd rfl (hr '-' rfl).1
    · exact absurd rfl (hr '+' rfl).2
    · rfl

theorem Exponential.ends (h : Exponential scale exponent) :
    ∀ c ∈ scale.head?, c.isDigit = false ∧ c ≠ '.' := by
  cases h with
  | absent => exact nofun
  | marked hm _ _ _ =>
    intro c hc
    cases hc
    rcases hm with rfl | rfl
    · exact ⟨rfl, by decide⟩
    · exact ⟨rfl, by decide⟩

theorem Fractional.scanFraction_append (h : Fractional tail fraction)
    (hr : ∀ c ∈ rest.head?, c.isDigit = false ∧ c ≠ '.') :
    scanFraction (tail ++ rest) = (fraction, rest) := by
  cases h with
  | point hd => exact scanFraction_point hd fun c hc => (hr c hc).1
  | absent =>
    rw [List.nil_append]
    unfold scanFraction
    split
    · exact absurd rfl (hr '.' rfl).2
    · rfl

theorem not_sign_of_isDigit {c : Char} (h : c.isDigit) : c ≠ '-' ∧ c ≠ '+' := by
  constructor
  · rintro rfl
    cases h
  · rintro rfl
    cases h

theorem Exponential.scanExponent? (h : Exponential scale exponent) :
    scanExponent? scale = some (exponent, []) := by
  cases h with
  | absent => rfl
  | @marked mark sign digits negative hm hs hne hd =>
    have hhead : ∀ c ∈ digits.head?, c ≠ '-' ∧ c ≠ '+' :=
      fun c hc => not_sign_of_isDigit (hd c (List.mem_of_mem_head? hc))
    have hspan := span_digits hd ends_nil
    rw [List.append_nil] at hspan
    rw [Numeral.scanExponent?, if_pos hm]
    simp only [hs.scanSign_append hhead, hspan, List.isEmpty_iff, hne, if_false]

theorem Fractional.ends_append (h : Fractional tail fraction) (hr : Ends rest) :
    Ends (tail ++ rest) := by
  cases h with
  | absent => exact hr
  | point _ => exact ends_point _

theorem Fractional.head_ne_sign (h : Fractional tail fraction) {whole : List Char}
    (hw : ∀ c ∈ whole, c.isDigit) (hne : whole ≠ [] ∨ fraction.getD [] ≠ []) :
    ∀ c ∈ (whole ++ (tail ++ rest)).head?, c ≠ '-' ∧ c ≠ '+' := by
  intro c hc
  cases whole with
  | cons d whole =>
    cases hc
    exact not_sign_of_isDigit (hw _ (.head _))
  | nil =>
    cases h with
    | absent => simp at hne
    | point _ =>
      cases hc
      decide

theorem Written.ofText? (h : Written cs n) : ofText? cs = some n := by
  obtain ⟨hs, hw, hf, he, hne⟩ := h
  have hends := hf.ends_append fun c hc => (he.ends c hc).1
  rw [Numeral.ofText?, hs.scanSign_append (hf.head_ne_sign hw hne)]
  simp only [span_digits hw hends, hf.scanFraction_append he.ends, he.scanExponent?,
    Option.bind_eq_bind, Option.bind_some]
  rw [if_pos]
  rw [Bool.and_eq_true, Bool.not_eq_true', Bool.and_eq_false_iff, List.isEmpty_eq_false_iff,
    List.isEmpty_eq_false_iff]
  exact ⟨rfl, hne⟩

/-- What is written by the grammar is read, and nothing else is. -/
theorem ofText?_eq_some_iff : ofText? cs = some n ↔ Written cs n :=
  ⟨written_of_ofText?, Written.ofText?⟩

def IsPart (c : Char) : Prop := c.isDigit ∨ c ∈ ['-', '+', '.', 'e', 'E']

instance : DecidablePred IsPart := fun c =>
  inferInstanceAs (Decidable (c.isDigit ∨ c ∈ ['-', '+', '.', 'e', 'E']))

theorem Signed.isPart (h : Signed sign negative) : ∀ c ∈ sign, IsPart c := by
  cases h with
  | absent => exact nofun
  | plus => simp [IsPart]
  | minus => simp [IsPart]

theorem Fractional.isPart (h : Fractional tail fraction) : ∀ c ∈ tail, IsPart c := by
  cases h with
  | absent => exact nofun
  | point hd =>
    intro c hc
    rcases List.mem_cons.1 hc with rfl | hc
    · exact .inr (by decide)
    · exact .inl (hd c hc)

theorem Exponential.isPart (h : Exponential scale exponent) : ∀ c ∈ scale, IsPart c := by
  cases h with
  | absent => exact nofun
  | marked hm hs _ hd =>
    intro c hc
    rcases List.mem_cons.1 hc with rfl | hc
    · exact .inr (by rcases hm with rfl | rfl <;> decide)
    · rcases List.mem_append.1 hc with hc | hc
      · exact hs.isPart c hc
      · exact .inl (hd c hc)

theorem Written.isPart (h : Written cs n) : ∀ c ∈ cs, IsPart c := by
  obtain ⟨hs, hw, hf, he, -⟩ := h
  intro c hc
  rcases List.mem_append.1 hc with hc | hc
  · exact hs.isPart c hc
  rcases List.mem_append.1 hc with hc | hc
  · exact .inl (hw c hc)
  rcases List.mem_append.1 hc with hc | hc
  · exact hf.isPart c hc
  · exact he.isPart c hc

theorem Written.ne_nil (h : Written cs n) : cs ≠ [] := by
  rintro rfl
  cases h.ofText?

end

end DocBase.Numeral
