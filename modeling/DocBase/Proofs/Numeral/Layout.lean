import DocBase.Proofs.Numeral.Scaling

namespace DocBase

namespace Decimal

def scientificNumeral (negative : Bool) (d : Decimal) : Numeral :=
  match d.digitChars with
  | first :: second :: rest => ⟨negative, [first], some (second :: rest), some (d.pointPlace - 1)⟩
  | digits => ⟨negative, digits, none, some (d.pointPlace - 1)⟩

/-- The numeral that is written for a decimal, taken apart as it is read. -/
def numeral (negative : Bool) (d : Decimal) : Numeral :=
  if -5 < d.pointPlace ∧ d.pointPlace ≤ 16 then
    if 0 ≤ d.exponent then
      ⟨negative, d.digitChars ++ .replicate d.exponent.toNat '0', some ['0'], none⟩
    else if 0 < d.pointPlace then
      ⟨negative, d.digitChars.take d.pointPlace.toNat,
        some (d.digitChars.drop d.pointPlace.toNat), none⟩
    else ⟨negative, ['0'], some (.replicate d.pointPlace.natAbs '0' ++ d.digitChars), none⟩
  else d.scientificNumeral negative

theorem length_digitChars_pos (d : Decimal) : 0 < d.digitChars.length := Nat.length_toDigits_pos

theorem digitsValue_digitChars (d : Decimal) : digitsValue d.digitChars = d.digits :=
  digitsValue_toDigits d.digits

theorem isDigit_of_mem_digitChars {d : Decimal} {c : Char} (h : c ∈ d.digitChars) : c.isDigit :=
  isDigit_of_mem_toDigits h

theorem digitsValue_take_drop (d : Decimal) (n : Nat) :
    digitsValue (d.digitChars.take n ++ d.digitChars.drop n) = d.digits := by
  rw [List.take_append_drop, digitsValue_digitChars]

theorem scientificNumeral_cases (negative : Bool) (d : Decimal) :
    ∃ first rest, d.digitChars = first :: rest ∧ d.scientificNumeral negative =
      ⟨negative, [first], if rest.isEmpty then none else some rest, some (d.pointPlace - 1)⟩ := by
  cases hds : d.digitChars with
  | nil => exact absurd hds Nat.toDigits_ne_nil
  | cons first rest =>
    refine ⟨first, rest, rfl, ?_⟩
    rw [scientificNumeral, hds]
    cases rest <;> rfl

theorem toBinary64_scientificNumeral (negative : Bool) (d : Decimal) :
    (d.scientificNumeral negative).toBinary64 = .ofDecimal negative d.digits d.exponent := by
  have hlen : d.pointPlace = d.digitChars.length + d.exponent := rfl
  have hv := digitsValue_digitChars d
  obtain ⟨first, rest, hds, hn⟩ := scientificNumeral_cases negative d
  have hfraction : (if rest.isEmpty then none else some rest).getD [] = rest := by
    cases rest <;> rfl
  have hexp : d.pointPlace - 1 - rest.length = d.exponent := by
    rw [hlen, hds, List.length_cons]
    omega
  rw [hds] at hv
  simp only [hn, Numeral.toBinary64, hfraction, Option.getD_some, List.singleton_append, hv, hexp]

theorem toBinary64_numeral (negative : Bool) (d : Decimal) :
    (d.numeral negative).toBinary64 = .ofDecimal negative d.digits d.exponent := by
  have hlen : d.pointPlace = d.digitChars.length + d.exponent := rfl
  rw [numeral]
  split
  · next hp =>
    split
    · next he =>
      have hv : digitsValue (d.digitChars ++ List.replicate d.exponent.toNat '0' ++ ['0']) =
          d.digits * 10 ^ d.exponent.toNat * 10 := by
        have hone (cs : List Char) : digitsValue (cs ++ ['0']) = digitsValue cs * 10 ^ 1 :=
          digitsValue_append_zeros cs 1
        rw [hone, digitsValue_append_zeros, digitsValue_digitChars, Nat.pow_one]
      have hexp : (d.exponent.toNat : Int) = d.exponent := Int.toNat_of_nonneg he
      have hz := Binary64.ofDecimal_point_zero negative d.digits
        (show d.exponent.toNat < 310 by omega)
      rw [hexp] at hz
      simp only [Numeral.toBinary64, Option.getD_some, Option.getD_none, hv]
      exact hz
    split
    · have hexp : (0 : Int) - (d.digitChars.drop d.pointPlace.toNat).length = d.exponent := by
        rw [List.length_drop]
        omega
      simp only [Numeral.toBinary64, Option.getD_some, Option.getD_none, hexp,
        digitsValue_take_drop]
    · have hexp : (0 : Int) - (List.replicate d.pointPlace.natAbs '0' ++ d.digitChars).length =
          d.exponent := by
        rw [List.length_append, List.length_replicate]
        omega
      have hv : digitsValue (['0'] ++ (List.replicate d.pointPlace.natAbs '0' ++ d.digitChars)) =
          d.digits := by
        rw [← digitsValue_digitChars d, ← digitsValue_zeros_append d.pointPlace.natAbs d.digitChars]
        exact digitsValue_zeros_append 1 _
      simp only [Numeral.toBinary64, Option.getD_some, Option.getD_none, hexp, hv]
  · exact toBinary64_scientificNumeral negative d

theorem digitsValue_whole_numeral_lt (negative : Bool) (d : Decimal) :
    digitsValue (d.numeral negative).whole < 2 ^ 64 := by
  have hlen : d.pointPlace = d.digitChars.length + d.exponent := rfl
  have hfits {cs : List Char} (hd : ∀ c ∈ cs, c.isDigit) (hc : cs.length ≤ 16) :
      digitsValue cs < 2 ^ 64 := by
    calc digitsValue cs < 10 ^ cs.length := digitsValue_lt hd
      _ ≤ 10 ^ 16 := Nat.pow_le_pow_right (by decide) hc
      _ ≤ 2 ^ 64 := by decide
  rw [numeral]
  split
  · next hp =>
    split
    · apply hfits
      · intro c hc
        rcases List.mem_append.1 hc with hc | hc
        · exact isDigit_of_mem_digitChars hc
        · rw [List.eq_of_mem_replicate hc]
          rfl
      · rw [List.length_append, List.length_replicate]
        omega
    split
    · apply hfits
      · intro c hc
        exact isDigit_of_mem_digitChars (List.mem_of_mem_take hc)
      · rw [List.length_take]
        omega
    · exact Nat.two_pow_pos 64
  · obtain ⟨first, rest, hds, hn⟩ := scientificNumeral_cases negative d
    rw [hn]
    apply hfits
    · intro c hc
      rw [List.mem_singleton.1 hc]
      have hfirst : first ∈ d.digitChars := hds ▸ .head rest
      exact isDigit_of_mem_digitChars hfirst
    · exact Nat.le_of_ble_eq_true rfl

theorem negative_numeral (negative : Bool) (d : Decimal) :
    (d.numeral negative).negative = negative := by
  obtain ⟨first, rest, -, hn⟩ := scientificNumeral_cases negative d
  rw [numeral, hn]
  split_ifs <;> rfl

theorem numeral_parts (negative : Bool) (d : Decimal) :
    ¬ ((d.numeral negative).fraction.isNone ∧ (d.numeral negative).exponent.isNone) := by
  obtain ⟨first, rest, -, hn⟩ := scientificNumeral_cases negative d
  rw [numeral, hn]
  split_ifs <;> simp

end Decimal

namespace Binary64

/-- What is read where a finite number was written. -/
def reread : Binary64 → Binary64
  | finite negative rank => ((shortest .even rank).numeral negative).scaled
  | f => f

/-- The greatest number aside, its decimal is less than half a step away. -/
theorem isFinite_reread {f : Binary64} (h : f.isFinite) : f.reread.isFinite := by
  cases f with
  | nan => cases h
  | infinite negative => cases h
  | finite negative rank =>
    by_cases hr : rank.val + 1 < finiteMagnitudes
    · refine Numeral.isFinite_scaled (Decimal.digitsValue_whole_numeral_lt _ _) ?_ hr
      rw [Decimal.toBinary64_numeral, Decimal.negative_numeral]
      exact ofDecimal_shortest_finite .even rank negative
    · have hlast : rank.val = finiteMagnitudes - 1 := by omega
      have hshortest : shortest .even (finiteMagnitudes - 1) = ⟨17976931348623157, 292⟩ := by
        decide +kernel
      rw [reread, hlast, hshortest]
      cases negative <;> decide +kernel

theorem reread_of_small {negative : Bool} {rank : Fin finiteMagnitudes}
    (hd : digitsValue ((shortest .even rank).numeral negative).digits ≤ 2 ^ 53)
    (hp : ((shortest .even rank).numeral negative).lastPlace.natAbs ≤ 22) :
    (finite negative rank).reread = finite negative rank := by
  rw [reread, Numeral.scaled_eq_toBinary64 hd hp, Decimal.toBinary64_numeral,
    ofDecimal_shortest_finite]

end Binary64

end DocBase
