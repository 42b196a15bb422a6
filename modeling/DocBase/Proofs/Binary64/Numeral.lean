import DocBase.Proofs.Binary64.Shortest
import DocBase.Proofs.Numeral

namespace DocBase

/-- Digits before and behind a point that stand for a number, with its sign before them. -/
structure IsNumeral (negative : Bool) (f : Binary64) (whole fraction : List Char) : Prop where
  whole_ne : whole ≠ []
  fraction_ne : fraction ≠ []
  digits : ∀ c ∈ whole ++ fraction, c.isDigit
  value : .ofDecimal negative (digitsValue (whole ++ fraction)) (-fraction.length) = f

namespace Binary64

def isNegative : Binary64 → Bool
  | nan => false
  | infinite negative => negative
  | finite negative _ => negative

/-- Digits before and behind a point for the magnitude of a number. -/
def numeral : Binary64 → List Char × List Char
  | nan => ([], [])
  | infinite _ => ('1' :: .replicate 309 '0', ['0'])
  | finite _ rank =>
    let d := shortest .up rank
    if 0 ≤ d.exponent then (d.digitChars ++ .replicate d.exponent.toNat '0', ['0'])
    else
      let places := d.exponent.natAbs
      let digits := .replicate (places + 1 - d.digitChars.length) '0' ++ d.digitChars
      digits.splitAt (digits.length - places)

theorem exponent_lt_of_finite {negative : Bool} {digits exponent : Nat}
    {rank : Fin finiteMagnitudes} (hd : digits ≠ 0)
    (h : ofDecimal negative digits exponent = finite negative rank) : exponent < 310 := by
  by_cases he : exponent < 310
  · exact he
  · rw [ofDecimal, if_neg hd, if_pos (Int.natCast_nonneg _), if_pos (by omega)] at h
    cases h

theorem isNumeral_infinite (negative : Bool) :
    IsNumeral negative (infinite negative) ('1' :: .replicate 309 '0') ['0'] where
  whole_ne := List.cons_ne_nil _ _
  fraction_ne := List.cons_ne_nil _ _
  digits := List.all_eq_true.1 (by decide +kernel)
  value := by cases negative <;> decide +kernel

theorem isNumeral_integral {negative : Bool} {d : Decimal} {exponent : Nat}
    {rank : Fin finiteMagnitudes} (he : d.exponent = exponent)
    (h : ofDecimal negative d.digits d.exponent = finite negative rank) :
    IsNumeral negative (finite negative rank) (d.digitChars ++ .replicate exponent '0') ['0'] where
  whole_ne := List.append_ne_nil_of_left_ne_nil Nat.toDigits_ne_nil _
  fraction_ne := List.cons_ne_nil _ _
  digits := by
    intro c hc
    simp only [List.mem_append, List.mem_replicate, List.mem_singleton] at hc
    obtain (hc | ⟨-, rfl⟩) | rfl := hc
    · exact isDigit_of_mem_toDigits hc
    · rfl
    · rfl
  value := by
    have hzero : digitsValue (d.digitChars ++ .replicate exponent '0' ++ ['0']) =
        d.digits * 10 ^ exponent * 10 := by
      rw [← List.replicate_one, digitsValue_append_zeros, digitsValue_append_zeros,
        Decimal.digitChars, digitsValue_toDigits, Nat.pow_one]
    rw [hzero]
    rw [he] at h
    by_cases hd : d.digits = 0
    · rw [hd, Nat.zero_mul, Nat.zero_mul]
      rw [hd] at h
      exact h
    · exact (ofDecimal_point_zero negative d.digits (exponent_lt_of_finite hd h)).trans h

theorem isNumeral_fractional {negative : Bool} {d : Decimal} {places : Nat}
    {rank : Fin finiteMagnitudes} {digits : List Char} (hp : 0 < places)
    (hdigits : digits = .replicate (places + 1 - d.digitChars.length) '0' ++ d.digitChars)
    (h : ofDecimal negative d.digits (-(places : Int)) = finite negative rank) :
    IsNumeral negative (finite negative rank) (digits.take (digits.length - places))
      (digits.drop (digits.length - places)) := by
  have hlength : places < digits.length := by
    rw [hdigits, List.length_append, List.length_replicate]
    omega
  have hfraction : (digits.drop (digits.length - places)).length = places := by
    rw [List.length_drop]
    omega
  refine ⟨?_, ?_, ?_, ?_⟩
  · rw [← List.length_pos_iff, List.length_take]
    omega
  · rw [← List.length_pos_iff, hfraction]
    exact hp
  · intro c hc
    rw [List.take_append_drop, hdigits, List.mem_append, List.mem_replicate] at hc
    obtain ⟨-, rfl⟩ | hc := hc
    · rfl
    · exact isDigit_of_mem_toDigits hc
  · rw [hfraction, List.take_append_drop, hdigits, digitsValue_zeros_append, Decimal.digitChars,
      digitsValue_toDigits]
    exact h

theorem isNumeral_numeral {f : Binary64} (h : f ≠ nan) :
    IsNumeral f.isNegative f f.numeral.1 f.numeral.2 := by
  cases f with
  | nan => exact absurd rfl h
  | infinite negative => exact isNumeral_infinite negative
  | finite negative rank =>
    have hs := ofDecimal_shortest_finite .up rank negative
    simp only [isNegative, numeral]
    split
    · next he => exact isNumeral_integral (by omega) hs
    · next he =>
      rw [List.splitAt_eq]
      exact isNumeral_fractional (by omega) rfl (by rw [← hs]; congr; omega)

end Binary64

end DocBase
