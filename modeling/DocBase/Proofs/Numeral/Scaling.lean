import DocBase.Proofs.Binary64.Scaling
import DocBase.Proofs.Numeral

namespace DocBase.Numeral

open Binary64

theorem gather_lt {n : Nat} (h : n < 2 ^ 64) (cs : List Char) : (gather n cs).1 < 2 ^ 64 := by
  induction cs generalizing n with
  | nil => exact h
  | cons c cs ih =>
    rw [gather]
    split
    · next hnext => exact ih hnext
    · exact h

theorem gather_mul_le (n : Nat) (cs : List Char) :
    (gather n cs).1 * 10 ^ (gather n cs).2.length ≤ Nat.ofDigitChars 10 cs n := by
  induction cs generalizing n with
  | nil => exact Nat.le_of_eq (Nat.mul_one n)
  | cons c cs ih =>
    rw [gather]
    split
    · exact ih _
    · calc n * 10 ^ (cs.length + 1)
          = 10 ^ cs.length * (10 * n) := by
            rw [Nat.pow_succ]
            ac_rfl
        _ ≤ 10 ^ cs.length * (10 * n + (c.toNat - 48)) :=
            Nat.mul_le_mul_left _ (Nat.le_add_right _ _)
        _ ≤ Nat.ofDigitChars 10 cs (10 * n + (c.toNat - 48)) := by
            rw [Nat.ofDigitChars_eq_ofDigitChars_zero]
            exact Nat.le_add_right _ _

theorem le_ofDigitChars (cs : List Char) (n : Nat) : n ≤ Nat.ofDigitChars 10 cs n := by
  rw [Nat.ofDigitChars_eq_ofDigitChars_zero]
  exact Nat.le_add_right_of_le (Nat.le_mul_of_pos_left n (ten_pow_pos _))

theorem gather_of_lt {n : Nat} {cs : List Char} (h : Nat.ofDigitChars 10 cs n < 2 ^ 64) :
    gather n cs = (Nat.ofDigitChars 10 cs n, []) := by
  induction cs generalizing n with
  | nil => rfl
  | cons c cs ih =>
    have hnext : 10 * n + (c.toNat - 48) < 2 ^ 64 := Nat.lt_of_le_of_lt (le_ofDigitChars cs _) h
    rw [gather]
    exact (if_pos hnext).trans (ih h)

def digits (n : Numeral) : List Char := n.whole ++ n.fraction.getD []

/-- The power of ten that belongs to the last digit. -/
def lastPlace (n : Numeral) : Int := n.exponent.getD 0 - (n.fraction.getD []).length

theorem toBinary64_eq (n : Numeral) :
    n.toBinary64 = .ofDecimal n.negative (digitsValue n.digits) n.lastPlace := rfl

theorem digitsValue_digits (n : Numeral) :
    digitsValue n.digits = Nat.ofDigitChars 10 (n.fraction.getD []) (digitsValue n.whole) :=
  Nat.ofDigitChars_append 0

theorem scaled_of_word {n : Numeral} (h : digitsValue n.whole < 2 ^ 64) :
    let gathered := gather (digitsValue n.whole) (n.fraction.getD [])
    n.scaled = .ofScaled n.negative gathered.1 (n.lastPlace + gathered.2.length) := by
  intro gathered
  have hwhole : gather 0 n.whole = (digitsValue n.whole, []) := gather_of_lt h
  have hplace : n.exponent.getD 0 + (0 : Nat) + gathered.2.length - (n.fraction.getD []).length =
      n.lastPlace + gathered.2.length := by
    rw [lastPlace]
    omega
  rw [scaled, hwhole]
  exact congrArg (ofScaled n.negative gathered.1) hplace

theorem isFinite_scaled {n : Numeral} {rank : Fin finiteMagnitudes}
    (hw : digitsValue n.whole < 2 ^ 64) (h : n.toBinary64 = finite n.negative rank)
    (hr : rank.val + 1 < finiteMagnitudes) : n.scaled.isFinite := by
  have hle := gather_mul_le (digitsValue n.whole) (n.fraction.getD [])
  have hlt := gather_lt hw (n.fraction.getD [])
  rw [scaled_of_word hw, ofScaled]
  rw [← digitsValue_digits] at hle
  generalize gather (digitsValue n.whole) (n.fraction.getD []) = gathered at *
  apply isFinite_ofRank
  by_cases hplace : n.lastPlace + gathered.2.length ≤ 0
  · exact Nat.lt_of_le_of_lt (scaledRank_le hplace _) (nearestRank_lt_of_word hlt)
  · obtain ⟨places, hplaces⟩ := Int.eq_ofNat_of_zero_le (Int.le_of_lt (Int.not_le.1 hplace))
    rw [hplaces]
    apply scaledRank_lt_of_exact hlt
    have hexact : gathered.1 * 10 ^ places * 10 ^ (-n.lastPlace).toNat ≤
        digitsValue n.digits * 10 ^ n.lastPlace.toNat := by
      have hsum : places + (-n.lastPlace).toNat = gathered.2.length + n.lastPlace.toNat := by omega
      rw [Nat.mul_assoc, ← Nat.pow_add, hsum, Nat.pow_add, ← Nat.mul_assoc]
      exact Nat.mul_le_mul_right _ hle
    exact Nat.lt_of_le_of_lt (Nat.succ_le_succ (nearestRank_le_of_ofDecimal h hexact)) hr

/-- With few digits and a small power of ten, scaling gives the nearest number. -/
theorem scaled_eq_toBinary64 {n : Numeral} (hd : digitsValue n.digits ≤ 2 ^ 53)
    (hp : n.lastPlace.natAbs ≤ 22) : n.scaled = n.toBinary64 := by
  have hlt : digitsValue n.digits < 2 ^ 64 := Nat.lt_of_le_of_lt hd (by decide)
  have hle : digitsValue n.whole ≤ digitsValue n.digits := by
    rw [digitsValue_digits]
    exact le_ofDigitChars _ _
  rw [scaled_of_word (Nat.lt_of_le_of_lt hle hlt), gather_of_lt (digitsValue_digits n ▸ hlt),
    ← digitsValue_digits, toBinary64_eq]
  dsimp only [List.length_nil]
  rw [Int.natCast_zero, Int.add_zero]
  exact ofScaled_eq_ofDecimal n.negative hd hp

end DocBase.Numeral
