import Mathlib.Algebra.Group.Nat.Defs
import DocBase.Binary64.Shortest
import DocBase.Proofs.Binary64.Rounding

namespace DocBase.Binary64

theorem ofRank_of_le {negative : Bool} {rank : Nat} (h : finiteMagnitudes ≤ rank) :
    ofRank negative rank = infinite negative := dif_neg (Nat.not_lt.2 h)

theorem ofRank_val (negative : Bool) (rank : Fin finiteMagnitudes) :
    ofRank negative rank = finite negative rank := dif_pos rank.isLt

theorem ofDecimal_eq_ofRank (digits : Nat) (exponent : Int) :
    ∃ rank, ∀ negative, ofDecimal negative digits exponent = ofRank negative rank := by
  simp only [ofDecimal]
  split
  · exact ⟨0, fun _ => rfl⟩
  split
  · split
    · exact ⟨finiteMagnitudes, fun _ => (ofRank_of_le (Nat.le_refl _)).symm⟩
    · exact ⟨_, fun _ => rfl⟩
  split
  · exact ⟨0, fun _ => rfl⟩
  · exact ⟨_, fun _ => rfl⟩

theorem ofDecimal_of_finite {digits : Nat} {exponent : Int} {rank : Fin finiteMagnitudes}
    (h : ofDecimal false digits exponent = finite false rank) (negative : Bool) :
    ofDecimal negative digits exponent = finite negative rank := by
  obtain ⟨r, hr⟩ := ofDecimal_eq_ofRank digits exponent
  rw [hr] at h ⊢
  by_cases hlt : r < finiteMagnitudes
  · rw [ofRank, dif_pos hlt] at h ⊢
    cases h
    rfl
  · rw [ofRank, dif_neg hlt] at h
    cases h

theorem ofDecimal_point_zero (negative : Bool) (digits : Nat) {exponent : Nat}
    (h : exponent < 310) :
    ofDecimal negative (digits * 10 ^ exponent * 10) (-1) =
      ofDecimal negative digits exponent := by
  by_cases hd : digits = 0
  · rw [hd]
    simp [ofDecimal]
  have hten : 10 ^ exponent ≠ 0 := Nat.pos_iff_ne_zero.1 (Nat.pow_pos (by decide))
  have hpos : digits * 10 ^ exponent * 10 ≠ 0 :=
    Nat.mul_ne_zero (Nat.mul_ne_zero hd hten) (by decide)
  have hlog : ¬ (digits * 10 ^ exponent * 10).log2 + 1101 < 3 * (-1 : Int).natAbs := by
    have h1 : (-1 : Int).natAbs = 1 := rfl
    omega
  have hexp : ¬ 310 ≤ (exponent : Int) := by omega
  rw [ofDecimal, if_neg hpos, if_neg (by decide), if_neg hlog, ofDecimal, if_neg hd,
    if_pos (Int.natCast_nonneg _), if_neg hexp, ofQuotient, ofQuotient]
  have hr := nearestRank_mul_left (show 0 < 10 by decide) (digits * 10 ^ exponent) 1
  have hpow : Nat.pow 10 exponent = 10 ^ exponent := rfl
  rw [Int.toNat_natCast, hpow, ← hr, Nat.mul_comm 10 (digits * 10 ^ exponent)]
  rfl

theorem ten_pow_pos (places : Nat) : 0 < 10 ^ places := Nat.pow_pos (by decide)

theorem shiftLeft_mul_pow_five (n places : Nat) :
    (n * 5 ^ places) <<< places = n * 10 ^ places := by
  rw [Nat.shiftLeft_eq, Nat.mul_assoc, ← Nat.mul_pow]

theorem mul_pow_five_ne_zero {n : Nat} (hn : 0 < n) (places : Nat) : n * 5 ^ places ≠ 0 :=
  Nat.mul_ne_zero (Nat.pos_iff_ne_zero.1 hn) (Nat.pos_iff_ne_zero.1 (Nat.pow_pos (by decide)))

theorem le_log2_mul_pow_five {n : Nat} (hn : 0 < n) (places : Nat) :
    2 * places ≤ (n * 5 ^ places).log2 := by
  have hpow : 2 ^ (2 * places) ≤ 5 ^ places := by
    rw [Nat.pow_mul]
    exact Nat.pow_le_pow_left (by decide) places
  exact (Nat.le_log2 (mul_pow_five_ne_zero hn places)).2
    (Nat.le_trans hpow (Nat.le_mul_of_pos_left _ hn))

theorem ofDecimal_of_places (negative : Bool) {digits places : Nat} (hd : digits ≠ 0)
    (hp : 0 < places) (hg : 3 * places ≤ digits.log2 + 1101) :
    ofDecimal negative digits (-(places : Int)) = ofQuotient negative digits (10 ^ places) := by
  have hneg : ¬ 0 ≤ -(places : Int) := by omega
  have habs : (-(places : Int)).natAbs = places := by omega
  rw [ofDecimal, if_neg hd, if_neg hneg, habs, if_neg (Nat.not_lt.2 hg)]
  rfl

theorem ofDecimal_exact {rank : Nat} (h : 0 < rank) :
    ofDecimal false (units rank * Nat.pow 5 1074) (-1074) = ofRank false rank := by
  simp only [Nat.pow_eq]
  have hlog := le_log2_mul_pow_five (units_pos h) 1074
  have hr : nearestRank (units rank * 5 ^ 1074) (10 ^ 1074) = rank :=
    nearestRank_of_units (ten_pow_pos 1074) (shiftLeft_mul_pow_five (units rank) 1074)
  have hguard : 3 * 1074 ≤ (units rank * 5 ^ 1074).log2 + 1101 :=
    Nat.le_trans (by decide) (Nat.add_le_add_right hlog 1101)
  have hp := ofDecimal_of_places false (mul_pow_five_ne_zero (units_pos h) 1074) (by decide) hguard
  rw [ofQuotient, hr] at hp
  exact hp

theorem readsBack_of_onGrid? {tie : Tie} {rank : Nat} {exponent : Int} {d : Decimal}
    (h : onGrid? tie rank exponent = some d) : readsBack rank d :=
  List.find?_some h

theorem ofDecimal_shortest (tie : Tie) (rank : Nat) :
    ofDecimal false (shortest tie rank).digits (shortest tie rank).exponent =
      ofRank false rank := by
  rw [shortest]
  split
  · next h =>
    rw [h]
    rfl
  · next h =>
    dsimp only
    split
    · next d hd =>
      obtain ⟨n, _, hn⟩ := List.exists_of_findSome?_eq_some hd
      exact of_decide_eq_true (readsBack_of_onGrid? hn)
    · exact ofDecimal_exact (Nat.pos_of_ne_zero h)

theorem ofDecimal_shortest_finite (tie : Tie) (rank : Fin finiteMagnitudes) (negative : Bool) :
    ofDecimal negative (shortest tie rank).digits (shortest tie rank).exponent =
      finite negative rank :=
  ofDecimal_of_finite ((ofDecimal_shortest tie rank).trans (ofRank_val false rank)) negative

end DocBase.Binary64
