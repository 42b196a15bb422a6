import Mathlib.Algebra.Group.Nat.Defs
import Mathlib.Order.Monotone.Basic
import DocBase.Binary64.Rounding

namespace DocBase.Binary64

theorem units_of_lt {r : Nat} (h : r < 2 ^ 52) : units r = r := if_pos h

theorem units_of_le {r : Nat} (h : 2 ^ 52 ≤ r) :
    units r = (2 ^ 52 + r % 2 ^ 52) * 2 ^ (r / 2 ^ 52 - 1) := by
  have hr : ¬ r < Nat.pow 2 52 := Nat.not_lt.2 h
  rw [units, if_neg hr, Nat.shiftLeft_eq, Nat.pow_eq]

theorem units_lt_succ (r : Nat) : units r < units (r + 1) := by
  by_cases hr : r + 1 < 2 ^ 52
  · rw [units_of_lt hr, units_of_lt (Nat.lt_of_succ_lt hr)]
    exact Nat.lt_succ_self r
  have hr : 2 ^ 52 ≤ r + 1 := Nat.le_of_not_lt hr
  by_cases he : r < 2 ^ 52
  · have hq : (r + 1) / 2 ^ 52 - 1 = 0 := by omega
    rw [units_of_le hr, units_of_lt he, hq]
    omega
  have he : 2 ^ 52 ≤ r := Nat.le_of_not_lt he
  have hpos : 0 < 2 ^ (r / 2 ^ 52 - 1) := Nat.two_pow_pos _
  rw [units_of_le hr, units_of_le he]
  by_cases hm : r % 2 ^ 52 + 1 < 2 ^ 52
  · have hq : (r + 1) / 2 ^ 52 = r / 2 ^ 52 := by omega
    have hs : (r + 1) % 2 ^ 52 = r % 2 ^ 52 + 1 := by omega
    rw [hq, hs]
    exact Nat.mul_lt_mul_of_pos_right (by omega) hpos
  · have hq : (r + 1) / 2 ^ 52 - 1 = r / 2 ^ 52 - 1 + 1 := by omega
    have hs : (r + 1) % 2 ^ 52 = 0 := by omega
    rw [hq, hs, Nat.pow_succ 2 (r / 2 ^ 52 - 1)]
    have hlt := Nat.mul_lt_mul_of_pos_right (show 2 ^ 52 + r % 2 ^ 52 < 2 ^ 53 by omega) hpos
    omega

theorem units_pos {r : Nat} (h : 0 < r) : 0 < units r := by
  obtain ⟨n, rfl⟩ := Nat.exists_eq_succ_of_ne_zero (Nat.pos_iff_ne_zero.1 h)
  exact Nat.zero_lt_of_lt (units_lt_succ n)

theorem log2_units {r : Nat} (h : 2 ^ 52 ≤ r) : (units r).log2 = 52 + (r / 2 ^ 52 - 1) := by
  have hn : units r ≠ 0 := Nat.pos_iff_ne_zero.1 (units_pos (by omega))
  have hpos : 0 < 2 ^ (r / 2 ^ 52 - 1) := Nat.two_pow_pos _
  have hlow : 52 + (r / 2 ^ 52 - 1) ≤ (units r).log2 := by
    rw [Nat.le_log2 hn, units_of_le h, Nat.pow_add]
    exact Nat.mul_le_mul_right _ (by omega)
  have hhigh : (units r).log2 < 52 + (r / 2 ^ 52 - 1) + 1 := by
    rw [Nat.log2_lt hn, units_of_le h, Nat.add_right_comm, Nat.pow_add]
    exact Nat.mul_lt_mul_of_pos_right (by omega) hpos
  omega

theorem rankBelow_of_lt {n : Nat} (h : n < 2 ^ 52) : rankBelow n = n := if_pos h

theorem rankBelow_of_le {n : Nat} (h : 2 ^ 52 ≤ n) :
    rankBelow n = (n.log2 - 52) * 2 ^ 52 + n / 2 ^ (n.log2 - 52) := by
  have hn : ¬ n < Nat.pow 2 52 := Nat.not_lt.2 h
  rw [rankBelow, if_neg hn, Nat.shiftRight_eq_div_pow, Nat.pow_eq]

theorem rankBelow_units (r : Nat) : rankBelow (units r) = r := by
  by_cases h : r < 2 ^ 52
  · rw [units_of_lt h, rankBelow_of_lt h]
  have h : 2 ^ 52 ≤ r := Nat.le_of_not_lt h
  have hlog := log2_units h
  have hle : 2 ^ 52 ≤ units r := by
    have hn : units r ≠ 0 := Nat.pos_iff_ne_zero.1 (units_pos (by omega))
    rw [← Nat.le_log2 hn]
    omega
  have hdiff : 52 + (r / 2 ^ 52 - 1) - 52 = r / 2 ^ 52 - 1 := by omega
  rw [rankBelow_of_le hle, hlog, hdiff, units_of_le h,
    Nat.mul_div_cancel _ (Nat.two_pow_pos _)]
  omega

/-- Rounding looks at the quotient only, not at its terms. -/
theorem nearestRank_mul_left {k : Nat} (hk : 0 < k) (num den : Nat) :
    nearestRank (k * num) (k * den) = nearestRank num den := by
  have hs : (k * num) <<< 1074 = k * num <<< 1074 := by
    rw [Nat.shiftLeft_eq, Nat.shiftLeft_eq, Nat.mul_assoc]
  have hc (a b : Nat) : compare (k * a) (k * b) = compare a b := by
    simp only [Nat.compare_eq_ite_lt, Nat.mul_lt_mul_left hk]
  simp only [nearestRank, hs, Nat.mul_div_mul_left _ _ hk, Nat.mul_left_comm _ k, hc]

theorem nearestRank_of_units {num den r : Nat} (hd : 0 < den)
    (h : num <<< 1074 = units r * den) : nearestRank num den = r := by
  have hlow : units r * den / den = units r := Nat.mul_div_cancel _ hd
  have hlt : compare (2 * (units r * den)) ((units r + units (r + 1)) * den) = .lt := by
    rw [Nat.compare_eq_lt, ← Nat.mul_assoc]
    have hs := units_lt_succ r
    exact Nat.mul_lt_mul_of_pos_right (by omega) hd
  simp only [nearestRank, h, hlow, rankBelow_units, hlt]

theorem units_strictMono : StrictMono units := strictMono_nat_of_lt_succ units_lt_succ

theorem units_binade {e q : Nat} (hlow : 2 ^ 52 ≤ q) (hhigh : q ≤ 2 ^ 53) :
    units (e * 2 ^ 52 + q) = q * 2 ^ e := by
  rw [units_of_le (Nat.le_add_left_of_le hlow)]
  rcases Nat.eq_or_lt_of_le hhigh with rfl | hq
  · have hd : (e * 2 ^ 52 + 2 ^ 53) / 2 ^ 52 - 1 = e + 1 := by omega
    have hm : (e * 2 ^ 52 + 2 ^ 53) % 2 ^ 52 = 0 := by omega
    rw [hd, hm, Nat.pow_succ 2 e]
    omega
  · have hd : (e * 2 ^ 52 + q) / 2 ^ 52 - 1 = e := by omega
    have hm : 2 ^ 52 + (e * 2 ^ 52 + q) % 2 ^ 52 = q := by omega
    rw [hd, hm]

theorem leading_bits {n : Nat} (h : 2 ^ 52 ≤ n) :
    2 ^ 52 ≤ n / 2 ^ (n.log2 - 52) ∧ n / 2 ^ (n.log2 - 52) < 2 ^ 53 := by
  have hn : n ≠ 0 := by
    intro h0
    rw [h0] at h
    exact absurd h (by decide)
  have hlog : 52 ≤ n.log2 := (Nat.le_log2 hn).2 h
  constructor
  · rw [Nat.le_div_iff_mul_le (Nat.two_pow_pos _), ← Nat.pow_add, ← Nat.le_log2 hn]
    omega
  · rw [Nat.div_lt_iff_lt_mul (Nat.two_pow_pos _), ← Nat.pow_add, ← Nat.log2_lt hn]
    omega

theorem units_rankBelow_of_le {n : Nat} (h : 2 ^ 52 ≤ n) :
    units (rankBelow n) = n / 2 ^ (n.log2 - 52) * 2 ^ (n.log2 - 52) ∧
      units (rankBelow n + 1) = (n / 2 ^ (n.log2 - 52) + 1) * 2 ^ (n.log2 - 52) := by
  obtain ⟨hlow, hhigh⟩ := leading_bits h
  rw [rankBelow_of_le h, Nat.add_assoc]
  exact ⟨units_binade hlow (Nat.le_of_lt hhigh), units_binade (Nat.le_succ_of_le hlow) hhigh⟩

theorem units_rankBelow_le (n : Nat) : units (rankBelow n) ≤ n := by
  by_cases h : n < 2 ^ 52
  · rw [rankBelow_of_lt h, units_of_lt h]
  · rw [(units_rankBelow_of_le (Nat.le_of_not_lt h)).1]
    exact Nat.div_mul_le_self n _

theorem lt_units_rankBelow_succ (n : Nat) : n < units (rankBelow n + 1) := by
  by_cases h : n < 2 ^ 52
  · have hs := units_lt_succ n
    rw [units_of_lt h] at hs
    rw [rankBelow_of_lt h]
    exact hs
  · rw [(units_rankBelow_of_le (Nat.le_of_not_lt h)).2]
    exact Nat.lt_mul_of_div_lt (Nat.lt_succ_self _) (Nat.two_pow_pos _)

theorem rankBelow_mono {n m : Nat} (h : n ≤ m) : rankBelow n ≤ rankBelow m := by
  apply Nat.le_of_not_lt
  intro hlt
  have hle : units (rankBelow m + 1) ≤ units (rankBelow n) := units_strictMono.monotone hlt
  have hn := units_rankBelow_le n
  have hm := lt_units_rankBelow_succ m
  omega

theorem rankBelow_le_nearestRank (num den : Nat) :
    rankBelow (num <<< 1074 / den) ≤ nearestRank num den := by
  simp only [nearestRank]
  split <;> omega

theorem nearestRank_le (num den : Nat) :
    nearestRank num den ≤ rankBelow (num <<< 1074 / den) + 1 := by
  simp only [nearestRank]
  split <;> omega

/-- Rounding keeps the order. -/
theorem nearestRank_mono {num num' : Nat} (h : num ≤ num') (den : Nat) :
    nearestRank num den ≤ nearestRank num' den := by
  have hs : num <<< 1074 ≤ num' <<< 1074 := by
    rw [Nat.shiftLeft_eq, Nat.shiftLeft_eq]
    exact Nat.mul_le_mul_right _ h
  have hlow := rankBelow_mono (Nat.div_le_div_right (c := den) hs)
  rcases Nat.eq_or_lt_of_le hlow with he | hlt
  · -- Both lie between the same two magnitudes, so the greater one is not nearer to the lower.
    simp only [nearestRank, he]
    generalize (units (rankBelow (num' <<< 1074 / den)) +
      units (rankBelow (num' <<< 1074 / den) + 1)) * den = middle
    split <;> split <;> simp only [Nat.compare_eq_lt, Nat.compare_eq_gt, Nat.compare_eq_eq] at * <;>
      omega
  · have h1 := nearestRank_le num den
    have h2 := rankBelow_le_nearestRank num' den
    omega

end DocBase.Binary64
