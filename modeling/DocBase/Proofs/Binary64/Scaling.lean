import DocBase.Binary64.Scaling
import DocBase.Proofs.Binary64.Integer
import DocBase.Proofs.Binary64.Shortest

namespace DocBase.Binary64

theorem nearestRank_zero {den : Nat} (hd : 0 < den) : nearestRank 0 den = 0 := by
  apply nearestRank_of_units hd
  rw [units_of_lt (by decide), Nat.zero_shiftLeft, Nat.zero_mul]

theorem units_nearestRank_of_small {n : Nat} (h : n ≤ 2 ^ 53) :
    units (nearestRank n 1) = n <<< 1074 := by
  rw [units_nearestRank, roundedMagnitude_of_le h]

theorem one_le_units_tenRank (exponent : Nat) : 1 <<< 1074 ≤ units (tenRank exponent) := by
  rw [← units_nearestRank_of_small (n := 1) (by decide)]
  exact units_strictMono.monotone (nearestRank_mono (ten_pow_pos exponent) 1)

theorem tenRank_mono {e e' : Nat} (h : e ≤ e') : tenRank e ≤ tenRank e' :=
  nearestRank_mono (Nat.pow_le_pow_right (by decide) h) 1

theorem timesRank_mono {a a' b b' : Nat} (ha : a ≤ a') (hb : b ≤ b') :
    timesRank a b ≤ timesRank a' b' :=
  nearestRank_mono (Nat.mul_le_mul (units_strictMono.monotone ha) (units_strictMono.monotone hb)) _

theorem shiftLeft_mul_shiftLeft (a b p q : Nat) : a <<< p * b <<< q = (a * b) <<< (p + q) := by
  simp only [Nat.shiftLeft_eq, Nat.pow_add]
  ac_rfl

theorem nearestRank_shiftLeft (num den places : Nat) :
    nearestRank (num <<< places) (den <<< places) = nearestRank num den := by
  simp only [Nat.shiftLeft_eq, Nat.mul_comm _ (2 ^ places)]
  exact nearestRank_mul_left (Nat.two_pow_pos places) num den

theorem nearestRank_units (rank : Nat) : nearestRank (units rank) (1 <<< 1074) = rank := by
  apply nearestRank_of_units (by decide)
  have h := shiftLeft_mul_shiftLeft (units rank) 1 0 1074
  rwa [Nat.shiftLeft_zero, Nat.mul_one, Nat.zero_add, eq_comm] at h

theorem timesRank_one (rank : Nat) : timesRank rank (tenRank 0) = rank := by
  have hone : units (tenRank 0) = 1 <<< 1074 := units_nearestRank_of_small (by decide)
  have hunits := shiftLeft_mul_shiftLeft (units rank) 1 0 1074
  have hshift := nearestRank_shiftLeft (units rank) (1 <<< 1074) 1074
  rw [Nat.shiftLeft_zero, Nat.mul_one, Nat.zero_add] at hunits
  rwa [← Nat.shiftLeft_add, nearestRank_units, ← hunits, ← hone] at hshift

theorem nearestRank_anti {den den' : Nat} (hd : 0 < den) (h : den ≤ den') (num : Nat) :
    nearestRank num den' ≤ nearestRank num den := by
  calc nearestRank num den'
      = nearestRank (den * num) (den * den') := (nearestRank_mul_left hd num den').symm
    _ ≤ nearestRank (den' * num) (den * den') := nearestRank_mono (Nat.mul_le_mul_right num h) _
    _ = nearestRank (den' * num) (den' * den) := by rw [Nat.mul_comm den]
    _ = nearestRank num den := nearestRank_mul_left (Nat.lt_of_lt_of_le hd h) num den

theorem overRank_le (a : Nat) {b : Nat} (h : 1 <<< 1074 ≤ units b) : overRank a b ≤ a := by
  have hanti := nearestRank_anti (show 0 < 1 <<< 1074 by decide) h (units a)
  rwa [nearestRank_units] at hanti

theorem overLastTens_le (times rank : Nat) : overLastTens times rank ≤ rank := by
  induction times generalizing rank with
  | zero => exact Nat.le_refl _
  | succ times ih =>
    rw [overLastTens]
    split
    · exact Nat.zero_le _
    · exact Nat.le_trans (ih _) (overRank_le rank (one_le_units_tenRank lastTen))

theorem scaledRank_le {exponent : Int} (h : exponent ≤ 0) (rank : Nat) :
    scaledRank rank exponent ≤ rank := by
  rw [scaledRank]
  split
  · have h0 : exponent = 0 := by omega
    rw [h0, if_pos (by decide), Int.toNat_zero, timesRank_one]
  · exact Nat.le_trans (overRank_le _ (one_le_units_tenRank _)) (overLastTens_le _ _)

theorem scaledRank_zero (exponent : Int) : scaledRank 0 exponent = 0 := by
  by_cases h : exponent ≤ 0
  · exact Nat.le_zero.1 (scaledRank_le h 0)
  · rw [scaledRank, if_pos (by omega), if_pos rfl]
    split
    · rw [timesRank, units_of_lt (by decide), Nat.zero_mul, nearestRank_zero (by decide)]
    · rfl

theorem nearestRank_lt_of_word {n : Nat} (h : n < 2 ^ 64) : nearestRank n 1 < finiteMagnitudes := by
  have hlarge : nearestRank (2 ^ 64) 1 < finiteMagnitudes := by decide +kernel
  exact Nat.lt_of_le_of_lt (nearestRank_mono (Nat.le_of_lt h) 1) hlarge

/-- Half way between the two greatest magnitudes. -/
def lastMiddle : Nat := 1 <<< 1024 - 3 <<< 970

theorem le_lastMiddle {n : Nat} (h : nearestRank n 1 + 1 < finiteMagnitudes) : n ≤ lastMiddle := by
  have hnext : nearestRank (lastMiddle + 1) 1 + 1 = finiteMagnitudes := by decide +kernel
  apply Nat.le_of_not_lt
  intro hlt
  have hmono : nearestRank (lastMiddle + 1) 1 ≤ nearestRank n 1 := nearestRank_mono hlt 1
  omega

theorem eq_zero_of_mul_lt {n m : Nat} (h : n * m < m) : n = 0 := by
  apply Nat.eq_zero_of_not_pos
  intro hpos
  exact Nat.not_lt.2 (Nat.le_mul_of_pos_left m hpos) h

/-- What the significand and the power lose by being rounded does not carry a number from below the
greatest magnitude out of range. Where it could, the largest significands are tried. -/
theorem scaledRank_lt_of_exact {significand exponent : Nat} (hs : significand < 2 ^ 64)
    (h : nearestRank (significand * 10 ^ exponent) 1 + 1 < finiteMagnitudes) :
    scaledRank (nearestRank significand 1) exponent < finiteMagnitudes := by
  have hle := le_lastMiddle h
  by_cases he : exponent ≤ lastTen
  · rw [scaledRank, if_pos (Int.natCast_nonneg _), if_pos (Int.ofNat_le.2 he), Int.toNat_natCast]
    by_cases hsmall : exponent ≤ 288
    · have hlast : timesRank (nearestRank (2 ^ 64) 1) (tenRank 288) < finiteMagnitudes := by
        decide +kernel
      have hmax := nearestRank_mono (Nat.le_of_lt hs) 1
      exact Nat.lt_of_le_of_lt (timesRank_mono hmax (tenRank_mono hsmall)) hlast
    · obtain ⟨n, rfl⟩ := Nat.exists_eq_add_of_le (Nat.lt_of_not_le hsmall)
      have htable : ∀ n < 20, timesRank (nearestRank (lastMiddle / 10 ^ (289 + n)) 1)
          (tenRank (289 + n)) < finiteMagnitudes := by decide +kernel
      have hmax : significand ≤ lastMiddle / 10 ^ (289 + n) :=
        (Nat.le_div_iff_mul_le (ten_pow_pos _)).2 hle
      exact Nat.lt_of_le_of_lt (timesRank_mono (nearestRank_mono hmax 1) (Nat.le_refl _))
        (htable n (Nat.lt_of_add_lt_add_left (Nat.lt_succ_of_le he)))
  · have hpow : lastMiddle < 10 ^ exponent :=
      Nat.lt_of_lt_of_le (by decide +kernel : lastMiddle < 10 ^ (lastTen + 1))
        (Nat.pow_le_pow_right (by decide) (Nat.lt_of_not_le he))
    rw [eq_zero_of_mul_lt (Nat.lt_of_le_of_lt hle hpow), nearestRank_zero Nat.one_pos,
      scaledRank_zero]
    decide

theorem eq_of_ofRank {negative : Bool} {r : Nat} {rank : Fin finiteMagnitudes}
    (h : ofRank negative r = finite negative rank) : r = rank := by
  rw [ofRank] at h
  split at h <;> cases h
  rfl

theorem isFinite_ofRank {negative : Bool} {rank : Nat} (h : rank < finiteMagnitudes) :
    (ofRank negative rank).isFinite := by
  rw [ofRank, dif_pos h]
  rfl

theorem nearestRank_le_of_ofDecimal {negative : Bool} {digits n : Nat} {exponent : Int}
    {rank : Fin finiteMagnitudes} (h : ofDecimal negative digits exponent = finite negative rank)
    (hn : n * 10 ^ (-exponent).toNat ≤ digits * 10 ^ exponent.toNat) :
    nearestRank n 1 ≤ rank := by
  by_cases hd : digits = 0
  · rw [hd, Nat.zero_mul, Nat.le_zero] at hn
    have h0 : n = 0 := (Nat.mul_eq_zero.1 hn).resolve_right (Nat.pos_iff_ne_zero.1 (ten_pow_pos _))
    rw [h0, nearestRank_zero Nat.one_pos]
    exact Nat.zero_le _
  rw [ofDecimal, if_neg hd] at h
  split at h
  · next he =>
    split at h
    · cases h
    · have hz : (-exponent).toNat = 0 := by omega
      rw [hz, Nat.pow_zero, Nat.mul_one] at hn
      have hr := eq_of_ofRank h
      exact hr ▸ nearestRank_mono hn 1
  · next he =>
    have hz : exponent.toNat = 0 := by omega
    have ha : (-exponent).toNat = exponent.natAbs := by omega
    rw [hz, Nat.pow_zero, Nat.mul_one, ha] at hn
    split at h
    · next hsmall =>
      -- The decimal is less than one, so the integer is zero.
      have hlt : digits < 10 ^ exponent.natAbs := by
        calc digits < 2 ^ (digits.log2 + 1) := Nat.lt_log2_self
          _ ≤ 2 ^ (3 * exponent.natAbs) := Nat.pow_le_pow_right (by decide) (by omega)
          _ = 8 ^ exponent.natAbs := Nat.pow_mul 2 3 _
          _ ≤ 10 ^ exponent.natAbs := Nat.pow_le_pow_left (by decide) _
      rw [eq_zero_of_mul_lt (Nat.lt_of_le_of_lt hn hlt), nearestRank_zero Nat.one_pos]
      exact Nat.zero_le _
    · have hr := eq_of_ofRank h
      rw [← hr, ← nearestRank_mul_left (ten_pow_pos exponent.natAbs), Nat.mul_one, Nat.mul_comm]
      exact nearestRank_mono hn _

theorem units_tenRank_of_small {exponent : Nat} (h : exponent ≤ 22) :
    units (tenRank exponent) = 10 ^ exponent <<< 1074 := by
  have htable : ∀ e < 23, units (tenRank e) = 10 ^ e <<< 1074 := by decide +kernel
  exact htable exponent (Nat.lt_succ_of_le h)

/-- Where significand and power are magnitudes themselves, scaling rounds once. -/
theorem ofScaled_eq_ofDecimal (negative : Bool) {significand : Nat} {exponent : Int}
    (hs : significand ≤ 2 ^ 53) (he : exponent.natAbs ≤ 22) :
    ofScaled negative significand exponent = ofDecimal negative significand exponent := by
  have hunits := units_nearestRank_of_small hs
  by_cases h0 : significand = 0
  · rw [ofScaled, h0, nearestRank_zero Nat.one_pos, scaledRank_zero, ofDecimal, if_pos rfl]
  rw [ofScaled, scaledRank, ofDecimal, if_neg h0]
  by_cases hpos : 0 ≤ exponent
  · have hten := units_tenRank_of_small (show exponent.toNat ≤ 22 by omega)
    have hr : timesRank (nearestRank significand 1) (tenRank exponent.toNat) =
        nearestRank (significand * 10 ^ exponent.toNat) 1 := by
      rw [timesRank, hunits, hten, shiftLeft_mul_shiftLeft]
      exact nearestRank_shiftLeft _ 1 (1074 + 1074)
    have hlast : exponent ≤ (308 : Nat) := by omega
    rw [if_pos hpos, if_pos hlast, if_pos hpos, if_neg (by omega), hr]
    rfl
  · have hten := units_tenRank_of_small he
    have htimes : (exponent.natAbs - 1) / lastTen = 0 := 
      Nat.div_eq_of_lt (show exponent.natAbs - 1 < 308 by omega)
    have hr : overRank (nearestRank significand 1) (tenRank exponent.natAbs) =
        nearestRank significand (10 ^ exponent.natAbs) := by
      rw [overRank, hunits, hten, nearestRank_shiftLeft]
    rw [if_neg hpos, if_neg hpos, if_neg (by omega)]
    dsimp only
    rw [htimes, overLastTens, Nat.mul_zero, Nat.sub_zero, hr]
    rfl

end DocBase.Binary64
