import DocBase.Proofs.Binary64.Rounding

namespace DocBase.Binary64

/-- The multiple of `step` nearest to `n`, of two equally near ones the even multiple. -/
def nearestMultiple (step n : Nat) : Nat :=
  let below := n / step
  let count :=
    match compare (2 * (n % step)) step with
    | .lt => below
    | .gt => below + 1
    | .eq => below + below % 2
  count * step

/-- A magnitude of at most 53 binary digits before its zeros, nearest to `n`. -/
def roundedMagnitude (n : Nat) : Nat := nearestMultiple (2 ^ (n.log2 - 52)) n

/-- The integer that is left of `i` when it becomes a binary64 number. -/
def rounded (i : Int) : Int :=
  if i < 0 then -roundedMagnitude i.natAbs else roundedMagnitude i.natAbs

theorem nearestMultiple_mul_left {k : Nat} (hk : 0 < k) (step n : Nat) :
    nearestMultiple (k * step) (k * n) = k * nearestMultiple step n := by
  have hc : compare (2 * (k * (n % step))) (k * step) = compare (2 * (n % step)) step := by
    simp only [Nat.compare_eq_ite_lt, Nat.mul_left_comm 2 k, Nat.mul_lt_mul_left hk]
  simp only [nearestMultiple, Nat.mul_mod_mul_left, Nat.mul_div_mul_left _ _ hk, hc]
  exact Nat.mul_left_comm ..

theorem nearestMultiple_of_dvd {step n : Nat} (hs : 0 < step) (h : step ∣ n) :
    nearestMultiple step n = n := by
  have hm : compare (2 * (n % step)) step = .lt := by
    rw [Nat.compare_eq_lt, Nat.mod_eq_zero_of_dvd h]
    exact hs
  simp only [nearestMultiple, hm]
  exact Nat.div_mul_cancel h

theorem log2_shiftLeft {n : Nat} (h : n ≠ 0) (places : Nat) :
    (n <<< places).log2 = n.log2 + places := by
  have hm : n * 2 ^ places ≠ 0 := Nat.mul_ne_zero h (Nat.pos_iff_ne_zero.1 (Nat.two_pow_pos _))
  rw [Nat.shiftLeft_eq, Nat.log2_eq_iff hm, Nat.add_right_comm, Nat.pow_add,
    Nat.pow_add 2 (n.log2 + 1)]
  exact ⟨Nat.mul_le_mul_right _ (Nat.log2_self_le h),
    Nat.mul_lt_mul_of_pos_right Nat.lt_log2_self (Nat.two_pow_pos _)⟩

theorem two_pow_le_shiftLeft {n low high : Nat} (hn : n ≠ 0) (h : low ≤ high) :
    2 ^ low ≤ n <<< high := by
  rw [Nat.shiftLeft_eq]
  exact Nat.le_trans (Nat.pow_le_pow_right (by decide) h)
    (Nat.le_mul_of_pos_left _ (Nat.pos_of_ne_zero hn))

theorem roundedMagnitude_of_log2_lt {n : Nat} (h : n.log2 < 53) : roundedMagnitude n = n := by
  have hs : n.log2 - 52 = 0 := by omega
  rw [roundedMagnitude, hs]
  exact nearestMultiple_of_dvd (Nat.two_pow_pos 0) (Nat.one_dvd n)

/-- Zeros behind the digits of a number do not change which of its digits are kept. -/
theorem roundedMagnitude_shiftLeft (n places : Nat) :
    roundedMagnitude (n <<< places) = roundedMagnitude n <<< places := by
  by_cases hn : n = 0
  · rw [hn, Nat.zero_shiftLeft]
    exact (Nat.zero_shiftLeft places).symm
  rw [roundedMagnitude, log2_shiftLeft hn, Nat.shiftLeft_eq, Nat.shiftLeft_eq]
  by_cases hs : n.log2 < 53
  · have hd : 2 ^ (n.log2 + places - 52) ∣ n * 2 ^ places :=
      Nat.dvd_mul_left_of_dvd (Nat.pow_dvd_pow 2 (by omega)) n
    rw [nearestMultiple_of_dvd (Nat.two_pow_pos _) hd, roundedMagnitude_of_log2_lt hs]
  · have he : n.log2 + places - 52 = places + (n.log2 - 52) := by omega
    rw [he, Nat.pow_add, Nat.mul_comm n, nearestMultiple_mul_left (Nat.two_pow_pos places),
      Nat.mul_comm, roundedMagnitude]

theorem compare_middle {m : Nat} (h : 2 ^ 52 ≤ m) :
    compare (2 * m) (units (rankBelow m) + units (rankBelow m + 1)) =
      compare (2 * (m % 2 ^ (m.log2 - 52))) (2 ^ (m.log2 - 52)) := by
  obtain ⟨hlow, hhigh⟩ := units_rankBelow_of_le h
  rw [hlow, hhigh]
  generalize 2 ^ (m.log2 - 52) = step
  have hm := Nat.div_add_mod' m step
  rw [Nat.add_one_mul (m / step)]
  have hlt : 2 * m < m / step * step + (m / step * step + step) ↔ 2 * (m % step) < step := by
    omega
  have hgt : m / step * step + (m / step * step + step) < 2 * m ↔ step < 2 * (m % step) := by
    omega
  simp only [Nat.compare_eq_ite_lt, hlt, hgt]

theorem rankBelow_mod_two {m : Nat} (h : 2 ^ 52 ≤ m) :
    rankBelow m % 2 = m / 2 ^ (m.log2 - 52) % 2 := by
  rw [rankBelow_of_le h]
  omega

/-- Of the magnitudes around a number, rounding takes the one that keeps its first digits. -/
theorem units_nearestRank_of_le {n : Nat} (h : 2 ^ 52 ≤ n <<< 1074) :
    units (nearestRank n 1) = roundedMagnitude (n <<< 1074) := by
  obtain ⟨hlow, hhigh⟩ := units_rankBelow_of_le h
  have heven := rankBelow_mod_two h
  have hc := compare_middle h
  simp only [nearestRank, roundedMagnitude, nearestMultiple, Nat.div_one, Nat.mul_one]
  generalize n <<< 1074 = m at *
  generalize 2 ^ (m.log2 - 52) = step at *
  rw [hc]
  cases compare (2 * (m % step)) step with
  | lt => exact hlow
  | gt => exact hhigh
  | eq =>
    rw [heven]
    rcases Nat.mod_two_eq_zero_or_one (m / step) with he | he
    · rw [he]
      exact hlow
    · rw [he]
      exact hhigh

theorem units_nearestRank (n : Nat) :
    units (nearestRank n 1) = roundedMagnitude n <<< 1074 := by
  by_cases hn : n = 0
  · rw [hn]
    decide +kernel
  · rw [← roundedMagnitude_shiftLeft]
    exact units_nearestRank_of_le (two_pow_le_shiftLeft hn (by decide))

theorem shiftLeft_lt_iff {n m places : Nat} : n <<< places < m <<< places ↔ n < m := by
  rw [Nat.shiftLeft_eq, Nat.shiftLeft_eq]
  exact Nat.mul_lt_mul_right (Nat.two_pow_pos places)

theorem nearestRank_lt_iff {n m : Nat} :
    nearestRank n 1 < nearestRank m 1 ↔ roundedMagnitude n < roundedMagnitude m := by
  rw [← units_strictMono.lt_iff_lt, units_nearestRank, units_nearestRank, shiftLeft_lt_iff]

theorem nearestRank_pos_iff {n : Nat} : 0 < nearestRank n 1 ↔ 0 < roundedMagnitude n :=
  nearestRank_lt_iff (n := 0)

theorem roundedMagnitude_mono {n m : Nat} (h : n ≤ m) :
    roundedMagnitude n ≤ roundedMagnitude m := by
  apply Nat.le_of_not_lt
  intro hlt
  exact Nat.not_lt.2 (nearestRank_mono h 1) (nearestRank_lt_iff.2 hlt)

theorem roundedMagnitude_of_le {n : Nat} (h : n ≤ 2 ^ 53) : roundedMagnitude n = n := by
  rcases Nat.eq_or_lt_of_le h with rfl | hlt
  · decide +kernel
  · by_cases hn : n = 0
    · rw [hn]
      rfl
    · exact roundedMagnitude_of_log2_lt ((Nat.log2_lt hn).2 hlt)

theorem rounded_mono {a b : Int} (h : a ≤ b) : rounded a ≤ rounded b := by
  unfold rounded
  split <;> split
  · have hm := roundedMagnitude_mono (n := b.natAbs) (m := a.natAbs) (by omega)
    omega
  · omega
  · omega
  · have hm := roundedMagnitude_mono (n := a.natAbs) (m := b.natAbs) (by omega)
    omega

theorem rounded_lt_iff {a b : Int} (h : rounded a = rounded b → a = b) :
    rounded a < rounded b ↔ a < b := by
  constructor
  · intro hlt
    apply Int.lt_of_not_ge
    intro hle
    exact Int.not_lt.2 (rounded_mono hle) hlt
  · intro hlt
    apply Int.lt_iff_le_and_ne.2 ⟨rounded_mono (Int.le_of_lt hlt), ?_⟩
    intro he
    exact Int.ne_of_lt hlt (h he)

theorem natAbs_rounded (i : Int) : (rounded i).natAbs = roundedMagnitude i.natAbs := by
  unfold rounded
  split <;> omega

theorem rounded_of_natAbs_le {i : Int} (h : i.natAbs ≤ 2 ^ 53) : rounded i = i := by
  rw [rounded, roundedMagnitude_of_le h]
  split <;> omega

theorem eq_of_rounded_eq {a b : Int} (h : a.natAbs < 2 ^ 53) (he : rounded a = rounded b) :
    a = b := by
  have ha := rounded_of_natAbs_le (Nat.le_of_lt h)
  by_cases hb : b.natAbs ≤ 2 ^ 53
  · rw [← ha, he, rounded_of_natAbs_le hb]
  · have hm := roundedMagnitude_mono (Nat.le_of_not_le hb)
    rw [roundedMagnitude_of_le (Nat.le_refl _), ← natAbs_rounded, ← he, ha] at hm
    omega

/-- The rank of an integer's magnitude, with its sign. -/
def signedRank (i : Int) : Int :=
  if i < 0 then -nearestRank i.natAbs 1 else nearestRank i.natAbs 1

theorem signedRank_lt_iff {a b : Int} : signedRank a < signedRank b ↔ rounded a < rounded b := by
  have hab := nearestRank_lt_iff (n := a.natAbs) (m := b.natAbs)
  have hba := nearestRank_lt_iff (n := b.natAbs) (m := a.natAbs)
  have ha := nearestRank_pos_iff (n := a.natAbs)
  have hb := nearestRank_pos_iff (n := b.natAbs)
  unfold signedRank rounded
  split <;> split <;> omega

theorem key_ofInt {i : Int} (h : i.natAbs ≤ 2 ^ 63) : (ofInt i).key = some (signedRank i) := by
  have hlarge : nearestRank (2 ^ 63) 1 < finiteMagnitudes := by decide +kernel
  have hr : nearestRank i.natAbs 1 < finiteMagnitudes :=
    Nat.lt_of_le_of_lt (nearestRank_mono h 1) hlarge
  rw [ofInt, ofQuotient, ofRank, dif_pos hr, key, signedRank]
  simp only [decide_eq_true_eq]

theorem compare?_ofInt {a b : Int} (ha : a.natAbs ≤ 2 ^ 63) (hb : b.natAbs ≤ 2 ^ 63) :
    (ofInt a).compare? (ofInt b) = some (compare (rounded a) (rounded b)) := by
  rw [compare?, key_ofInt ha, key_ofInt hb]
  simp only [Int.compare_eq_ite_lt, signedRank_lt_iff]

end DocBase.Binary64
