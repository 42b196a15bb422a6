import DocBase.Proofs.Binary64.Integer
import DocBase.Proofs.Query.Select
import DocBase.Proofs.Value.Comparison

namespace DocBase

open Binary64 (rounded)

namespace Value

/-- Every way to compare two integers tells what is true of the integers themselves. -/
structure ComparesExactly (a b : Int64) : Prop where
  strict : (integer a).strictEquals (integer b) ↔ a = b
  loose : (integer a).looseEquals (integer b) ↔ a = b
  less : (integer a).lessThan (integer b) ↔ a < b
  greater : (integer a).greaterThan (integer b) ↔ b < a
  sorted : compareForSort (some (integer a)) (some (integer b)) = compare a b

theorem natAbs_toInt_le (i : Int64) : i.toInt.natAbs ≤ 2 ^ 63 := by
  have hlow := i.le_toInt
  have hhigh := i.toInt_lt
  omega

theorem compare?_integer (a b : Int64) :
    (integer a).toNumber.compare? (integer b).toNumber =
      some (compare (rounded a.toInt) (rounded b.toInt)) :=
  Binary64.compare?_ofInt (natAbs_toInt_le a) (natAbs_toInt_le b)

theorem compareForSort_integer (a b : Int64) :
    compareForSort (some (integer a)) (some (integer b)) =
      compare (rounded a.toInt) (rounded b.toInt) := by
  rw [compareForSort_numbers rfl rfl, compare?_integer]
  rfl

theorem stands_integer_iff {a b : Int64} {o : Ordering} :
    (integer a).Stands o (integer b) ↔ compare (rounded a.toInt) (rounded b.toInt) = o := by
  have ht : ¬ ((integer a).isText ∧ (integer b).isText) := nofun
  have hc := compare?_integer a b
  constructor
  · intro h
    exact Option.some.inj (hc.symm.trans (compare?_of_stands ht h))
  · intro h
    exact stands_of_compare? ht nofun nofun (hc.trans (congrArg some h))

theorem strictEquals_integer_iff {a b : Int64} :
    (integer a).strictEquals (integer b) ↔ rounded a.toInt = rounded b.toInt := by
  rw [← Int.compare_eq_eq, ← stands_integer_iff]
  exact Iff.rfl

theorem compare_toInt (a b : Int64) : compare a.toInt b.toInt = compare a b := by
  simp only [compare, compareOfLessAndEq, Int64.lt_iff_toInt_lt, ← Int64.toInt_inj]

variable {a b : Int64}

theorem rounded_toInt_lt_iff (h : rounded a.toInt = rounded b.toInt → a = b) :
    rounded a.toInt < rounded b.toInt ↔ a < b := by
  rw [Binary64.rounded_lt_iff fun he => congrArg Int64.toInt (h he)]
  exact Int64.lt_iff_toInt_lt.symm

theorem comparesExactly_of_rounded (h : rounded a.toInt = rounded b.toInt → a = b) :
    ComparesExactly a b := by
  have hlt := rounded_toInt_lt_iff h
  have hgt := rounded_toInt_lt_iff fun he => (h he.symm).symm
  have heq : rounded a.toInt = rounded b.toInt ↔ a = b := by
    constructor
    · exact h
    · intro he
      rw [he]
  constructor
  · exact strictEquals_integer_iff.trans heq
  · exact stands_integer_iff.trans (Int.compare_eq_eq.trans heq)
  · exact stands_integer_iff.trans (Int.compare_eq_lt.trans hlt)
  · exact stands_integer_iff.trans (Int.compare_eq_gt.trans hgt)
  · rw [compareForSort_integer, ← compare_toInt]
    simp only [Int.compare_eq_ite_lt, hlt, hgt, Int64.lt_iff_toInt_lt]

/-- Two integers compare exactly unless they differ and become the same binary64 number. -/
theorem comparesExactly_iff :
    ComparesExactly a b ↔ (rounded a.toInt = rounded b.toInt → a = b) := by
  constructor
  · intro h he
    exact h.strict.1 (strictEquals_integer_iff.2 he)
  · exact comparesExactly_of_rounded

end Value

namespace Query

open Sql Value

theorem mem_filter_equal_iff {records : List Record} {column : ColumnRef} {n : Int64} {r : Record} :
    r ∈ filter records (.comparison column .equal (.integer n)) ↔
      r ∈ records ∧ ∃ value, r.get? column.name = some value ∧ value.strictEquals (.integer n) := by
  rw [filter_comparison, List.mem_filter]
  exact and_congr_right fun _ => Field.strictEquals_iff

theorem tiedBy_integers_iff {key : OrderKey} {r s : Record} {i j : Int64}
    (hr : r.get? key.column.name = some (.integer i))
    (hs : s.get? key.column.name = some (.integer j)) :
    TiedBy key r s ↔ rounded i.toInt = rounded j.toInt := by
  rw [TiedBy, hr, hs]
  change compareForSort (some (integer i)) (some (integer j)) = .eq ↔ _
  rw [compareForSort_integer, Int.compare_eq_eq]

/-- All comparisons of two integers are exact unless they differ and become the same binary64
number, which takes 54 binary digits in both. A condition that asks for an integer returns records
with that integer only, and a sort key ties no two integers, exactly where no such pair is met. -/
theorem integers_exact_iff (a b : Int64) (records : List Record) (column : ColumnRef)
    (direction : Direction) :
    (ComparesExactly a b ↔ (rounded a.toInt = rounded b.toInt → a = b)) ∧
      (a.toInt.natAbs < 2 ^ 53 → ComparesExactly a b) ∧
      ((∀ r ∈ filter records (.comparison column .equal (.integer b)), ∀ i,
          r.get? column.name = some (.integer i) → i = b) ↔
        ∀ r ∈ records, ∀ i, r.get? column.name = some (.integer i) →
          rounded i.toInt = rounded b.toInt → i = b) ∧
      ∀ r s : Record,
        r.get? column.name = some (.integer a) → s.get? column.name = some (.integer b) →
          ((TiedBy ⟨column, direction⟩ r s → a = b) ↔
            (rounded a.toInt = rounded b.toInt → a = b)) := by
  refine ⟨comparesExactly_iff, ?_, ?_, ?_⟩
  · intro ha
    apply comparesExactly_of_rounded
    intro he
    exact Int64.toInt_inj.1 (Binary64.eq_of_rounded_eq ha he)
  · constructor
    · intro h r hr i hi he
      exact h r (mem_filter_equal_iff.2 ⟨hr, _, hi, strictEquals_integer_iff.2 he⟩) i hi
    · intro h r hr i hi
      obtain ⟨hr, value, hv, he⟩ := mem_filter_equal_iff.1 hr
      cases hi.symm.trans hv
      exact h r hr i hi (strictEquals_integer_iff.1 he)
  · intro r s hr hs
    exact imp_congr_left (tiedBy_integers_iff hr hs)

/-- Beyond 53 binary digits integers with another one between them are still told apart. -/
theorem integers_exact_iff_of_spread :
    let a : Int64 := 9007199254740993
    let b : Int64 := 9007199254740995
    let first : Record := ⟨⟨"1"⟩, .ofAssignments [("c", .integer a)]⟩
    let second : Record := ⟨⟨"2"⟩, .ofAssignments [("c", .integer b)]⟩
    let c : ColumnRef := ⟨none, "c"⟩
    ComparesExactly a b ∧
      (∀ r ∈ filter [first, second] (.comparison c .equal (.integer b)), ∀ i,
        r.get? c.name = some (.integer i) → i = b) ∧
      ¬ TiedBy ⟨c, .descending⟩ first second := by
  intro a b first second c
  have hfirst : first.get? c.name = some (.integer a) := by decide +kernel
  have hsecond : second.get? c.name = some (.integer b) := by decide +kernel
  have happart : rounded a.toInt ≠ rounded b.toInt := by decide +kernel
  obtain ⟨hexact, -, hfilter, hties⟩ := integers_exact_iff a b [first, second] c .descending
  refine ⟨hexact.2 fun he => absurd he happart, hfilter.2 ?_, ?_⟩
  · intro r hr i hi he
    rcases List.mem_pair.1 hr with rfl | rfl
    · cases hfirst.symm.trans hi
      exact absurd he happart
    · cases hsecond.symm.trans hi
      rfl
  · intro htied
    have hab := (hties first second hfirst hsecond).2 (fun he => absurd he happart) htied
    exact absurd hab (by decide)

/-- Neighbours beyond 53 binary digits are one number to every comparison. -/
theorem neighbours_not_compared_exactly :
    let a : Int64 := 9007199254740993
    let b : Int64 := 9007199254740992
    let first : Record := ⟨⟨"1"⟩, .ofAssignments [("c", .integer a)]⟩
    let second : Record := ⟨⟨"2"⟩, .ofAssignments [("c", .integer b)]⟩
    let c : ColumnRef := ⟨none, "c"⟩
    b < a ∧ (integer a).strictEquals (integer b) ∧ (integer a).looseEquals (integer b) ∧
      ¬ (integer a).greaterThan (integer b) ∧
      compareForSort (some (integer a)) (some (integer b)) = .eq ∧
      filter [first, second] (.comparison c .equal (.integer b)) = [first, second] ∧
      TiedBy ⟨c, .ascending⟩ first second := by
  intro a b first second c
  have htied : compareByKey ⟨c, .ascending⟩ first second = .eq := by decide +kernel
  exact ⟨by decide, by decide +kernel, by decide +kernel, by decide +kernel, by decide +kernel,
    by decide +kernel, compareByKey_eq_eq_iff.1 htied⟩

end Query

end DocBase
