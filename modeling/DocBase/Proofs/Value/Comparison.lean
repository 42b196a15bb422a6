import DocBase.Proofs.Value
import Mathlib.Logic.ExistsUnique

namespace DocBase

namespace Binary64

theorem compare?_swap (f g : Binary64) : g.compare? f = (f.compare? g).map Ordering.swap := by
  rw [compare?, compare?]
  cases f.key with
  | none => cases g.key <;> rfl
  | some i =>
    cases g.key with
    | none => rfl
    | some j => exact congrArg some Std.OrientedCmp.eq_swap

theorem compare?_eq_gt_iff {f g : Binary64} :
    f.compare? g = some .gt ↔ g.compare? f = some .lt := by
  rw [compare?_swap f g]
  rcases f.compare? g with _ | o
  · simp
  · cases o <;> simp

theorem equals_iff {f g : Binary64} : f.equals g ↔ f.compare? g = some .eq := beq_iff_eq

theorem less_iff {f g : Binary64} : f.less g ↔ f.compare? g = some .lt := beq_iff_eq

theorem equals_comm (f g : Binary64) : f.equals g = g.equals f := by
  rw [equals, equals, compare?_swap f g]
  rcases f.compare? g with _ | o
  · rfl
  · cases o <;> rfl

theorem exists_compare?_eq {f g : Binary64} (hf : f ≠ nan) (hg : g ≠ nan) :
    ∃ o, f.compare? g = some o := by
  obtain ⟨i, hi⟩ := exists_key_eq hf
  obtain ⟨j, hj⟩ := exists_key_eq hg
  rw [compare?, hi, hj]
  exact ⟨_, rfl⟩

end Binary64

namespace Value

/-- The ways in which one value can be related to another: less, loosely equal, greater. -/
def Stands (a : Value) : Ordering → Value → Prop
  | .lt, b => a.lessThan b
  | .eq, b => a.looseEquals b
  | .gt, b => a.greaterThan b

variable {a b : Value} {o : Ordering}

theorem strictEquals_comm (a b : Value) : a.strictEquals b = b.strictEquals a := by
  cases a <;> cases b <;> simp [strictEquals, isNumber, Binary64.equals_comm, Bool.beq_comm]

theorem looseEquals_comm (a b : Value) : a.looseEquals b = b.looseEquals a := by
  cases a <;> cases b <;> simp [looseEquals, Binary64.equals_comm, Bool.beq_comm]

theorem eq_or_numbers_of_strictEquals (h : a.strictEquals b) :
    a = b ∧ a.isNumber = false ∨ a.isNumber ∧ b.isNumber ∧ a.toNumber.equals b.toNumber := by
  cases a <;> cases b <;> simp_all [strictEquals, isNumber]

theorem lessThan_eq (h : ¬ (a.isText ∧ b.isText)) :
    a.lessThan b = a.toNumber.less b.toNumber := by
  cases a with
  | text s =>
    cases b with
    | text t => exact absurd ⟨rfl, rfl⟩ h
    | _ => rfl
  | _ => rfl

theorem looseEquals_null_iff : null.looseEquals b ↔ b = null := by
  cases b <;> simp [looseEquals]

theorem looseEquals_eq (h : ¬ (a.isText ∧ b.isText)) (ha : a ≠ null) (hb : b ≠ null) :
    a.looseEquals b = a.toNumber.equals b.toNumber := by
  cases b with
  | null => exact absurd rfl hb
  | text t =>
    cases a with
    | null => exact absurd rfl ha
    | text s => exact absurd ⟨rfl, rfl⟩ h
    | _ => rfl
  | _ =>
    cases a with
    | null => exact absurd rfl ha
    | _ => rfl

theorem not_texts_of_isNumber (ha : a.isNumber) : ¬ (a.isText ∧ b.isText) := by
  cases a <;> simp_all [isNumber, isText]

theorem ne_null_of_isNumber (ha : a.isNumber) : a ≠ null := by
  intro h
  rw [h] at ha
  cases ha

theorem looseEquals_self (h : a.isNumber = false) : a.looseEquals a := by
  cases a with
  | null => rfl
  | boolean b => cases b <;> decide +kernel
  | integer i => cases h
  | float f => cases h
  | text s => exact beq_self_eq_true s

theorem looseEquals_of_strictEquals (h : a.strictEquals b) : a.looseEquals b := by
  rcases eq_or_numbers_of_strictEquals h with ⟨rfl, hn⟩ | ⟨ha, hb, he⟩
  · exact looseEquals_self hn
  · rw [looseEquals_eq (not_texts_of_isNumber ha) (ne_null_of_isNumber ha) (ne_null_of_isNumber hb)]
    exact he

theorem text_stands_iff {s t : String} : (text s).Stands o (text t) ↔ compare s t = o := by
  cases o with
  | lt => exact decide_eq_true_iff.trans compareOfLessAndEq_eq_lt.symm
  | eq => exact beq_iff_eq.trans Std.LawfulEqCmp.compare_eq_iff_eq.symm
  | gt =>
    rw [Std.OrientedCmp.gt_iff_lt]
    exact decide_eq_true_iff.trans compareOfLessAndEq_eq_lt.symm

theorem stands_lt_iff (ht : ¬ (a.isText ∧ b.isText)) :
    a.Stands .lt b ↔ a.toNumber.compare? b.toNumber = some .lt := by
  rw [Stands, lessThan_eq ht]
  exact Binary64.less_iff

theorem stands_gt_iff (ht : ¬ (a.isText ∧ b.isText)) :
    a.Stands .gt b ↔ a.toNumber.compare? b.toNumber = some .gt := by
  rw [Stands, greaterThan, lessThan_eq (mt And.symm ht), Binary64.compare?_eq_gt_iff]
  exact Binary64.less_iff

theorem stands_eq_iff (ht : ¬ (a.isText ∧ b.isText)) (ha : a ≠ null) (hb : b ≠ null) :
    a.Stands .eq b ↔ a.toNumber.compare? b.toNumber = some .eq := by
  rw [Stands, looseEquals_eq ht ha hb]
  exact Binary64.equals_iff

theorem compare?_of_stands (ht : ¬ (a.isText ∧ b.isText)) (h : a.Stands o b) :
    a.toNumber.compare? b.toNumber = some o := by
  cases o with
  | lt => exact (stands_lt_iff ht).1 h
  | gt => exact (stands_gt_iff ht).1 h
  | eq =>
    -- A null is loosely equal to null only.
    by_cases ha : a = null
    · subst ha
      cases looseEquals_null_iff.1 h
      rfl
    by_cases hb : b = null
    · subst hb
      cases looseEquals_null_iff.1 ((looseEquals_comm null a).trans h)
      rfl
    exact (stands_eq_iff ht ha hb).1 h

theorem stands_of_compare? (ht : ¬ (a.isText ∧ b.isText)) (ha : a ≠ null) (hb : b ≠ null)
    (h : a.toNumber.compare? b.toNumber = some o) : a.Stands o b := by
  cases o with
  | lt => exact (stands_lt_iff ht).2 h
  | gt => exact (stands_gt_iff ht).2 h
  | eq => exact (stands_eq_iff ht ha hb).2 h

theorem exists_eq_text (h : a.isText) : ∃ s, a = text s := by
  cases a with
  | text s => exact ⟨s, rfl⟩
  | _ => cases h

theorem Stands.unique {o' : Ordering} (h : a.Stands o b) (h' : a.Stands o' b) : o = o' := by
  by_cases ht : a.isText ∧ b.isText
  · obtain ⟨s, rfl⟩ := exists_eq_text ht.1
    obtain ⟨t, rfl⟩ := exists_eq_text ht.2
    exact (text_stands_iff.1 h).symm.trans (text_stands_iff.1 h')
  · have he := (compare?_of_stands ht h).symm.trans (compare?_of_stands ht h')
    exact Option.some.inj he

theorem exists_stands (ha : a ≠ null) (hb : b ≠ null)
    (h : a.isText ∧ b.isText ∨ a.toNumber ≠ .nan ∧ b.toNumber ≠ .nan) : ∃ o, a.Stands o b := by
  by_cases ht : a.isText ∧ b.isText
  · obtain ⟨s, rfl⟩ := exists_eq_text ht.1
    obtain ⟨t, rfl⟩ := exists_eq_text ht.2
    exact ⟨compare s t, text_stands_iff.2 rfl⟩
  · obtain ⟨hfa, hfb⟩ := h.resolve_left ht
    obtain ⟨o, ho⟩ := Binary64.exists_compare?_eq hfa hfb
    exact ⟨o, stands_of_compare? ht ha hb ho⟩

/-- Within a class, sorting puts one value before another where it is less. -/
theorem compareForSort_eq_iff_stands (h : a.isText = b.isText) (ho : o ≠ .eq) :
    compareForSort (some a) (some b) = o ↔ a.Stands o b := by
  cases ta : a.isText with
  | true =>
    obtain ⟨s, rfl⟩ := exists_eq_text ta
    obtain ⟨t, rfl⟩ := exists_eq_text (h.symm.trans ta)
    exact text_stands_iff.symm
  | false =>
    have ht : ¬ (a.isText ∧ b.isText) := by
      rw [ta]
      exact nofun
    rw [compareForSort_numbers ta (h.symm.trans ta)]
    have hg : (a.toNumber.compare? b.toNumber).getD .eq = o ↔
        a.toNumber.compare? b.toNumber = some o := by
      cases a.toNumber.compare? b.toNumber with
      | none => simp [ho.symm]
      | some o' => simp
    rw [hg]
    cases o with
    | lt => exact (stands_lt_iff ht).symm
    | gt => exact (stands_gt_iff ht).symm
    | eq => exact absurd rfl ho

/-- Both equalities are symmetric and the strict one is the narrower. One value is less than
another, loosely equal to it or greater, never two of these, and always one of them unless there is
a null or a comparison of numbers with a NaN. -/
theorem relations_exclusive (a b : Value) :
    a.strictEquals b = b.strictEquals a ∧ a.looseEquals b = b.looseEquals a ∧
      (a.strictEquals b → a.looseEquals b) ∧
      (∀ o o', a.Stands o b → a.Stands o' b → o = o') ∧
      (a ≠ null → b ≠ null → a.isText ∧ b.isText ∨ a.toNumber ≠ .nan ∧ b.toNumber ≠ .nan →
        ∃! o, a.Stands o b) := by
  refine ⟨strictEquals_comm a b, looseEquals_comm a b, looseEquals_of_strictEquals, ?_, ?_⟩
  · intro o o' h h'
    exact h.unique h'
  · intro ha hb h
    obtain ⟨o, ho⟩ := exists_stands ha hb h
    exact ⟨o, ho, fun o' ho' => ho'.unique ho⟩

/-- A text that stands for a number, and a truth value. -/
theorem relations_exclusive_of_text_and_boolean :
    let a := text " 0x1F "
    let b := boolean true
    a ≠ null ∧ b ≠ null ∧ (a.isText ∧ b.isText ∨ a.toNumber ≠ .nan ∧ b.toNumber ≠ .nan) ∧
      a.Stands .gt b ∧ ∃! o, a.Stands o b := by
  intro a b
  have h : a.isText ∧ b.isText ∨ a.toNumber ≠ .nan ∧ b.toNumber ≠ .nan := by decide +kernel
  have hgt : a.greaterThan b := by decide +kernel
  obtain ⟨-, -, -, -, hone⟩ := relations_exclusive a b
  exact ⟨nofun, nofun, h, hgt, hone nofun nofun h⟩

end Value

end DocBase
