import DocBase.Query.Filter
import Mathlib.Data.List.Nodup

namespace DocBase

namespace Sql.Expression

/-- Whether a condition is true of a record. A comparison looks at the record's own field only. -/
def Holds (r : Record) : Expression → Prop
  | logical left .and right => left.Holds r ∧ right.Holds r
  | logical left .or right => left.Holds r ∨ right.Holds r
  | comparison column .equal literal =>
    ∃ value, r.get? column.name = some value ∧ value.strictEquals literal.stored
  | comparison column .notEqual literal =>
    ¬ ∃ value, r.get? column.name = some value ∧ value.strictEquals literal.stored
  | comparison column .is literal =>
    (∃ value, r.get? column.name = some value ∧ value.looseEquals literal.stored) ∨
      r.get? column.name = none ∧ literal.stored = .null
  | comparison column .isNot literal =>
    ¬ ((∃ value, r.get? column.name = some value ∧ value.looseEquals literal.stored) ∨
      r.get? column.name = none ∧ literal.stored = .null)
  | comparison column .less literal =>
    ∃ value, r.get? column.name = some value ∧ value.lessThan literal.stored
  | comparison column .greater literal =>
    ∃ value, r.get? column.name = some value ∧ value.greaterThan literal.stored
  | comparison _ .lessEqual _ | comparison _ .greaterEqual _ => False

end Sql.Expression

namespace Field

theorem strictEquals_iff {field : Field} {literal : Value} :
    field.strictEquals literal ↔ ∃ value, field = some value ∧ value.strictEquals literal := by
  cases field <;> simp [strictEquals]

theorem looseEquals_iff {field : Field} {literal : Value} :
    field.looseEquals literal ↔
      (∃ value, field = some value ∧ value.looseEquals literal) ∨
        field = none ∧ literal = .null := by
  cases field <;> simp [looseEquals]

theorem lessThan_iff {field : Field} {literal : Value} :
    field.lessThan literal ↔ ∃ value, field = some value ∧ value.lessThan literal := by
  cases field <;> simp [lessThan]

theorem greaterThan_iff {field : Field} {literal : Value} :
    field.greaterThan literal ↔ ∃ value, field = some value ∧ value.greaterThan literal := by
  cases field <;> simp [greaterThan]

end Field

namespace Sql

theorem Operator.holds_iff {operator : Operator} {column : ColumnRef} {literal : Value}
    {r : Record} : operator.holds (r.get? column.name) literal.stored ↔
      (Expression.comparison column operator literal).Holds r := by
  cases operator with
  | equal => exact Field.strictEquals_iff
  | notEqual =>
    rw [Operator.holds, Bool.not_eq_true', ← Bool.not_eq_true]
    exact not_congr Field.strictEquals_iff
  | is => exact Field.looseEquals_iff
  | isNot =>
    rw [Operator.holds, Bool.not_eq_true', ← Bool.not_eq_true]
    exact not_congr Field.looseEquals_iff
  | less => exact Field.lessThan_iff
  | greater => exact Field.greaterThan_iff
  | lessEqual => exact Bool.false_eq_true ▸ Iff.rfl
  | greaterEqual => exact Bool.false_eq_true ▸ Iff.rfl

instance Expression.decidableHolds (r : Record) : (e : Expression) → Decidable (e.Holds r)
  | logical left .and right =>
    have := decidableHolds r left
    have := decidableHolds r right
    inferInstanceAs (Decidable (left.Holds r ∧ right.Holds r))
  | logical left .or right =>
    have := decidableHolds r left
    have := decidableHolds r right
    inferInstanceAs (Decidable (left.Holds r ∨ right.Holds r))
  | comparison _ _ _ => decidable_of_iff _ Operator.holds_iff

end Sql

namespace Query

open Sql

variable {records : List Record}

theorem id_mem_filter_iff (distinct : (records.map Record.id).Nodup) {p : Record → Bool}
    {r : Record} (hr : r ∈ records) : r.id ∈ (records.filter p).map Record.id ↔ p r := by
  constructor
  · intro h
    obtain ⟨r', hr', he⟩ := List.mem_map.1 h
    obtain ⟨hm, hp⟩ := List.mem_filter.1 hr'
    exact List.inj_on_of_nodup_map distinct hm hr he ▸ hp
  · intro h
    exact List.mem_map_of_mem (List.mem_filter.2 ⟨hr, h⟩)

theorem combine_iff (connective : Connective) {left right : List RecordId} {id : RecordId} :
    combine connective left right id ↔
      match connective with
      | .and => id ∈ left ∧ id ∈ right
      | .or => id ∈ left ∨ id ∈ right := by
  cases connective <;> simp [combine]

theorem id_mem_filter_iff_holds (distinct : (records.map Record.id).Nodup)
    (condition : Expression) {r : Record} (hr : r ∈ records) :
    r.id ∈ (filter records condition).map Record.id ↔ condition.Holds r := by
  induction condition with
  | comparison column operator literal =>
    rw [filter_comparison]
    exact (id_mem_filter_iff distinct hr).trans Operator.holds_iff
  | logical left connective right ihl ihr =>
    rw [filter_connective, id_mem_filter_iff distinct hr, combine_iff, ihl, ihr]
    cases connective <;> rfl

theorem exists_filter_eq (records : List Record) (condition : Expression) :
    ∃ p, filter records condition = records.filter p := by
  cases condition with
  | comparison column operator literal => exact ⟨_, filter_comparison ..⟩
  | logical left connective right => exact ⟨_, filter_connective ..⟩

/-- Selecting identifiers at every connective selects the records of which the condition is true. -/
theorem filter_eq_filter_holds (distinct : (records.map Record.id).Nodup)
    (condition : Expression) :
    filter records condition = records.filter fun r => decide (condition.Holds r) := by
  induction condition with
  | comparison column operator literal =>
    rw [filter_comparison]
    apply List.filter_congr
    intro r _
    rw [Bool.eq_iff_iff, decide_eq_true_iff]
    exact Operator.holds_iff
  | logical left connective right ihl ihr =>
    rw [filter_connective]
    apply List.filter_congr
    intro r hr
    -- By induction each side selects identifiers, which stand for records because they are distinct.
    rw [Bool.eq_iff_iff, decide_eq_true_iff, combine_iff, ihl, ihr]
    cases connective with
    | and => simp only [id_mem_filter_iff distinct hr, decide_eq_true_iff, Expression.Holds]
    | or => simp only [id_mem_filter_iff distinct hr, decide_eq_true_iff, Expression.Holds]

/-- A record with a column and one without it, under a condition with both connectives. -/
theorem filter_with_absent_column :
    let present : Record := ⟨⟨"a"⟩, OrderedMap.empty.assign "n" (.integer 1)⟩
    let absent : Record := ⟨⟨"b"⟩, .empty⟩
    let n : ColumnRef := ⟨none, "n"⟩
    let condition : Expression :=
      .logical (.comparison n .notEqual (.integer 2)) .and
        (.logical (.comparison n .is .null) .or (.comparison n .lessEqual (.integer 1)))
    ([present, absent].map Record.id).Nodup ∧ filter [present, absent] condition = [absent] := by
  intro present absent n condition
  have distinct : ([present, absent].map Record.id).Nodup := by decide
  refine ⟨distinct, ?_⟩
  rw [filter_eq_filter_holds distinct]
  decide +kernel

end Query

end DocBase
