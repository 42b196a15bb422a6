import DocBase.Record
import DocBase.Warning

namespace DocBase

namespace Sql

/-- Whether the operator is evaluated at all. The others match nothing. -/
def Operator.isSupported : Operator → Bool
  | lessEqual | greaterEqual => false
  | _ => true

def Operator.holds : Operator → Field → Value → Bool
  | equal, field, literal => field.strictEquals literal
  | notEqual, field, literal => !field.strictEquals literal
  | is, field, literal => field.looseEquals literal
  | isNot, field, literal => !field.looseEquals literal
  | less, field, literal => field.lessThan literal
  | greater, field, literal => field.greaterThan literal
  | lessEqual, _, _ | greaterEqual, _, _ => false

end Sql

namespace Query

open Sql

/-- Whether an identifier is selected, given those that the two sides select. Records that share one
are kept or dropped together. -/
def combine (connective : Connective) (left right : List RecordId) (id : RecordId) : Bool :=
  match connective with
  | .and => left.contains id && right.contains id
  | .or => left.contains id || right.contains id

/-- What a condition makes of a table: the records that it selects, in their order, and the warnings
that it gives on the way. -/
structure Evaluation where
  kept : List Record
  warnings : List Warning

/-- Evaluates both sides of a connective on the whole table, whatever the first one selects. -/
def evaluate (records : List Record) : Expression → Evaluation
  | .comparison column operator literal =>
    if operator.isSupported then
      ⟨records.filter fun r => operator.holds (r.get? column.name) literal.stored, []⟩
    else ⟨[], [.unsupportedOperator operator column.name]⟩
  | .logical left connective right =>
    let left := evaluate records left
    let right := evaluate records right
    ⟨records.filter fun r =>
      combine connective (left.kept.map Record.id) (right.kept.map Record.id) r.id,
      left.warnings ++ right.warnings⟩

def filter (records : List Record) (condition : Expression) : List Record :=
  (evaluate records condition).kept

theorem filter_comparison (records : List Record) (column : ColumnRef) (operator : Operator)
    (literal : Value) : filter records (.comparison column operator literal) =
      records.filter fun r => operator.holds (r.get? column.name) literal.stored := by
  cases operator with
  | lessEqual | greaterEqual => exact (List.filter_eq_nil_iff.2 fun _ _ => Bool.false_ne_true).symm
  | _ => rfl

theorem filter_connective (records : List Record) (left right : Expression)
    (connective : Connective) : filter records (.logical left connective right) =
      records.filter fun r => combine connective ((filter records left).map Record.id)
        ((filter records right).map Record.id) r.id := rfl

end Query

/-- The warnings of a condition, which it gives on any table. -/
def Sql.Expression.warnings (e : Expression) : List Warning := (Query.evaluate [] e).warnings

end DocBase
