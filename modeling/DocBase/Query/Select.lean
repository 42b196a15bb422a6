import DocBase.Query.Filter
import DocBase.Query.Order

namespace DocBase

/-- The cells of a result row by column, absent where the record has no such field. -/
abbrev Row := OrderedMap String Value

namespace Query

open Sql

/-- A row of the named columns; a column named again moves to the end. -/
def project (columns : List ColumnRef) (r : Record) : Row :=
  columns.foldl
    (fun row column =>
      match r.get? column.name with
      | some value => row.insert column.name value
      | none => row)
    .empty

/-- The items of a page; what lies beyond the end is cut off. -/
def page {α : Type} (items : List α) (limit : Limit) : List α :=
  (items.drop limit.offset.toNat).take limit.count.toNat

end Query

namespace Sql.Select

open Query

def evaluated (s : Select) (records : List Record) : Evaluation :=
  match s.condition with
  | some condition => evaluate records condition
  | none => ⟨records, []⟩

def filtered (s : Select) (records : List Record) : List Record := (s.evaluated records).kept

def sorted (s : Select) (records : List Record) : List Record :=
  sort (s.filtered records) s.order

def paged (s : Select) (records : List Record) : List Record :=
  match s.limit with
  | some limit => page (s.sorted records) limit
  | none => s.sorted records

/-- The rows of the result. All columns means all fields of all records, whatever else is asked. -/
def rows (s : Select) (records : List Record) : List Row :=
  match s.projection with
  | .all => records.map Record.fields
  | .columns columns => (s.paged records).map (project columns)

/-- The warnings that the condition gives, if it is looked at. -/
def warnings (s : Select) (records : List Record) : List Warning :=
  match s.projection with
  | .all => []
  | .columns _ => (s.evaluated records).warnings

end Sql.Select

end DocBase
