import DocBase.Record
import DocBase.Sql.Statement

namespace DocBase.Query

open Sql

/-- Ascending order puts larger values first, and a record without the column comes behind those that
have it in either direction. -/
def compareByKey (key : OrderKey) (a b : Record) : Ordering :=
  match a.get? key.column.name, b.get? key.column.name with
  | some _, none => .lt
  | none, some _ => .gt
  | left, right =>
    match key.direction with
    | .ascending => (Value.compareForSort left right).swap
    | .descending => Value.compareForSort left right

/-- Compares by the first key that tells the records apart. -/
def compareRecords : List OrderKey → Record → Record → Ordering
  | [], _, _ => .eq
  | key :: keys, a, b => (compareByKey key a b).then (compareRecords keys a b)

/-- Sorts records; those equal on all keys keep their order. -/
def sort (records : List Record) (keys : List OrderKey) : List Record :=
  records.mergeSort fun a b => (compareRecords keys a b).isLE

end DocBase.Query
