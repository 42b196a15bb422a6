import DocBase.Proofs.Engine.Consistency

namespace DocBase

open DocBase.Sql

/-- The value that comes last under a key. -/
def lastValue? {κ α : Type} [DecidableEq κ] (pairs : List (κ × α)) (key : κ) : Option α :=
  pairs.reverse.lookup key

theorem Record.ext {r s : Record} (hid : r.id = s.id) (hfields : r.fields = s.fields) : r = s := by
  cases r
  cases s
  cases hid
  cases hfields
  rfl

namespace Schema

theorem columnNames_ofColumns (columns : List (String × ColumnType)) :
    (ofColumns columns).columnNames = (columns.map Prod.fst).eraseDups :=
  OrderedMap.keys_ofAssignments columns

theorem columnType?_ofColumns (columns : List (String × ColumnType)) (column : String) :
    (ofColumns columns).columnType? column = lastValue? columns column :=
  OrderedMap.get?_ofAssignments columns column

end Schema

namespace Engine

def assigned (assignments : List Assignment) : List (String × Value) :=
  assignments.map fun a => (a.column, a.literal.stored)

section
variable (assignments : List Assignment) (r : Record)

theorem map_fst_assigned :
    (assigned assignments).map Prod.fst = assignments.map Assignment.column := by
  rw [assigned, List.map_map]
  rfl

theorem fields_assignAll : (assignAll assignments r).fields =
    (assigned assignments).foldl (fun m (column, value) => m.assign column value) r.fields := by
  rw [assigned, List.foldl_map]
  induction assignments generalizing r with
  | nil => rfl
  | cons a assignments ih => exact ih _

theorem keys_assignAll : (assignAll assignments r).fields.keys = r.fields.keys ++
    ((assignments.map Assignment.column).filter fun c => decide (c ∉ r.fields.keys)).eraseDups := by
  rw [fields_assignAll, OrderedMap.keys_foldl_assign, map_fst_assigned]

theorem get?_assignAll (column : String) : (assignAll assignments r).get? column =
    (lastValue? (assigned assignments) column).or (r.get? column) := by
  rw [Record.get?, fields_assignAll, OrderedMap.get?_foldl_assign]
  rfl

theorem assignAll_append (more : List Assignment) :
    assignAll (assignments ++ more) r = assignAll more (assignAll assignments r) :=
  List.foldl_append

theorem assignAll_assignAll_self :
    assignAll assignments (assignAll assignments r) = assignAll assignments r := by
  have hfields : (assignAll assignments (assignAll assignments r)).fields =
      (assignAll assignments r).fields := by
    apply OrderedMap.ext_get?
    · have hnone : ((assignments.map Assignment.column).filter fun c =>
          decide (c ∉ (assignAll assignments r).fields.keys)) = [] := by
        rw [List.filter_eq_nil_iff]
        intro c hc
        by_cases hk : c ∈ r.fields.keys <;> simp [keys_assignAll, hk, hc]
      rw [keys_assignAll, hnone]
      exact List.append_nil _
    · intro column
      change (assignAll assignments (assignAll assignments r)).get? column =
        (assignAll assignments r).get? column
      rw [get?_assignAll, get?_assignAll, ← Option.or_assoc, Option.or_self]
  exact Record.ext (assignAll_id assignments _) hfields

end

theorem map_fst_zip_eq_take {α β : Type} (l : List α) (l' : List β) :
    (l.zip l').map Prod.fst = l.take (min l.length l'.length) := by
  have hcut : (l.take (min l.length l'.length)).length ≤
      (l'.take (min l.length l'.length)).length := by
    rw [List.length_take, List.length_take]
    omega
  rw [List.zip_eq_zip_take_min]
  exact List.map_fst_zip hcut

section
variable (columns : List String) (tuple : List Value)

theorem fieldsOf_eq :
    fieldsOf columns tuple = .ofAssignments (columns.zip (tuple.map Value.stored)) := by
  rw [fieldsOf, List.zip_map_right]
  rfl

theorem keys_fieldsOf : (fieldsOf columns tuple).keys =
    (columns.take (min columns.length tuple.length)).eraseDups := by
  rw [fieldsOf_eq, OrderedMap.keys_ofAssignments, map_fst_zip_eq_take, List.length_map]

theorem get?_fieldsOf (column : String) : (fieldsOf columns tuple).get? column =
    lastValue? (columns.zip (tuple.map Value.stored)) column := by
  rw [fieldsOf_eq, OrderedMap.get?_ofAssignments, lastValue?]

end

theorem forall₂_newRecords (ids : IdSource) (columns : List String) (tuples : List (List Value)) :
    List.Forall₂ (fun tuple r => r.fields = fieldsOf columns tuple) tuples
      (newRecords ids columns tuples) := by
  induction tuples generalizing ids with
  | nil => exact .nil
  | cons tuple tuples ih => exact .cons rfl (ih _)

/-- What is written to a record or a schema stands at its first mention with its last value. -/
theorem writes_keep_places :
    (∀ (assignments : List Assignment) (r : Record),
      (assignAll assignments r).id = r.id ∧
      (assignAll assignments r).fields.keys = r.fields.keys ++
        ((assignments.map Assignment.column).filter fun c => decide (c ∉ r.fields.keys)).eraseDups ∧
      (assignAll assignments r).fields.keys.Nodup ∧
      (∀ column, (assignAll assignments r).get? column =
        (lastValue? (assigned assignments) column).or (r.get? column)) ∧
      assignAll assignments (assignAll assignments r) = assignAll assignments r ∧
      ∀ more, assignAll more (assignAll assignments r) = assignAll (assignments ++ more) r) ∧
    (∀ (σ : Type) (x : Session σ) (columns : List String) (tuples : List (List Value)),
      ∃ new rest, tuples.mapM (insertRecord columns) x = .ok new rest ∧
        List.Forall₂ (fun tuple r =>
          r.fields.keys = (columns.take (min columns.length tuple.length)).eraseDups ∧
          ∀ column, r.get? column = lastValue? (columns.zip (tuple.map Value.stored)) column)
          tuples new) ∧
    ∀ columns : List (String × ColumnType),
      (Schema.ofColumns columns).columnNames = (columns.map Prod.fst).eraseDups ∧
      ∀ column, (Schema.ofColumns columns).columnType? column = lastValue? columns column := by
  refine ⟨?_, ?_, ?_⟩
  · intro assignments r
    exact ⟨assignAll_id assignments r, keys_assignAll assignments r,
      (assignAll assignments r).fields.distinct, get?_assignAll assignments r,
      assignAll_assignAll_self assignments r, fun more => (assignAll_append assignments r more).symm⟩
  · intro σ x columns tuples
    refine ⟨_, _, mapM_insertRecord columns tuples x, ?_⟩
    apply (forall₂_newRecords x.ids columns tuples).imp
    intro tuple r hr
    rw [hr]
    refine ⟨keys_fieldsOf columns tuple, fun column => ?_⟩
    rw [Record.get?, hr]
    exact get?_fieldsOf columns tuple column
  · intro columns
    exact ⟨Schema.columnNames_ofColumns columns, Schema.columnType?_ofColumns columns⟩

end Engine

end DocBase
