import DocBase.Proofs.Query.Select
import Mathlib.Data.List.Forall2

namespace DocBase

/-- Two records with the same fields in the named columns: absent in both, or with one value. -/
def Record.Agree (names : List String) (a b : Record) : Prop :=
  ∀ name ∈ names, a.get? name = b.get? name

instance (names : List String) (a b : Record) : Decidable (a.Agree names b) :=
  inferInstanceAs (Decidable (∀ name ∈ names, a.get? name = b.get? name))

theorem Record.Agree.of_subset {names names' : List String} {a b : Record} (h : a.Agree names b)
    (hsub : names' ⊆ names) : a.Agree names' b := by
  intro name hname
  exact h name (hsub hname)

namespace Sql

def Expression.columnNames : Expression → List String
  | logical left _ right => left.columnNames ++ right.columnNames
  | comparison column _ _ => [column.name]

/-- The columns that are looked at in each record: those of the condition, of the keys and of the
list. A SELECT of all fields names none. -/
def Select.columnNames (s : Select) : List String :=
  (s.condition.elim [] Expression.columnNames ++ s.order.map fun key => key.column.name) ++
    match s.projection with
    | .all => []
    | .columns columns => columns.map ColumnRef.name

theorem Expression.holds_congr {a b : Record} (condition : Expression)
    (h : a.Agree condition.columnNames b) : condition.Holds a ↔ condition.Holds b := by
  induction condition with
  | logical left connective right ihl ihr =>
    have hl := ihl (h.of_subset (List.subset_append_left _ _))
    have hr := ihr (h.of_subset (List.subset_append_right _ _))
    cases connective with
    | and => exact and_congr hl hr
    | or => exact or_congr hl hr
  | comparison column operator literal =>
    have hc : a.get? column.name = b.get? column.name := h _ (.head _)
    rw [← Operator.holds_iff, ← Operator.holds_iff, hc]

end Sql

namespace Query

open Sql

theorem compareRecords_congr {keys : List OrderKey} {a a' b b' : Record}
    (ha : a.Agree (keys.map fun key => key.column.name) a')
    (hb : b.Agree (keys.map fun key => key.column.name) b') :
    compareRecords keys a b = compareRecords keys a' b' := by
  induction keys with
  | nil => rfl
  | cons key keys ih =>
    have hkey : compareByKey key a b = compareByKey key a' b' := by
      rw [compareByKey, ha _ (.head _), hb _ (.head _)]
      rfl
    rw [compareRecords, hkey, ih (ha.of_subset (List.subset_cons_self _ _))
      (hb.of_subset (List.subset_cons_self _ _))]
    rfl

theorem project_congr {columns : List ColumnRef} {a b : Record}
    (h : a.Agree (columns.map ColumnRef.name) b) : project columns a = project columns b := by
  apply List.foldl_rel rfl
  rintro column hcolumn row _ rfl
  rw [h _ (List.mem_map_of_mem hcolumn)]

section
variable {α β : Type} {R : α → β → Prop} {as : List α} {bs : List β}

/-- Related lists are sorted alike where related items compare alike: the order is found on the
pairs of items. -/
theorem forall₂_mergeSort {le : α → α → Bool} {le' : β → β → Bool} (h : List.Forall₂ R as bs)
    (hle : ∀ a b a' b', R a b → R a' b' → le a a' = le' b b') :
    List.Forall₂ R (as.mergeSort le) (bs.mergeSort le') := by
  obtain ⟨hlength, hR⟩ := List.forall₂_iff_zip.1 h
  have hfst := List.map_mergeSort (l := as.zip bs) (f := Prod.fst) (s := le)
    (r := fun p q => le p.1 q.1) fun _ _ _ _ => rfl
  have hsnd := List.map_mergeSort (l := as.zip bs) (f := Prod.snd) (s := le')
    (r := fun p q => le p.1 q.1) fun p hp q hq => hle _ _ _ _ (hR hp) (hR hq)
  rw [List.map_fst_zip (Nat.le_of_eq hlength)] at hfst
  rw [List.map_snd_zip (Nat.le_of_eq hlength.symm)] at hsnd
  rw [← hfst, ← hsnd, List.forall₂_map_left_iff, List.forall₂_map_right_iff, List.forall₂_same]
  intro p hp
  exact hR (List.mem_mergeSort.1 hp)

theorem forall₂_page (h : List.Forall₂ R as bs) (limit : Limit) :
    List.Forall₂ R (page as limit) (page bs limit) :=
  List.forall₂_take _ (List.forall₂_drop _ h)

end

section
variable {names : List String} {records records' : List Record}
  (h : List.Forall₂ (Record.Agree names) records records')
include h

theorem forall₂_found (condition : Option Expression)
    (hsub : condition.elim [] Expression.columnNames ⊆ names) :
    List.Forall₂ (Record.Agree names) (found condition records) (found condition records') := by
  cases condition with
  | none => exact h
  | some condition =>
    apply List.rel_filter _ h
    intro a b hab
    change decide _ = true ↔ decide _ = true
    rw [decide_eq_true_iff, decide_eq_true_iff]
    exact condition.holds_congr (hab.of_subset hsub)

theorem forall₂_sort (keys : List OrderKey)
    (hsub : (keys.map fun key => key.column.name) ⊆ names) :
    List.Forall₂ (Record.Agree names) (sort records keys) (sort records' keys) := by
  apply forall₂_mergeSort h
  intro a b a' b' hab hab'
  rw [compareRecords_congr (hab.of_subset hsub) (hab'.of_subset hsub)]

end

/-- A SELECT of columns answers the same from records that agree on the columns it names, whatever
their identifiers and their other fields. -/
theorem rows_eq_of_agree {records records' : List Record} (columns : List ColumnRef)
    (table : String) (condition : Option Expression) (order : List OrderKey) (limit : Option Limit)
    (distinct : (records.map Record.id).Nodup) (distinct' : (records'.map Record.id).Nodup)
    (h : List.Forall₂
      (Record.Agree (Select.columnNames ⟨.columns columns, table, condition, order, limit⟩))
      records records') :
    Select.rows ⟨.columns columns, table, condition, order, limit⟩ records =
      Select.rows ⟨.columns columns, table, condition, order, limit⟩ records' := by
  have hfound := forall₂_found h condition (by simp [Select.columnNames])
  have hsorted := forall₂_sort hfound order (by simp [Select.columnNames])
  rw [rows_eq_map_project distinct, rows_eq_map_project distinct', ← List.forall₂_eq_eq_eq,
    List.forall₂_map_left_iff, List.forall₂_map_right_iff]
  cases limit with
  | none =>
    apply hsorted.imp
    intro a b hab
    exact project_congr (hab.of_subset (by simp [Select.columnNames]))
  | some limit =>
    apply (forall₂_page hsorted limit).imp
    intro a b hab
    exact project_congr (hab.of_subset (by simp [Select.columnNames]))

/-- Tables with other identifiers, another field and other places for the fields. -/
theorem rows_eq_of_agree_other_fields :
    let name : ColumnRef := ⟨none, "name"⟩
    let age : ColumnRef := ⟨none, "age"⟩
    let records : List Record :=
      [⟨⟨"1"⟩, .ofAssignments [("name", .text "Ann"), ("age", .integer 30)]⟩,
        ⟨⟨"2"⟩, .ofAssignments [("name", .text "Bob"), ("note", .null)]⟩]
    let records' : List Record :=
      [⟨⟨"2"⟩, .ofAssignments [("age", .integer 30), ("note", .text "x"), ("name", .text "Ann")]⟩,
        ⟨⟨"7"⟩, .ofAssignments [("name", .text "Bob")]⟩]
    let s : Select := ⟨.columns [name], "people", some (.comparison age .isNot .null),
      [⟨age, .descending⟩, ⟨name, .ascending⟩], some ⟨1, 0⟩⟩
    (records.map Record.id).Nodup ∧ (records'.map Record.id).Nodup ∧
      List.Forall₂ (Record.Agree s.columnNames) records records' ∧
      s.rows records = s.rows records' := by
  intro name age records records' s
  have distinct : (records.map Record.id).Nodup := by decide
  have distinct' : (records'.map Record.id).Nodup := by decide
  have agree : List.Forall₂ (Record.Agree s.columnNames) records records' := by decide +kernel
  exact ⟨distinct, distinct', agree, rows_eq_of_agree _ _ _ _ _ distinct distinct' agree⟩

end Query

end DocBase
