import DocBase.Catalog
import DocBase.Proofs.OrderedMap

namespace DocBase

/-- The types that their own names stand for. -/
def ColumnType.Named (type : ColumnType) : Prop := ofName type.name = type

theorem ColumnType.named_ofName (name : String) : (ofName name).Named := by
  have haliases : ∀ entry ∈ aliases, entry.1.Named := by
    unfold Named
    decide
  by_cases ho : ofName name = other name
  · rw [Named, ho]
    exact ho
  · rw [ofName] at ho ⊢
    split
    · next type names hf => exact haliases (type, names) (List.mem_of_find?_eq_some hf)
    · next hf =>
      rw [hf] at ho
      exact absurd rfl ho

def Schema.Named (schema : Schema) : Prop := ∀ entry ∈ schema.columns.entries, entry.2.Named

def Catalog.Named (c : Catalog) : Prop := ∀ entry ∈ c.tables.entries, entry.2.Named

namespace Catalog

theorem contains_iff {c : Catalog} {table : String} : c.contains table ↔ table ∈ c.tableNames :=
  OrderedMap.contains_iff

theorem schema?_create (c : Catalog) (table other : String) (schema : Schema) :
    (c.create table schema).schema? other =
      if other = table then some schema else c.schema? other :=
  c.tables.get?_assign table other schema

theorem schema?_drop (c : Catalog) (table other : String) :
    (c.drop table).schema? other = if other = table then none else c.schema? other :=
  c.tables.get?_erase table other

theorem schema?_of_not_contains {c : Catalog} {table : String} (h : ¬ c.contains table) :
    c.schema? table = none := by
  rw [contains, OrderedMap.contains_eq_isSome] at h
  simpa [schema?] using h

theorem contains_create {c : Catalog} {table other : String} {schema : Schema} :
    (c.create table schema).contains other ↔ other = table ∨ c.contains other := by
  simp only [contains_iff]
  exact OrderedMap.mem_keys_assign

theorem contains_drop {c : Catalog} {table other : String} :
    (c.drop table).contains other ↔ other ≠ table ∧ c.contains other := by
  simp only [contains_iff]
  exact OrderedMap.mem_keys_erase

theorem drop_of_not_contains {c : Catalog} {table : String} (h : ¬ c.contains table) :
    c.drop table = c := by
  rw [contains, OrderedMap.contains_iff] at h
  exact congrArg mk (OrderedMap.erase_of_not_mem h)

theorem columnNames_create (c : Catalog) (table other : String) (schema : Schema) :
    (c.create table schema).columnNames other =
      if other = table then schema.columnNames else c.columnNames other := by
  rw [columnNames, schema?_create]
  by_cases h : other = table
  · rw [if_pos h, if_pos h]
  · rw [if_neg h, if_neg h]
    rfl

theorem columnNames_drop (c : Catalog) (table other : String) :
    (c.drop table).columnNames other = if other = table then [] else c.columnNames other := by
  rw [columnNames, schema?_drop]
  by_cases h : other = table
  · rw [if_pos h, if_pos h]
  · rw [if_neg h, if_neg h]
    rfl

theorem columnNames_of_not_contains {c : Catalog} {table : String} (h : ¬ c.contains table) :
    c.columnNames table = [] := by
  rw [columnNames, schema?_of_not_contains h]

end Catalog

end DocBase
