import DocBase.Proofs.Catalog
import DocBase.Proofs.Query.Order
import DocBase.Store

namespace DocBase

theorem checkTableName_eq_ok_iff {table : String} :
    checkTableName table = .ok () ↔ isTableName table := by
  rw [checkTableName]
  split
  · next h => simp [h]
  · next h => simp [h]

theorem checkTableName_of_not_isTableName {table : String} (h : ¬ isTableName table) :
    checkTableName table = .error (.invalidTableName table) := by
  rw [checkTableName, if_neg h]

/-- The records of each table that exists, and the catalog. -/
structure View where
  tables : String → Option (List Record)
  catalog : Catalog

namespace View

def empty : View := ⟨fun _ => none, .empty⟩

def write (v : View) (table : String) (records : Option (List Record)) : View :=
  { v with tables := fun t => if t = table then records else v.tables t }

def declare (v : View) (catalog : Catalog) : View := { v with catalog := catalog }

theorem tables_write (v : View) (table other : String) (records : Option (List Record)) :
    (v.write table records).tables other = if other = table then records else v.tables other := rfl

theorem write_self (v : View) (table : String) : v.write table (v.tables table) = v := by
  have ht : (fun t => if t = table then v.tables table else v.tables t) = v.tables := by
    funext t
    split
    · next he => rw [he]
    · rfl
  rw [write, ht]

theorem write_none_of_absent {v : View} {table : String} (h : v.tables table = none) :
    v.write table none = v := by
  rw [← h, write_self]

end View

/-- The operations of a kind of store act on what it shows as on tables and a catalog. Records may
come back changed, but with their identifiers and without NaN if they were without. -/
structure Faithful (σ : Type) [Store σ] (Shows : σ → View → Prop) (keep : Record → Record) :
    Prop where
  loadTable {s : σ} {v : View} {table : String} {records : List Record} (h : Shows s v) :
    Store.loadTable s table = .ok records ↔ v.tables table = some records
  tableExists {s : σ} {v : View} {table : String} (h : Shows s v) :
    Store.tableExists s table ↔ (v.tables table).isSome
  saveTable {s s' : σ} {v : View} {table : String} {records : List Record} (h : Shows s v) :
    Store.saveTable s table records = .ok s' → Shows s' (v.write table (some (records.map keep)))
  deleteTable {s s' : σ} {v : View} {table : String} (h : Shows s v) :
    Store.deleteTable s table = .ok s' → Shows s' (v.write table none)
  loadCatalog {s : σ} {v : View} (h : Shows s v) : Store.loadCatalog s = .ok v.catalog
  saveCatalog {s : σ} {v : View} {catalog : Catalog} (h : Shows s v) (hn : catalog.Named) :
    ∃ s', Store.saveCatalog s catalog = .ok s' ∧ Shows s' (v.declare catalog)
  id_keep (r : Record) : (keep r).id = r.id
  ordered_keep {r : Record} : r.Ordered → (keep r).Ordered

end DocBase
