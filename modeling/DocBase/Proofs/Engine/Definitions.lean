import DocBase.Proofs.Engine.Writing
import DocBase.Proofs.Store.CatalogFile

namespace DocBase

open DocBase.Action DocBase.Sql

namespace MemoryStore

/-- All tables have names that tables can have. Entries of the catalog may have others. -/
def Named (s : MemoryStore) : Prop := ∀ ⦃table⦄, Store.tableExists s table → isTableName table

variable {s : MemoryStore}

theorem named_empty : empty.Named := nofun

theorem Named.perform (h : s.Named) (call : Call) : (call.perform s).2.Named := by
  cases call with
  | loadTable table => exact h
  | tableExists table => exact h
  | loadCatalog => exact h
  | saveTable table records =>
    apply Call.settle_cases h
    intro s' hs other ho
    obtain ⟨hn, rfl⟩ := saveTable_eq_ok_iff.1 hs
    rw [tableExists_eq, OrderedMap.get?_assign] at ho
    split at ho
    · next he => rwa [he]
    · exact h (by rwa [tableExists_eq])
  | deleteTable table =>
    apply Call.settle_cases h
    intro s' hs other ho
    obtain ⟨-, -, rfl⟩ := deleteTable_eq_ok_iff.1 hs
    rw [tableExists_eq, OrderedMap.get?_erase] at ho
    split at ho
    · cases ho
    · exact h (by rwa [tableExists_eq])
  | saveCatalog catalog =>
    apply Call.settle_cases h
    intro s' hs other ho
    rw [saveCatalog_eq_ok_iff.1 hs] at ho
    exact h ho

theorem named_after (h : s.Named) (calls : List Call) : (after s calls).Named := by
  induction calls generalizing s with
  | nil => exact h
  | cons call calls ih => exact ih (h.perform call)

end MemoryStore

namespace Engine

variable {store : MemoryStore} {ids : IdSource} {text : String}

/-- The store without a table and its entry, whether it had them or not. -/
def without (store : MemoryStore) (table : String) : MemoryStore :=
  ⟨store.tables.erase table, store.catalog.drop table⟩

theorem without_of_not_exists {table : String} (h : ¬ Store.tableExists store table) :
    without store table = { store with catalog := store.catalog.drop table } := by
  rw [without, OrderedMap.erase_of_not_mem fun hk => h (OrderedMap.contains_iff.2 hk)]

theorem without_of_not_contains {table : String} (h : ¬ store.catalog.contains table) :
    without store table = { store with tables := store.tables.erase table } := by
  rw [without, Catalog.drop_of_not_contains h]

/-- A DROP takes the table and its entry away, and fails if there is neither. -/
theorem drop_eq (h : store.Named) (s : Drop) : drop s ⟨store, ids, []⟩ =
    if store.catalog.contains s.table ∨ Store.tableExists store s.table then
      .ok (.status ("Table " ++ s.table ++ " dropped")) ⟨without store s.table, ids, []⟩
    else .error (.tableNotFound s.table) ⟨without store s.table, ids, []⟩ := by
  rw [drop, bind_ok (look_ok (MemoryStore.loadCatalog_eq_ok_iff.2 rfl)), bind_ok (get_apply _)]
  by_cases ht : Store.tableExists store s.table
  · have hd : Store.deleteTable store s.table =
        .ok { store with tables := store.tables.erase s.table } :=
      MemoryStore.deleteTable_eq_ok_iff.2 ⟨h ht, ht, rfl⟩
    simp only [ht, or_true, if_true, Bool.not_true, Bool.false_eq_true, if_false]
    rw [bind_ok (change_ok hd)]
    by_cases hm : store.catalog.contains s.table
    · rw [if_pos hm]
      rfl
    · rw [if_neg hm, without_of_not_contains hm]
      rfl
  · simp only [ht, Bool.false_eq_true, if_false, Bool.not_false, if_true, or_false]
    by_cases hm : store.catalog.contains s.table
    · rw [if_pos hm, if_pos hm, without_of_not_exists ht]
      rfl
    · rw [if_neg hm, if_neg hm, without_of_not_exists ht, Catalog.drop_of_not_contains hm]
      rfl

/-- A CREATE leaves the table empty and its entry new, or fails at the name of the table. -/
theorem create_eq (s : Create) : create s ⟨store, ids, []⟩ =
    if isTableName s.table then
      .ok (.status ("Table " ++ s.table ++ " created"))
        ⟨⟨store.tables.assign s.table [], store.catalog.create s.table (.ofColumns s.columns)⟩,
          ids, if store.catalog.contains s.table then [.tableReplaced s.table] else []⟩
    else .error (.storage (.invalidTableName s.table)) ⟨store, ids, []⟩ := by
  rw [create, bind_ok (look_ok (MemoryStore.loadCatalog_eq_ok_iff.2 rfl))]
  by_cases hn : isTableName s.table
  · have hs : Store.saveTable store s.table [] =
        .ok { store with tables := store.tables.assign s.table [] } :=
      MemoryStore.saveTable_eq_ok_iff.2 ⟨hn, rfl⟩
    rw [if_pos hn, bind_ok (change_ok hs)]
    by_cases hm : store.catalog.contains s.table
    · rw [if_pos hm, if_pos hm]
      rfl
    · rw [if_neg hm, if_neg hm]
      rfl
  · have hs : Store.saveTable store s.table [] = .error (.invalidTableName s.table) := by
      change MemoryStore.saveTable store s.table [] = _
      rw [MemoryStore.saveTable, checkTableName_of_not_isTableName hn]
      rfl
    rw [if_neg hn, bind_error (change_error hs)]
    rfl

/-- What a DROP comes to. It ends well exactly if there was the table or an entry for it; in any
case there is neither behind it, and all else is as it was. -/
structure Drops (store : MemoryStore) (table : String) (o : Outcome MemoryStore) : Prop where
  succeeds_iff : (∃ result, o.result = .ok result) ↔
    store.catalog.contains table ∨ Store.tableExists store table
  fails : ∀ e, o.result = .error e → e = .tableNotFound table ∧ o.store = store
  table_gone : ¬ Store.tableExists o.store table
  entry_gone : ¬ o.store.catalog.contains table
  tables : ∀ other, other ≠ table → o.store.tables.get? other = store.tables.get? other
  names : o.store.catalog.tableNames = store.catalog.tableNames.filter fun name => name ≠ table
  entries : ∀ other, other ≠ table → o.store.catalog.schema? other = store.catalog.schema? other

/-- What a CREATE under a name that tables can have comes to. The table is there and empty, and its
entry holds the columns, at the place of the old entry or else at the end; all else is as it was. -/
structure Creates (store : MemoryStore) (s : Create) (o : Outcome MemoryStore) : Prop where
  succeeds : ∃ result, o.result = .ok result
  table : Store.tableExists o.store s.table ∧ Store.loadTable o.store s.table = .ok []
  schema : ∃ schema, o.store.catalog.schema? s.table = some schema ∧
    schema.columnNames = (s.columns.map Prod.fst).eraseDups ∧
    ∀ column, schema.columnType? column = lastValue? s.columns column
  tables : ∀ other, other ≠ s.table → o.store.tables.get? other = store.tables.get? other
  names : o.store.catalog.tableNames =
    if store.catalog.contains s.table then store.catalog.tableNames
    else store.catalog.tableNames ++ [s.table]
  entries : ∀ other, other ≠ s.table →
    o.store.catalog.schema? other = store.catalog.schema? other

theorem drops_without (table : String) (result : Except QueryError ResultSet)
    (warnings : List Warning)
    (hr : (∃ r, result = .ok r) ↔ store.catalog.contains table ∨ Store.tableExists store table)
    (he : ∀ e, result = .error e → e = .tableNotFound table) :
    Drops store table ⟨result, warnings, without store table, ids⟩ where
  succeeds_iff := hr
  fails e h := by
    have h : result = .error e := h
    refine ⟨he e h, ?_⟩
    have hnone : ¬ (store.catalog.contains table ∨ Store.tableExists store table) := by
      rw [← hr, h]
      exact nofun
    obtain ⟨hm, ht⟩ := not_or.1 hnone
    change without store table = store
    rw [without_of_not_exists ht, Catalog.drop_of_not_contains hm]
  table_gone := by
    rw [MemoryStore.tableExists_eq, without, OrderedMap.get?_erase, if_pos rfl]
    exact Bool.false_ne_true
  entry_gone h := (Catalog.contains_drop.1 h).1 rfl
  tables other hne := by rw [without, OrderedMap.get?_erase, if_neg hne]
  names := OrderedMap.keys_erase _ _
  entries other hne := by rw [without, Catalog.schema?_drop, if_neg hne]

theorem execute_drop {s : Drop} (h : store.Named) (hp : parse text = .ok (.drop s)) :
    Drops store s.table (execute store ids text) := by
  rw [execute_of_parse_ok hp, run, drop_eq h]
  split
  · next hc => exact drops_without _ _ _ ⟨fun _ => hc, fun _ => ⟨_, rfl⟩⟩ fun _ => nofun
  · next hc =>
    apply drops_without
    · exact ⟨nofun, fun hn => absurd hn hc⟩
    · intro e he
      cases he
      rfl

theorem execute_create {s : Create} (hp : parse text = .ok (.create s)) (hn : isTableName s.table) :
    Creates store s (execute store ids text) := by
  rw [execute_of_parse_ok hp, run, create_eq, if_pos hn]
  have hg : (store.tables.assign s.table []).get? s.table = some [] := by
    rw [OrderedMap.get?_assign, if_pos rfl]
  exact {
    succeeds := ⟨_, rfl⟩
    table := ⟨by
      rw [MemoryStore.tableExists_eq]
      exact Option.isSome_of_eq_some hg, MemoryStore.loadTable_eq_ok_iff.2 ⟨hn, hg⟩⟩
    schema := by
      refine ⟨.ofColumns s.columns, ?_, Schema.columnNames_ofColumns _,
        Schema.columnType?_ofColumns _⟩
      exact (Catalog.schema?_create _ _ _ _).trans (if_pos rfl)
    tables := fun other hne => by
      exact (OrderedMap.get?_assign _ _ _ _).trans (if_neg hne)
    names := by
      have hk := store.catalog.tables.keys_assign s.table (.ofColumns s.columns)
      simp only [← OrderedMap.contains_iff] at hk
      exact hk
    entries := fun other hne => (Catalog.schema?_create _ _ _ _).trans (if_neg hne) }

theorem execute_create_refused {s : Create} (hp : parse text = .ok (.create s))
    (hn : ¬ isTableName s.table) :
    (execute store ids text).result = .error (.storage (.invalidTableName s.table)) ∧
      (execute store ids text).store = store := by
  rw [execute_of_parse_ok hp, run, create_eq, if_neg hn]
  exact ⟨rfl, rfl⟩

/-- Whatever calls a store in memory has seen, DROP takes a table and its entry away if there is one
of them, and else fails and changes nothing; CREATE makes both or refuses the name and changes
nothing. -/
theorem definitions_settle (calls : List Call) (ids : IdSource) {dropping creating : String}
    {d : Drop} {c : Create} (hd : parse dropping = .ok (.drop d))
    (hc : parse creating = .ok (.create c)) :
    let store := after MemoryStore.empty calls
    let created := execute store ids creating
    Drops store d.table (execute store ids dropping) ∧
    (isTableName c.table → Creates store c created) ∧
    (¬ isTableName c.table →
      created.result = .error (.storage (.invalidTableName c.table)) ∧ created.store = store) := by
  intro store created
  have hnamed : store.Named := MemoryStore.named_after MemoryStore.named_empty calls
  exact ⟨execute_drop hnamed hd, execute_create hc, execute_create_refused hc⟩

/-- An entry that no table can have is dropped, and a table without an entry is created anew. -/
theorem definitions_settle_where_nothing_agrees :
    let catalog : Catalog := ⟨.ofAssignments [("../t", .ofColumns [("a", .integer)]),
      ("u", .ofColumns [("b", .text)])]⟩
    let calls : List Call := [.saveTable "t" [⟨⟨"1"⟩, .empty⟩], .saveTable "../t" [],
      .saveCatalog catalog]
    let store := after MemoryStore.empty calls
    let dropped := execute store ⟨0, 0, 0⟩ "DROP TABLE \x60../t\x60"
    let created := execute store ⟨0, 0, 0⟩ "CREATE TABLE t (c INT)"
    (∃ result, dropped.result = .ok result) ∧ dropped.store.catalog.tableNames = ["u"] ∧
      created.store.catalog.tableNames = ["../t", "u", "t"] ∧
      Store.loadTable created.store "t" = .ok [] := by
  have hd : parse "DROP TABLE \x60../t\x60" = .ok (.drop ⟨"../t"⟩) :=
    parse_eq_ok_of_toOption (by decide +kernel)
  have hc : parse "CREATE TABLE t (c INT)" = .ok (.create ⟨"t", [("c", .integer)]⟩) :=
    parse_eq_ok_of_toOption (by decide +kernel)
  intro catalog calls store dropped created
  obtain ⟨hdrop, hcreate, -⟩ := definitions_settle calls ⟨0, 0, 0⟩ hd hc
  have hcreate := hcreate (by decide)
  have hentry : store.catalog.contains "../t" := by decide +kernel
  refine ⟨hdrop.succeeds_iff.2 (.inl hentry), ?_, ?_, hcreate.table.2⟩
  · exact hdrop.names.trans (by decide +kernel)
  · exact hcreate.names.trans (by decide +kernel)

end Engine

end DocBase
