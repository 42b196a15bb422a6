import DocBase.Proofs.Catalog
import DocBase.Proofs.Engine.Transition
import DocBase.Proofs.Store.View
import DocBase.Store.Memory

namespace DocBase

namespace MemoryStore

variable {s s' : MemoryStore} {table : String} {records : List Record}

theorem tableExists_eq (s : MemoryStore) (table : String) :
    Store.tableExists s table = (s.tables.get? table).isSome :=
  s.tables.contains_eq_isSome table

theorem loadTable_eq_ok_iff : Store.loadTable s table = .ok records ↔
    isTableName table ∧ s.tables.get? table = some records := by
  change loadTable s table = _ ↔ _
  by_cases hn : isTableName table
  · rw [loadTable, checkTableName_eq_ok_iff.2 hn]
    cases hg : s.tables.get? table with
    | none => simp [bind, Except.bind, throw, throwThe, MonadExceptOf.throw, hn]
    | some found => simp [bind, Except.bind, pure, Except.pure, hn]
  · rw [loadTable, checkTableName_of_not_isTableName hn]
    simp [bind, Except.bind, hn]

theorem saveTable_eq_ok_iff : Store.saveTable s table records = .ok s' ↔
    isTableName table ∧ s' = { s with tables := s.tables.assign table records } := by
  change saveTable s table records = _ ↔ _
  by_cases hn : isTableName table
  · rw [saveTable, checkTableName_eq_ok_iff.2 hn]
    simp [bind, Except.bind, pure, Except.pure, hn, eq_comm]
  · rw [saveTable, checkTableName_of_not_isTableName hn]
    simp [bind, Except.bind, hn]

theorem deleteTable_eq_ok_iff : Store.deleteTable s table = .ok s' ↔
    isTableName table ∧ s.tables.contains table ∧
      s' = { s with tables := s.tables.erase table } := by
  change deleteTable s table = _ ↔ _
  by_cases hn : isTableName table
  · rw [deleteTable, checkTableName_eq_ok_iff.2 hn]
    by_cases hc : s.tables.contains table
    · simp [bind, Except.bind, pure, Except.pure, hn, hc, eq_comm]
    · simp [bind, Except.bind, throw, throwThe, MonadExceptOf.throw, hn, hc]
  · rw [deleteTable, checkTableName_of_not_isTableName hn]
    simp [bind, Except.bind, hn]

theorem saveCatalog_eq_ok_iff {catalog : Catalog} :
    Store.saveCatalog s catalog = .ok s' ↔ s' = { s with catalog := catalog } := by
  change Except.ok _ = Except.ok _ ↔ _
  simp [eq_comm]

theorem loadCatalog_eq_ok_iff {catalog : Catalog} :
    Store.loadCatalog s = .ok catalog ↔ catalog = s.catalog := by
  change Except.ok _ = Except.ok _ ↔ _
  simp [eq_comm]

theorem discard_eq_ok (h : Engine.discard s table = .ok s') :
    (∀ other ∈ s'.tables.keys, other ∈ s.tables.keys) ∧
    (∀ other records, s'.tables.get? other = some records →
      other ≠ table ∧ s.tables.get? other = some records) ∧ s'.catalog = s.catalog := by
  rw [Engine.discard] at h
  split at h
  · obtain ⟨-, -, rfl⟩ := deleteTable_eq_ok_iff.1 h
    refine ⟨?_, ?_, rfl⟩
    · intro other hm
      exact (OrderedMap.mem_keys_erase.1 hm).2
    · intro other records hg
      rw [OrderedMap.get?_erase] at hg
      split at hg
      · cases hg
      · next hne => exact ⟨hne, hg⟩
  · next hx =>
    cases h
    refine ⟨fun _ hm => hm, ?_, rfl⟩
    intro other records hg
    refine ⟨?_, hg⟩
    intro he
    subst he
    rw [tableExists_eq, hg] at hx
    exact hx rfl

/-- What a store in memory shows: just what it holds. -/
structure Shows (s : MemoryStore) (v : View) : Prop where
  tables (table : String) : v.tables table = s.tables.get? table
  catalog : v.catalog = s.catalog
  named {table : String} : (s.tables.get? table).isSome → isTableName table

theorem shows_empty : empty.Shows .empty := ⟨fun _ => rfl, rfl, nofun⟩

theorem Shows.saveTable {v : View} (h : s.Shows v) (hs : Store.saveTable s table records = .ok s') :
    s'.Shows (v.write table (some records)) := by
  obtain ⟨hn, rfl⟩ := saveTable_eq_ok_iff.1 hs
  refine ⟨?_, h.catalog, ?_⟩
  · intro other
    rw [View.tables_write, OrderedMap.get?_assign, h.tables]
  · intro other ho
    rw [OrderedMap.get?_assign] at ho
    split at ho
    · next he => rwa [he]
    · exact h.named ho

theorem Shows.deleteTable {v : View} (h : s.Shows v) (hs : Store.deleteTable s table = .ok s') :
    s'.Shows (v.write table none) := by
  obtain ⟨-, -, rfl⟩ := deleteTable_eq_ok_iff.1 hs
  refine ⟨?_, h.catalog, ?_⟩
  · intro other
    rw [View.tables_write, OrderedMap.get?_erase, h.tables]
  · intro other ho
    rw [OrderedMap.get?_erase] at ho
    split at ho
    · cases ho
    · exact h.named ho

theorem faithful : Faithful MemoryStore Shows id where
  loadTable h := by
    rw [loadTable_eq_ok_iff, h.tables]
    apply and_iff_right_of_imp
    intro hg
    exact h.named (Option.isSome_of_eq_some hg)
  tableExists h := by rw [tableExists_eq, h.tables]
  saveTable h hs := by
    rw [List.map_id]
    exact h.saveTable hs
  deleteTable h hs := h.deleteTable hs
  loadCatalog h := congrArg Except.ok h.catalog.symm
  saveCatalog h _ := ⟨_, rfl, h.tables, rfl, h.named⟩
  id_keep _ := rfl
  ordered_keep h := h

end MemoryStore

end DocBase
