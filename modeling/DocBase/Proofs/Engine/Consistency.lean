import DocBase.Proofs.Engine.Run
import DocBase.Proofs.Record
import DocBase.Proofs.Sql.Contents
import DocBase.Proofs.Store.Directory
import DocBase.Proofs.Store.Memory

namespace DocBase

open Engine Sql

/-- Records whose identifiers were given out, each to one of them. -/
structure IdSource.Numbers (ids : IdSource) (records : List Record) : Prop where
  distinct : (records.map Record.id).Nodup
  given : ∀ r ∈ records, ∃ n < ids.count, r.id = ids.idAt n

namespace IdSource.Numbers

variable {ids : IdSource} {records : List Record}

theorem nil : ids.Numbers [] := ⟨.nil, nofun⟩

theorem skip (h : ids.Numbers records) (n : Nat) : (ids.skip n).Numbers records where
  distinct := h.distinct
  given r hr := by
    obtain ⟨k, hk, he⟩ := h.given r hr
    exact ⟨k, Nat.lt_of_lt_of_le hk (Nat.le_add_right _ _), he⟩

theorem map {f : Record → Record} (hf : ∀ r, (f r).id = r.id) (h : ids.Numbers records) :
    ids.Numbers (records.map f) where
  distinct := by
    have he : (records.map f).map Record.id = records.map Record.id := by
      rw [List.map_map]
      apply List.map_congr_left
      intro r _
      exact hf r
    rw [he]
    exact h.distinct
  given r hr := by
    obtain ⟨old, hm, rfl⟩ := List.mem_map.1 hr
    rw [hf]
    exact h.given old hm

theorem concat (h : ids.Numbers records) (fields : OrderedMap String Value) :
    (ids.skip 1).Numbers (records ++ [⟨ids.idAt ids.count, fields⟩]) where
  distinct := by
    rw [List.map_append, List.nodup_append]
    refine ⟨h.distinct, by simp, ?_⟩
    intro id hid other ho he
    obtain ⟨r, hr, rfl⟩ := List.mem_map.1 hid
    obtain ⟨n, hn, hg⟩ := h.given r hr
    rw [List.eq_of_mem_singleton ho, hg] at he
    exact absurd (idAt_inj he) (Nat.ne_of_lt hn)
  given r hr := by
    rcases List.mem_append.1 hr with hr | hr
    · exact (h.skip 1).given r hr
    · rw [List.eq_of_mem_singleton hr]
      exact ⟨ids.count, Nat.lt_succ_self _, rfl⟩

theorem append_newRecords (h : ids.Numbers records) (columns : List String)
    (tuples : List (List Value)) :
    (ids.skip tuples.length).Numbers (records ++ newRecords ids columns tuples) := by
  induction tuples generalizing ids records with
  | nil =>
    rw [newRecords, List.append_nil]
    exact h.skip 0
  | cons tuple tuples ih =>
    have hnext := ih (h.concat (fieldsOf columns tuple))
    have hskip : (ids.skip 1).skip tuples.length = ids.skip (tuple :: tuples).length := by
      simp only [IdSource.skip, List.length_cons, Nat.add_assoc, Nat.add_comm 1]
    rw [List.append_assoc, hskip] at hnext
    exact hnext

end IdSource.Numbers

theorem Record.Ordered.assign {r : Record} (h : r.Ordered) (column : String) {v : Value}
    (hv : v.Ordered) : (r.assign column v.stored).Ordered := by
  intro entry he
  rcases OrderedMap.mem_entries_assign.1 he with rfl | ⟨-, he⟩
  · exact hv.stored
  · exact h entry he

namespace Engine

theorem assignAll_id (assignments : List Assignment) (r : Record) :
    (assignAll assignments r).id = r.id := by
  induction assignments generalizing r with
  | nil => rfl
  | cons a assignments ih => exact ih _

theorem ordered_assignAll {assignments : List Assignment} {r : Record}
    (ha : ∀ a ∈ assignments, a.literal.Ordered) (h : r.Ordered) :
    (assignAll assignments r).Ordered := by
  induction assignments generalizing r with
  | nil => exact h
  | cons a assignments ih =>
    exact ih (fun b hb => ha b (.tail _ hb)) (h.assign a.column (ha a (.head _)))

theorem ordered_fieldsOf (columns : List String) {tuple : List Value}
    (ht : ∀ literal ∈ tuple, literal.Ordered) (id : RecordId) :
    Record.Ordered ⟨id, fieldsOf columns tuple⟩ := by
  intro entry he
  obtain ⟨⟨column, literal⟩, hm, rfl⟩ := List.mem_map.1 (OrderedMap.mem_of_mem_ofAssignments he)
  exact (ht literal (List.of_mem_zip hm).2).stored

theorem ordered_newRecords (ids : IdSource) (columns : List String) {tuples : List (List Value)}
    (ht : ∀ tuple ∈ tuples, ∀ literal ∈ tuple, literal.Ordered) :
    ∀ r ∈ newRecords ids columns tuples, r.Ordered := by
  induction tuples generalizing ids with
  | nil => exact nofun
  | cons tuple tuples ih =>
    intro r hr
    rcases List.mem_cons.1 hr with rfl | hr
    · exact ordered_fieldsOf columns (ht tuple (.head _)) _
    · exact ih (ids.skip 1) (fun t h => ht t (.tail _ h)) r hr

end Engine

structure Schema.Declarable (schema : Schema) : Prop where
  named : schema.Named
  nonempty : schema.columnNames ≠ []

theorem Schema.declarable_ofColumns {columns : List (String × ColumnType)} (hne : columns ≠ [])
    (hn : ∀ column ∈ columns, column.2.Named) : (ofColumns columns).Declarable where
  named entry he := hn entry (OrderedMap.mem_of_mem_ofAssignments he)
  nonempty he := by
    obtain ⟨column, hc⟩ := List.exists_mem_of_ne_nil columns hne
    have hm := OrderedMap.mem_keys_ofAssignments.2 (List.mem_map.2 ⟨column, hc, rfl⟩)
    rw [columnNames, ofColumns] at he
    rw [he] at hm
    exact absurd hm List.not_mem_nil

/-- Records of a table: their identifiers were given out and they hold no NaN. -/
structure IdSource.Admits (ids : IdSource) (records : List Record) : Prop where
  numbered : ids.Numbers records
  ordered : ∀ r ∈ records, r.Ordered

/-- A catalog of exactly the tables that exist. -/
structure View.Consistent (v : View) (ids : IdSource) : Prop where
  declared (table : String) : v.catalog.contains table ↔ (v.tables table).isSome
  schemas : ∀ entry ∈ v.catalog.tables.entries, entry.2.Declarable
  stored {table : String} {records : List Record} :
    v.tables table = some records → ids.Admits records

namespace View.Consistent

variable {v : View} {ids : IdSource} {table : String} {n : Nat}

theorem empty (ids : IdSource) : View.empty.Consistent ids :=
  ⟨fun _ => iff_of_false nofun nofun, nofun, nofun⟩

theorem named (h : v.Consistent ids) : v.catalog.Named := by
  intro entry he
  exact (h.schemas entry he).named

theorem skip (h : v.Consistent ids) (n : Nat) : v.Consistent (ids.skip n) where
  declared := h.declared
  schemas := h.schemas
  stored ht := ⟨(h.stored ht).numbered.skip n, (h.stored ht).ordered⟩

theorem change (h : v.Consistent ids) {records : Option (List Record)} {catalog : Catalog}
    (hc : ∀ other, catalog.contains other ↔
      if other = table then records.isSome else v.catalog.contains other)
    (hs : ∀ entry ∈ catalog.tables.entries, entry.2.Declarable)
    (hr : ∀ new ∈ records, (ids.skip n).Admits new) :
    ((v.write table records).declare catalog).Consistent (ids.skip n) where
  declared other := by
    change catalog.contains other ↔ ((v.write table records).tables other).isSome
    rw [hc, tables_write]
    split
    · exact .rfl
    · exact h.declared other
  schemas := hs
  stored {other found} hg := by
    change (v.write table records).tables other = some found at hg
    rw [tables_write] at hg
    split at hg
    · exact hr found hg
    · exact (h.skip n).stored hg

theorem rewrite (h : v.Consistent ids) {records : List Record} (ht : (v.tables table).isSome)
    (hr : (ids.skip n).Admits records) :
    (v.write table (some records)).Consistent (ids.skip n) := by
  change ((v.write table (some records)).declare v.catalog).Consistent (ids.skip n)
  refine h.change ?_ h.schemas ?_
  · intro other
    split
    · next he => exact iff_of_true (he ▸ (h.declared table).2 ht) rfl
    · exact .rfl
  · intro new hn
    cases hn
    exact hr

theorem create (h : v.Consistent ids) (table : String) {schema : Schema} (hs : schema.Declarable) :
    ((v.write table (some [])).declare (v.catalog.create table schema)).Consistent ids := by
  apply h.change (n := 0)
  · intro other
    rw [Catalog.contains_create]
    split
    · next he => exact iff_of_true (.inl he) rfl
    · next he => exact or_iff_right he
  · intro entry he
    rcases OrderedMap.mem_entries_assign.1 he with rfl | ⟨-, he⟩
    · exact hs
    · exact h.schemas entry he
  · intro new hn
    cases hn
    exact ⟨.nil, nofun⟩

theorem drop (h : v.Consistent ids) (table : String) :
    ((v.write table none).declare (v.catalog.drop table)).Consistent ids := by
  apply h.change (n := 0)
  · intro other
    rw [Catalog.contains_drop]
    split
    · next he => exact iff_of_false (fun hd => hd.1 he) nofun
    · next he => exact and_iff_right he
  · intro entry he
    exact h.schemas entry (OrderedMap.mem_entries_erase.1 he).1
  · intro new hn
    cases hn

end View.Consistent

namespace Engine

variable {σ : Type} [Store σ] {Shows : σ → View → Prop} {keep : Record → Record}
  {store store' : σ} {v : View} {ids ids' : IdSource}

/-- What INSERT, UPDATE and DELETE make of admitted records is admitted. -/
theorem Rewrites.admitted (F : Faithful σ Shows keep) (hs : Shows store v) (hv : v.Consistent ids)
    {s : Statement} (hsound : s.Sound) {records : List Record} {message : String}
    (h : Rewrites store ids s records message ids') :
    (v.tables s.table).isSome ∧ ∃ n, ids' = ids.skip n ∧ ids'.Admits records := by
  cases h with
  | @insert s columns records hc hl =>
    have ht := (F.loadTable hs).1 hl
    have ha := hv.stored ht
    refine ⟨Option.isSome_of_eq_some ht, _, rfl, ha.numbered.append_newRecords _ _, ?_⟩
    intro r hr
    rcases List.mem_append.1 hr with hr | hr
    · exact ha.ordered r hr
    · exact ordered_newRecords ids columns hsound r hr
  | @update s records hl =>
    have ht := (F.loadTable hs).1 hl
    have ha := hv.stored ht
    refine ⟨Option.isSome_of_eq_some ht, 0, rfl, ha.numbered.map (assignAll_id _), ?_⟩
    intro r hr
    obtain ⟨old, hm, rfl⟩ := List.mem_map.1 hr
    exact ordered_assignAll hsound (ha.ordered old hm)
  | delete hl =>
    have ht := (F.loadTable hs).1 hl
    exact ⟨Option.isSome_of_eq_some ht, 0, rfl, .nil, nofun⟩

theorem shows_of_discard (F : Faithful σ Shows keep) (hs : Shows store v) {table : String}
    (h : discard store table = .ok store') : Shows store' (v.write table none) := by
  rw [discard] at h
  split at h
  · exact F.deleteTable hs h
  · next hx =>
    cases h
    rw [F.tableExists hs, Bool.not_eq_true, Option.isSome_eq_false_iff,
      Option.isNone_iff_eq_none] at hx
    rwa [View.write_none_of_absent hx]

/-- The catalog of a consistent view can always be saved, so no statement fails halfway. -/
theorem saveCatalog_of_consistent (F : Faithful σ Shows keep) (hs : Shows store v)
    {catalog : Catalog} (hv : (v.declare catalog).Consistent ids) :
    ∃ store', Store.saveCatalog store catalog = .ok store' ∧ Shows store' (v.declare catalog) :=
  F.saveCatalog hs hv.named

theorem Transition.consistent (F : Faithful σ Shows keep) (hs : Shows store v)
    (hv : v.Consistent ids) {s : Statement} (hsound : s.Sound) {o : Outcome σ}
    (h : Transition store ids s o) : ∃ v', Shows o.store v' ∧ v'.Consistent o.ids := by
  have hcatalog {catalog : Catalog} (hc : Store.loadCatalog store = .ok catalog) :
      catalog = v.catalog := Except.ok.inj (hc.symm.trans (F.loadCatalog hs))
  cases h with
  | refused e warnings n => exact ⟨v, hs, hv.skip n⟩
  | selected result warnings => exact ⟨v, hs, hv⟩
  | rewritten warnings hr hw =>
    obtain ⟨ht, n, rfl, ha⟩ := hr.admitted F hs hv hsound
    refine ⟨_, F.saveTable hs hw, hv.rewrite ht ⟨ha.numbered.map F.id_keep, ?_⟩⟩
    intro r hr
    obtain ⟨old, hm, rfl⟩ := List.mem_map.1 hr
    exact F.ordered_keep (ha.ordered old hm)
  | @created s catalog half store' warnings hc hw hd =>
    cases hcatalog hc
    have hv' := hv.create s.table (Schema.declarable_ofColumns hsound.1 hsound.2)
    obtain ⟨saved, hk, hs'⟩ := saveCatalog_of_consistent F (F.saveTable hs hw) hv'
    cases hk.symm.trans hd
    exact ⟨_, hs', hv'⟩
  -- What would be saved is consistent, so saving it cannot have failed.
  | @halfCreated s catalog half e warnings hc hw hd =>
    cases hcatalog hc
    have hv' := hv.create s.table (Schema.declarable_ofColumns hsound.1 hsound.2)
    obtain ⟨saved, hk, -⟩ := saveCatalog_of_consistent F (F.saveTable hs hw) hv'
    cases hk.symm.trans hd
  | @dropped s catalog half store' hc hx hm hd =>
    cases hcatalog hc
    have hv' := hv.drop s.table
    obtain ⟨saved, hk, hs'⟩ := saveCatalog_of_consistent F (shows_of_discard F hs hx) hv'
    cases hk.symm.trans hd
    exact ⟨_, hs', hv'⟩
  | @halfDropped s catalog half e hc hx hm hd =>
    cases hcatalog hc
    have hv' := hv.drop s.table
    obtain ⟨saved, hk, -⟩ := saveCatalog_of_consistent F (shows_of_discard F hs hx) hv'
    cases hk.symm.trans hd
  -- No table of a consistent view is missing from the catalog.
  | undeclaredDropped hc hx hm hd =>
    cases hcatalog hc
    exact absurd ((hv.declared _).2 ((F.tableExists hs).1 hx)) hm

def StoredRecord (store : σ) : Type :=
  { r : Record // ∃ table records, Store.loadTable store table = .ok records ∧ r ∈ records }

/-- Tables and catalog agree, and what is stored can be told apart and put in order. -/
structure Consistent (store : σ) : Prop where
  declared : ∃ catalog, Store.loadCatalog store = .ok catalog ∧
    (∀ table, catalog.contains table ↔ Store.tableExists store table) ∧
    catalog.tableNames.Nodup ∧
    ∀ table schema, catalog.schema? table = some schema →
      schema.columnNames ≠ [] ∧ schema.columnNames.Nodup
  distinct : ∀ table, Store.tableExists store table →
    ∃ records, Store.loadTable store table = .ok records ∧ (records.map Record.id).Nodup
  noNaN : ∀ r : StoredRecord store, ∀ entry ∈ r.1.fields.entries, entry.2 ≠ .float .nan
  /-- No two numbers are taken for equal because they cannot be compared. -/
  comparable : ∀ (a b : StoredRecord store) (column : String), ∀ v ∈ a.1.get? column,
    ∀ w ∈ b.1.get? column, v.isText = false → w.isText = false →
      (v.toNumber.compare? w.toNumber).isSome
  total : ∀ keys, Std.TransCmp fun a b : StoredRecord store => Query.compareRecords keys a.1 b.1

theorem consistent_of_shows (F : Faithful σ Shows keep) (hs : Shows store v)
    (hv : v.Consistent ids) : Consistent store := by
  have hordered (r : StoredRecord store) : r.1.Ordered := by
    obtain ⟨r, table, records, hl, hm⟩ := r
    exact (hv.stored ((F.loadTable hs).1 hl)).ordered r hm
  refine ⟨⟨v.catalog, F.loadCatalog hs, ?_, v.catalog.tables.distinct, ?_⟩, ?_, hordered, ?_, ?_⟩
  · intro table
    exact (hv.declared table).trans (F.tableExists hs).symm
  · intro table schema hc
    exact ⟨(hv.schemas _ (OrderedMap.get?_eq_some_iff.1 hc)).nonempty, schema.columns.distinct⟩
  · intro table ht
    obtain ⟨records, hr⟩ := Option.isSome_iff_exists.1 ((F.tableExists hs).1 ht)
    exact ⟨records, (F.loadTable hs).2 hr, (hv.stored hr).numbered.distinct⟩
  · intro a b column x hx y hy tx ty
    have hox := (hordered a).of_get? column x hx
    have hoy := (hordered b).of_get? column y hy
    exact hox.compare?_isSome hoy tx ty
  · intro keys
    have hc := Query.transCmp_compareRecords keys
    exact @Query.transCmp_comp _ _ _ hc fun r : StoredRecord store => ⟨r.1, hordered r⟩

theorem exists_view_ofTexts (F : Faithful σ Shows keep) (hs : Shows store v)
    (hv : v.Consistent ids) (texts : List String) :
    ∃ v', Shows (Run.ofTexts store ids texts).store v' ∧
      v'.Consistent (Run.ofTexts store ids texts).ids := by
  apply Run.invariant (P := fun r => ∃ v', Shows r.store v' ∧ v'.Consistent r.ids) ⟨v, hs, hv⟩
  intro r text hr
  obtain ⟨v', hs', hv'⟩ := hr
  cases hp : parse text with
  | error e =>
    rw [Run.next_of_parse_error hp]
    exact ⟨v', hs', hv'⟩
  | ok s => exact (execute_transition hp).consistent F hs' hv' (sound_of_parse hp)

theorem consistent_ofTexts (F : Faithful σ Shows keep) (hs : Shows store v)
    (hv : v.Consistent ids) (texts : List String) :
    Consistent (Run.ofTexts store ids texts).store := by
  obtain ⟨v', hs', hv'⟩ := exists_view_ofTexts F hs hv texts
  exact consistent_of_shows F hs' hv'

/-- After any run, from the empty store in memory or from a store opened in a directory that is empty
when it is found or made, the store is consistent. -/
theorem run_consistent (ids : IdSource) (texts : List String) :
    Consistent (Run.ofTexts MemoryStore.empty ids texts).store ∧
      ∀ (directory : String) (style : Json.Style) (files : FileSystem) (store : DirectoryStore),
        (files.makeDirectories ⟨directory⟩).2.IsEmptyDirectory ⟨directory⟩ →
        (DirectoryStore.openIn (.standard directory style) files).1 = .ok store →
        Consistent (Run.ofTexts store ids texts).store := by
  constructor
  · exact consistent_ofTexts MemoryStore.faithful MemoryStore.shows_empty (.empty ids) texts
  · intro directory style files store he ho
    have hs := DirectoryStore.shows_empty_of_openIn he ho
    exact consistent_ofTexts DirectoryStore.faithful hs (.empty ids) texts

theorem run_consistent_in_empty_directory :
    let files := FileSystem.empty.put ["data"] .directory
    let store : DirectoryStore := ⟨.standard "data" .pretty,
      files.put ["data", ".schema.json"] (.file "\x7b\x7d")⟩
    let r := Run.ofTexts store ⟨0, 0, 0⟩
      ["CREATE TABLE t (a FLOAT)", "INSERT INTO t VALUES (0.5), (2)", "DROP TABLE u"]
    files.IsEmptyDirectory ⟨"data"⟩ ∧
      (DirectoryStore.openIn (.standard "data" .pretty) files).1 = .ok store ∧
      Store.tableExists r.store "t" ∧ Consistent r.store := by
  intro files store r
  have he : files.IsEmptyDirectory ⟨"data"⟩ := ⟨["data"], by decide, fun name => rfl⟩
  have ho : (DirectoryStore.openIn (.standard "data" .pretty) files).1 = .ok store := by
    decide +kernel
  have hx : Store.tableExists r.store "t" := by decide +kernel
  obtain ⟨-, hopened⟩ := run_consistent ⟨0, 0, 0⟩
    ["CREATE TABLE t (a FLOAT)", "INSERT INTO t VALUES (0.5), (2)", "DROP TABLE u"]
  exact ⟨he, ho, hx, hopened "data" .pretty files store he.makeDirectories ho⟩

end Engine

end DocBase
