import DocBase.Proofs.Document.Rewriting
import DocBase.Proofs.Engine.Transition
import DocBase.Proofs.Query.Projection
import DocBase.Proofs.Query.Select
import DocBase.Proofs.Sql.Contents
import DocBase.Proofs.Sql.RoundTrip
import DocBase.Proofs.Store.Directory
import DocBase.Store.Memory

namespace DocBase

open DocBase.Action Engine Query Sql

namespace Value

/-- A float whose numeral has at most 53 binary digits, and a power of ten that is one itself. -/
def Short : Value → Prop
  | float (.finite negative rank) =>
    let n := (Binary64.shortest .even rank).numeral negative
    digitsValue n.digits ≤ 2 ^ 53 ∧ n.lastPlace.natAbs ≤ 22
  | float _ => False
  | _ => True

theorem Short.isFinite {v : Value} (h : v.Short) : v.isFinite := by
  cases v with
  | float f =>
    cases f with
    | finite negative rank => rfl
    | _ => cases h
  | _ => rfl

theorem Short.recalled {v : Value} (h : v.Short) : v.Recalled := by
  cases v with
  | float f =>
    cases f with
    | finite negative rank => exact Binary64.reread_of_small h.1 h.2
    | _ => cases h
  | _ => trivial

end Value

theorem zip_right_inj {α β : Type} {names : List α} {as bs : List β}
    (ha : as.length ≤ names.length) (hb : bs.length ≤ names.length) :
    names.zip as = names.zip bs ↔ as = bs := by
  constructor
  · intro h
    rw [← List.map_snd_zip ha, h, List.map_snd_zip hb]
  · intro h
    rw [h]

namespace DirectoryStore

variable {s s' : DirectoryStore} {table : String}

theorem loadTable_eq_ok_iff_read {records : List Record} :
    Store.loadTable s table = .ok records ↔ isTableName table ∧
      ∃ text, s.files.read (tablePath s.config table) = .ok text ∧
        Document.readTable? text = some records := by
  change loadTable s table = _ ↔ _
  rw [loadTable, bind_eq_ok_iff]
  constructor
  · intro h
    obtain ⟨⟨⟩, hc, hl⟩ := h
    refine ⟨checkTableName_eq_ok_iff.1 hc, ?_⟩
    split at hl
    · next text hr =>
      split at hl
      · next hd =>
        cases hl
        exact ⟨text, hr, hd⟩
      · cases hl
    · cases hl
    · cases hl
  · intro h
    obtain ⟨hn, text, hr, hd⟩ := h
    refine ⟨(), checkTableName_eq_ok_iff.2 hn, ?_⟩
    rw [hr]
    dsimp only
    rw [hd]
    rfl

theorem named_of_loadCatalog {catalog : Catalog} (h : Store.loadCatalog s = .ok catalog) :
    catalog.Named := by
  change loadCatalog s = _ at h
  rw [loadCatalog] at h
  split at h
  · split at h
    · next hd =>
      cases h
      exact Document.named_of_readCatalog? hd
    · cases h
  · cases h
    intro entry he
    cases he
  · cases h

theorem readTable?_ofCatalog (style : Json.Style) (catalog : Catalog) :
    Document.readTable? ((Document.ofCatalog catalog).write style) = none := by
  rw [Document.readTable?, Json.parse?_write]
  rfl

theorem loadTable_of_saveTable {records : List Record}
    (h : Store.saveTable s table records = .ok s') :
    Store.loadTable s' table = .ok (records.map Record.kept) := by
  obtain ⟨⟨⟩, hc, hw⟩ := bind_eq_ok_iff.1 h
  obtain ⟨files, hf, rfl⟩ := writeDocument_eq_ok_iff.1 hw
  exact loadTable_eq_ok_iff_read.2 ⟨checkTableName_eq_ok_iff.1 hc, _,
    FileSystem.read_of_write hf, Document.readTable?_write _ _⟩

theorem loadCatalog_of_saveCatalog {half : DirectoryStore} {catalog : Catalog} {schema : Schema}
    (hl : Store.loadCatalog s = .ok catalog) (hn : schema.Named)
    (h : Store.saveCatalog half (catalog.create table schema) = .ok s') :
    Store.loadCatalog s' = .ok (catalog.create table schema) := by
  obtain ⟨files, hf, rfl⟩ := writeDocument_eq_ok_iff.1 h
  have hnamed : (catalog.create table schema).Named := by
    intro entry he
    rcases OrderedMap.mem_entries_assign.1 he with rfl | ⟨-, he⟩
    · exact hn
    · exact named_of_loadCatalog hl entry he
  change loadCatalog _ = _
  rw [loadCatalog, FileSystem.read_of_write hf]
  dsimp only
  rw [Document.readCatalog?_write _ hnamed]

/-- The catalog may be saved over a table, but then the table does not load. -/
theorem loadTable_of_saveCatalog {catalog : Catalog} {records : List Record}
    (h : Store.saveCatalog s catalog = .ok s') (hl : Store.loadTable s' table = .ok records) :
    Store.loadTable s table = .ok records := by
  obtain ⟨files, hf, rfl⟩ := writeDocument_eq_ok_iff.1 h
  obtain ⟨hn, text, hr, hd⟩ := loadTable_eq_ok_iff_read.1 hl
  rcases FileSystem.read_of_read_write hf hr with rfl | hr
  · rw [readTable?_ofCatalog] at hd
    cases hd
  · exact loadTable_eq_ok_iff_read.2 ⟨hn, text, hr, hd⟩

end DirectoryStore

namespace Query

theorem project_eq_fields {columns : List ColumnRef} {r : Record}
    (h : columns.map ColumnRef.name = r.fields.keys) : project columns r = r.fields := by
  have hnames : (columns.filterMap fun c => (r.get? c.name).map (c.name, ·)) =
      r.fields.keys.filterMap fun name => (r.get? name).map (name, ·) := by
    rw [← h, List.filterMap_map]
    rfl
  rw [project_eq_ofInsertions, hnames]
  apply OrderedMap.ext_entries
  rw [r.fields.entries_eq_filterMap]
  apply OrderedMap.entries_ofInsertions
  exact r.fields.entries_eq_filterMap ▸ r.fields.distinct

theorem rows_of_all (columns : List ColumnRef) (table : String) (records : List Record) :
    Select.rows ⟨.columns columns, table, none, [], none⟩ records =
      records.map (project columns) := by
  have hsort : sort records [] = records :=
    List.mergeSort_of_pairwise (List.pairwise_of_forall fun _ _ => rfl)
  change (sort records []).map (project columns) = _
  rw [hsort]

end Query

namespace Engine

theorem entries_fieldsOf {columns : List String} {tuple : List Value} (distinct : columns.Nodup)
    (hlength : tuple.length = columns.length) :
    (fieldsOf columns tuple).entries = columns.zip (tuple.map Value.stored) := by
  have hpairs : fieldsOf columns tuple = .ofAssignments (columns.zip (tuple.map Value.stored)) :=
    congrArg OrderedMap.ofAssignments List.zip_map_right.symm
  have hkeys : (columns.zip (tuple.map Value.stored)).map Prod.fst = columns := by
    apply List.map_fst_zip
    rw [List.length_map]
    exact Nat.le_of_eq hlength.symm
  rw [hpairs]
  apply OrderedMap.entries_ofAssignments
  rw [hkeys]
  exact distinct

section
variable {σ : Type} [Store σ] {store : σ} {ids : IdSource} {o : Outcome σ}

theorem Transition.of_create {s : Create} (h : Transition store ids (.create s) o)
    (ok : o.result.isOk) : ∃ catalog half, Store.loadCatalog store = .ok catalog ∧
      Store.saveTable store s.table [] = .ok half ∧
      Store.saveCatalog half (catalog.create s.table (.ofColumns s.columns)) = .ok o.store := by
  cases h with
  | refused e warnings n => cases ok
  | rewritten warnings hr hw => cases hr
  | created warnings hc hw hd => exact ⟨_, _, hc, hw, hd⟩
  | halfCreated warnings hc hw hd => cases ok

theorem Transition.of_insert {s : Insert} (h : Transition store ids (.insert s) o)
    (ok : o.result.isOk) : ∃ columns records, columnsFor store s = .ok columns ∧
      Store.loadTable store s.table = .ok records ∧
      Store.saveTable store s.table (records ++ newRecords ids columns s.tuples) = .ok o.store := by
  cases h with
  | refused e warnings n => cases ok
  | rewritten warnings hr hw =>
    cases hr with
    | insert hc hl => exact ⟨_, _, hc, hl, hw⟩

theorem execute_select_columns {text table : String} {columns : List ColumnRef}
    {records : List Record}
    (h : parse text = .ok (.select ⟨.columns columns, table, none, [], none⟩))
    (hl : Store.loadTable store table = .ok records) :
    (execute store ids text).result =
      .ok (.rows (columns.map ColumnRef.name) (records.map (project columns))) := by
  rw [execute_of_parse_ok h]
  have hread : select ⟨.columns columns, table, none, [], none⟩ ⟨store, ids, []⟩ =
      .ok (.rows (columns.map ColumnRef.name) (records.map (project columns)))
        ⟨store, ids, []⟩ := by
    rw [select]
    dsimp only
    rw [bind_ok (look_ok hl), rows_of_all]
    rfl
  exact congrArg (fun x => (Outcome.ofResult x).result) hread

end

section
variable {columns : List String} (distinct : columns.Nodup)
include distinct

theorem entries_kept_fieldsOf {tuple : List Value} (hlength : tuple.length = columns.length) :
    ((fieldsOf columns tuple).mapValues Value.kept).entries =
      columns.zip (tuple.map fun literal => literal.stored.kept) := by
  change (fieldsOf columns tuple).entries.map (Prod.map id Value.kept) = _
  rw [entries_fieldsOf distinct hlength, ← List.zip_map_right, List.map_map]
  rfl

theorem entries_project_newRecords {refs : List ColumnRef} {tuples : List (List Value)}
    (hrefs : refs.map ColumnRef.name = columns)
    (hlength : ∀ tuple ∈ tuples, tuple.length = columns.length) (ids : IdSource) :
    (newRecords ids columns tuples).map
        (fun r => (project refs r.kept).entries) =
      tuples.map fun tuple => columns.zip (tuple.map fun literal => literal.stored.kept) := by
  induction tuples generalizing ids with
  | nil => rfl
  | cons tuple tuples ih =>
    have hfields := entries_kept_fieldsOf distinct (hlength tuple (.head _))
    have hkeys : refs.map ColumnRef.name = ((fieldsOf columns tuple).mapValues Value.kept).keys := by
      have hle : columns.length ≤ (tuple.map fun literal => literal.stored.kept).length := by
        rw [List.length_map]
        exact Nat.le_of_eq (hlength tuple (.head _)).symm
      rw [OrderedMap.keys, hfields, hrefs, List.map_fst_zip hle]
    have hproject : project refs (Record.kept ⟨ids.idAt ids.count, fieldsOf columns tuple⟩) =
        (fieldsOf columns tuple).mapValues Value.kept := project_eq_fields hkeys
    rw [newRecords, List.map_cons, List.map_cons, hproject, hfields,
      ih (fun t ht => hlength t (.tail _ ht))]

end

/-- After a table is created and tuples are inserted into it, a SELECT of its columns answers with
one row for each tuple, in their order, and each cell is its literal as documents keep it. -/
theorem select_inserted {created inserted selected table : String}
    {columns : List (String × ColumnType)} {tuples : List (List Value)} {refs : List ColumnRef}
    (hc : parse created = .ok (.create ⟨table, columns⟩))
    (hi : parse inserted = .ok (.insert ⟨table, none, tuples⟩))
    (hs : parse selected = .ok (.select ⟨.columns refs, table, none, [], none⟩))
    (distinct : (columns.map Prod.fst).Nodup)
    (hrefs : refs.map ColumnRef.name = columns.map Prod.fst)
    (hlength : ∀ tuple ∈ tuples, tuple.length = columns.length) (store : DirectoryStore)
    (ids : IdSource) :
    let first := execute store ids created
    let second := execute first.store first.ids inserted
    first.result.isOk → second.result.isOk →
      ∃ found, (execute second.store second.ids selected).result =
          .ok (.rows (columns.map Prod.fst) found) ∧
        found.map OrderedMap.entries = tuples.map fun tuple =>
          (columns.map Prod.fst).zip (tuple.map fun literal => literal.stored.kept) := by
  intro first second hfirst hsecond
  have hsound : Statement.Sound (.create ⟨table, columns⟩) := sound_of_parse hc
  have hnamed : (Schema.ofColumns columns).Named := by
    intro entry he
    exact hsound.2 entry (OrderedMap.mem_of_mem_ofAssignments he)
  obtain ⟨catalog, half, hcatalog, hhalf, hdeclared⟩ := (execute_transition hc).of_create hfirst
  obtain ⟨names, records, hnames, hrecords, hsaved⟩ := (execute_transition hi).of_insert hsecond
  -- The table is empty as it was created, and its declared columns are the new ones.
  have hempty := DirectoryStore.loadTable_of_saveTable hhalf
  have hstill : Store.loadTable half table = .ok records := 
    DirectoryStore.loadTable_of_saveCatalog hdeclared hrecords
  cases hempty.symm.trans hstill
  have hload : Store.loadCatalog first.store = _ := 
    DirectoryStore.loadCatalog_of_saveCatalog hcatalog hnamed hdeclared
  have hkeys : (OrderedMap.ofAssignments columns).keys = columns.map Prod.fst :=
    congrArg (List.map Prod.fst) (OrderedMap.entries_ofAssignments distinct)
  have hcolumns : names = columns.map Prod.fst := by
    rw [columnsFor, hload] at hnames
    change Except.ok ((catalog.create table (.ofColumns columns)).columnNames table) = _ at hnames
    rw [Catalog.columnNames_create, if_pos rfl] at hnames
    exact (Except.ok.inj hnames).symm.trans hkeys
  subst hcolumns
  have hlength' : ∀ tuple ∈ tuples, tuple.length = (columns.map Prod.fst).length := by
    rw [List.length_map]
    exact hlength
  refine ⟨_, hrefs ▸ execute_select_columns hs (DirectoryStore.loadTable_of_saveTable hsaved), ?_⟩
  rw [List.map_map, List.map_map]
  exact entries_project_newRecords distinct hrefs hlength' _

/-- On disk a literal beyond the range of floats is selected as null, and a float whose numeral is
read as another one is selected as that. So all cells are the literals stored just where there are
neither, and there are neither among numbers of few digits. -/
theorem select_inserted_on_disk {created inserted selected table : String}
    {columns : List (String × ColumnType)} {tuples : List (List Value)} {refs : List ColumnRef}
    (hc : parse created = .ok (.create ⟨table, columns⟩))
    (hi : parse inserted = .ok (.insert ⟨table, none, tuples⟩))
    (hs : parse selected = .ok (.select ⟨.columns refs, table, none, [], none⟩))
    (distinct : (columns.map Prod.fst).Nodup)
    (hrefs : refs.map ColumnRef.name = columns.map Prod.fst)
    (hlength : ∀ tuple ∈ tuples, tuple.length = columns.length) (store : DirectoryStore)
    (ids : IdSource) :
    let first := execute store ids created
    let second := execute first.store first.ids inserted
    first.result.isOk → second.result.isOk →
      ∃ found, (execute second.store second.ids selected).result =
          .ok (.rows (columns.map Prod.fst) found) ∧
        (found.map OrderedMap.entries = tuples.map fun tuple =>
          (columns.map Prod.fst).zip (tuple.map fun literal => literal.stored.kept)) ∧
        ((found.map OrderedMap.entries = tuples.map fun tuple =>
          (columns.map Prod.fst).zip (tuple.map Value.stored)) ↔
            ∀ tuple ∈ tuples, ∀ literal ∈ tuple,
              literal.stored.isFinite ∧ literal.stored.Recalled) ∧
        ((∀ tuple ∈ tuples, ∀ literal ∈ tuple, literal.stored.Short) →
          found.map OrderedMap.entries = tuples.map fun tuple =>
            (columns.map Prod.fst).zip (tuple.map Value.stored)) := by
  intro first second hfirst hsecond
  obtain ⟨found, hfound, hcells⟩ :=
    select_inserted hc hi hs distinct hrefs hlength store ids hfirst hsecond
  have hiff : (found.map OrderedMap.entries = tuples.map fun tuple =>
      (columns.map Prod.fst).zip (tuple.map Value.stored)) ↔
        ∀ tuple ∈ tuples, ∀ literal ∈ tuple,
          literal.stored.isFinite ∧ literal.stored.Recalled := by
    rw [hcells, List.map_inj_left]
    apply forall₂_congr
    intro tuple ht
    have hle : tuple.length ≤ (columns.map Prod.fst).length := by
      rw [List.length_map]
      exact Nat.le_of_eq (hlength tuple ht)
    rw [zip_right_inj (by rwa [List.length_map]) (by rwa [List.length_map]), List.map_inj_left]
    apply forall₂_congr
    intro literal _
    exact Value.kept_eq_self_iff
  refine ⟨found, hfound, hcells, hiff, ?_⟩
  intro hshort
  apply hiff.2
  intro tuple ht literal hl
  have h := hshort tuple ht literal hl
  exact ⟨h.isFinite, h.recalled⟩

example : (Value.float (.ofDecimal false 51248178375505404 (-15))).kept =
    .float (.ofDecimal false 5124817837550541 (-14)) := by decide +kernel

/-- An integer beyond 64 bits, a negative fraction, a text with a quote in it and a null. -/
theorem select_inserted_on_disk_of_two_rows :
    let store : DirectoryStore := ⟨.standard "data" .pretty,
      (FileSystem.empty.put ["data"] .directory).put ["data", ".schema.json"] (.file "\x7b\x7d")⟩
    let first := execute store ⟨0, 0, 0⟩ "CREATE TABLE t (a FLOAT, b TEXT)"
    let second := execute first.store first.ids
      "INSERT INTO t VALUES (99999999999999999999, 'it''s'), (-0.5, NULL)"
    let a : Value := .float (.ofInt 99999999999999999999)
    let b : Value := .float (.ofDecimal true 5 (-1))
    first.result.isOk ∧ second.result.isOk ∧
      ∃ found, (execute second.store second.ids "SELECT a, b FROM t").result =
          .ok (.rows ["a", "b"] found) ∧
        found.map OrderedMap.entries =
          [[("a", a), ("b", .text "it's")], [("a", b), ("b", .null)]] := by
  intro store first second a b
  have hc : parse "CREATE TABLE t (a FLOAT, b TEXT)" =
      .ok (.create ⟨"t", [("a", .float), ("b", .text)]⟩) := by decide +kernel
  have hi : parse "INSERT INTO t VALUES (99999999999999999999, 'it''s'), (-0.5, NULL)" =
      .ok (.insert ⟨"t", none, [[a, .text "it's"], [b, .null]]⟩) := by decide +kernel
  have hs : parse "SELECT a, b FROM t" =
      .ok (.select ⟨.columns [⟨none, "a"⟩, ⟨none, "b"⟩], "t", none, [], none⟩) := by decide +kernel
  have hfirst : first.result.isOk := by
    dsimp only [first]
    rw [execute_of_parse_ok hc]
    decide +kernel
  have hsecond : second.result.isOk := by
    dsimp only [second, first]
    rw [execute_of_parse_ok hc, execute_of_parse_ok hi]
    decide +kernel
  obtain ⟨found, hfound, -, hcells, -⟩ := select_inserted_on_disk hc hi hs (by decide) rfl
    (by decide) store ⟨0, 0, 0⟩ hfirst hsecond
  refine ⟨hfirst, hsecond, found, hfound, ?_⟩
  rw [hcells.2 (by decide +kernel)]
  decide +kernel

/-- A numeral of 310 digits before its point is selected as infinity in memory and as null on
disk. -/
theorem select_inserted_on_disk_lost :
    let disk : DirectoryStore := ⟨.standard "data" .compact,
      (FileSystem.empty.put ["data"] .directory).put ["data", ".schema.json"] (.file "\x7b\x7d")⟩
    let infinity : Value := .float (.infinite false)
    let inserted : String := .ofList
      ("INSERT INTO \x60t\x60 VALUES ( 1".toList ++ .replicate 309 '0' ++ ".0 )".toList)
    let first := execute disk ⟨0, 0, 0⟩ "CREATE TABLE t (a FLOAT)"
    let second := execute first.store first.ids inserted
    let first' := execute MemoryStore.empty ⟨0, 0, 0⟩ "CREATE TABLE t (a FLOAT)"
    let second' := execute first'.store first'.ids inserted
    parse inserted = .ok (.insert ⟨"t", none, [[infinity]]⟩) ∧
      first.result.isOk ∧ second.result.isOk ∧
      (execute second.store second.ids "SELECT a FROM t").result =
        .ok (.rows ["a"] [.ofAssignments [("a", .null)]]) ∧
      (execute second'.store second'.ids "SELECT a FROM t").result =
        .ok (.rows ["a"] [.ofAssignments [("a", infinity.stored)]]) ∧
      infinity.stored ≠ .null := by
  intro disk infinity inserted first second first' second'
  -- The text is too long to be evaluated, so it is read off the glyphs that it spells.
  let spellings : List (List Char) := ["INSERT".toList, "INTO".toList, "\x60t\x60".toList,
    "VALUES".toList, ['('], '1' :: .replicate 309 '0' ++ ['.', '0'], [')']]
  have hspells : List.Forall₂ Glyph.Spells
      (Statement.insert ⟨"t", none, [[infinity]]⟩).glyphs spellings :=
    .cons (.keyword .INSERT) (.cons (.keyword .INTO) (.cons (.name "t") (.cons (.keyword .VALUES)
      (.cons (.sign .leftParen) (.cons (.float (Binary64.isNumeral_infinite false))
        (.cons (.sign .rightParen) .nil))))))
  have hprintable : (Statement.insert ⟨"t", none, [[infinity]]⟩).Printable :=
    ⟨nofun, List.cons_ne_nil _ _, by decide⟩
  have htext : inserted = .ofList ([' '].intercalate spellings) := by
    apply congrArg String.ofList
    decide +kernel
  have hparse : parse inserted = .ok (.insert ⟨"t", none, [[infinity]]⟩) := by
    rw [htext]
    exact parse_of_derives (.plain (ReadAs.sentence (reads_words hspells) hprintable))
  have hsecond : second = .ofResult (run (.insert ⟨"t", none, [[infinity]]⟩)
      ⟨first.store, first.ids, []⟩) := execute_of_parse_ok hparse
  have hsecond' : second' = .ofResult (run (.insert ⟨"t", none, [[infinity]]⟩)
      ⟨first'.store, first'.ids, []⟩) := execute_of_parse_ok hparse
  rw [hsecond, hsecond']
  refine ⟨hparse, ?_⟩
  decide +kernel

end Engine

end DocBase
