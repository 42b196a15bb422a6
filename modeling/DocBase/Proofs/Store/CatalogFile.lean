import DocBase.Proofs.Store.Exact

namespace DocBase

section
variable {σ : Type} [Store σ]

/-- No change to a table shows in the catalog, and none to the catalog in a table. -/
structure Apart (s : σ) : Prop where
  saveTable (table : String) (records : List Record) :
    Store.loadCatalog ((Call.saveTable table records).perform s).2 = Store.loadCatalog s
  deleteTable (table : String) :
    Store.loadCatalog ((Call.deleteTable table).perform s).2 = Store.loadCatalog s
  loadTable (catalog : Catalog) (table : String) :
    Store.loadTable ((Call.saveCatalog catalog).perform s).2 table = Store.loadTable s table
  tableExists (catalog : Catalog) (table : String) :
    Store.tableExists ((Call.saveCatalog catalog).perform s).2 table = Store.tableExists s table

def after (s : σ) (calls : List Call) : σ := calls.foldl (fun s call => (call.perform s).2) s

omit [Store σ] in
theorem Call.settle_cases {P : σ → Prop} {s : σ} {result : Except StorageError σ} (h : P s)
    (hok : ∀ s', result = .ok s' → P s') : P (settle s result).2 := by
  cases result with
  | ok s' => exact hok s' rfl
  | error e => exact h

end

namespace DirectoryStore

open FileSystem

variable {s s' : DirectoryStore} {location : Location} {table : String}

/-- The path of the catalog leads to the file of a table. -/
def CatalogIsTable (s : DirectoryStore) : Prop :=
  ∃ table location, isTableName table ∧ s.files.Points (tablePath s.config table) location ∧
    s.files.Points (catalogPath s.config) location

theorem CatalogIsTable.of_samePlaces (h : s.CatalogIsTable) (hs : SamePlaces s s') :
    s'.CatalogIsTable := by
  obtain ⟨table, location, hn, ht, hc⟩ := h
  refine ⟨table, location, hn, ?_, ?_⟩
  · rw [hs.config]
    exact ht.of_sameDirectories hs.directories
  · rw [hs.config]
    exact hc.of_sameDirectories hs.directories

theorem SamePlaces.symm (h : SamePlaces s s') : SamePlaces s' s :=
  ⟨h.config.symm, h.directories.symm⟩

/-- The directory is found, and the path of the catalog leads somewhere. -/
structure Settled (s : DirectoryStore) : Prop where
  leads : ∃ location, s.files.Leads (directoryPath s.config) location
  reaches : ∃ location, s.files.Reaches (catalogPath s.config) location

theorem Settled.of_samePlaces (h : s.Settled) (hs : SamePlaces s s') : s'.Settled := by
  obtain ⟨⟨location, hl⟩, place, hr⟩ := h
  constructor
  · rw [hs.config]
    exact ⟨location, hl.of_sameDirectories hs.directories⟩
  · rw [hs.config]
    exact ⟨place, hr.of_sameDirectories hs.directories⟩

theorem samePlaces_of_saveTable {records : List Record}
    (h : Store.saveTable s table records = .ok s') : SamePlaces s s' :=
  (eq_ok_of_saveTable h).1

theorem SamePlaces.refl (s : DirectoryStore) : SamePlaces s s := ⟨rfl, rfl, fun _ => .rfl⟩

theorem SamePlaces.trans {s'' : DirectoryStore} (h : SamePlaces s s') (h' : SamePlaces s' s'') :
    SamePlaces s s'' where
  config := h'.config.trans h.config
  directories :=
    ⟨h'.directories.start.trans h.directories.start,
      fun l => (h'.directories.iff l).trans (h.directories.iff l)⟩

theorem samePlaces_of_perform (s : DirectoryStore) (call : Call) :
    SamePlaces s (call.perform s).2 := by
  cases call with
  | loadTable table => exact .refl s
  | saveTable table records =>
    exact Call.settle_cases (.refl s) fun _ hs => (eq_ok_of_saveTable hs).1
  | deleteTable table => exact Call.settle_cases (.refl s) fun _ => samePlaces_of_deleteTable
  | tableExists table => exact .refl s
  | loadCatalog => exact .refl s
  | saveCatalog catalog => exact Call.settle_cases (.refl s) fun _ => samePlaces_of_writeDocument

theorem samePlaces_after (s : DirectoryStore) (calls : List Call) :
    SamePlaces s (after s calls) := by
  induction calls generalizing s with
  | nil => exact .refl s
  | cons call calls ih => exact (samePlaces_of_perform s call).trans (ih _)

theorem loadCatalog_congr {files : FileSystem}
    (hf : files.find (catalogPath s.config) = s.files.find (catalogPath s.config)) :
    Store.loadCatalog { s with files := files } = Store.loadCatalog s := by
  change loadCatalog { s with files := files } = loadCatalog s
  rw [loadCatalog, loadCatalog, FileSystem.read, FileSystem.read, hf]

theorem table_congr {files : FileSystem} (hf : isTableName table →
      files.find (tablePath s.config table) = s.files.find (tablePath s.config table)) :
    Store.loadTable { s with files := files } table = Store.loadTable s table ∧
      Store.tableExists { s with files := files } table = Store.tableExists s table := by
  constructor
  · apply checked_congr
    intro hn
    rw [FileSystem.read, FileSystem.read, hf hn]
  · change (isTableName table && _) = (isTableName table && _)
    by_cases hn : isTableName table
    · rw [isFile, isFile, hf hn]
    · rw [Bool.not_eq_true] at hn
      rw [hn]
      rfl

theorem find_tablePath_put {text : String} (h : s.Settled) (hn : isTableName table)
    (hd : s.files.entry? location ≠ some .directory)
    (hp : ¬ s.files.Points (tablePath s.config table) location) :
    find (s.files.put location (.file text)) (tablePath s.config table) =
      s.files.find (tablePath s.config table) := by
  obtain ⟨place, hl⟩ := h.leads
  have hname := fileName_of_isTableName hn
  by_cases hf : Fits (directoryPath s.config) (table ++ ".json")
  · exact ((hl.points_join_iff hname).2 ⟨hf, rfl⟩).reaches.find_put hd hp
  -- A file whose path is too long is never found.
  · have hs : SameDirectories s.files (s.files.put location (.file text)) := .put hd _
    rw [tablePath, hl.find_join_of_not_fits hname hf,
      (hl.of_sameDirectories hs).find_join_of_not_fits hname hf]

theorem Settled.loadCatalog_of_saveTable {records : List Record} (h : s.Settled)
    (hc : ¬ s.CatalogIsTable) (hs : Store.saveTable s table records = .ok s') :
    Store.loadCatalog s' = Store.loadCatalog s := by
  change saveTable s table records = _ at hs
  rw [saveTable, bind_eq_ok_iff] at hs
  obtain ⟨⟨⟩, hn, hs⟩ := hs
  obtain ⟨files, hw, rfl⟩ := writeDocument_eq_ok_iff.1 hs
  obtain ⟨l, hp, hd, rfl⟩ := write_eq_ok_iff.1 hw
  obtain ⟨place, hr⟩ := h.reaches
  apply loadCatalog_congr
  apply hr.find_put hd
  intro hp'
  exact hc ⟨table, l, checkTableName_eq_ok_iff.1 hn, hp, hp'⟩

theorem Settled.loadCatalog_of_deleteTable (h : s.Settled) (hc : ¬ s.CatalogIsTable)
    (hs : Store.deleteTable s table = .ok s') : Store.loadCatalog s' = Store.loadCatalog s := by
  change deleteTable s table = _ at hs
  rw [deleteTable, bind_eq_ok_iff] at hs
  obtain ⟨⟨⟩, hn, hs⟩ := hs
  split at hs
  · next files hr =>
    cases hs
    obtain ⟨l, entry, hp, he, hd, rfl⟩ := remove_eq_ok_iff.1 hr
    obtain ⟨place, hr⟩ := h.reaches
    apply loadCatalog_congr
    apply hr.find_without
    · rw [he]
      exact fun hx => hd (Option.some.inj hx)
    · intro hp'
      exact hc ⟨table, l, checkTableName_eq_ok_iff.1 hn, hp, hp'⟩
  · cases hs
  · cases hs

theorem Settled.table_of_saveCatalog {catalog : Catalog} (h : s.Settled)
    (hc : ¬ s.CatalogIsTable) (hs : Store.saveCatalog s catalog = .ok s') (table : String) :
    Store.loadTable s' table = Store.loadTable s table ∧
      Store.tableExists s' table = Store.tableExists s table := by
  obtain ⟨files, hw, rfl⟩ := writeDocument_eq_ok_iff.1 hs
  obtain ⟨l, hp, hd, rfl⟩ := write_eq_ok_iff.1 hw
  apply table_congr
  intro hn
  apply find_tablePath_put h hn hd
  intro hp'
  exact hc ⟨table, l, hn, hp', hp⟩

theorem Settled.apart (h : s.Settled) (hc : ¬ s.CatalogIsTable) : Apart s where
  saveTable _ _ := Call.settle_cases (P := fun s' => Store.loadCatalog s' = Store.loadCatalog s)
    rfl fun _ => h.loadCatalog_of_saveTable hc
  deleteTable _ := Call.settle_cases (P := fun s' => Store.loadCatalog s' = Store.loadCatalog s)
    rfl fun _ => h.loadCatalog_of_deleteTable hc
  loadTable _ table :=
    Call.settle_cases (P := fun s' => Store.loadTable s' table = Store.loadTable s table)
      rfl fun _ hs => (h.table_of_saveCatalog hc hs table).1
  tableExists _ table :=
    Call.settle_cases (P := fun s' => Store.tableExists s' table = Store.tableExists s table)
      rfl fun _ hs => (h.table_of_saveCatalog hc hs table).2

theorem Settled.apart_after (h : s.Settled) (hc : ¬ s.CatalogIsTable) (calls : List Call) :
    Apart (after s calls) := by
  have hs := samePlaces_after s calls
  apply (h.of_samePlaces hs).apart
  intro hx
  exact hc (hx.of_samePlaces hs.symm)

section
variable {config : DirectoryConfig} {files : FileSystem}

theorem settled_of_openIn
    (he : (files.makeDirectories (directoryPath config)).2.IsEmptyDirectory (directoryPath config))
    (ho : (openIn config files).1 = .ok s) : s.Settled := by
  obtain ⟨location, hd, -⟩ := he
  generalize hm : (files.makeDirectories (directoryPath config)).2 = made at hd
  rcases openIn_eq_ok hm ho with ⟨hp, rfl⟩ | ⟨files', hw, rfl⟩
  · rw [pathExists] at hp
    cases hf : made.find (catalogPath config) with
    | error e =>
      rw [hf] at hp
      cases hp
    | ok found => exact ⟨⟨location, hd⟩, found.1, .of_find hf⟩
  · have hs := sameDirectories_of_write hw
    obtain ⟨l, hp, -⟩ := write_eq_ok_iff.1 hw
    have hl : made.Leads (directoryPath config) location := hd
    exact ⟨⟨location, hl.of_sameDirectories hs⟩, l, hp.reaches.of_sameDirectories hs⟩

/-- An opened store whose catalog is the file of a table has an empty catalog in that file. -/
theorem read_of_catalogIsTable
    (he : (files.makeDirectories (directoryPath config)).2.IsEmptyDirectory (directoryPath config))
    (ho : (openIn config files).1 = .ok s) (hc : s.CatalogIsTable) :
    s.files.read (catalogPath s.config) = .ok "\x7b\x7d" := by
  obtain ⟨location, hd, hnone⟩ := he
  generalize hm : (files.makeDirectories (directoryPath config)).2 = made at hd hnone
  have hl : made.Leads (directoryPath config) location := hd
  rcases openIn_eq_ok hm ho with ⟨hp, rfl⟩ | ⟨files', hw, rfl⟩
  -- The directory is empty, so no file of a table is found in it before it is written.
  · obtain ⟨table, l, hn, ht, hc⟩ := hc
    obtain ⟨-, rfl⟩ := (hl.points_join_iff (fileName_of_isTableName hn)).1 ht
    rw [pathExists, hc.reaches.find_eq, hnone] at hp
    cases hp
  · exact read_of_write hw

end

/-- An empty catalog in the file of a table is lost when the table is saved. -/
theorem exists_hidden_catalog (h : s.CatalogIsTable)
    (hr : s.files.read (catalogPath s.config) = .ok "\x7b\x7d") :
    Store.loadCatalog s = .ok .empty ∧ ∃ table s', Store.saveTable s table [] = .ok s' ∧
      Store.loadCatalog s' = .error .undecodable := by
  obtain ⟨table, l, hn, ht, hc⟩ := h
  constructor
  · change loadCatalog s = _
    rw [loadCatalog, hr]
    dsimp only
    rw [Document.readCatalog?_braces]
  obtain ⟨l', hc', he⟩ := read_eq_ok_iff.1 hr
  obtain rfl := hc.unique hc'
  have hd : s.files.entry? l' ≠ some .directory := by
    simp [he]
  let text := (Document.ofTable []).write s.config.style
  have hw : s.files.write (tablePath s.config table) text =
      .ok (s.files.put l' (.file text)) := write_eq_ok_iff.2 ⟨l', ht, hd, rfl⟩
  refine ⟨table, { s with files := s.files.put l' (.file text) }, ?_, ?_⟩
  · exact bind_eq_ok_iff.2
      ⟨(), checkTableName_eq_ok_iff.2 hn, writeDocument_eq_ok_iff.2 ⟨_, hw, rfl⟩⟩
  · have hread : read (s.files.put l' (.file text)) (catalogPath s.config) = .ok text := by
      refine read_eq_ok_iff.2 ⟨l', hc.of_sameDirectories (.put hd _), ?_⟩
      rw [entry?_put (ne_nil_of_not_directory hd), if_pos rfl]
    change loadCatalog _ = _
    rw [loadCatalog, hread]
    dsimp only
    rw [Document.readCatalog?_ofTable]

theorem not_apart_of_catalogIsTable (h : s.CatalogIsTable)
    (hr : s.files.read (catalogPath s.config) = .ok "\x7b\x7d") : ¬ Apart s := by
  intro ha
  obtain ⟨hloaded, table, s', hs, hlost⟩ := exists_hidden_catalog h hr
  have hsame := ha.saveTable table []
  rw [Call.perform, hs, hloaded] at hsame
  change Store.loadCatalog s' = _ at hsame
  rw [hlost] at hsame
  cases hsame

/-- A store opened in an empty directory keeps its tables and its catalog apart at all times just if
the path of its catalog does not lead to the file of a table. -/
theorem apart_iff (config : DirectoryConfig) (files : FileSystem) (store : DirectoryStore)
    (he : (files.makeDirectories (directoryPath config)).2.IsEmptyDirectory (directoryPath config))
    (ho : (openIn config files).1 = .ok store) :
    (∀ calls, Apart (after store calls)) ↔ ¬ store.CatalogIsTable := by
  constructor
  · intro ha hc
    exact not_apart_of_catalogIsTable hc (read_of_catalogIsTable he ho hc) (ha [])
  · intro hc calls
    exact (settled_of_openIn he ho).apart_after hc calls

/-- Beside the directory the catalog may go by any name, also by that of a table. -/
theorem apart_of_catalog_beside_directory :
    let config : DirectoryConfig := ⟨"data", "../t.json", .compact⟩
    let files := FileSystem.empty.put ["data"] .directory
    let store : DirectoryStore := ⟨config, files.put ["t.json"] (.file "\x7b\x7d")⟩
    (openIn config files).1 = .ok store ∧ ¬ store.CatalogIsTable ∧
      ∀ calls, Apart (after store calls) := by
  intro config files store
  have he : files.IsEmptyDirectory ⟨"data"⟩ := ⟨["data"], by decide, fun name => rfl⟩
  have ho : (openIn config files).1 = .ok store := by decide +kernel
  have hl : store.files.enterAll (.ofChars "data".toList) = .ok ["data"] := by decide +kernel
  have hleads : store.files.Leads (directoryPath config) ["data"] := hl
  have hbeside : store.files.Points (catalogPath config) ["t.json"] :=
    ⟨⟨false, ["data", "..", "t.json"], .name⟩, by decide +kernel, rfl, by decide +kernel⟩
  have hc : ¬ store.CatalogIsTable := by
    intro h
    obtain ⟨table, location, hn, ht, hc⟩ := h
    obtain ⟨-, rfl⟩ := (hleads.points_join_iff (fileName_of_isTableName hn)).1 ht
    have hlength := congrArg List.length (hc.unique hbeside)
    cases hlength
  exact ⟨ho, hc, (apart_iff config files store he.makeDirectories ho).2 hc⟩

/-- In the directory it may not: saving that table puts records in the place of the catalog. -/
theorem saved_table_replaces_catalog :
    let config : DirectoryConfig := ⟨"data", "t.json", .compact⟩
    let files := FileSystem.empty.put ["data"] .directory
    let store : DirectoryStore := ⟨config, files.put ["data", "t.json"] (.file "\x7b\x7d")⟩
    files.IsEmptyDirectory ⟨"data"⟩ ∧ (openIn config files).1 = .ok store ∧
      Store.loadCatalog store = .ok .empty ∧
      Store.loadCatalog ((Call.saveTable "t" []).perform store).2 = .error .undecodable := by
  intro config files store
  exact ⟨⟨["data"], by decide, fun name => rfl⟩, by decide +kernel, by decide +kernel,
    by decide +kernel⟩

end DirectoryStore

end DocBase
