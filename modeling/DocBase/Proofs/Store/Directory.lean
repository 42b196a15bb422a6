import DocBase.Proofs.Document
import DocBase.Proofs.FileSystem
import DocBase.Proofs.Store.View
import DocBase.Store.Directory

namespace DocBase

theorem fileName_of_isTableName {table : String} (h : isTableName table) :
    FileName (table ++ ".json") := by
  have hall : ∀ c ∈ table.toList, c ≠ '/' := by
    rw [isTableName] at h
    split at h
    · cases h
    · cases h
    · intro c hc
      have ho := List.all_eq_true.1 h c hc
      simp only [Bool.and_eq_true, bne_iff_ne] at ho
      exact ho.1.1
  have hlast (s : String) (hs : s.toList.getLast? ≠ some 'n') : table ++ ".json" ≠ s := by
    intro he
    subst he
    simp at hs
  refine ⟨?_, hlast "" (by decide), hlast "." (by decide), hlast ".." (by decide)⟩
  intro hm
  rw [String.toList_append, List.mem_append] at hm
  rcases hm with hm | hm
  · exact hall _ hm rfl
  · exact absurd hm (by decide)

/-- No table has the file of the catalog. -/
theorem catalogFile_ne_of_isTableName {table : String} (h : isTableName table) :
    table ++ ".json" ≠ ".schema.json" := by
  intro he
  have hl : table.toList ++ ".json".toList = ".schema".toList ++ ".json".toList :=
    (String.toList_append ..).symm.trans (congrArg String.toList he)
  rw [isTableName, List.append_cancel_right hl] at h
  cases h

namespace DirectoryStore

variable {s s' : DirectoryStore} {location : Location} {table : String}

structure TableFile (s : DirectoryStore) (location : Location) (table text : String) : Prop where
  valid : isTableName table
  fits : FileSystem.Fits (directoryPath s.config) (table ++ ".json")
  stands : s.files.entry? (location ++ [table ++ ".json"]) = some (.file text)

def putFile (s : DirectoryStore) (location : Location) (name text : String) : DirectoryStore :=
  { s with files := s.files.put (location ++ [name]) (.file text) }

def withoutFile (s : DirectoryStore) (location : Location) (name : String) : DirectoryStore :=
  { s with files := s.files.without (location ++ [name]) }

theorem entry?_putFile {name text : String} (other : Location) :
    (s.putFile location name text).files.entry? other =
      if other = location ++ [name] then some (.file text) else s.files.entry? other :=
  FileSystem.entry?_put (by simp) _ _

theorem entry?_withoutFile {name : String} (other : Location) :
    (s.withoutFile location name).files.entry? other =
      if other = location ++ [name] then none else s.files.entry? other :=
  FileSystem.entry?_without (by simp) _

theorem writeDocument_eq_ok_iff {path : Path} {document : Json} :
    s.writeDocument path document = .ok s' ↔
      ∃ files, s.files.write path (document.write s.config.style) = .ok files ∧
        s' = { s with files := files } := by
  rw [writeDocument, bind_eq_ok_iff]
  cases s.files.write path (document.write s.config.style) with
  | ok files => simp [ofIo, pure, Except.pure, eq_comm]
  | error e => simp [ofIo]

section
variable (h : s.files.Holds (directoryPath s.config) location)
include h

theorem loadTable_eq_ok_iff {records : List Record} : Store.loadTable s table = .ok records ↔
    ∃ text, s.TableFile location table text ∧ Document.readTable? text = some records := by
  change loadTable s table = _ ↔ _
  rw [loadTable, bind_eq_ok_iff]
  constructor
  · intro hx
    obtain ⟨⟨⟩, hc, hl⟩ := hx
    have hn := checkTableName_eq_ok_iff.1 hc
    split at hl
    · next text hr =>
      obtain ⟨hs, he⟩ := (h.read_join_eq_ok_iff (fileName_of_isTableName hn)).1 hr
      refine ⟨text, ⟨hn, hs, he⟩, ?_⟩
      split at hl
      · next hd =>
        cases hl
        exact hd
      · cases hl
    · cases hl
    · cases hl
  · intro hx
    obtain ⟨text, ht, hd⟩ := hx
    have hr := (h.read_join_eq_ok_iff (fileName_of_isTableName ht.valid)).2 ⟨ht.fits, ht.stands⟩
    refine ⟨(), checkTableName_eq_ok_iff.2 ht.valid, ?_⟩
    rw [tablePath, hr]
    dsimp only
    rw [hd]
    rfl

theorem tableExists_iff : Store.tableExists s table ↔ ∃ text, s.TableFile location table text := by
  change (isTableName table && s.files.isFile (tablePath s.config table)) = true ↔ _
  rw [Bool.and_eq_true]
  constructor
  · intro hx
    obtain ⟨hn, hf⟩ := hx
    obtain ⟨text, hs, he⟩ := (h.isFile_join_iff (fileName_of_isTableName hn)).1 hf
    exact ⟨text, hn, hs, he⟩
  · intro hx
    obtain ⟨text, ht⟩ := hx
    exact ⟨ht.valid, (h.isFile_join_iff (fileName_of_isTableName ht.valid)).2
      ⟨text, ht.fits, ht.stands⟩⟩

theorem saveTable_eq_ok_iff {records : List Record} : Store.saveTable s table records = .ok s' ↔
    isTableName table ∧ FileSystem.Fits (directoryPath s.config) (table ++ ".json") ∧
      s' = s.putFile location (table ++ ".json")
        ((Document.ofTable records).write s.config.style) := by
  change saveTable s table records = _ ↔ _
  rw [saveTable, bind_eq_ok_iff]
  constructor
  · intro hx
    obtain ⟨⟨⟩, hc, hw⟩ := hx
    have hn := checkTableName_eq_ok_iff.1 hc
    obtain ⟨files, hf, rfl⟩ := writeDocument_eq_ok_iff.1 hw
    obtain ⟨hs, rfl⟩ := (h.write_join_eq_ok_iff (fileName_of_isTableName hn)).1 hf
    exact ⟨hn, hs, rfl⟩
  · intro hx
    obtain ⟨hn, hs, rfl⟩ := hx
    refine ⟨(), checkTableName_eq_ok_iff.2 hn, writeDocument_eq_ok_iff.2 ⟨_, ?_, rfl⟩⟩
    exact (h.write_join_eq_ok_iff (fileName_of_isTableName hn)).2 ⟨hs, rfl⟩

theorem deleteTable_eq_ok_iff : Store.deleteTable s table = .ok s' ↔
    (∃ text, s.TableFile location table text) ∧ s' = s.withoutFile location (table ++ ".json") := by
  change deleteTable s table = _ ↔ _
  rw [deleteTable, bind_eq_ok_iff]
  constructor
  · intro hx
    obtain ⟨⟨⟩, hc, hd⟩ := hx
    have hn := checkTableName_eq_ok_iff.1 hc
    split at hd
    · next files hr =>
      obtain ⟨⟨text, hs, he⟩, rfl⟩ := (h.remove_join_eq_ok_iff (fileName_of_isTableName hn)).1 hr
      cases hd
      exact ⟨⟨text, hn, hs, he⟩, rfl⟩
    · cases hd
    · cases hd
  · intro hx
    obtain ⟨⟨text, ht⟩, rfl⟩ := hx
    have hr := (h.remove_join_eq_ok_iff (fileName_of_isTableName ht.valid)).2
      ⟨⟨text, ht.fits, ht.stands⟩, rfl⟩
    refine ⟨(), checkTableName_eq_ok_iff.2 ht.valid, ?_⟩
    rw [tablePath, hr]
    rfl

end

theorem tableLocation_inj {name : String} :
    location ++ [table ++ ".json"] = location ++ [name ++ ".json"] ↔ table = name := by
  rw [List.append_cancel_left_eq, List.cons.injEq, eq_self, and_true, String.append_left_inj]

theorem tableFile_putFile {name text written : String} (hn : isTableName name) :
    (s.putFile location (name ++ ".json") written).TableFile location table text ↔
      if table = name then
        FileSystem.Fits (directoryPath s.config) (name ++ ".json") ∧ text = written
      else s.TableFile location table text := by
  have hentry : FileSystem.entry? (s.putFile location (name ++ ".json") written).files
      (location ++ [table ++ ".json"]) = if table = name then some (.file written)
        else s.files.entry? (location ++ [table ++ ".json"]) := by
    rw [putFile, FileSystem.entry?_put (by simp)]
    simp only [tableLocation_inj]
  split
  · next he =>
    rw [if_pos he] at hentry
    subst he
    constructor
    · intro h
      obtain ⟨-, hf, hs⟩ := h
      rw [hentry] at hs
      cases hs
      exact ⟨hf, rfl⟩
    · intro h
      obtain ⟨hf, rfl⟩ := h
      exact ⟨hn, hf, hentry⟩
  · next he =>
    rw [if_neg he] at hentry
    constructor
    · intro h
      exact ⟨h.valid, h.fits, hentry ▸ h.stands⟩
    · intro h
      exact ⟨h.valid, h.fits, hentry.trans h.stands⟩

theorem tableFile_putFile_catalog {text written : String} :
    (s.putFile location ".schema.json" written).TableFile location table text ↔
      s.TableFile location table text := by
  have hentry (hn : isTableName table) :
      FileSystem.entry? (s.putFile location ".schema.json" written).files
        (location ++ [table ++ ".json"]) = s.files.entry? (location ++ [table ++ ".json"]) := by
    rw [putFile, FileSystem.entry?_put (by simp), if_neg]
    simp [catalogFile_ne_of_isTableName hn]
  constructor
  · intro h
    exact ⟨h.valid, h.fits, hentry h.valid ▸ h.stands⟩
  · intro h
    exact ⟨h.valid, h.fits, (hentry h.valid).trans h.stands⟩

theorem tableFile_withoutFile {name text : String} :
    (s.withoutFile location (name ++ ".json")).TableFile location table text ↔
      table ≠ name ∧ s.TableFile location table text := by
  have hentry : FileSystem.entry? (s.withoutFile location (name ++ ".json")).files
      (location ++ [table ++ ".json"]) = if table = name then none
        else s.files.entry? (location ++ [table ++ ".json"]) := by
    rw [withoutFile, FileSystem.entry?_without (by simp)]
    simp only [tableLocation_inj]
  constructor
  · intro h
    have hs := h.stands
    rw [hentry] at hs
    split at hs
    · cases hs
    · next he => exact ⟨he, h.valid, h.fits, hs⟩
  · intro h
    obtain ⟨he, h⟩ := h
    rw [if_neg he] at hentry
    exact ⟨h.valid, h.fits, hentry.trans h.stands⟩

/-- What a store shows whose directory is at a location. -/
structure ShowsAt (s : DirectoryStore) (location : Location) (v : View) : Prop where
  holds : s.files.Holds (directoryPath s.config) location
  usual : s.config.catalogFile = ".schema.json"
  fits : FileSystem.Fits (directoryPath s.config) ".schema.json"
  tables {table : String} {records : List Record} : v.tables table = some records ↔
    ∃ text, s.TableFile location table text ∧ Document.readTable? text = some records
  decodes {table text : String} : s.TableFile location table text →
    (Document.readTable? text).isSome
  catalog : ∃ text, s.files.entry? (location ++ [".schema.json"]) = some (.file text) ∧
    Document.readCatalog? text = some v.catalog

def Shows (s : DirectoryStore) (v : View) : Prop := ∃ location, s.ShowsAt location v

theorem catalogLocation_ne (hn : isTableName table) :
    location ++ [".schema.json"] ≠ location ++ [table ++ ".json"] := by
  simpa using (catalogFile_ne_of_isTableName hn).symm

namespace ShowsAt

variable {v : View}

theorem tableExists_iff (h : s.ShowsAt location v) :
    Store.tableExists s table ↔ (v.tables table).isSome := by
  rw [DirectoryStore.tableExists_iff h.holds, Option.isSome_iff_exists]
  constructor
  · intro hx
    obtain ⟨text, ht⟩ := hx
    obtain ⟨records, hd⟩ := Option.isSome_iff_exists.1 (h.decodes ht)
    exact ⟨records, h.tables.2 ⟨text, ht, hd⟩⟩
  · intro hx
    obtain ⟨records, hv⟩ := hx
    obtain ⟨text, ht, -⟩ := h.tables.1 hv
    exact ⟨text, ht⟩

theorem putTable (h : s.ShowsAt location v) {records : List Record} (hn : isTableName table)
    (hf : FileSystem.Fits (directoryPath s.config) (table ++ ".json")) :
    (s.putFile location (table ++ ".json")
      ((Document.ofTable records).write s.config.style)).ShowsAt location
        (v.write table (some (records.map Record.kept))) where
  holds := h.holds.put _ _
  usual := h.usual
  fits := h.fits
  tables := by
    intro other found
    simp only [tableFile_putFile hn, View.tables_write]
    split
    · constructor
      · intro he
        cases he
        exact ⟨_, ⟨hf, rfl⟩, Document.readTable?_write _ _⟩
      · intro hx
        obtain ⟨text, ⟨-, rfl⟩, hd⟩ := hx
        rw [← hd, Document.readTable?_write]
    · exact h.tables
  decodes := by
    intro other text ht
    rw [tableFile_putFile hn] at ht
    split at ht
    · rw [ht.2, Document.readTable?_write]
      rfl
    · exact h.decodes ht
  catalog := by
    obtain ⟨text, he, hc⟩ := h.catalog
    refine ⟨text, ?_, hc⟩
    rw [putFile, FileSystem.entry?_put (by simp), if_neg (catalogLocation_ne hn)]
    exact he

theorem withoutTable (h : s.ShowsAt location v) (hn : isTableName table) :
    (s.withoutFile location (table ++ ".json")).ShowsAt location (v.write table none) where
  holds := h.holds.without _
  usual := h.usual
  fits := h.fits
  tables := by
    intro other found
    simp only [tableFile_withoutFile, View.tables_write]
    split
    · next he =>
      apply iff_of_false nofun
      intro hx
      obtain ⟨_, ht, _⟩ := hx
      exact ht.1 he
    · next he => simpa [he] using h.tables
  decodes ht := h.decodes (tableFile_withoutFile.1 ht).2
  catalog := by
    obtain ⟨text, he, hc⟩ := h.catalog
    refine ⟨text, ?_, hc⟩
    rw [withoutFile, FileSystem.entry?_without (by simp), if_neg (catalogLocation_ne hn)]
    exact he

theorem putCatalog (h : s.ShowsAt location v) {catalog : Catalog} {written : String}
    (hw : Document.readCatalog? written = some catalog) :
    (s.putFile location ".schema.json" written).ShowsAt location (v.declare catalog) where
  holds := h.holds.put _ _
  usual := h.usual
  fits := h.fits
  tables := by
    simp only [tableFile_putFile_catalog]
    exact h.tables
  decodes ht := h.decodes (tableFile_putFile_catalog.1 ht)
  catalog := by
    refine ⟨written, ?_, hw⟩
    rw [putFile, FileSystem.entry?_put (by simp), if_pos rfl]

end ShowsAt

theorem fileName_catalog : FileName ".schema.json" := by
  constructor <;> decide

theorem catalogPath_eq (h : s.config.catalogFile = ".schema.json") :
    catalogPath s.config = (directoryPath s.config).join ".schema.json" := by
  rw [catalogPath, h]

/-- Another state of a store with the same directories. -/
structure SamePlaces (s s' : DirectoryStore) : Prop where
  config : s'.config = s.config
  directories : FileSystem.SameDirectories s.files s'.files

theorem samePlaces_of_writeDocument {path : Path} {document : Json}
    (h : s.writeDocument path document = .ok s') : SamePlaces s s' := by
  obtain ⟨files, hf, rfl⟩ := writeDocument_eq_ok_iff.1 h
  exact ⟨rfl, FileSystem.sameDirectories_of_write hf⟩

theorem samePlaces_of_deleteTable (h : Store.deleteTable s table = .ok s') : SamePlaces s s' := by
  change deleteTable s table = _ at h
  rw [deleteTable, bind_eq_ok_iff] at h
  obtain ⟨-, -, h⟩ := h
  split at h
  · next files hr =>
    cases h
    exact ⟨rfl, FileSystem.sameDirectories_of_remove hr⟩
  · cases h
  · cases h

theorem eq_ok_of_saveTable {records : List Record} (h : Store.saveTable s table records = .ok s') :
    SamePlaces s s' ∧ ∃ location, s.files.Leads (directoryPath s.config) location := by
  change saveTable s table records = _ at h
  rw [saveTable, bind_eq_ok_iff] at h
  obtain ⟨⟨⟩, hc, hw⟩ := h
  obtain ⟨files, hf, -⟩ := writeDocument_eq_ok_iff.1 hw
  have hn := fileName_of_isTableName (checkTableName_eq_ok_iff.1 hc)
  exact ⟨samePlaces_of_writeDocument hw, FileSystem.exists_leads_of_write hn hf⟩

/-- The catalog can be written: its path fits, and no directory stands in its place. -/
structure CatalogWritable (s : DirectoryStore) (location : Location) : Prop where
  usual : s.config.catalogFile = ".schema.json"
  leads : s.files.Leads (directoryPath s.config) location
  fits : FileSystem.Fits (directoryPath s.config) ".schema.json"
  free : s.files.entry? (location ++ [".schema.json"]) ≠ some .directory

namespace CatalogWritable

theorem of_samePlaces (h : s.CatalogWritable location) (hs : SamePlaces s s') :
    s'.CatalogWritable location where
  usual := by
    rw [hs.config]
    exact h.usual
  leads := by
    rw [hs.config]
    exact h.leads.of_sameDirectories hs.directories
  fits := by
    rw [hs.config]
    exact h.fits
  free hd := h.free ((hs.directories.iff _).1 hd)

theorem saveCatalog (h : s.CatalogWritable location) (catalog : Catalog) :
    Store.saveCatalog s catalog = .ok (s.putFile location ".schema.json"
      ((Document.ofCatalog catalog).write s.config.style)) := by
  change DirectoryStore.saveCatalog s catalog = _
  rw [DirectoryStore.saveCatalog, catalogPath_eq h.usual, writeDocument_eq_ok_iff]
  refine ⟨_, ?_, rfl⟩
  rw [h.leads.write_join_of_fits fileName_catalog h.fits, if_neg h.free]

/-- A catalog that loads, or is only missing, can be written where its directory is found. -/
theorem of_loadCatalog {catalog : Catalog} (hu : s.config.catalogFile = ".schema.json")
    (hl : s.files.Leads (directoryPath s.config) location)
    (hc : Store.loadCatalog s = .ok catalog) : s.CatalogWritable location := by
  change DirectoryStore.loadCatalog s = _ at hc
  rw [DirectoryStore.loadCatalog, catalogPath_eq hu, FileSystem.read] at hc
  by_cases hf : FileSystem.Fits (directoryPath s.config) ".schema.json"
  · refine ⟨hu, hl, hf, ?_⟩
    intro hd
    rw [hl.find_join_of_fits fileName_catalog hf, hd] at hc
    cases hc
  · rw [hl.find_join_of_not_fits fileName_catalog hf] at hc
    cases hc

end CatalogWritable

theorem exists_leads_of_contains {catalog : Catalog} (hu : s.config.catalogFile = ".schema.json")
    (hc : Store.loadCatalog s = .ok catalog) (hm : catalog.contains table) :
    ∃ location, s.files.Leads (directoryPath s.config) location := by
  change DirectoryStore.loadCatalog s = _ at hc
  rw [DirectoryStore.loadCatalog, catalogPath_eq hu] at hc
  split at hc
  · next text hr =>
    obtain ⟨found, hf, -⟩ := bind_eq_ok_iff.1 hr
    exact FileSystem.exists_leads_of_find fileName_catalog hf
  · cases hc
    cases hm
  · cases hc

theorem ShowsAt.loadCatalog {v : View} (h : s.ShowsAt location v) :
    Store.loadCatalog s = .ok v.catalog := by
  obtain ⟨text, he, hc⟩ := h.catalog
  have hr := (h.holds.read_join_eq_ok_iff fileName_catalog).2 ⟨h.fits, he⟩
  change DirectoryStore.loadCatalog s = _
  rw [DirectoryStore.loadCatalog, catalogPath_eq h.usual, hr]
  dsimp only
  rw [hc]

theorem ShowsAt.catalogWritable {v : View} (h : s.ShowsAt location v) :
    s.CatalogWritable location :=
  ⟨h.usual, h.holds.leads, h.fits, h.holds.not_directory _⟩

/-- Records kept in files come back with nulls for the floats that have no numeral. -/
theorem faithful : Faithful DirectoryStore Shows Record.kept where
  loadTable := by
    intro s v table records h
    obtain ⟨location, h⟩ := h
    rw [loadTable_eq_ok_iff h.holds, h.tables]
  tableExists := by
    intro s v table h
    obtain ⟨location, h⟩ := h
    exact h.tableExists_iff
  saveTable := by
    intro s s' v table records h hs
    obtain ⟨location, h⟩ := h
    obtain ⟨hn, hf, rfl⟩ := (saveTable_eq_ok_iff h.holds).1 hs
    exact ⟨location, h.putTable hn hf⟩
  deleteTable := by
    intro s s' v table h hs
    obtain ⟨location, h⟩ := h
    obtain ⟨⟨text, ht⟩, rfl⟩ := (deleteTable_eq_ok_iff h.holds).1 hs
    exact ⟨location, h.withoutTable ht.valid⟩
  loadCatalog := by
    intro s v h
    obtain ⟨location, h⟩ := h
    exact h.loadCatalog
  saveCatalog := by
    intro s v catalog h hn
    obtain ⟨location, h⟩ := h
    exact ⟨_, h.catalogWritable.saveCatalog catalog, location,
      h.putCatalog (Document.readCatalog?_write _ hn)⟩
  id_keep r := rfl
  ordered_keep {r} _ := r.ordered_kept

theorem openIn_eq_ok {config : DirectoryConfig} {files made : FileSystem}
    (hm : (files.makeDirectories (directoryPath config)).2 = made)
    (ho : (openIn config files).1 = .ok s) :
    made.pathExists (catalogPath config) ∧ s = ⟨config, made⟩ ∨
      ∃ files', made.write (catalogPath config) "\x7b\x7d" = .ok files' ∧ s = ⟨config, files'⟩ := by
  rw [openIn] at ho
  split at ho
  · cases ho
  · next h =>
    rw [h] at hm
    cases hm
    split at ho
    · next hp =>
      cases ho
      exact .inl ⟨hp, rfl⟩
    · split at ho
      · next hw =>
        cases ho
        exact .inr ⟨_, hw, rfl⟩
      · cases ho

theorem shows_empty_of_openIn {directory : String} {style : Json.Style} {files : FileSystem}
    (he : (files.makeDirectories ⟨directory⟩).2.IsEmptyDirectory ⟨directory⟩)
    (ho : (openIn (.standard directory style) files).1 = .ok s) : s.Shows .empty := by
  obtain ⟨location, hd, hnone⟩ := he
  generalize hm : (files.makeDirectories ⟨directory⟩).2 = made at hd hnone
  have hholds : made.Holds ⟨directory⟩ location := by
    refine ⟨hd, ?_⟩
    intro name
    rw [hnone]
    exact nofun
  rcases openIn_eq_ok hm ho with ⟨hp, -⟩ | ⟨files', hw, rfl⟩
  · rw [FileSystem.pathExists] at hp
    cases hf : made.find (catalogPath (.standard directory style)) with
    | error e =>
      rw [hf] at hp
      cases hp
    | ok found =>
      obtain ⟨-, hl, hs⟩ := (hholds.find_join_eq_ok_iff fileName_catalog).1 hf
      rw [hl, hnone] at hs
      cases hs
  -- The path of the catalog could be written to, so it fits ever after.
  · obtain ⟨hfits, rfl⟩ := (hholds.write_join_eq_ok_iff fileName_catalog).1 hw
    have hcatalog : FileSystem.entry? (made.put (location ++ [".schema.json"])
        (.file "\x7b\x7d")) (location ++ [".schema.json"]) = some (.file "\x7b\x7d") := by
      rw [FileSystem.entry?_put (by simp), if_pos rfl]
    have hnoTable {table text : String} : ¬ TableFile ⟨.standard directory style,
        made.put (location ++ [".schema.json"]) (.file "\x7b\x7d")⟩ location table text := by
      intro h
      have hs := h.stands
      rw [FileSystem.entry?_put (by simp), if_neg (catalogLocation_ne h.valid).symm, hnone] at hs
      cases hs
    exact ⟨location, {
      holds := hholds.put _ _
      usual := rfl
      fits := hfits
      tables := iff_of_false nofun fun ⟨_, h, _⟩ => hnoTable h
      decodes := fun h => (hnoTable h).elim
      catalog := ⟨_, hcatalog, Document.readCatalog?_braces⟩ }⟩

end DirectoryStore

end DocBase
