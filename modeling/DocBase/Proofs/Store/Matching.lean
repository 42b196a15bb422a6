import DocBase.Proofs.Query.Matching
import DocBase.Proofs.Store.Entry
import DocBase.Proofs.Store.Opening

namespace DocBase

variable {Q Q' : RecordId → RecordId → Prop}

/-- Stores of a kind that are related go on to be so. Their tables match, and nothing else that can
be asked of them differs. -/
structure Mirrors (σ : Type) [Store σ] (R : (RecordId → RecordId → Prop) → σ → σ → Prop) :
    Prop where
  mono {Q Q' : RecordId → RecordId → Prop} {s s' : σ} : R Q s s' → Subrelation Q Q' → R Q' s s'
  loadTable {Q : RecordId → RecordId → Prop} {s s' : σ} (h : R Q s s') (table : String) :
    Follows (Matching Q) (Store.loadTable s table) (Store.loadTable s' table)
  tableExists {Q : RecordId → RecordId → Prop} {s s' : σ} (h : R Q s s') (table : String) :
    Store.tableExists s' table = Store.tableExists s table
  saveTable {Q : RecordId → RecordId → Prop} {s s' : σ} (h : R Q s s') (table : String)
    {records records' : List Record} (hm : Matching Q records records') :
    Follows (R Q) (Store.saveTable s table records) (Store.saveTable s' table records')
  deleteTable {Q : RecordId → RecordId → Prop} {s s' : σ} (h : R Q s s') (table : String) :
    Follows (R Q) (Store.deleteTable s table) (Store.deleteTable s' table)
  loadCatalog {Q : RecordId → RecordId → Prop} {s s' : σ} (h : R Q s s') :
    Store.loadCatalog s' = Store.loadCatalog s
  saveCatalog {Q : RecordId → RecordId → Prop} {s s' : σ} (h : R Q s s') (catalog : Catalog) :
    Follows (R Q) (Store.saveCatalog s catalog) (Store.saveCatalog s' catalog)

theorem Matching.kept {records records' : List Record} (h : Matching Q records records') :
    Matching Q (records.map Record.kept) (records'.map Record.kept) := by
  rw [Matching, List.forall₂_map_left_iff, List.forall₂_map_right_iff]
  apply List.Forall₂.imp _ h
  intro a b hab
  exact ⟨hab.id, congrArg (OrderedMap.mapValues Value.kept) hab.fields⟩

namespace DirectoryStore

open FileSystem

section
variable {α : Type}

/-- What stands in a place of two directories: the same, unless both have since got documents of
related things, in styles of this kind. -/
inductive Alike (styles : Json.Style → Prop) (document : α → Json) (R : α → α → Prop)
    (Kept : String → Prop) : Option Entry → Option Entry → Prop
  | kept {entry : Option Entry} : (∀ text, entry = some (.file text) → Kept text) →
    Alike styles document R Kept entry entry
  | written {a b : α} {style style' : Json.Style} : R a b → styles style → styles style' →
    Alike styles document R Kept (some (.file ((document a).write style)))
      (some (.file ((document b).write style')))

namespace Alike

variable {styles : Json.Style → Prop} {document : α → Json} {R R' : α → α → Prop}
  {Kept Kept' : String → Prop} {entry entry' : Option Entry} {s s' : DirectoryStore}

theorem mono (h : Alike styles document R Kept entry entry') (hR : ∀ a b, R a b → R' a b)
    (hk : ∀ text, Kept text → Kept' text) : Alike styles document R' Kept' entry entry' := by
  cases h with
  | kept h => exact .kept fun text he => hk text (h text he)
  | written hab hs hs' => exact .written (hR _ _ hab) hs hs'

theorem directory_iff (h : Alike styles document R Kept entry entry') :
    entry' = some .directory ↔ entry = some .directory := by
  cases h with
  | kept => rfl
  | written => exact iff_of_false nofun nofun

theorem isFileEntry_eq (h : Alike styles document R Kept entry entry') :
    isFileEntry entry' = isFileEntry entry := by
  cases h with
  | kept => rfl
  | written => rfl

theorem replaceEntry {S : DirectoryStore → DirectoryStore → Prop}
    (h : Alike styles document R Kept entry entry') (hs : entry ≠ some .directory → S s s') :
    Follows S (replaceEntry s entry) (replaceEntry s' entry') := by
  by_cases hd : entry = some .directory
  · rw [hd, h.directory_iff.2 hd]
    exact .failed _
  · rw [replaceEntry_of_ne hd, replaceEntry_of_ne (mt h.directory_iff.1 hd)]
    exact .done (hs hd)

theorem removeEntry {S : DirectoryStore → DirectoryStore → Prop} (table : String)
    (h : Alike styles document R Kept entry entry') (hs : entry ≠ some .directory → S s s') :
    Follows S (removeEntry table s entry) (removeEntry table s' entry') := by
  have hr := h.replaceEntry hs
  cases h with
  | kept h =>
    cases entry with
    | none => exact .failed _
    | some entry => exact hr
  | written => exact hr

end Alike

end

/-- A document whose identifiers stand for themselves. -/
def Stable (Q : RecordId → RecordId → Prop) (text : String) : Prop :=
  ∀ records, Document.readTable? text = some records → Matching Q records records

abbrev TablesAlike (styles : Json.Style → Prop) (Q : RecordId → RecordId → Prop) :
    Option Entry → Option Entry → Prop :=
  Alike styles Document.ofTable (Matching Q) (Stable Q)

abbrev CatalogsAlike (styles : Json.Style → Prop) : Option Entry → Option Entry → Prop :=
  Alike styles Document.ofCatalog Eq fun _ => True

section
variable {styles : Json.Style → Prop} {entry entry' : Option Entry}

theorem TablesAlike.loadEntry (h : TablesAlike styles Q entry entry') (table : String) :
    Follows (Matching Q) (loadEntry table entry) (loadEntry table entry') := by
  cases h with
  | kept h =>
    cases entry with
    | none => exact .failed _
    | some entry =>
      cases entry with
      | directory => exact .failed _
      | binary content => exact .failed _
      | file text =>
        rw [DirectoryStore.loadEntry]
        cases hr : Document.readTable? text with
        | none => exact .failed _
        | some records => exact .done (h text rfl records hr)
  | written hm =>
    rw [DirectoryStore.loadEntry, DirectoryStore.loadEntry, Document.readTable?_write,
      Document.readTable?_write]
    exact .done hm.kept

theorem CatalogsAlike.loadCatalogEntry (h : CatalogsAlike styles entry entry') :
    loadCatalogEntry entry' = loadCatalogEntry entry := by
  cases h with
  | kept => rfl
  | written he =>
    subst he
    rw [DirectoryStore.loadCatalogEntry, DirectoryStore.loadCatalogEntry, Document.readCatalog?,
      Document.readCatalog?, Json.parse?_write, Json.parse?_write]

end

/-- Two stores that were opened in one directory, each with files of its own. Their tables match,
and their catalogs are the same. -/
structure Counterparts (styles : Json.Style → Prop) (directory : String) (location : Location)
    (Q : RecordId → RecordId → Prop) (s s' : DirectoryStore) : Prop where
  left : s.OpenedIn styles directory location
  right : s'.OpenedIn styles directory location
  tables {table : String} : room ⟨directory⟩ table = .ok () →
    TablesAlike styles Q (s.files.entry? (location ++ [table ++ ".json"]))
      (s'.files.entry? (location ++ [table ++ ".json"]))
  catalog : CatalogsAlike styles (s.files.entry? (location ++ [".schema.json"]))
    (s'.files.entry? (location ++ [".schema.json"]))

/-- An opened store is its own counterpart as long as the identifiers in its tables stand for
themselves. -/
theorem OpenedIn.counterparts {styles : Json.Style → Prop} {directory : String}
    {location : Location} {s : DirectoryStore} (h : s.OpenedIn styles directory location)
    (hQ : ∀ table records, Store.loadTable s table = .ok records → ∀ r ∈ records, Q r.id r.id) :
    Counterparts styles directory location Q s s where
  left := h
  right := h
  tables := by
    intro table hr
    apply Alike.kept
    intro text he records hd
    apply List.forall₂_same.2
    intro r hm
    have hl : Store.loadTable s table = .ok records := by
      rw [loadTable_eq h.leads_config, h.directoryPath_eq, hr, he]
      change loadEntry table (some (.file text)) = _
      rw [loadEntry, hd]
    exact ⟨hQ table records hl r hm, rfl⟩
  catalog := .kept fun _ _ => trivial

namespace Counterparts

variable {styles : Json.Style → Prop} {directory : String} {location : Location}
  {s s' : DirectoryStore}

theorem mono (h : Counterparts styles directory location Q s s') (hQ : Subrelation Q Q') :
    Counterparts styles directory location Q' s s' where
  left := h.left
  right := h.right
  tables hn := (h.tables hn).mono (fun _ _ hm => hm.mono hQ)
    fun _ hs records hr => (hs records hr).mono hQ
  catalog := h.catalog

theorem restyle (h : Counterparts styles directory location Q s s') {style : Json.Style}
    (hs : styles style) :
    Counterparts styles directory location Q s ⟨.standard directory style, s'.files⟩ where
  left := h.left
  right := h.right.restyle hs
  tables := h.tables
  catalog := h.catalog

section
variable (h : Counterparts styles directory location Q s s')
include h

theorem room_bind {α β : Type} {R : α → β → Prop} {table : String} {x : Except StorageError α}
    {y : Except StorageError β} (hf : room ⟨directory⟩ table = .ok () → Follows R x y) :
    Follows R (room (directoryPath s.config) table >>= fun _ => x)
      (room (directoryPath s'.config) table >>= fun _ => y) := by
  rw [h.left.directoryPath_eq, h.right.directoryPath_eq]
  cases hr : room ⟨directory⟩ table with
  | ok u => exact hf hr
  | error e => exact .failed e

theorem putTable {table text text' : String} (hr : room ⟨directory⟩ table = .ok ())
    (hd : s.files.entry? (location ++ [table ++ ".json"]) ≠ some .directory)
    (ht : TablesAlike styles Q (some (.file text)) (some (.file text'))) :
    Counterparts styles directory location Q (s.putFile location (table ++ ".json") text)
      (s'.putFile location (table ++ ".json") text') where
  left := h.left.putFile hd
  right := h.right.putFile (mt (h.tables hr).directory_iff.1 hd)
  tables := by
    intro other hother
    rw [entry?_putFile, entry?_putFile]
    simp only [tableLocation_inj]
    split
    · exact ht
    · exact h.tables hother
  catalog := by
    have hne : location ++ [".schema.json"] ≠ location ++ [table ++ ".json"] :=
      catalogLocation_ne (room_eq_ok_iff.1 hr).1
    rw [entry?_putFile, entry?_putFile, if_neg hne, if_neg hne]
    exact h.catalog

theorem withoutTable {table : String} (hr : room ⟨directory⟩ table = .ok ())
    (hd : s.files.entry? (location ++ [table ++ ".json"]) ≠ some .directory) :
    Counterparts styles directory location Q (s.withoutFile location (table ++ ".json"))
      (s'.withoutFile location (table ++ ".json")) where
  left := h.left.withoutTable (room_eq_ok_iff.1 hr).1 hd
  right := h.right.withoutTable (room_eq_ok_iff.1 hr).1 (mt (h.tables hr).directory_iff.1 hd)
  tables := by
    intro other hother
    rw [entry?_withoutFile, entry?_withoutFile]
    split
    · exact .kept nofun
    · exact h.tables hother
  catalog := by
    have hne : location ++ [".schema.json"] ≠ location ++ [table ++ ".json"] :=
      catalogLocation_ne (room_eq_ok_iff.1 hr).1
    rw [entry?_withoutFile, entry?_withoutFile, if_neg hne, if_neg hne]
    exact h.catalog

theorem putCatalog {text text' : String}
    (hd : s.files.entry? (location ++ [".schema.json"]) ≠ some .directory)
    (ht : CatalogsAlike styles (some (.file text)) (some (.file text'))) :
    Counterparts styles directory location Q (s.putFile location ".schema.json" text)
      (s'.putFile location ".schema.json" text') where
  left := h.left.putFile hd
  right := h.right.putFile (mt h.catalog.directory_iff.1 hd)
  tables := by
    intro other hother
    have hne : location ++ [other ++ ".json"] ≠ location ++ [".schema.json"] :=
      (catalogLocation_ne (room_eq_ok_iff.1 hother).1).symm
    rw [entry?_putFile, entry?_putFile, if_neg hne, if_neg hne]
    exact h.tables hother
  catalog := by
    rw [entry?_putFile, entry?_putFile, if_pos rfl, if_pos rfl]
    exact ht

end

end Counterparts

theorem mirrors (styles : Json.Style → Prop) (directory : String) (location : Location) :
    Mirrors DirectoryStore (Counterparts styles directory location) where
  mono h hQ := h.mono hQ
  loadTable {Q s s'} h table := by
    rw [loadTable_eq h.left.leads_config, loadTable_eq h.right.leads_config]
    apply h.room_bind
    intro hr
    exact (h.tables hr).loadEntry table
  tableExists {Q s s'} h table := by
    rw [tableExists_eq h.left.leads_config, tableExists_eq h.right.leads_config,
      h.left.directoryPath_eq, h.right.directoryPath_eq]
    cases hr : room ⟨directory⟩ table with
    | error e => rfl
    | ok u => exact congrArg (true && ·) (h.tables hr).isFileEntry_eq
  saveTable {Q s s'} h table records records' hm := by
    rw [saveTable_eq h.left.leads_config, saveTable_eq h.right.leads_config]
    apply h.room_bind
    intro hr
    apply (h.tables hr).replaceEntry
    intro hd
    exact h.putTable hr hd (.written hm h.left.styles_config h.right.styles_config)
  deleteTable {Q s s'} h table := by
    rw [deleteTable_eq h.left.leads_config, deleteTable_eq h.right.leads_config]
    apply h.room_bind
    intro hr
    apply (h.tables hr).removeEntry
    exact h.withoutTable hr
  loadCatalog {Q s s'} h := by
    rw [loadCatalog_eq h.left.leads_config h.left.usual h.left.fits_config,
      loadCatalog_eq h.right.leads_config h.right.usual h.right.fits_config]
    exact h.catalog.loadCatalogEntry
  saveCatalog {Q s s'} h catalog := by
    rw [saveCatalog_eq h.left.leads_config h.left.usual h.left.fits_config,
      saveCatalog_eq h.right.leads_config h.right.usual h.right.fits_config]
    apply h.catalog.replaceEntry
    intro hd
    exact h.putCatalog hd (.written rfl h.left.styles_config h.right.styles_config)

end DirectoryStore

end DocBase
