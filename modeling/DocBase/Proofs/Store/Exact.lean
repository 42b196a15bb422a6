import DocBase.Proofs.Store.Contract

namespace DocBase

/-- A kind of store in which an operation on a table fails only for want of room or of the table. -/
structure Exact (σ : Type) [Store σ] (Shows : σ → View → Prop)
    (room : String → Except StorageError Unit) (keep : Record → Record) : Prop
    extends Faithful σ Shows keep where
  room_of_present {s : σ} {v : View} {table : String} :
    Shows s v → (v.tables table).isSome → room table = .ok ()
  loadTable_of_absent {s : σ} {v : View} {table : String} : Shows s v → v.tables table = none →
    Store.loadTable s table = (room table >>= fun _ => .error (.tableNotFound table))
  saveTable_of_room {s : σ} {v : View} {table : String} (records : List Record) :
    Shows s v → room table = .ok () → ∃ s', Store.saveTable s table records = .ok s'
  saveTable_of_no_room {s : σ} {v : View} {table : String} {e : StorageError}
    (records : List Record) : Shows s v → room table = .error e →
    Store.saveTable s table records = .error e
  deleteTable_of_present {s : σ} {v : View} {table : String} :
    Shows s v → (v.tables table).isSome → ∃ s', Store.deleteTable s table = .ok s'
  /-- Whatever becomes of the fields of a record, its identifier has no part in it. -/
  keep_withId (r : Record) (id : RecordId) : keep { r with id := id } = { keep r with id := id }

/-- Stores of a kind that have something in common which no operation changes. -/
theorem Faithful.restrict {σ : Type} [Store σ] {Shows : σ → View → Prop} {keep : Record → Record}
    (F : Faithful σ Shows keep) {P : σ → Prop}
    (saveTable : ∀ {s s' table records}, Store.saveTable s table records = .ok s' → P s → P s')
    (deleteTable : ∀ {s s' : σ} {table}, Store.deleteTable s table = .ok s' → P s → P s')
    (saveCatalog : ∀ {s s' catalog}, Store.saveCatalog s catalog = .ok s' → P s → P s') :
    Faithful σ (fun s v => Shows s v ∧ P s) keep where
  loadTable h := F.loadTable h.1
  tableExists h := F.tableExists h.1
  saveTable h hs := ⟨F.saveTable h.1 hs, saveTable hs h.2⟩
  deleteTable h hs := ⟨F.deleteTable h.1 hs, deleteTable hs h.2⟩
  loadCatalog h := F.loadCatalog h.1
  saveCatalog h hn := by
    obtain ⟨s', hs, hshows⟩ := F.saveCatalog h.1 hn
    exact ⟨s', hs, hshows, saveCatalog hs h.2⟩
  id_keep := F.id_keep
  ordered_keep := F.ordered_keep

theorem MemoryStore.exact : Exact MemoryStore Shows checkTableName id where
  toFaithful := faithful
  room_of_present {s v table} h hp := by
    rw [h.tables] at hp
    exact checkTableName_eq_ok_iff.2 (h.named hp)
  loadTable_of_absent {s v table} h ha := by
    rw [h.tables] at ha
    change MemoryStore.loadTable s table = _
    rw [loadTable, ha]
    rfl
  saveTable_of_room records h hroom :=
    ⟨_, saveTable_eq_ok_iff.2 ⟨checkTableName_eq_ok_iff.1 hroom, rfl⟩⟩
  saveTable_of_no_room {s v table e} records h hroom := by
    change MemoryStore.saveTable s table records = _
    rw [saveTable, hroom]
    rfl
  deleteTable_of_present {s v table} h hp := by
    rw [h.tables] at hp
    have hc : s.tables.contains table := by
      rw [OrderedMap.contains_eq_isSome]
      exact hp
    exact ⟨_, deleteTable_eq_ok_iff.2 ⟨h.named hp, hc, rfl⟩⟩
  keep_withId r id := rfl

namespace DirectoryStore

variable {s : DirectoryStore} {v : View} {table : String}

instance (directory : Path) (name : String) : Decidable (FileSystem.Fits directory name) :=
  inferInstanceAs (Decidable (_ ∧ _))

/-- Whether a table can be kept in a directory, by its name. -/
def room (directory : Path) (table : String) : Except StorageError Unit := do
  checkTableName table
  if FileSystem.Fits directory (table ++ ".json") then return
  else throw (.io .nameTooLong)

def ShowsIn (directory : Path) (s : DirectoryStore) (v : View) : Prop :=
  s.Shows v ∧ directoryPath s.config = directory

theorem room_eq_ok_iff {directory : Path} : room directory table = .ok () ↔
    isTableName table ∧ FileSystem.Fits directory (table ++ ".json") := by
  rw [room, bind_eq_ok_iff]
  constructor
  · intro h
    obtain ⟨⟨⟩, hc, hf⟩ := h
    split at hf
    · next hfits => exact ⟨checkTableName_eq_ok_iff.1 hc, hfits⟩
    · cases hf
  · intro h
    obtain ⟨hn, hf⟩ := h
    refine ⟨(), checkTableName_eq_ok_iff.2 hn, ?_⟩
    rw [if_pos hf]
    rfl

theorem room_eq_error {directory : Path} {e : StorageError} (h : room directory table = .error e) :
    checkTableName table = .error e ∨
      isTableName table ∧ ¬ FileSystem.Fits directory (table ++ ".json") ∧
        e = .io .nameTooLong := by
  rw [room] at h
  cases hc : checkTableName table with
  | error e' =>
    rw [hc] at h
    cases h
    exact .inl rfl
  | ok u =>
    rw [hc] at h
    change (if _ then _ else _) = _ at h
    split at h
    · cases h
    · next hf =>
      cases h
      exact .inr ⟨checkTableName_eq_ok_iff.1 hc, hf, rfl⟩

theorem SamePlaces.directoryPath {s s' : DirectoryStore} (h : SamePlaces s s') {directory : Path}
    (hd : DirectoryStore.directoryPath s.config = directory) :
    DirectoryStore.directoryPath s'.config = directory := by
  rw [h.config, hd]

theorem exact (directory : Path) :
    Exact DirectoryStore (ShowsIn directory) (room directory) Record.kept where
  toFaithful := faithful.restrict (fun hs => (eq_ok_of_saveTable hs).1.directoryPath)
    (fun hs => (samePlaces_of_deleteTable hs).directoryPath)
    (fun hs => (samePlaces_of_writeDocument hs).directoryPath)
  room_of_present {s v table} h hp := by
    obtain ⟨⟨location, hs⟩, rfl⟩ := h
    obtain ⟨text, ht⟩ := (tableExists_iff hs.holds).1 (hs.tableExists_iff.2 hp)
    exact room_eq_ok_iff.2 ⟨ht.valid, ht.fits⟩
  loadTable_of_absent {s v table} h ha := by
    obtain ⟨⟨location, hs⟩, rfl⟩ := h
    rw [room, bind_assoc]
    apply checked_congr
    intro hn
    by_cases hf : FileSystem.Fits (directoryPath s.config) (table ++ ".json")
    · rw [hs.read_of_absent hn hf ha, if_pos hf]
      rfl
    · have hr : s.files.read (tablePath s.config table) = .error .nameTooLong := by
        rw [FileSystem.read, tablePath,
          hs.holds.leads.find_join_of_not_fits (fileName_of_isTableName hn) hf]
        rfl
      rw [hr, if_neg hf]
      rfl
  saveTable_of_room {s v table} records h hroom := by
    obtain ⟨⟨location, hs⟩, rfl⟩ := h
    obtain ⟨hn, hf⟩ := room_eq_ok_iff.1 hroom
    exact ⟨_, (saveTable_eq_ok_iff hs.holds).2 ⟨hn, hf, rfl⟩⟩
  saveTable_of_no_room {s v table e} records h hroom := by
    obtain ⟨⟨location, hs⟩, rfl⟩ := h
    change saveTable s table records = _
    rw [saveTable]
    rcases room_eq_error hroom with hc | ⟨hn, hf, rfl⟩
    · rw [hc]
      rfl
    · have hw := hs.holds.leads.write_join_of_not_fits (fileName_of_isTableName hn) hf
        ((Document.ofTable records).write s.config.style)
      rw [checkTableName_eq_ok_iff.2 hn]
      change s.writeDocument (tablePath s.config table) (Document.ofTable records) = _
      rw [writeDocument, tablePath, hw]
      rfl
  deleteTable_of_present {s v table} h hp := by
    obtain ⟨⟨location, hs⟩, rfl⟩ := h
    have ht := (tableExists_iff hs.holds).1 (hs.tableExists_iff.2 hp)
    exact ⟨_, (deleteTable_eq_ok_iff hs.holds).2 ⟨ht, rfl⟩⟩
  keep_withId r id := rfl

theorem config_of_openIn {config : DirectoryConfig} {files : FileSystem}
    (ho : (openIn config files).1 = .ok s) : s.config = config := by
  rcases openIn_eq_ok rfl ho with ⟨-, rfl⟩ | ⟨files', -, rfl⟩
  · rfl
  · rfl

theorem showsIn_empty_of_openIn {directory : String} {style : Json.Style} {files : FileSystem}
    (he : (files.makeDirectories ⟨directory⟩).2.IsEmptyDirectory ⟨directory⟩)
    (ho : (openIn (.standard directory style) files).1 = .ok s) :
    ShowsIn ⟨directory⟩ s .empty := by
  refine ⟨shows_empty_of_openIn he ho, ?_⟩
  rw [config_of_openIn ho]
  rfl

end DirectoryStore

end DocBase
