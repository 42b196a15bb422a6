import DocBase.Proofs.Store.Exact

namespace DocBase.DirectoryStore

open FileSystem

variable {s : DirectoryStore} {location : Location} {table : String}

def loadEntry (table : String) : Option Entry → Except StorageError (List Record)
  | some (.file text) =>
    match Document.readTable? text with
    | some records => .ok records
    | none => .error .undecodable
  | some (.binary _) => .error (.io .notText)
  | some .directory => .error (.io .isDirectory)
  | none => .error (.tableNotFound table)

def loadCatalogEntry : Option Entry → Except StorageError Catalog
  | some (.file text) =>
    match Document.readCatalog? text with
    | some catalog => .ok catalog
    | none => .error .undecodable
  | some (.binary _) => .error (.io .notText)
  | some .directory => .error (.io .isDirectory)
  | none => .ok .empty

def replaceEntry (s' : DirectoryStore) : Option Entry → Except StorageError DirectoryStore
  | some .directory => .error (.io .isDirectory)
  | _ => .ok s'

def removeEntry (table : String) (s' : DirectoryStore) :
    Option Entry → Except StorageError DirectoryStore
  | none => .error (.tableNotFound table)
  | entry => replaceEntry s' entry

theorem replaceEntry_of_ne {s' : DirectoryStore} {entry : Option Entry}
    (h : entry ≠ some .directory) : replaceEntry s' entry = .ok s' := by
  rw [replaceEntry]
  exact h

def isFileEntry : Option Entry → Bool
  | some .directory | none => false
  | some _ => true

theorem checked_eq_room_bind {directory : Path} {α : Type} {f : Unit → Except StorageError α}
    {g : Except StorageError α} (hok : room directory table = .ok () → f () = g)
    (hlong : isTableName table → ¬ Fits directory (table ++ ".json") →
      f () = .error (.io .nameTooLong)) :
    (checkTableName table >>= f) = (room directory table >>= fun _ => g) := by
  cases hr : room directory table with
  | ok u =>
    rw [checkTableName_eq_ok_iff.2 (room_eq_ok_iff.1 hr).1]
    exact hok hr
  | error e =>
    rcases room_eq_error hr with hc | ⟨hn, hf, rfl⟩
    · rw [hc]
      rfl
    · rw [checkTableName_eq_ok_iff.2 hn]
      exact hlong hn hf

section
variable (h : s.files.Leads (directoryPath s.config) location)
include h

theorem find_table_of_room (hroom : room (directoryPath s.config) table = .ok ()) :
    s.files.find (tablePath s.config table) =
      match s.files.entry? (location ++ [table ++ ".json"]) with
      | some entry => .ok (location ++ [table ++ ".json"], entry)
      | none => .error .notFound := by
  obtain ⟨hn, hf⟩ := room_eq_ok_iff.1 hroom
  exact h.find_join_of_fits (fileName_of_isTableName hn) hf

theorem find_table_of_not_fits (hn : isTableName table)
    (hf : ¬ Fits (directoryPath s.config) (table ++ ".json")) :
    s.files.find (tablePath s.config table) = .error .nameTooLong :=
  h.find_join_of_not_fits (fileName_of_isTableName hn) hf

theorem writeDocument_join {name : String} (hn : FileName name)
    (hf : Fits (directoryPath s.config) name) (document : Json) :
    s.writeDocument ((directoryPath s.config).join name) document =
      replaceEntry (s.putFile location name (document.write s.config.style))
        (s.files.entry? (location ++ [name])) := by
  rw [writeDocument, h.write_join_of_fits hn hf]
  by_cases hd : s.files.entry? (location ++ [name]) = some .directory
  · rw [if_pos hd, hd]
    rfl
  · rw [if_neg hd, replaceEntry_of_ne hd]
    rfl

theorem loadTable_eq : Store.loadTable s table = (room (directoryPath s.config) table >>= fun _ =>
    loadEntry table (s.files.entry? (location ++ [table ++ ".json"]))) := by
  apply checked_eq_room_bind
  · intro hroom
    rw [FileSystem.read, find_table_of_room h hroom]
    cases s.files.entry? (location ++ [table ++ ".json"]) with
    | none => rfl
    | some entry => cases entry <;> rfl
  · intro hn hf
    rw [FileSystem.read, find_table_of_not_fits h hn hf]
    rfl

theorem saveTable_eq (records : List Record) : Store.saveTable s table records =
    (room (directoryPath s.config) table >>= fun _ =>
      replaceEntry (s.putFile location (table ++ ".json")
        ((Document.ofTable records).write s.config.style))
        (s.files.entry? (location ++ [table ++ ".json"]))) := by
  apply checked_eq_room_bind
  · intro hroom
    obtain ⟨hn, hf⟩ := room_eq_ok_iff.1 hroom
    exact writeDocument_join h (fileName_of_isTableName hn) hf _
  · intro hn hf
    rw [writeDocument, tablePath, h.write_join_of_not_fits (fileName_of_isTableName hn) hf]
    rfl

theorem deleteTable_eq : Store.deleteTable s table =
    (room (directoryPath s.config) table >>= fun _ =>
      removeEntry table (s.withoutFile location (table ++ ".json"))
        (s.files.entry? (location ++ [table ++ ".json"]))) := by
  apply checked_eq_room_bind
  · intro hroom
    rw [FileSystem.remove, find_table_of_room h hroom]
    cases s.files.entry? (location ++ [table ++ ".json"]) with
    | none => rfl
    | some entry => cases entry <;> rfl
  · intro hn hf
    rw [FileSystem.remove, find_table_of_not_fits h hn hf]
    rfl

theorem tableExists_eq : Store.tableExists s table =
    ((room (directoryPath s.config) table).isOk &&
      isFileEntry (s.files.entry? (location ++ [table ++ ".json"]))) := by
  change (isTableName table && s.files.isFile (tablePath s.config table)) = _
  cases hr : room (directoryPath s.config) table with
  | ok u =>
    rw [(room_eq_ok_iff.1 hr).1, FileSystem.isFile, find_table_of_room h hr]
    cases s.files.entry? (location ++ [table ++ ".json"]) with
    | none => rfl
    | some entry => cases entry <;> rfl
  | error e =>
    rcases room_eq_error hr with hc | ⟨hn, hf, -⟩
    · have hn : ¬ isTableName table := by
        intro hn
        rw [checkTableName_eq_ok_iff.2 hn] at hc
        cases hc
      rw [Bool.not_eq_true] at hn
      rw [hn]
      rfl
    · rw [hn, FileSystem.isFile, find_table_of_not_fits h hn hf]
      rfl

section
variable (hu : s.config.catalogFile = ".schema.json")
  (hf : Fits (directoryPath s.config) ".schema.json")
include hu hf

theorem loadCatalog_eq :
    Store.loadCatalog s = loadCatalogEntry (s.files.entry? (location ++ [".schema.json"])) := by
  change loadCatalog s = _
  rw [loadCatalog, catalogPath_eq hu, FileSystem.read, h.find_join_of_fits fileName_catalog hf]
  cases s.files.entry? (location ++ [".schema.json"]) with
  | none => rfl
  | some entry => cases entry <;> rfl

theorem saveCatalog_eq (catalog : Catalog) : Store.saveCatalog s catalog =
    replaceEntry (s.putFile location ".schema.json"
      ((Document.ofCatalog catalog).write s.config.style))
      (s.files.entry? (location ++ [".schema.json"])) := by
  change s.writeDocument (catalogPath s.config) _ = _
  rw [catalogPath_eq hu]
  exact writeDocument_join h fileName_catalog hf _

end

end

end DocBase.DirectoryStore
