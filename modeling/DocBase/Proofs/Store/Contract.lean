import DocBase.Proofs.Store.Directory
import DocBase.Proofs.Store.Memory

namespace DocBase

namespace View

def loadTable (v : View) (table : String) : Except StorageError (List Record) := do
  checkTableName table
  match v.tables table with
  | some records => return records
  | none => throw (.tableNotFound table)

def saveTable (v : View) (table : String) (records : List Record) : Except StorageError View := do
  checkTableName table
  return v.write table (some records)

def deleteTable (v : View) (table : String) : Except StorageError View := do
  checkTableName table
  match v.tables table with
  | some _ => return v.write table none
  | none => throw (.tableNotFound table)

/-- The store that is just what it shows. -/
instance : Store View where
  loadTable := loadTable
  saveTable := saveTable
  deleteTable := deleteTable
  tableExists v table := (v.tables table).isSome
  loadCatalog v := .ok v.catalog
  saveCatalog v catalog := .ok (v.declare catalog)

end View

/-- Two operations come to what is related, or fail for one reason. -/
inductive Follows {α β : Type} (R : α → β → Prop) :
    Except StorageError α → Except StorageError β → Prop
  | done {a : α} {b : β} : R a b → Follows R (.ok a) (.ok b)
  | failed (e : StorageError) : Follows R (.error e) (.error e)

/-- The longest table names that the contract is about, in bytes. Their files need more. -/
def maxTableNameLength : Nat := 250

/-- Stores of a kind do on every call what their view does. -/
structure Contract (σ : Type) [Store σ] (Shows : σ → View → Prop) : Prop where
  loadTable {s : σ} {v : View} {table : String} :
    Shows s v → table.utf8ByteSize ≤ maxTableNameLength →
    Store.loadTable s table = Store.loadTable v table
  saveTable {s : σ} {v : View} {table : String} {records : List Record} :
    Shows s v → table.utf8ByteSize ≤ maxTableNameLength →
    (∀ r ∈ records, r.Finite) → (∀ r ∈ records, r.Recalled) →
    Follows Shows (Store.saveTable s table records) (Store.saveTable v table records)
  deleteTable {s : σ} {v : View} {table : String} :
    Shows s v → table.utf8ByteSize ≤ maxTableNameLength →
    Follows Shows (Store.deleteTable s table) (Store.deleteTable v table)
  tableExists {s : σ} {v : View} {table : String} :
    Shows s v → table.utf8ByteSize ≤ maxTableNameLength →
    Store.tableExists s table = Store.tableExists v table
  loadCatalog {s : σ} {v : View} : Shows s v → Store.loadCatalog s = Store.loadCatalog v
  saveCatalog {s : σ} {v : View} {catalog : Catalog} : Shows s v → catalog.Named →
    Follows Shows (Store.saveCatalog s catalog) (Store.saveCatalog v catalog)

inductive Call
  | loadTable (table : String)
  | saveTable (table : String) (records : List Record)
  | deleteTable (table : String)
  | tableExists (table : String)
  | loadCatalog
  | saveCatalog (catalog : Catalog)
deriving DecidableEq

inductive Reply
  | done
  | records (records : List Record)
  | existence (stored : Bool)
  | catalog (catalog : Catalog)
deriving DecidableEq

namespace Call

def Admitted : Call → Prop
  | loadTable table => table.utf8ByteSize ≤ maxTableNameLength
  | saveTable table records => table.utf8ByteSize ≤ maxTableNameLength ∧
    (∀ r ∈ records, r.Finite) ∧ ∀ r ∈ records, r.Recalled
  | deleteTable table => table.utf8ByteSize ≤ maxTableNameLength
  | tableExists table => table.utf8ByteSize ≤ maxTableNameLength
  | loadCatalog => True
  | saveCatalog catalog => catalog.Named

section
variable {σ : Type}

def settle (s : σ) : Except StorageError σ → Except StorageError Reply × σ
  | .ok s' => (.ok .done, s')
  | .error e => (.error e, s)

def perform [Store σ] (s : σ) : Call → Except StorageError Reply × σ
  | loadTable table => ((Store.loadTable s table).map .records, s)
  | saveTable table records => settle s (Store.saveTable s table records)
  | deleteTable table => settle s (Store.deleteTable s table)
  | tableExists table => (.ok (.existence (Store.tableExists s table)), s)
  | loadCatalog => ((Store.loadCatalog s).map .catalog, s)
  | saveCatalog catalog => settle s (Store.saveCatalog s catalog)

end

end Call

def answers {σ : Type} [Store σ] (s : σ) : List Call → List (Except StorageError Reply)
  | [] => []
  | call :: calls => (call.perform s).1 :: answers (call.perform s).2 calls

theorem Follows.checked {α β : Type} {R : α → β → Prop} {table : String}
    {f : Unit → Except StorageError α} {g : Unit → Except StorageError β}
    (h : isTableName table → Follows R (f ()) (g ())) :
    Follows R (checkTableName table >>= f) (checkTableName table >>= g) := by
  by_cases hn : isTableName table
  · rw [checkTableName_eq_ok_iff.2 hn]
    exact h hn
  · rw [checkTableName_of_not_isTableName hn]
    exact .failed _

section
variable {σ : Type} {Shows : σ → View → Prop} {s : σ} {v : View}

theorem checked_congr {α : Type} {table : String} {f g : Unit → Except StorageError α}
    (h : isTableName table → f () = g ()) :
    checkTableName table >>= f = checkTableName table >>= g := by
  by_cases hn : isTableName table
  · rw [checkTableName_eq_ok_iff.2 hn]
    exact h hn
  · rw [checkTableName_of_not_isTableName hn]
    rfl

theorem Follows.settle {result : Except StorageError σ} {result' : Except StorageError View}
    (hf : Follows Shows result result') (h : Shows s v) :
    (Call.settle s result).1 = (Call.settle v result').1 ∧
      Shows (Call.settle s result).2 (Call.settle v result').2 := by
  cases hf with
  | done h' => exact ⟨rfl, h'⟩
  | failed e => exact ⟨rfl, h⟩

namespace Contract

variable [Store σ] (C : Contract σ Shows)
include C

theorem perform {call : Call} (h : Shows s v) (ha : call.Admitted) :
    (call.perform s).1 = (call.perform v).1 ∧ Shows (call.perform s).2 (call.perform v).2 := by
  cases call with
  | loadTable table =>
    refine ⟨?_, h⟩
    rw [Call.perform, Call.perform, C.loadTable h ha]
  | saveTable table records => exact (C.saveTable h ha.1 ha.2.1 ha.2.2).settle h
  | deleteTable table => exact (C.deleteTable h ha).settle h
  | tableExists table =>
    refine ⟨?_, h⟩
    rw [Call.perform, Call.perform, C.tableExists h ha]
  | loadCatalog =>
    refine ⟨?_, h⟩
    rw [Call.perform, Call.perform, C.loadCatalog h]
  | saveCatalog catalog => exact (C.saveCatalog h ha).settle h

/-- A store answers any calls as its view does. -/
theorem answers_eq {calls : List Call} (h : Shows s v) (ha : ∀ call ∈ calls, call.Admitted) :
    answers s calls = answers v calls := by
  induction calls generalizing s v with
  | nil => rfl
  | cons call calls ih =>
    obtain ⟨hanswer, hnext⟩ := C.perform h (ha call (.head _))
    rw [answers, answers, hanswer, ih hnext fun call hm => ha call (.tail _ hm)]

end Contract

end

namespace MemoryStore

theorem contract : Contract MemoryStore Shows where
  loadTable {s v table} h _ := by
    apply checked_congr
    intro hn
    have ht := h.tables table
    generalize v.tables table = found at ht ⊢
    subst ht
    rfl
  saveTable {s v table records} h _ _ _ := by
    apply Follows.checked
    intro hn
    exact .done (h.saveTable (saveTable_eq_ok_iff.2 ⟨hn, rfl⟩))
  deleteTable {s v table} h _ := by
    apply Follows.checked
    intro hn
    rw [h.tables]
    cases hg : s.tables.get? table with
    | none =>
      have hc : s.tables.contains table = false := by rw [OrderedMap.contains_eq_isSome, hg]; rfl
      rw [hc]
      exact .failed _
    | some records =>
      have hc : s.tables.contains table := by rw [OrderedMap.contains_eq_isSome, hg]; rfl
      rw [if_pos hc]
      exact .done (h.deleteTable (deleteTable_eq_ok_iff.2 ⟨hn, hc, rfl⟩))
  tableExists {s v table} h _ := by
    rw [tableExists_eq, ← h.tables]
    rfl
  loadCatalog h := congrArg Except.ok h.catalog.symm
  saveCatalog h _ := .done ⟨h.tables, rfl, h.named⟩

end MemoryStore

namespace DirectoryStore

variable {s : DirectoryStore} {v : View} {location : Location} {table : String}

/-- The paths of all tables that the contract is about fit. -/
def Roomy (config : DirectoryConfig) : Prop := ∀ table, isTableName table →
  table.utf8ByteSize ≤ maxTableNameLength →
  FileSystem.Fits (directoryPath config) (table ++ ".json")

structure ShowsInRoom (s : DirectoryStore) (v : View) : Prop where
  view : s.Shows v
  roomy : Roomy s.config

theorem ShowsAt.find_of_absent (h : s.ShowsAt location v) (hn : isTableName table)
    (hf : FileSystem.Fits (directoryPath s.config) (table ++ ".json"))
    (ha : v.tables table = none) :
    s.files.find (tablePath s.config table) = .error .notFound := by
  apply h.holds.find_join_of_absent (fileName_of_isTableName hn) hf
  rw [Option.eq_none_iff_forall_ne_some]
  intro entry he
  obtain ⟨text, rfl⟩ := h.holds.texts he
  obtain ⟨records, hd⟩ := Option.isSome_iff_exists.1 (h.decodes ⟨hn, hf, he⟩)
  have hv := h.tables.2 ⟨text, ⟨hn, hf, he⟩, hd⟩
  rw [ha] at hv
  cases hv

theorem ShowsAt.read_of_absent (h : s.ShowsAt location v) (hn : isTableName table)
    (hf : FileSystem.Fits (directoryPath s.config) (table ++ ".json"))
    (ha : v.tables table = none) :
    s.files.read (tablePath s.config table) = .error .notFound := by
  rw [FileSystem.read, h.find_of_absent hn hf ha]
  rfl

theorem contract : Contract DirectoryStore ShowsInRoom where
  loadTable {s v table} h hl := by
    apply checked_congr
    intro hn
    obtain ⟨⟨location, hs⟩, hroom⟩ := h
    cases hv : v.tables table with
    | none =>
      rw [hs.read_of_absent hn (hroom table hn hl) hv]
    | some records =>
      obtain ⟨text, ht, hd⟩ := hs.tables.1 hv
      have hr : s.files.read (tablePath s.config table) = .ok text :=
        (hs.holds.read_join_eq_ok_iff (fileName_of_isTableName hn)).2 ⟨ht.fits, ht.stands⟩
      rw [hr]
      dsimp only
      rw [hd]
  saveTable {s v table records} h hl hf hr := by
    apply Follows.checked
    intro hn
    obtain ⟨⟨location, hs⟩, hroom⟩ := h
    have hfits := hroom table hn hl
    have hw : s.writeDocument (tablePath s.config table) (Document.ofTable records) =
        .ok (s.putFile location (table ++ ".json")
          ((Document.ofTable records).write s.config.style)) :=
      writeDocument_eq_ok_iff.2
        ⟨_, (hs.holds.write_join_eq_ok_iff (fileName_of_isTableName hn)).2 ⟨hfits, rfl⟩, rfl⟩
    have hput : (s.putFile location (table ++ ".json")
        ((Document.ofTable records).write s.config.style)).ShowsAt location
          (v.write table (some (records.map Record.kept))) := hs.putTable hn hfits
    rw [Record.map_kept_eq_self hf hr] at hput
    rw [hw]
    exact .done ⟨⟨location, hput⟩, hroom⟩
  deleteTable {s v table} h hl := by
    apply Follows.checked
    intro hn
    obtain ⟨⟨location, hs⟩, hroom⟩ := h
    cases hv : v.tables table with
    | none =>
      have hf := hs.find_of_absent hn (hroom table hn hl) hv
      have hr : s.files.remove (tablePath s.config table) = .error .notFound := by
        rw [FileSystem.remove, hf]
        rfl
      rw [hr]
      exact .failed _
    | some records =>
      obtain ⟨text, ht, -⟩ := hs.tables.1 hv
      have hr : s.files.remove (tablePath s.config table) =
          .ok (s.files.without (location ++ [table ++ ".json"])) :=
        (hs.holds.remove_join_eq_ok_iff (fileName_of_isTableName hn)).2
          ⟨⟨text, ht.fits, ht.stands⟩, rfl⟩
      rw [hr]
      exact .done ⟨⟨location, hs.withoutTable hn⟩, hroom⟩
  tableExists {s v table} h _ := by
    obtain ⟨⟨location, hs⟩, -⟩ := h
    rw [Bool.eq_iff_iff]
    exact hs.tableExists_iff
  loadCatalog {s v} h := by
    obtain ⟨⟨location, hs⟩, -⟩ := h
    exact hs.loadCatalog
  saveCatalog {s v catalog} h hc := by
    obtain ⟨⟨location, hs⟩, hroom⟩ := h
    rw [hs.catalogWritable.saveCatalog]
    exact .done ⟨⟨location, hs.putCatalog (Document.readCatalog?_write _ hc)⟩, hroom⟩

/-- There is room for tables just where their files can be written. -/
theorem roomy_iff (h : s.Shows v) : Roomy s.config ↔ ∀ table text, isTableName table →
    table.utf8ByteSize ≤ maxTableNameLength →
    (s.files.write (tablePath s.config table) text).isOk := by
  obtain ⟨location, hs⟩ := h
  constructor
  · intro hroom table text hn hl
    have hw : s.files.write (tablePath s.config table) text =
        .ok (s.files.put (location ++ [table ++ ".json"]) (.file text)) :=
      (hs.holds.write_join_eq_ok_iff (fileName_of_isTableName hn)).2 ⟨hroom table hn hl, rfl⟩
    rw [hw]
    rfl
  · intro hwritable table hn hl
    have hok := hwritable table "" hn hl
    cases hw : s.files.write (tablePath s.config table) "" with
    | error e =>
      rw [hw] at hok
      cases hok
    | ok files => exact ((hs.holds.write_join_eq_ok_iff (fileName_of_isTableName hn)).1 hw).1

theorem roomy_of_short {config : DirectoryConfig}
    (h : config.directory.utf8ByteSize + 1 + maxNameLength < pathLimit) : Roomy config := by
  intro table hn hl
  have hjoin := Path.utf8ByteSize_join_le (directoryPath config) (table ++ ".json")
  have hsize : (table ++ ".json").utf8ByteSize ≤ maxNameLength := by
    rw [String.utf8ByteSize_append]
    exact Nat.add_le_add_right hl 5
  have hd : (directoryPath config).text.utf8ByteSize = config.directory.utf8ByteSize := rfl
  exact ⟨by omega, hsize⟩

end DirectoryStore

/-- The empty store in memory and a store opened in a directory that is empty when it is found or
made, and in which tables can be written, give the same answers to any calls, as long as the floats
in the tables are finite and read back from what is written for them. -/
theorem answers_alike (directory : String) (style : Json.Style) (files : FileSystem)
    (store : DirectoryStore) (calls : List Call)
    (he : (files.makeDirectories ⟨directory⟩).2.IsEmptyDirectory ⟨directory⟩)
    (ho : (DirectoryStore.openIn (.standard directory style) files).1 = .ok store)
    (hw : ∀ table text, isTableName table → table.utf8ByteSize ≤ maxTableNameLength →
      (store.files.write (DirectoryStore.tablePath store.config table) text).isOk)
    (ha : ∀ call ∈ calls, call.Admitted) :
    answers store calls = answers MemoryStore.empty calls := by
  have hs := DirectoryStore.shows_empty_of_openIn he ho
  have hroom := (DirectoryStore.roomy_iff hs).2 hw
  calc answers store calls
      = answers View.empty calls := DirectoryStore.contract.answers_eq ⟨hs, hroom⟩ ha
    _ = answers MemoryStore.empty calls :=
      (MemoryStore.contract.answers_eq MemoryStore.shows_empty ha).symm

/-- A table is saved and loaded; one that is missing is not deleted, and a bad name refused. -/
theorem answers_alike_in_new_directory :
    let files := FileSystem.empty.put ["data"] .directory
    let store : DirectoryStore := ⟨.standard "data" .pretty,
      files.put ["data", ".schema.json"] (.file "\x7b\x7d")⟩
    let record : Record := ⟨⟨"1"⟩, .ofAssignments [("a", .float (.ofRank true 7)), ("", .null)]⟩
    let calls : List Call := [.saveTable "t" [record, record], .deleteTable "u", .loadTable "t",
      .saveTable "../t" [], .loadCatalog]
    (DirectoryStore.openIn (.standard "data" .pretty) files).1 = .ok store ∧
      answers store calls = [.ok .done, .error (.tableNotFound "u"),
        .ok (.records [record, record]), .error (.invalidTableName "../t"),
        .ok (.catalog .empty)] := by
  intro files store record calls
  have he : files.IsEmptyDirectory ⟨"data"⟩ := ⟨["data"], by decide, fun name => rfl⟩
  have ho : (DirectoryStore.openIn (.standard "data" .pretty) files).1 = .ok store := by
    decide +kernel
  have hs := DirectoryStore.shows_empty_of_openIn he.makeDirectories ho
  have hw := (DirectoryStore.roomy_iff hs).1 (DirectoryStore.roomy_of_short (by decide))
  have hf : record.Finite := by decide +kernel
  have hr : record.Recalled := by decide +kernel
  have ha : ∀ call ∈ calls, call.Admitted := by
    simp only [calls, List.forall_mem_cons, Call.Admitted]
    exact ⟨⟨by decide, ⟨hf, hf, nofun⟩, hr, hr, nofun⟩, by decide, by decide,
      ⟨by decide, nofun, nofun⟩, trivial, nofun⟩
  refine ⟨ho, ?_⟩
  rw [answers_alike "data" .pretty files store calls he.makeDirectories ho hw ha]
  decide +kernel

end DocBase
