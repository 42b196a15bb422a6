import DocBase.Document
import DocBase.FileSystem
import DocBase.Store

namespace DocBase

structure DirectoryConfig where
  directory : String
  catalogFile : String
  style : Json.Style
deriving DecidableEq

/-- The configuration of a directory whose catalog goes by its usual name. -/
def DirectoryConfig.standard (directory : String) (style : Json.Style) : DirectoryConfig :=
  ⟨directory, ".schema.json", style⟩

structure DirectoryStore where
  config : DirectoryConfig
  files : FileSystem
deriving DecidableEq

namespace DirectoryStore

def directoryPath (config : DirectoryConfig) : Path := ⟨config.directory⟩

def catalogPath (config : DirectoryConfig) : Path :=
  (directoryPath config).join config.catalogFile

def tablePath (config : DirectoryConfig) (table : String) : Path :=
  (directoryPath config).join (table ++ ".json")

def ofIo {α : Type} : Except IoError α → Except StorageError α
  | .ok a => .ok a
  | .error e => .error (.io e)

/-- Opens a store, making its directory and an empty catalog as far as they are missing. Also
returns the files as they are then. -/
def openIn (config : DirectoryConfig) (files : FileSystem) :
    Except StorageError DirectoryStore × FileSystem :=
  match files.makeDirectories (directoryPath config) with
  | (.error e, files) => (.error (.io e), files)
  | (.ok (), files) =>
    if files.pathExists (catalogPath config) then (.ok ⟨config, files⟩, files)
    else
      match files.write (catalogPath config) "\x7b\x7d" with
      | .ok files => (.ok ⟨config, files⟩, files)
      | .error e => (.error (.io e), files)

def loadTable (s : DirectoryStore) (table : String) : Except StorageError (List Record) := do
  checkTableName table
  match s.files.read (tablePath s.config table) with
  | .ok text =>
    match Document.readTable? text with
    | some records => return records
    | none => throw .undecodable
  | .error .notFound => throw (.tableNotFound table)
  | .error e => throw (.io e)

def writeDocument (s : DirectoryStore) (path : Path) (document : Json) :
    Except StorageError DirectoryStore := do
  let files ← ofIo (s.files.write path (document.write s.config.style))
  return { s with files := files }

def saveTable (s : DirectoryStore) (table : String) (records : List Record) :
    Except StorageError DirectoryStore := do
  checkTableName table
  s.writeDocument (tablePath s.config table) (Document.ofTable records)

def deleteTable (s : DirectoryStore) (table : String) : Except StorageError DirectoryStore := do
  checkTableName table
  match s.files.remove (tablePath s.config table) with
  | .ok files => return { s with files := files }
  | .error .notFound => throw (.tableNotFound table)
  | .error e => throw (.io e)

def tableExists (s : DirectoryStore) (table : String) : Bool :=
  isTableName table && s.files.isFile (tablePath s.config table)

def loadCatalog (s : DirectoryStore) : Except StorageError Catalog :=
  match s.files.read (catalogPath s.config) with
  | .ok text =>
    match Document.readCatalog? text with
    | some catalog => .ok catalog
    | none => .error .undecodable
  | .error .notFound => .ok .empty
  | .error e => .error (.io e)

def saveCatalog (s : DirectoryStore) (catalog : Catalog) : Except StorageError DirectoryStore :=
  s.writeDocument (catalogPath s.config) (Document.ofCatalog catalog)

instance : Store DirectoryStore where
  loadTable := loadTable
  saveTable := saveTable
  deleteTable := deleteTable
  tableExists := tableExists
  loadCatalog := loadCatalog
  saveCatalog := saveCatalog

end DirectoryStore

end DocBase
