import DocBase.Catalog
import DocBase.IoError
import DocBase.Record
import DocBase.Text.Quoted

namespace DocBase

inductive StorageError
  | io (e : IoError)
  | undecodable
  | tableNotFound (table : String)
  | invalidTableName (table : String)
deriving DecidableEq

def StorageError.message : StorageError → String
  | io e => "IO error: " ++ e.message
  | undecodable => "Serialization error: the document does not decode"
  | tableNotFound table => "Table not found: " ++ table
  | invalidTableName table => "Invalid table name: " ++ Text.quoted table

/-- Names that are not empty, do not start with a dot, and cannot leave the data directory. -/
def isTableName (name : String) : Bool :=
  match name.toList with
  | [] => false
  | '.' :: _ => false
  | cs => cs.all fun c => c != '/' && c != '\\' && c != '\x00'

def checkTableName (name : String) : Except StorageError Unit :=
  if isTableName name then .ok () else .error (.invalidTableName name)

/-- A store as a value. An operation that changes it returns the changed store, and one that fails
changes nothing. -/
class Store (σ : Type) where
  loadTable : σ → String → Except StorageError (List Record)
  /-- Replaces the records of a table, which need not exist. -/
  saveTable : σ → String → List Record → Except StorageError σ
  /-- Removes a table, which has to exist. -/
  deleteTable : σ → String → Except StorageError σ
  tableExists : σ → String → Bool
  /-- The catalog, empty if none was ever saved. -/
  loadCatalog : σ → Except StorageError Catalog
  saveCatalog : σ → Catalog → Except StorageError σ

end DocBase
