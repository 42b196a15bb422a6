import DocBase.Store

namespace DocBase

structure MemoryStore where
  tables : OrderedMap String (List Record)
  catalog : Catalog
deriving DecidableEq

namespace MemoryStore

def empty : MemoryStore := ⟨.empty, .empty⟩

def loadTable (s : MemoryStore) (table : String) : Except StorageError (List Record) := do
  checkTableName table
  match s.tables.get? table with
  | some records => return records
  | none => throw (.tableNotFound table)

def saveTable (s : MemoryStore) (table : String) (records : List Record) :
    Except StorageError MemoryStore := do
  checkTableName table
  return { s with tables := s.tables.assign table records }

def deleteTable (s : MemoryStore) (table : String) : Except StorageError MemoryStore := do
  checkTableName table
  if s.tables.contains table then return { s with tables := s.tables.erase table }
  else throw (.tableNotFound table)

instance : Store MemoryStore where
  loadTable := loadTable
  saveTable := saveTable
  deleteTable := deleteTable
  tableExists s table := s.tables.contains table
  loadCatalog s := .ok s.catalog
  saveCatalog s catalog := .ok { s with catalog := catalog }

end MemoryStore

end DocBase
