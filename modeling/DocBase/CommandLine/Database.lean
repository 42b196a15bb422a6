import DocBase.CommandLine.Options
import DocBase.Engine
import DocBase.Store.Directory

namespace DocBase.CommandLine

structure Database where
  store : DirectoryStore
  ids : IdSource
  format : Format

namespace Database

/-- Opens the database of the data directory. Also returns the files as they are then. -/
def openIn (o : Options) (files : FileSystem) (ids : IdSource) :
    Except StorageError Database × FileSystem :=
  let style : Json.Style := if o.pretty then .pretty else .compact
  match DirectoryStore.openIn (.standard o.directory style) files with
  | (.ok store, files) => (.ok ⟨store, ids, o.format⟩, files)
  | (.error e, files) => (.error e, files)

/-- The text that a result is shown as, unless showing it panics. -/
def render? (db : Database) (result : ResultSet) : Option String :=
  match db.format with
  | .table => if result.hasLayout then some result.display else none
  | .json => some (result.toJson.write db.store.config.style)

def query (db : Database) (text : String) :
    Except QueryError (Option String) × List Warning × Database :=
  let o := Engine.execute db.store db.ids text
  (o.result.map db.render?, o.warnings, { db with store := o.store, ids := o.ids })

def tableInfo (store : DirectoryStore) (table : String) (schema : Schema) :
    Except StorageError (List String) := do
  let count ← if store.tableExists table then List.length <$> store.loadTable table else pure 0
  return ("  " ++ table ++ " (" ++ toString count ++ " records)") ::
    schema.columns.entries.map fun (column, type) => "    " ++ column ++ " " ++ type.name

/-- The lines on the tables in order, up to the first that cannot be loaded. -/
def tablesInfo (store : DirectoryStore) :
    List (String × Schema) → List String × Option StorageError
  | [] => ([], none)
  | (table, schema) :: tables =>
    match tableInfo store table schema with
    | .ok lines =>
      let (more, e) := tablesInfo store tables
      (lines ++ more, e)
    | .error e => ([], some e)

def info (db : Database) : List String × Option StorageError :=
  match db.store.loadCatalog with
  | .ok catalog =>
    let (lines, e) := tablesInfo db.store catalog.tables.entries
    ("jsondb Information:" :: ("  Data directory: " ++ db.store.config.directory) ::
      ("  Tables: " ++ toString catalog.tables.size) :: lines, e)
  | .error e => ([], some e)

end Database

end DocBase.CommandLine
