import DocBase.ResultSet
import DocBase.Sql.Parser.Statement
import DocBase.Store

namespace DocBase

inductive QueryError
  | parse (e : Sql.ParseError)
  | tableNotFound (table : String)
  | storage (e : StorageError)
deriving DecidableEq

namespace QueryError

def message : QueryError → String
  | parse e => "Parse error: " ++ e.message
  | tableNotFound table => "Table not found: " ++ table
  | storage e => "Storage error: " ++ e.message

def causes (e : QueryError) : List String :=
  match e with
  | parse cause => [e.message, cause.message]
  | tableNotFound _ => [e.message]
  | storage (.io cause) => [e.message, (StorageError.io cause).message, cause.message]
  | storage cause => [e.message, cause.message]

/-- A missing table is an error of the statement, whatever store misses it. -/
def ofStorage : StorageError → QueryError
  | .tableNotFound table => tableNotFound table
  | e => storage e

end QueryError

/-- A store in use, with the identifiers still to give out and the warnings given. -/
structure Session (σ : Type) where
  store : σ
  ids : IdSource
  warnings : List Warning

/-- A step of a statement. One that fails keeps what the steps before it changed. -/
abbrev Action (σ : Type) := EStateM QueryError (Session σ)

namespace Action

variable {σ : Type}

def warn (w : Warning) : Action σ Unit :=
  modify fun s => { s with warnings := s.warnings ++ [w] }

def look {α : Type} (f : σ → Except StorageError α) : Action σ α := do
  match f (← get).store with
  | .ok a => return a
  | .error e => throw (.ofStorage e)

def change (f : σ → Except StorageError σ) : Action σ Unit := do
  let store ← look f
  modify fun s => { s with store := store }

def freshId : Action σ RecordId := do
  let s ← get
  let (id, ids) := s.ids.next
  set { s with ids := ids }
  return id

end Action

namespace Engine

open DocBase.Action DocBase.Sql

variable {σ : Type} [Store σ]

/-- The declared columns, and behind them every other column of the rows in the order in which the
rows first show it. -/
def allColumns (declared : List String) (rows : List Row) : List String :=
  (rows.flatMap OrderedMap.keys).foldl
    (fun columns column => if column ∈ columns then columns else columns ++ [column]) declared

def select (s : Select) : Action σ ResultSet := do
  match s.projection with
  | .all =>
    let catalog ← look Store.loadCatalog
    let records ← look (Store.loadTable · s.table)
    let rows := s.rows records
    return .rows (allColumns (catalog.columnNames s.table) rows) rows
  | .columns columns =>
    let records ← look (Store.loadTable · s.table)
    (s.warnings records).forM warn
    return .rows (columns.map ColumnRef.name) (s.rows records)

/-- The fields of a new record: columns and literals paired by position, the longer list cut off. -/
def fieldsOf (columns : List String) (tuple : List Value) : OrderedMap String Value :=
  .ofAssignments ((columns.zip tuple).map fun (column, literal) => (column, literal.stored))

def insertRecord (columns : List String) (tuple : List Value) : Action σ Record := do
  return ⟨← freshId, fieldsOf columns tuple⟩

def insert (s : Insert) : Action σ ResultSet := do
  let columns ← match s.columns with
    | some columns => pure columns
    | none => do pure ((← look Store.loadCatalog).columnNames s.table)
  let records ← look (Store.loadTable · s.table)
  let new ← s.tuples.mapM (insertRecord columns)
  change (Store.saveTable · s.table (records ++ new))
  return .status (counted s.tuples.length "row" ++ " inserted")

def assignAll (assignments : List Assignment) (r : Record) : Record :=
  assignments.foldl (fun r a => r.assign a.column a.literal.stored) r

def update (s : Update) : Action σ ResultSet := do
  if s.condition.isSome then warn (.updateIgnoresCondition s.table)
  let records ← look (Store.loadTable · s.table)
  change (Store.saveTable · s.table (records.map (assignAll s.assignments)))
  return .status (counted records.length "row" ++ " updated")

def delete (s : Delete) : Action σ ResultSet := do
  if s.condition.isSome then warn (.deleteIgnoresCondition s.table)
  let records ← look (Store.loadTable · s.table)
  change (Store.saveTable · s.table [])
  return .status (counted records.length "row" ++ " deleted")

def create (s : Create) : Action σ ResultSet := do
  let catalog ← look Store.loadCatalog
  change (Store.saveTable · s.table [])
  if catalog.contains s.table then warn (.tableReplaced s.table)
  change (Store.saveCatalog · (catalog.create s.table (.ofColumns s.columns)))
  return .status ("Table " ++ s.table ++ " created")

def drop (s : Drop) : Action σ ResultSet := do
  let catalog ← look Store.loadCatalog
  let stored := Store.tableExists (← get).store s.table
  if stored then change (Store.deleteTable · s.table)
  if catalog.contains s.table then change (Store.saveCatalog · (catalog.drop s.table))
  else if !stored then throw (.tableNotFound s.table)
  return .status ("Table " ++ s.table ++ " dropped")

def run : Statement → Action σ ResultSet
  | .select s => select s
  | .insert s => insert s
  | .update s => update s
  | .delete s => delete s
  | .create s => create s
  | .drop s => drop s

def runText (text : String) : Action σ ResultSet :=
  match parse text with
  | .ok statement => run statement
  | .error e => throw (.parse e)

structure Outcome (σ : Type) where
  result : Except QueryError ResultSet
  warnings : List Warning
  store : σ
  ids : IdSource

def execute (store : σ) (ids : IdSource) (text : String) : Outcome σ :=
  match runText text ⟨store, ids, []⟩ with
  | .ok result s => ⟨.ok result, s.warnings, s.store, s.ids⟩
  | .error e s => ⟨.error e, s.warnings, s.store, s.ids⟩

end Engine

end DocBase
