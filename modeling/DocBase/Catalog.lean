import DocBase.ColumnType
import DocBase.OrderedMap

namespace DocBase

/-- The declared columns of a table, in order. -/
structure Schema where
  columns : OrderedMap String ColumnType
deriving DecidableEq

namespace Schema

def ofColumns (columns : List (String × ColumnType)) : Schema := ⟨.ofAssignments columns⟩

def columnNames (s : Schema) : List String := s.columns.keys

def columnType? (s : Schema) (column : String) : Option ColumnType := s.columns.get? column

end Schema

/-- The tables of a database, in the order of their creation. -/
structure Catalog where
  tables : OrderedMap String Schema
deriving DecidableEq

namespace Catalog

def empty : Catalog := ⟨.empty⟩

def schema? (c : Catalog) (table : String) : Option Schema := c.tables.get? table

def contains (c : Catalog) (table : String) : Bool := c.tables.contains table

def tableNames (c : Catalog) : List String := c.tables.keys

/-- Declares a table; one of the same name is replaced where it stands. -/
def create (c : Catalog) (table : String) (schema : Schema) : Catalog :=
  ⟨c.tables.assign table schema⟩

def drop (c : Catalog) (table : String) : Catalog := ⟨c.tables.erase table⟩

def columnNames (c : Catalog) (table : String) : List String :=
  match c.schema? table with
  | some schema => schema.columnNames
  | none => []

end Catalog

end DocBase
