import DocBase.Text.Uppercase

namespace DocBase

inductive ColumnType
  | integer
  | float
  | text
  | boolean
  | date
  | timestamp
  | other (name : String)
deriving DecidableEq

namespace ColumnType

/-- The types that have names of their own, each with its aliases in capitals. -/
def aliases : List (ColumnType × List String) :=
  [(integer, ["INT", "INTEGER", "BIGINT", "SMALLINT"]),
   (float, ["FLOAT", "REAL", "DOUBLE", "NUMERIC", "DECIMAL"]),
   (text, ["TEXT", "VARCHAR", "CHAR", "STRING"]),
   (boolean, ["BOOL", "BOOLEAN"]),
   (date, ["DATE"]),
   (timestamp, ["TIMESTAMP", "DATETIME"])]

/-- The type that has this name as an alias; a name that is none is kept as written. -/
def ofName (name : String) : ColumnType :=
  match aliases.find? fun (_, names) => names.contains (Text.capitalize name) with
  | some (type, _) => type
  | none => other name

def name : ColumnType → String
  | integer => "INTEGER"
  | float => "FLOAT"
  | text => "TEXT"
  | boolean => "BOOLEAN"
  | date => "DATE"
  | timestamp => "TIMESTAMP"
  | other name => name

end ColumnType

end DocBase
