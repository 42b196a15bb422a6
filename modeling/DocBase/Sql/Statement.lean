import DocBase.ColumnType
import DocBase.Value

namespace DocBase.Sql

/-- A column by name. The table it is qualified with is kept and never looked at. -/
structure ColumnRef where
  table : Option String
  name : String
deriving DecidableEq

inductive Operator
  | equal
  | notEqual
  | is
  | isNot
  | less
  | greater
  | lessEqual
  | greaterEqual
deriving DecidableEq

def Operator.symbol : Operator → String
  | equal => "="
  | notEqual => "!="
  | is => "IS"
  | isNot => "IS NOT"
  | less => "<"
  | greater => ">"
  | lessEqual => "<="
  | greaterEqual => ">="

inductive Connective
  | and
  | or
deriving DecidableEq

inductive Expression
  | logical (left : Expression) (connective : Connective) (right : Expression)
  | comparison (column : ColumnRef) (operator : Operator) (literal : Value)
deriving DecidableEq

inductive Direction
  | ascending
  | descending
deriving DecidableEq

structure OrderKey where
  column : ColumnRef
  direction : Direction
deriving DecidableEq

inductive Projection
  | all
  | columns (columns : List ColumnRef)
deriving DecidableEq

structure Limit where
  count : UInt64
  offset : UInt64
deriving DecidableEq

structure Select where
  projection : Projection
  table : String
  condition : Option Expression
  order : List OrderKey
  limit : Option Limit
deriving DecidableEq

structure Insert where
  table : String
  /-- Absent when the declared columns are meant. -/
  columns : Option (List String)
  tuples : List (List Value)
deriving DecidableEq

structure Assignment where
  column : String
  literal : Value
deriving DecidableEq

structure Update where
  table : String
  assignments : List Assignment
  condition : Option Expression
deriving DecidableEq

structure Delete where
  table : String
  condition : Option Expression
deriving DecidableEq

structure Create where
  table : String
  columns : List (String × ColumnType)
deriving DecidableEq

structure Drop where
  table : String
deriving DecidableEq

inductive Statement
  | select (s : Select)
  | insert (s : Insert)
  | update (s : Update)
  | delete (s : Delete)
  | create (s : Create)
  | drop (s : Drop)
deriving DecidableEq

def Statement.title : Statement → String
  | select _ => "SELECT statement"
  | insert _ => "INSERT statement"
  | update _ => "UPDATE statement"
  | delete _ => "DELETE statement"
  | create _ => "CREATE statement"
  | drop _ => "DROP statement"

end DocBase.Sql
