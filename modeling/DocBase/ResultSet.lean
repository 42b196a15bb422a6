import DocBase.Document
import DocBase.Query.Select

namespace DocBase

inductive ResultSet
  | rows (columns : List String) (rows : List Row)
  | status (message : String)
deriving DecidableEq

def counted (n : Nat) (noun : String) : String :=
  toString n ++ " " ++ noun ++ (if n = 1 then "" else "s")

namespace ResultSet

/-- The text of a cell, empty if the row has none there. -/
def cell (row : Row) (column : String) : String :=
  match row.get? column with
  | some value => value.display
  | none => ""

def pad (width : Nat) (text : String) : List Char :=
  text.toList ++ .replicate (width - text.length) ' '

def line (widths : List Nat) (cells : List String) : List Char :=
  '|' :: (cells.zip widths).flatMap fun (cell, width) => ' ' :: pad width cell ++ [' ', '|']

def separator (widths : List Nat) : List Char :=
  '|' :: widths.flatMap fun width => .replicate (width + 2) '-' ++ ['|']

/-- The width of the column at place `i`: that of its longest text, the heading included. -/
def columnWidth (column : String) (rows : List (List String)) (i : Nat) : Nat :=
  rows.foldl (fun width cells => max width (cells[i]?.getD "").length) column.length

def widthsOf (columns : List String) (rows : List Row) : List Nat :=
  columns.mapIdx fun i column => columnWidth column (rows.map fun row => columns.map (cell row)) i

def table (columns : List String) (rows : List Row) : String :=
  let cells := rows.map fun row => columns.map (cell row)
  let widths := widthsOf columns rows
  let lines := line widths columns :: separator widths :: cells.map (line widths)
  .ofList (lines.flatMap (· ++ ['\n']) ++ ('(' :: (counted rows.length "row").toList ++ [')']))

/-- The greatest width that a text can be padded to. Beyond it, padding panics. -/
def maxWidth : Nat := 65535

def hasLayout : ResultSet → Bool
  | .status _ => true
  | .rows columns found => (widthsOf columns found).all (· ≤ maxWidth)

def display : ResultSet → String
  | .status message => message
  | .rows [] _ => "Empty result"
  | .rows columns found => table columns found

/-- The answer as a JSON document: an array of row objects, or an object with the status. -/
def toJson : ResultSet → Json
  | .status message => .object [("status", .scalar (.text message))]
  | .rows _ found => .array (found.map Document.ofFields)

end ResultSet

end DocBase
