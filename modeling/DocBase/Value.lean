import DocBase.Numeral

namespace DocBase

inductive Value
  | null
  | boolean (b : Bool)
  | integer (i : Int64)
  | float (f : Binary64)
  | text (s : String)
deriving DecidableEq

namespace Value

def isNumber : Value → Bool
  | integer _ | float _ => true
  | _ => false

def isText : Value → Bool
  | text _ => true
  | _ => false

/-- The integer `i` if it fits 64 bits, and the nearest float otherwise. -/
def ofInt (i : Int) : Value :=
  if Int64.minValue.toInt ≤ i ∧ i ≤ Int64.maxValue.toInt then integer (.ofInt i)
  else float (.ofInt i)

/-- Beyond this magnitude binary64 skips integers. -/
def maxExactInteger : Nat := Nat.pow 2 53 - 1

/-- The form in which a literal is stored: a float that is exactly an integer becomes one, as long
as no neighbouring integer could be meant. -/
def stored : Value → Value
  | float f =>
    match f.toInt? with
    | some i => if i.natAbs ≤ maxExactInteger then integer (.ofInt i) else float f
    | none => float f
  | v => v

end Value

/-- A float in full, without an exponent; an exact tie between two shortest decimals goes up. -/
def Binary64.positional : Binary64 → List Char
  | nan => "NaN".toList
  | infinite negative => (if negative then "-inf" else "inf").toList
  | finite negative rank =>
    (if negative then ['-'] else []) ++ (shortest .up rank).positional

/-- How a value shows in a table: text stands between quotes, as it is. -/
def Value.display : Value → String
  | null => "NULL"
  | boolean b => if b then "true" else "false"
  | integer i => toString i.toInt
  | float f => .ofList f.positional
  | text s => "\"" ++ s ++ "\""

end DocBase
