import DocBase.Value
import DocBase.Text.Blank

namespace DocBase

namespace Value

/-- Reads hexadecimal digits below `2 ^ 64`, which a plus sign may precede. -/
def hexadecimal? (cs : List Char) : Option Nat :=
  let digits := match cs with
    | '+' :: rest => rest
    | cs => cs
  if digits.isEmpty then none
  else do
    let n ← digits.foldlM (fun n c => (hexDigit? c).map (16 * n + ·)) 0
    if n < UInt64.size then some n else none

/-- The number a text stands for: blanks around it are ignored, nothing is zero, and what is no
numeral is NaN. -/
def numberOfText (s : String) : Binary64 :=
  match Text.trim s.toList with
  | [] => .zero
  | '0' :: 'x' :: digits | '0' :: 'X' :: digits =>
    match hexadecimal? digits with
    | some n => .ofInt n
    | none => .nan
  | cs =>
    if cs = "Infinity".toList ∨ cs = "+Infinity".toList then .infinite false
    else if cs = "-Infinity".toList then .infinite true
    else
      match Numeral.ofText? cs with
      | some n => n.toBinary64
      | none => .nan

def toNumber : Value → Binary64
  | null => .zero
  | boolean b => .ofInt (if b then 1 else 0)
  | integer i => .ofInt i.toInt
  | float f => f
  | text s => numberOfText s

/-- Same kind and same value, where integers and floats are of one kind. -/
def strictEquals : Value → Value → Bool
  | null, null => true
  | boolean a, boolean b => a == b
  | text a, text b => a == b
  | a, b => a.isNumber && b.isNumber && a.toNumber.equals b.toNumber

/-- Equality after conversion; null equals only null. -/
def looseEquals : Value → Value → Bool
  | null, null => true
  | null, _ | _, null => false
  | text a, text b => a == b
  | a, b => a.toNumber.equals b.toNumber

def lessThan : Value → Value → Bool
  | text a, text b => decide (a < b)
  | a, b => a.toNumber.less b.toNumber

def greaterThan (a b : Value) : Bool := b.lessThan a

/-- The class that decides order before values do: numbers and their like, texts, absent fields. -/
def sortClass : Option Value → Nat
  | some (text _) => 1
  | some _ => 0
  | none => 2

/-- The order of a sort key: by class, then texts by their characters and all else numerically. -/
def compareForSort : Option Value → Option Value → Ordering
  | some (text a), some (text b) => compare a b
  | a, b =>
    match a, b, compare (sortClass a) (sortClass b) with
    | some x, some y, .eq => (x.toNumber.compare? y.toNumber).getD .eq
    | _, _, o => o

end Value

abbrev Field := Option Value

namespace Field

def strictEquals (field : Field) (literal : Value) : Bool :=
  field.any (·.strictEquals literal)

/-- An absent field is loosely equal to null and to nothing else. -/
def looseEquals (field : Field) (literal : Value) : Bool :=
  match field with
  | some value => value.looseEquals literal
  | none => decide (literal = .null)

def lessThan (field : Field) (literal : Value) : Bool :=
  field.any (·.lessThan literal)

def greaterThan (field : Field) (literal : Value) : Bool :=
  field.any (·.greaterThan literal)

end Field

end DocBase
