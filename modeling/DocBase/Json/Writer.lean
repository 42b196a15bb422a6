import DocBase.Json

namespace DocBase.Json

inductive Style
  | compact
  | pretty
deriving DecidableEq

/-- A character inside a string: quotes, backslashes and controls are escaped, all else stays. -/
def escapedChar (c : Char) : List Char :=
  match c with
  | '"' => ['\\', '"']
  | '\\' => ['\\', '\\']
  | '\x08' => ['\\', 'b']
  | '\x0c' => ['\\', 'f']
  | '\n' => ['\\', 'n']
  | '\r' => ['\\', 'r']
  | '\t' => ['\\', 't']
  | c =>
    if c.toNat < 0x20 then
      ['\\', 'u', '0', '0', Nat.digitChar (c.toNat / 16), Nat.digitChar (c.toNat % 16)]
    else [c]

def writeString (s : String) : List Char :=
  '"' :: s.toList.flatMap escapedChar ++ ['"']

/-- The numeral of a float: positional with a fraction from `1e-5` up to `1e16`, and with an
exponent elsewhere. An exact tie between two shortest decimals goes to the even one. -/
def writeMagnitude (d : Decimal) : List Char :=
  if -5 < d.pointPlace ∧ d.pointPlace ≤ 16 then
    d.positional ++ (if 0 ≤ d.exponent then ['.', '0'] else [])
  else d.scientific

/-- Floats without a numeral are written as null. -/
def writeScalar : Value → List Char
  | .null => "null".toList
  | .boolean b => (if b then "true" else "false").toList
  | .integer i => (toString i.toInt).toList
  | .float (.finite negative rank) =>
    (if negative then ['-'] else []) ++ writeMagnitude (Binary64.shortest .even rank)
  | .float _ => "null".toList
  | .text s => writeString s

def lineBreak (style : Style) (depth : Nat) : List Char :=
  match style with
  | .compact => []
  | .pretty => '\n' :: .replicate (2 * depth) ' '

/-- Items between brackets, separated by commas, each at the start of its own line. -/
def writeItems (style : Style) (depth : Nat) (opening closing : Char) (items : List (List Char)) :
    List Char :=
  match items with
  | [] => [opening, closing]
  | first :: rest =>
    opening :: (lineBreak style (depth + 1) ++ first ++
      rest.flatMap fun item => ',' :: (lineBreak style (depth + 1) ++ item)) ++
      lineBreak style depth ++ [closing]

def writeKey (style : Style) (key : String) : List Char :=
  writeString key ++ ':' :: (if style = .pretty then [' '] else [])

mutual

def writeAt (style : Style) (depth : Nat) : Json → List Char
  | scalar v => writeScalar v
  | meaningless => "null".toList
  | array items => writeItems style depth '[' ']' (writeEach style (depth + 1) items)
  | object members => writeItems style depth '\x7b' '\x7d' (writeMembers style (depth + 1) members)

def writeEach (style : Style) (depth : Nat) : List Json → List (List Char)
  | [] => []
  | item :: items => writeAt style depth item :: writeEach style depth items

def writeMembers (style : Style) (depth : Nat) : List (String × Json) → List (List Char)
  | [] => []
  | (key, value) :: members =>
    (writeKey style key ++ writeAt style depth value) :: writeMembers style depth members

end

def write (style : Style) (document : Json) : String := .ofList (document.writeAt style 0)

end DocBase.Json
