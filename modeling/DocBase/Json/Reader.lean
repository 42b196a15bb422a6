import DocBase.Json

namespace DocBase.Json

def isSpace (c : Char) : Bool := c == ' ' || c == '\n' || c == '\t' || c == '\r'

def skipSpace (cs : List Char) : List Char := cs.dropWhile isSpace

/-- A piece of a string: a character or one 16-bit unit given by an escape. -/
inductive Piece
  | char (c : Char)
  | unit (n : Nat)

/-- The text that pieces make, if every surrogate among the units has its other half. -/
def joinPieces : List Piece → Option (List Char)
  | [] => some []
  | .char c :: rest => (joinPieces rest).map (c :: ·)
  | .unit high :: .unit low :: rest =>
    if 0xD800 ≤ high ∧ high < 0xDC00 then
      if 0xDC00 ≤ low ∧ low < 0xE000 then
        (joinPieces rest).map (.ofNat (0x10000 + (high - 0xD800) * 0x400 + (low - 0xDC00)) :: ·)
      else none
    else if 0xDC00 ≤ high ∧ high < 0xE000 then none
    else (joinPieces (.unit low :: rest)).map (.ofNat high :: ·)
  | .unit n :: rest =>
    if 0xD800 ≤ n ∧ n < 0xE000 then none else (joinPieces rest).map (.ofNat n :: ·)

def escape? : Char → Option Char
  | '"' => some '"'
  | '\\' => some '\\'
  | '/' => some '/'
  | 'b' => some '\x08'
  | 'f' => some '\x0c'
  | 'n' => some '\n'
  | 'r' => some '\r'
  | 't' => some '\t'
  | _ => none

def readPieces? : List Char → Option (List Piece × List Char)
  | [] => none
  | '"' :: rest => some ([], rest)
  | '\\' :: 'u' :: a :: b :: c :: d :: rest => do
    let n := ((← hexDigit? a) * 16 + (← hexDigit? b)) * 256 + (← hexDigit? c) * 16 + (← hexDigit? d)
    let (pieces, rest) ← readPieces? rest
    return (.unit n :: pieces, rest)
  | '\\' :: c :: rest => do
    let c ← escape? c
    let (pieces, rest) ← readPieces? rest
    return (.char c :: pieces, rest)
  | c :: rest =>
    if c = '\\' ∨ c.toNat < 0x20 then none
    else do
      let (pieces, rest) ← readPieces? rest
      return (.char c :: pieces, rest)

/-- A float out of range means nothing. -/
def ofFloat (f : Binary64) : Json := if f.isFinite then scalar (.float f) else meaningless

/-- The value of a numeral: an integer if it is written as one and fits, and a float otherwise.
The sign of a zero makes it a float. Floats are scaled, which need not give the nearest one. -/
def ofNumeral (n : Numeral) : Json :=
  let magnitude := digitsValue n.whole
  if n.fraction.isNone ∧ n.exponent.isNone ∧ magnitude < Nat.pow 2 64 ∧
      ¬ (n.negative ∧ magnitude = 0) then
    match Value.ofInt (if n.negative then -(magnitude : Int) else magnitude) with
    | .float f => ofFloat f
    | v => scalar v
  else ofFloat n.scaled

/-- Reads a number: no leading zeros, and digits on both sides of a point. -/
def readNumber? (cs : List Char) : Option (Json × List Char) := do
  let (negative, cs) := match cs with
    | '-' :: rest => (true, rest)
    | cs => (false, cs)
  let (whole, cs) := match cs with
    | '0' :: rest => (['0'], rest)
    | cs => cs.span Char.isDigit
  let (fraction, cs) := Numeral.scanFraction cs
  let (exponent, cs) ← Numeral.scanExponent? cs
  if whole.isEmpty || fraction == some [] then none
  else return (ofNumeral ⟨negative, whole, fraction, exponent⟩, cs)

def readWord? (word : List Char) (value : Value) (cs : List Char) : Option (Json × List Char) :=
  if word.isPrefixOf cs then some (scalar value, cs.drop word.length) else none

def ofPieces (pieces : List Piece) : Json :=
  match joinPieces pieces with
  | some cs => scalar (.text (.ofList cs))
  | none => meaningless

/-- The object with these members; one whose keys are not all texts means nothing. -/
def ofMembers (members : List (List Piece × Json)) : Json :=
  match members.mapM fun (key, value) => (joinPieces key).map fun cs => (String.ofList cs, value) with
  | some members => object members
  | none => meaningless

mutual

/-- Reads a value that starts at the first character. Every nested value uses up one unit of fuel
and at least one character. -/
def readValue? : Nat → List Char → Option (Json × List Char)
  | 0, _ => none
  | fuel + 1, cs =>
    match cs with
    | '"' :: rest => do
      let (pieces, rest) ← readPieces? rest
      return (ofPieces pieces, rest)
    | '[' :: rest =>
      match skipSpace rest with
      | ']' :: rest => some (array [], rest)
      | rest => do
        let (items, rest) ← readItems? fuel rest
        return (array items, rest)
    | '\x7b' :: rest =>
      match skipSpace rest with
      | '\x7d' :: rest => some (object [], rest)
      | rest => do
        let (members, rest) ← readMembers? fuel rest
        return (ofMembers members, rest)
    | 'n' :: _ => readWord? ['n', 'u', 'l', 'l'] .null cs
    | 't' :: _ => readWord? ['t', 'r', 'u', 'e'] (.boolean true) cs
    | 'f' :: _ => readWord? ['f', 'a', 'l', 's', 'e'] (.boolean false) cs
    | cs => readNumber? cs

def readItems? : Nat → List Char → Option (List Json × List Char)
  | 0, _ => none
  | fuel + 1, cs => do
    let (item, rest) ← readValue? fuel cs
    match skipSpace rest with
    | ']' :: rest => return ([item], rest)
    | ',' :: rest =>
      let (items, rest) ← readItems? fuel (skipSpace rest)
      return (item :: items, rest)
    | _ => none

def readMembers? : Nat → List Char → Option (List (List Piece × Json) × List Char)
  | 0, _ => none
  | fuel + 1, cs =>
    match cs with
    | '"' :: rest => do
      let (key, rest) ← readPieces? rest
      match skipSpace rest with
      | ':' :: rest =>
        let (value, rest) ← readValue? fuel (skipSpace rest)
        match skipSpace rest with
        | '\x7d' :: rest => return ([(key, value)], rest)
        | ',' :: rest =>
          let (members, rest) ← readMembers? fuel (skipSpace rest)
          return ((key, value) :: members, rest)
        | _ => none
      | _ => none
    | _ => none

end

def parse? (text : String) : Option Json := do
  let cs := skipSpace text.toList
  let (document, rest) ← readValue? (cs.length + 1) cs
  if (skipSpace rest).isEmpty then some document else none

end DocBase.Json
