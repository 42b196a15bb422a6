import DocBase.Pattern.Atom

namespace DocBase.Pattern

/-- Brackets that are open. Of a set only its height is kept, which is how deep its parts nest. -/
structure OpenSet where
  negated : Bool
  /-- The height of what stands before the last operator. -/
  left : Option Nat
  /-- The heights of the items behind it, last first. -/
  items : List Nat
  /-- Whether nothing but hyphens was read yet. -/
  fresh : Bool

namespace OpenSet

def add (s : OpenSet) (height : Nat) : OpenSet := { s with items := height :: s.items }

def union (s : OpenSet) : Nat :=
  match s.items with
  | [] => 0
  | [height] => height
  | heights => 1 + heights.max?.getD 0

/-- The height of all that was read; operators apply from the left. -/
def whole (s : OpenSet) : Nat :=
  match s.left with
  | none => s.union
  | some left => 1 + max left s.union

def operate (s : OpenSet) : OpenSet := ⟨s.negated, some s.whole, [], false⟩

end OpenSet

/-- The kinds of ASCII characters that go by a name between colons. -/
def asciiKinds : List String :=
  ["alnum", "alpha", "ascii", "blank", "cntrl", "digit", "graph", "lower", "print", "punct", "space",
    "upper", "word", "xdigit"]

def readAsciiKind? (cs : List Char) : Option (Bool × List Char) :=
  match cs with
  | ':' :: cs =>
    let negated := cs.head? = some '^'
    let cs := if negated then cs.tail else cs
    match cs.dropWhile (· ≠ ':') with
    | ':' :: ']' :: rest =>
      if asciiKinds.contains (.ofList (cs.takeWhile (· ≠ ':'))) then some (negated, rest) else none
    | _ => none
  | _ => none

def openSet (m : Mode) (cs : List Char) : OpenSet × List Char :=
  match m.skip cs with
  | '^' :: cs => (⟨true, none, [], true⟩, cs)
  | cs => (⟨false, none, [], true⟩, cs)

def readMember? (m : Mode) : List Char → Option (Atom × List Char)
  | [] => none
  | '\\' :: cs => readEscape? m cs
  | c :: cs => some (.literal c false, cs)

def isRange : Atom → Atom → Bool
  | .literal low _, .literal high _ => low ≤ high
  | _, _ => false

/-- Reads a character, a kind of characters or a range. A hyphen before another one or before the
closing bracket makes no range. -/
def readItem? (m : Mode) (cs : List Char) : Option (List Char) := do
  let (first, cs) ← readMember? m cs
  if !m.admitsInside first then none
  let cs := m.skip cs
  match cs with
  | '-' :: rest =>
    match m.skip rest with
    | ']' :: _ | '-' :: _ => return cs
    | rest => do
      let (last, rest) ← readMember? m rest
      if m.admitsInside last && isRange first last then return rest else none
  | cs => return cs

/-- Reads the rest of open brackets, which lie in the `outer` ones, and returns the height of the
outermost set. In the mode for bytes all others of a set cannot be taken, because they have pieces of
characters among them. Each step takes a character, so the fuel of as many steps as there are
characters lasts. -/
def readSet? (m : Mode) : Nat → List OpenSet → OpenSet → List Char → Option (Nat × List Char)
  | 0, _, _, _ => none
  | fuel + 1, outer, s, cs =>
    match m.skip cs, s.fresh, s.items with
    | '-' :: cs, true, _ =>
      if m.admitsInside (.literal '-' false) then readSet? m fuel outer (s.add 0) cs else none
    | ']' :: cs, true, [] =>
      if m.admitsInside (.literal ']' false) then
        readSet? m fuel outer { s.add 0 with fresh := false } cs
      else none
    | cs, _, _ =>
      let s := { s with fresh := false }
      match cs with
      | ']' :: cs =>
        if s.negated && !m.unicode then none
        else
          match outer with
          | [] => some (1 + s.whole, cs)
          | around :: outer => readSet? m fuel outer (around.add (1 + s.whole)) cs
      | '[' :: cs =>
        match readAsciiKind? cs with
        | some (negated, cs) =>
          if m.needsCases || (negated && !m.unicode) then none
          else readSet? m fuel outer (s.add 0) cs
        | none =>
          let (inner, cs) := openSet m cs
          readSet? m fuel (s :: outer) inner cs
      | '&' :: '&' :: cs | '-' :: '-' :: cs | '~' :: '~' :: cs =>
        readSet? m fuel outer s.operate cs
      | cs => do readSet? m fuel outer (s.add 0) (← readItem? m cs)

def readBracket? (m : Mode) (cs : List Char) : Option (Nat × List Char) :=
  let (s, rest) := openSet m cs
  readSet? m (rest.length + 1) [] s rest

end DocBase.Pattern
