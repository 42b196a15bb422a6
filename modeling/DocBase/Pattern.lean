import DocBase.Pattern.Bracket
import DocBase.Text.Letter
import DocBase.Text.Number

/-!
Patterns for texts: which regular expressions can be used as one.

A pattern stands in a field of a log filter, where a comma, an equals sign and a closing brace end
it. So it never counts its repetitions, and an opening brace outside of brackets is left open.
-/

namespace DocBase.Pattern

inductive Error
  | unreadable
  /-- The pattern asks for edges of words in Unicode. -/
  | wordEdge
deriving DecidableEq

def Error.message : Error → String
  | unreadable => "error building NFA"
  | wordEdge => "unsupported regex feature for DFAs: cannot build DFAs for regexes with Unicode " ++
      "word boundaries; switch to ASCII word boundaries, or heuristically enable Unicode word " ++
      "boundaries or use a different regex engine"

def nestingLimit : Nat := 250

/-- A group that is open, or the whole: the heights of its branches, and those of the parts of the
branch that is being read, last first. A change of flags is a part without height. -/
structure Group where
  around : Mode
  branches : List Nat
  parts : List (Option Nat)

namespace Group

def opened (around : Mode) : Group := ⟨around, [], []⟩

def add (g : Group) (height : Option Nat) : Group := { g with parts := height :: g.parts }

def branch (g : Group) : Nat :=
  match g.parts with
  | [] => 0
  | [part] => part.getD 0
  | parts => 1 + (parts.map fun part => part.getD 0).max?.getD 0

def endBranch (g : Group) : Group := ⟨g.around, g.branch :: g.branches, []⟩

def height (g : Group) : Nat :=
  match g.branches with
  | [] => g.branch
  | branches => 1 + ((g.branch :: branches).max?.getD 0)

def repeatLast? (g : Group) : Option Group :=
  match g.parts with
  | some height :: parts => some { g with parts := some (height + 1) :: parts }
  | _ => none

end Group

structure Reading where
  mode : Mode
  group : Group
  outer : List Group
  names : List (List Char)
  wordEdge : Bool

def flagChars : List Char := ['i', 'm', 's', 'U', 'u', 'R', 'x']

/-- Whether flags switch a flag on or off; those behind a hyphen are switched off. -/
def flagState? (flags : List Char) (flag : Char) : Option Bool :=
  if flags.contains flag then some (!(flags.takeWhile (· ≠ flag)).contains '-') else none

/-- Whether each flag is known and given once, and a hyphen has flags behind it. -/
def areFlags (flags : List Char) : Bool :=
  flags.all (fun c => flagChars.contains c || c == '-') && decide flags.Nodup &&
    flags.getLast? != some '-'

def Mode.set (m : Mode) (flags : List Char) : Mode :=
  ⟨(flagState? flags 'u').getD m.unicode, (flagState? flags 'i').getD m.anyCase,
    (flagState? flags 'x').getD m.spaced⟩

def isGroupName : List Char → Bool
  | [] => false
  | first :: rest =>
    Text.isLetter first && rest.all fun c =>
      Text.isLetter c || Text.isNumber c || c == '.' || c == '[' || c == ']'

namespace Reading

def start : Reading := ⟨.standard, .opened .standard, [], [], false⟩

def addPart (r : Reading) (height : Nat) : Reading := { r with group := r.group.add (some height) }

def openGroup (r : Reading) (mode : Mode) : Reading :=
  { r with mode := mode, group := .opened r.mode, outer := r.group :: r.outer }

def readGroup? (r : Reading) (cs : List Char) : Option (Reading × List Char) :=
  let named (cs : List Char) : Option (Reading × List Char) :=
    let name := cs.takeWhile (· ≠ '>')
    match cs.dropWhile (· ≠ '>') with
    | '>' :: rest =>
      if isGroupName name && !r.names.contains name then
        some ({ r.openGroup r.mode with names := name :: r.names }, rest)
      else none
    | _ => none
  match r.mode.skip cs with
  | '?' :: 'P' :: '<' :: cs => named cs
  | '?' :: '<' :: cs => named cs
  | '?' :: cs =>
    let flags := cs.takeWhile fun c => c ≠ ':' ∧ c ≠ ')'
    let mode := r.mode.set flags
    if !areFlags flags then none
    else
      match cs.dropWhile fun c => c ≠ ':' ∧ c ≠ ')' with
      | ':' :: rest => some (r.openGroup mode, rest)
      | ')' :: rest =>
        if flags.isEmpty then none
        else some ({ r with mode := mode, group := r.group.add none }, rest)
      | _ => none
  | cs => some (r.openGroup r.mode, cs)

def closeGroup? (r : Reading) : Option Reading :=
  match r.outer with
  | [] => none
  | group :: outer =>
    some { r with
      mode := r.group.around, group := group.add (some (1 + r.group.height)), outer := outer }

def readAtom? (r : Reading) (cs : List Char) : Option (Reading × List Char) := do
  let (atom, rest) ← readMember? r.mode cs
  if r.mode.admits atom then
    return ({ r.addPart 0 with wordEdge := r.wordEdge || (r.mode.unicode && atom = .wordEdge) }, rest)
  else none

/-- Repeats the last part. A question mark behind the sign belongs to it. -/
def readRepetition? (r : Reading) (cs : List Char) : Option (Reading × List Char) := do
  let group ← r.group.repeatLast?
  return ({ r with group := group }, if cs.head? = some '?' then cs.tail else cs)

def step? (r : Reading) (cs : List Char) : Option (Reading × List Char) :=
  match cs with
  | '(' :: cs => r.readGroup? cs
  | ')' :: cs => r.closeGroup?.map (·, cs)
  | '|' :: cs => some ({ r with group := r.group.endBranch }, cs)
  | '[' :: cs => (readBracket? r.mode cs).map fun (height, cs) => (r.addPart height, cs)
  | '?' :: cs | '*' :: cs | '+' :: cs => r.readRepetition? cs
  | '\x7b' :: _ => none
  | '.' :: cs => if r.mode.unicode then some (r.addPart 0, cs) else none
  | '^' :: cs | '$' :: cs => some (r.addPart 0, cs)
  | cs => r.readAtom? cs

/-- Reads all parts. Each step takes a character, so the fuel of as many steps as there are
characters lasts. -/
def run? : Nat → Reading → List Char → Option Reading
  | 0, _, _ => none
  | fuel + 1, r, cs =>
    match r.mode.skip cs with
    | [] => some r
    | cs => do
      let (r, rest) ← r.step? cs
      run? fuel r rest

end Reading

def error? (cs : List Char) : Option Error :=
  match Reading.start.run? (cs.length + 1) cs with
  | none => some .unreadable
  | some r =>
    if !r.outer.isEmpty || nestingLimit < r.group.height then some .unreadable
    else if r.wordEdge then some .wordEdge
    else none

end DocBase.Pattern
