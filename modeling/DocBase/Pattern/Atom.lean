import DocBase.Numeral
import DocBase.Text.Blank

/-!
The smallest parts of a pattern: characters, and what stands behind a backslash.

Patterns are known without tables of Unicode. In the mode that would need one, for the kinds of
characters or for their other case, a pattern is refused. In the mode for bytes a part is refused if
it could match a piece of a character.
-/

namespace DocBase.Pattern

structure Mode where
  /-- Whether it matches characters; bytes otherwise. -/
  unicode : Bool
  anyCase : Bool
  /-- Whether blanks and comments in it are passed over. -/
  spaced : Bool
deriving DecidableEq

inductive Atom
  /-- A character; the flag says that it is written as a byte. -/
  | literal (c : Char) (byte : Bool)
  /-- A kind of characters, or all others. -/
  | kind (negated : Bool)
  | edge
  | wordEdge
deriving DecidableEq

/-- Drops blanks and comments off the front; the flag says whether a comment is open. -/
def skipSpace : Bool → List Char → List Char
  | _, [] => []
  | true, c :: cs => skipSpace (c != '\n') cs
  | false, c :: cs =>
    if Text.isBlank c then skipSpace false cs
    else if c = '#' then skipSpace true cs
    else c :: cs

namespace Mode

def standard : Mode := ⟨true, false, false⟩

def skip (m : Mode) (cs : List Char) : List Char := if m.spaced then skipSpace false cs else cs

/-- Whether the other case of a character would have to be looked up. -/
def needsCases (m : Mode) : Bool := m.unicode && m.anyCase

def admits (m : Mode) : Atom → Bool
  | .literal c byte => !m.needsCases && (m.unicode || !byte || c.toNat < 0x80)
  | .kind negated => !m.unicode && !negated
  | .edge | .wordEdge => true

def admitsInside (m : Mode) : Atom → Bool
  | .literal c _ => !m.needsCases && (m.unicode || c.toNat < 0x80)
  | .kind negated => !m.unicode && !negated
  | .edge | .wordEdge => false

end Mode

def readHex? (m : Mode) : Nat → Nat → List Char → Option (Nat × List Char)
  | 0, value, cs => some (value, cs)
  | digits + 1, value, cs =>
    match m.skip cs with
    | [] => none
    | c :: cs => do readHex? m digits (16 * value + (← hexDigit? c)) cs

def readCode? (m : Mode) (digits : Nat) (cs : List Char) : Option (Atom × List Char) := do
  let (n, rest) ← readHex? m digits 0 cs
  if n.isValidChar then some (.literal (.ofNat n) (digits = 2), rest) else none

/-- Characters that stand for themselves behind a backslash: those of ASCII that are no letters or
digits, but for the angles, which are edges of words. -/
def isPlainEscape (c : Char) : Bool :=
  c.toNat < 0x80 && !c.isAlphanum && c != '<' && c != '>'

/-- Reads what stands behind a backslash. A property of characters is named by a table and refused. -/
def readEscape? (m : Mode) : List Char → Option (Atom × List Char)
  | [] => none
  | c :: cs =>
    match c with
    | 'x' => readCode? m 2 cs
    | 'u' => readCode? m 4 cs
    | 'U' => readCode? m 8 cs
    | 'd' | 's' | 'w' => some (.kind false, cs)
    | 'D' | 'S' | 'W' => some (.kind true, cs)
    | 'A' | 'z' => some (.edge, cs)
    | 'b' | 'B' | '<' | '>' => some (.wordEdge, cs)
    | 'a' => some (.literal '\x07' false, cs)
    | 'f' => some (.literal '\x0c' false, cs)
    | 't' => some (.literal '\t' false, cs)
    | 'n' => some (.literal '\n' false, cs)
    | 'r' => some (.literal '\r' false, cs)
    | 'v' => some (.literal '\x0b' false, cs)
    | c => if isPlainEscape c then some (.literal c false, cs) else none

end DocBase.Pattern
