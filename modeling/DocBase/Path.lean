import DocBase.IoError
import DocBase.Text.Split

namespace DocBase

structure Path where
  text : String
deriving DecidableEq

inductive Ending
  | name
  /-- A slash behind the last name, which asks for a directory. -/
  | slash
  /-- A dot, or no name at all: the path is that of a directory that is on its way already. -/
  | dot
deriving DecidableEq

structure Route where
  absolute : Bool
  names : List String
  ending : Ending
deriving DecidableEq

/-- Paths have to be shorter than this, in bytes. -/
def pathLimit : Nat := 4096

namespace Path

/-- The path that a text names from within a directory. A text that starts at the root names it from
anywhere. -/
def join (directory : Path) (text : String) : Path :=
  if text.toList.head? = some '/' then ⟨text⟩
  else if directory.text.isEmpty || directory.text.toList.getLast? = some '/' then
    ⟨directory.text ++ text⟩
  else ⟨directory.text ++ "/" ++ text⟩

end Path

namespace Route

/-- The ending of a path whose last piece that is not empty is `last`. -/
def endingOf (last : Option String) (slashed : Bool) : Ending :=
  match last with
  | none | some "." => .dot
  | some _ => if slashed then .slash else .name

/-- Splits at slashes. Pieces that are empty or a single dot lead nowhere and are dropped. -/
def ofChars (cs : List Char) : Route :=
  let pieces := ((Text.split '/' cs).map String.ofList).filter (· ≠ "")
  ⟨cs.head? = some '/', pieces.filter (· ≠ "."),
    endingOf pieces.getLast? (cs.getLast? = some '/')⟩

def parent (r : Route) : Route := ⟨r.absolute, r.names.dropLast, .name⟩

end Route

/-- The way that a path describes. An empty path describes none, and neither does one that is too
long. -/
def Path.route (p : Path) : Except IoError Route :=
  if p.text.isEmpty then .error .notFound
  else if pathLimit ≤ p.text.utf8ByteSize then .error .nameTooLong
  else .ok (.ofChars p.text.toList)

end DocBase
