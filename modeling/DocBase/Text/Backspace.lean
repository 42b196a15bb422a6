import DocBase.Text.Bytes
import DocBase.Text.Cluster

namespace DocBase.Text

def backspace : Char := '\x08'

/-- What is left of a text typed so far, last character first, and how many bytes the next
backspaces will take away, the nearest first. -/
structure Typed where
  text : List Char
  sizes : List Nat

namespace Typed

def nothing : Typed := ⟨[], []⟩

/-- Types a cluster. The size that a backspace takes away is kept in eight bits. -/
def enter (t : Typed) (cluster : List Char) : Typed :=
  ⟨cluster.reverse ++ t.text, byteLength cluster % 256 :: t.sizes⟩

/-- Takes away what was typed last; nothing if nothing is left to take away. There is no taking away
a part of a character. -/
def erase? (t : Typed) : Option Typed :=
  match t.sizes with
  | [] => some t
  | size :: sizes => (splitBytes? size t.text).map fun (_, rest) => ⟨rest, sizes⟩

def type? (t : Typed) (cluster : List Char) : Option Typed :=
  if cluster = [backspace] then t.erase? else some (t.enter cluster)

end Typed

/-- The text that backspaces leave, each taking away the cluster typed before it. There is none if
one of them would tear a character apart: then the line editor panics. -/
def applyBackspaces? (cs : List Char) : Option (List Char) :=
  ((clusters cs).foldlM Typed.type? .nothing).map (·.text.reverse)

end DocBase.Text
