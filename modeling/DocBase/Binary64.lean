/-!
Binary floating-point numbers of 64 bits as exact values.

A finite number is its sign and the rank of its magnitude among all finite magnitudes in ascending
order, so comparing two numbers is comparing integers, and rounding is choosing a rank.
-/

namespace DocBase

/-- How many finite magnitudes there are: 2047 binades of `2 ^ 52` magnitudes each. -/
abbrev finiteMagnitudes : Nat := 2047 * Nat.pow 2 52

/-- A binary64 number. All NaNs are one value. -/
inductive Binary64
  | nan
  | infinite (negative : Bool)
  | finite (negative : Bool) (rank : Fin finiteMagnitudes)
deriving DecidableEq

namespace Binary64

/-- The number with this sign and rank of magnitude, infinite beyond the last finite one. -/
def ofRank (negative : Bool) (rank : Nat) : Binary64 :=
  if h : rank < finiteMagnitudes then finite negative ⟨rank, h⟩ else infinite negative

def zero : Binary64 := ofRank false 0

def isFinite : Binary64 → Bool
  | finite .. => true
  | _ => false

/-- The place of a number in ascending order; both zeros share one, and NaN has none. -/
def key : Binary64 → Option Int
  | nan => none
  | infinite negative => some (if negative then -finiteMagnitudes else finiteMagnitudes)
  | finite negative rank => some (if negative then -rank.val else rank.val)

/-- Compares two numbers, unless one of them is NaN. -/
def compare? (a b : Binary64) : Option Ordering :=
  match a.key, b.key with
  | some i, some j => some (compare i j)
  | _, _ => none

def equals (a b : Binary64) : Bool := a.compare? b == some .eq

def less (a b : Binary64) : Bool := a.compare? b == some .lt

/-- The magnitude of a rank, counted in the least positive magnitude `2 ^ -1074`. -/
def units (rank : Nat) : Nat :=
  let binade := Nat.pow 2 52
  if rank < binade then rank else (binade + rank % binade) <<< (rank / binade - 1)

/-- The exact value as an integer, when it is one. -/
def toInt? : Binary64 → Option Int
  | finite negative rank =>
    let n := units rank
    let one := Nat.pow 2 1074
    if n % one = 0 then some (if negative then -(n / one : Nat) else (n / one : Nat)) else none
  | _ => none

/-- The interchange format: a sign bit above the rank of the magnitude. -/
def toBits : Binary64 → Nat
  | nan => 0x7ff8000000000000
  | infinite negative => finiteMagnitudes + (if negative then Nat.pow 2 63 else 0)
  | finite negative rank => rank + (if negative then Nat.pow 2 63 else 0)

def ofBits (bits : Nat) : Binary64 :=
  let rank := bits % Nat.pow 2 63
  if rank ≤ finiteMagnitudes then ofRank (bits / Nat.pow 2 63 % 2 = 1) rank else nan

end Binary64

end DocBase
