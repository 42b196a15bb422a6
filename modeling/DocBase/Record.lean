import DocBase.OrderedMap
import DocBase.Value.Comparison

namespace DocBase

structure RecordId where
  text : String
deriving DecidableEq

/-- A field that was never written is absent, which differs from null. -/
structure Record where
  id : RecordId
  fields : OrderedMap String Value
deriving DecidableEq

namespace Record

def get? (r : Record) (column : String) : Field := r.fields.get? column

/-- Writes a field: a present one keeps its place, a new one comes last. -/
def assign (r : Record) (column : String) (value : Value) : Record :=
  { r with fields := r.fields.assign column value }

end Record

/-- A source of fresh identifiers: a time stamp and a salt shared by all of them, and the number
given out so far. -/
structure IdSource where
  stamp : Nat
  salt : Nat
  count : Nat
deriving DecidableEq

namespace IdSource

def padded (width n : Nat) : List Char :=
  let digits := Nat.toDigits 16 n
  .replicate (width - digits.length) '0' ++ digits

/-- The identifier with a given number, laid out as a time-ordered UUID: stamp, version, salt,
variant, number. -/
def idAt (source : IdSource) (n : Nat) : RecordId :=
  let stamp := padded 12 (source.stamp % Nat.pow 2 48)
  let salt := padded 6 (source.salt % Nat.pow 2 24)
  ⟨.ofList (stamp.take 8 ++ '-' :: stamp.drop 8 ++ '-' :: '7' :: salt.take 3 ++
    '-' :: '8' :: salt.drop 3 ++ '-' :: padded 12 n)⟩

def next (source : IdSource) : RecordId × IdSource :=
  (source.idAt source.count, { source with count := source.count + 1 })

end IdSource

end DocBase
