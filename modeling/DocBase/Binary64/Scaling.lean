import DocBase.Binary64.Rounding

namespace DocBase.Binary64

def timesRank (a b : Nat) : Nat := nearestRank (units a * units b) (1 <<< 2148)

def overRank (a b : Nat) : Nat := nearestRank (units a) (units b)

def tenRank (exponent : Nat) : Nat := nearestRank (Nat.pow 10 exponent) 1

/-- The exponent of the greatest power of ten that is finite. -/
abbrev lastTen : Nat := 308

/-- Divides by the greatest power of ten some times, or until nothing is left. -/
def overLastTens : Nat → Nat → Nat
  | 0, rank => rank
  | times + 1, rank =>
    if rank = 0 then 0 else overLastTens times (overRank rank (tenRank lastTen))

/-- A magnitude times a power of ten. Each step of it is rounded. -/
def scaledRank (rank : Nat) (exponent : Int) : Nat :=
  if 0 ≤ exponent then
    if exponent ≤ lastTen then timesRank rank (tenRank exponent.toNat)
    else if rank = 0 then 0
    else finiteMagnitudes
  else
    let places := exponent.natAbs
    let times := (places - 1) / lastTen
    overRank (overLastTens times rank) (tenRank (places - lastTen * times))

/-- The number `significand * 10 ^ exponent`, with the significand rounded before it is scaled. So
it need not be the nearest one, which is `ofDecimal`. -/
def ofScaled (negative : Bool) (significand : Nat) (exponent : Int) : Binary64 :=
  ofRank negative (scaledRank (nearestRank significand 1) exponent)

end DocBase.Binary64
