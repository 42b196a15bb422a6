import DocBase.Binary64

namespace DocBase.Binary64

/-- The greatest rank whose magnitude is at most `n` units. -/
def rankBelow (n : Nat) : Nat :=
  let binade := Nat.pow 2 52
  if n < binade then n else (n.log2 - 52) * binade + n >>> (n.log2 - 52)

/-- The rank nearest to `num / den`, of two equally near ones the even one. -/
def nearestRank (num den : Nat) : Nat :=
  let scaled := num <<< 1074
  let low := rankBelow (scaled / den)
  match compare (2 * scaled) ((units low + units (low + 1)) * den) with
  | .lt => low
  | .gt => low + 1
  | .eq => low + low % 2

def ofQuotient (negative : Bool) (num den : Nat) : Binary64 :=
  ofRank negative (nearestRank num den)

def ofInt (i : Int) : Binary64 := ofQuotient (i < 0) i.natAbs 1

/-- The number nearest to `digits * 10 ^ exponent`. Exponents far outside the range are settled
before the power of ten is formed. -/
def ofDecimal (negative : Bool) (digits : Nat) (exponent : Int) : Binary64 :=
  if digits = 0 then
    ofRank negative 0
  else if 0 ≤ exponent then
    if 310 ≤ exponent then infinite negative
    else ofQuotient negative (digits * Nat.pow 10 exponent.toNat) 1
  else if digits.log2 + 1101 < 3 * exponent.natAbs then
    ofRank negative 0
  else
    ofQuotient negative digits (Nat.pow 10 exponent.natAbs)

end DocBase.Binary64
