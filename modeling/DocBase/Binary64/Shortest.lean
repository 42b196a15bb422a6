import DocBase.Binary64.Rounding

namespace DocBase

/-- The number `digits * 10 ^ exponent`. -/
structure Decimal where
  digits : Nat
  exponent : Int
deriving DecidableEq

/-- Where an exact tie between two neighbouring decimals goes. -/
inductive Tie
  | up
  | even
deriving DecidableEq

/-- Moves trailing zeros of the digits into the exponent. -/
def Decimal.trim (digits : Nat) (exponent : Int) : Decimal :=
  if 0 < digits ∧ digits % 10 = 0 then trim (digits / 10) (exponent + 1) else ⟨digits, exponent⟩
termination_by digits
decreasing_by omega

namespace Binary64

/-- The magnitude of `rank` divided by `10 ^ exponent`, as a quotient. -/
def gridQuotient (rank : Nat) (exponent : Int) : Nat × Nat :=
  if 0 ≤ exponent then (units rank, Nat.pow 10 exponent.toNat <<< 1074)
  else (units rank * Nat.pow 10 exponent.natAbs, 1 <<< 1074)

def readsBack (rank : Nat) (d : Decimal) : Bool :=
  decide (ofDecimal false d.digits d.exponent = ofRank false rank)

/-- The multiple of `10 ^ exponent` that reads back to `rank` and is nearest to it, if there is
one. -/
def onGrid? (tie : Tie) (rank : Nat) (exponent : Int) : Option Decimal :=
  let (num, den) := gridQuotient rank exponent
  let low := num / den
  let preferred :=
    match compare (2 * (num % den)) den, tie with
    | .lt, _ => low
    | .gt, _ => low + 1
    | .eq, .up => low + 1
    | .eq, .even => low + low % 2
  let other := 2 * low + 1 - preferred
  [Decimal.trim preferred exponent, .trim other exponent].find? (readsBack rank)

/-- The exponent of the leading decimal digit of a positive magnitude, estimated from its binary
logarithm and corrected by comparison. -/
def leadingExponent (rank : Nat) : Int :=
  let estimate := ((units rank).log2 - 1074 : Int) * 78913 / Nat.pow 2 18
  let reaches (exponent : Int) : Bool :=
    let (num, den) := gridQuotient rank exponent
    den ≤ num
  if reaches (estimate + 1) then estimate + 1
  else if reaches estimate then estimate
  else estimate - 1

/-- The shortest decimal that reads back to `rank`, the nearest of that length; seventeen digits
always suffice, and the exact value stands behind them. -/
def shortest (tie : Tie) (rank : Nat) : Decimal :=
  if rank = 0 then ⟨0, 0⟩
  else
    let top := leadingExponent rank
    match (List.range 17).findSome? fun (n : Nat) => onGrid? tie rank (top - n) with
    | some decimal => decimal
    | none => ⟨units rank * Nat.pow 5 1074, -1074⟩

end Binary64

end DocBase
