import DocBase.Binary64.Scaling
import DocBase.Binary64.Shortest

namespace DocBase

def digitsValue (digits : List Char) : Nat :=
  digits.foldl (fun n c => 10 * n + (c.toNat - 48)) 0

def hexDigit? (c : Char) : Option Nat :=
  if c.isDigit then some (c.toNat - 48)
  else if 'a' ≤ c ∧ c ≤ 'f' then some (c.toNat - 87)
  else if 'A' ≤ c ∧ c ≤ 'F' then some (c.toNat - 55)
  else none

/-- A numeral taken apart. The fraction is absent when there is no point, and so is the exponent
without its mark. -/
structure Numeral where
  negative : Bool
  whole : List Char
  fraction : Option (List Char)
  exponent : Option Int
deriving DecidableEq

namespace Numeral

def toBinary64 (n : Numeral) : Binary64 :=
  let fraction := n.fraction.getD []
  .ofDecimal n.negative (digitsValue (n.whole ++ fraction)) (n.exponent.getD 0 - fraction.length)

/-- Takes digits off the front and appends them to a number as long as it fits into 64 bits. -/
def gather : Nat → List Char → Nat × List Char
  | n, [] => (n, [])
  | n, c :: rest =>
    let next := 10 * n + (c.toNat - 48)
    if next < Nat.pow 2 64 then gather next rest else (n, c :: rest)

/-- The number scaled from a significand of 64 bits. Digits before the point that the significand
cannot hold still count as places, those behind the point do not. -/
def scaled (n : Numeral) : Binary64 :=
  let fraction := n.fraction.getD []
  let (whole, uncounted) := gather 0 n.whole
  let (significand, unused) := gather whole fraction
  .ofScaled n.negative significand
    (n.exponent.getD 0 + uncounted.length + unused.length - fraction.length)

def scanSign : List Char → Bool × List Char
  | '-' :: rest => (true, rest)
  | '+' :: rest => (false, rest)
  | rest => (false, rest)

/-- Takes an exponent off the front if its mark stands there; a mark needs digits behind it. -/
def scanExponent? : List Char → Option (Option Int × List Char)
  | c :: rest =>
    if c = 'e' ∨ c = 'E' then
      let (negative, rest) := scanSign rest
      let (digits, rest) := rest.span Char.isDigit
      if digits.isEmpty then none
      else
        let n : Int := digitsValue digits
        some (some (if negative then -n else n), rest)
    else some (none, c :: rest)
  | [] => some (none, [])

def scanFraction : List Char → Option (List Char) × List Char
  | '.' :: rest =>
    let (digits, rest) := rest.span Char.isDigit
    (some digits, rest)
  | rest => (none, rest)

/-- Reads a whole text as a numeral with an optional sign; digits may be missing on one side of the
point. -/
def ofText? (cs : List Char) : Option Numeral := do
  let (negative, cs) := scanSign cs
  let (whole, cs) := cs.span Char.isDigit
  let (fraction, cs) := scanFraction cs
  let (exponent, cs) ← scanExponent? cs
  if cs.isEmpty && !(whole.isEmpty && (fraction.getD []).isEmpty) then
    some ⟨negative, whole, fraction, exponent⟩
  else none

end Numeral

namespace Decimal

def digitChars (d : Decimal) : List Char := Nat.toDigits 10 d.digits

/-- The place of the point, counted in digits from the first one. -/
def pointPlace (d : Decimal) : Int := d.digitChars.length + d.exponent

/-- The decimal without an exponent, with a point only if it has a fraction. -/
def positional (d : Decimal) : List Char :=
  let digits := d.digitChars
  if 0 ≤ d.exponent then digits ++ .replicate d.exponent.toNat '0'
  else if 0 < d.pointPlace then
    digits.take d.pointPlace.toNat ++ '.' :: digits.drop d.pointPlace.toNat
  else '0' :: '.' :: (.replicate d.pointPlace.natAbs '0' ++ digits)

/-- The decimal with one digit before the point and an exponent with a sign. -/
def scientific (d : Decimal) : List Char :=
  let exponent := d.pointPlace - 1
  let mark := 'e' :: (if 0 ≤ exponent then ['+'] else []) ++ (toString exponent).toList
  match d.digitChars with
  | first :: second :: rest => first :: '.' :: second :: rest ++ mark
  | digits => digits ++ mark

end Decimal

end DocBase
