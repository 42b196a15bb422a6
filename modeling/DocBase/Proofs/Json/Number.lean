import DocBase.Json.Reader
import DocBase.Json.Writer
import DocBase.Proofs.Numeral.Layout
import DocBase.Proofs.Value

namespace DocBase.Json

open Decimal

/-- Digits as they stand before the point of a number: no zero in front of others. -/
structure Whole (cs : List Char) : Prop where
  ne_nil : cs ≠ []
  digits : ∀ c ∈ cs, c.isDigit
  zero : cs.head? = some '0' → cs = ['0']

theorem whole_toDigits (n : Nat) : Whole (Nat.toDigits 10 n) where
  ne_nil := Nat.toDigits_ne_nil
  digits _ := isDigit_of_mem_toDigits
  zero h := by
    cases n with
    | zero => rfl
    | succ n => exact absurd h (head?_toDigits_ne (Nat.succ_pos n))

def NumberEnds (rest : List Char) : Prop :=
  ∀ c ∈ rest.head?, c.isDigit = false ∧ c ≠ '.' ∧ c ≠ 'e' ∧ c ≠ 'E'

theorem NumberEnds.ends {rest : List Char} (h : NumberEnds rest) : Numeral.Ends rest := by
  intro c hc
  exact (h c hc).1

theorem NumberEnds.scanFraction {rest : List Char} (h : NumberEnds rest) :
    Numeral.scanFraction rest = (none, rest) := by
  unfold Numeral.scanFraction
  split
  · next rest => exact absurd rfl (h '.' rfl).2.1
  · rfl

theorem NumberEnds.scanExponent? {rest : List Char} (h : NumberEnds rest) :
    Numeral.scanExponent? rest = some (none, rest) := by
  cases rest with
  | nil => rfl
  | cons c cs =>
    obtain ⟨_, _, he, hE⟩ := h c rfl
    rw [Numeral.scanExponent?, if_neg (not_or.2 ⟨he, hE⟩)]

theorem scanExponent?_mark (exponent : Int) {rest : List Char} (hr : Numeral.Ends rest) :
    Numeral.scanExponent? ('e' :: ((if 0 ≤ exponent then ['+'] else []) ++
      ((toString exponent).toList ++ rest))) = some (some exponent, rest) := by
  have hspan := Numeral.span_digits (fun c => isDigit_of_mem_toDigits (n := exponent.natAbs)) hr
  rw [toList_toString_int, List.append_assoc]
  by_cases h : 0 ≤ exponent
  · have hneg : ¬ exponent < 0 := Int.not_lt.2 h
    have habs : (exponent.natAbs : Int) = exponent := Int.natAbs_of_nonneg h
    simp only [Numeral.scanExponent?, Char.reduceEq, or_false, reduceIte, Numeral.scanSign, h, hneg,
      List.nil_append, List.cons_append, hspan, List.isEmpty_iff, Nat.toDigits_ne_nil,
      Bool.false_eq_true, digitsValue_toDigits, Option.some.injEq, Prod.mk.injEq, and_true]
    exact habs
  · have hneg : exponent < 0 := Int.lt_of_not_ge h
    have habs : -(exponent.natAbs : Int) = exponent := by omega
    simp only [Numeral.scanExponent?, Char.reduceEq, or_false, reduceIte, Numeral.scanSign, h, hneg,
      List.nil_append, List.cons_append, hspan, List.isEmpty_iff, Nat.toDigits_ne_nil,
      digitsValue_toDigits, Option.some.injEq, Prod.mk.injEq, and_true]
    exact habs

theorem readNumber?_eq (negative : Bool) {whole suffix behind rest : List Char}
    {fraction : Option (List Char)} {exponent : Option Int} (hw : Whole whole)
    (hs : Numeral.Ends suffix) (hf : Numeral.scanFraction suffix = (fraction, behind))
    (hne : fraction ≠ some []) (he : Numeral.scanExponent? behind = some (exponent, rest)) :
    readNumber? ((if negative then ['-'] else []) ++ (whole ++ suffix)) =
      some (ofNumeral ⟨negative, whole, fraction, exponent⟩, rest) := by
  obtain ⟨c, cs, rfl⟩ := List.exists_cons_of_ne_nil hw.ne_nil
  have hspan := Numeral.span_digits hw.digits hs
  rw [List.cons_append] at hspan
  by_cases h0 : c = '0'
  · subst h0
    cases hw.zero rfl
    cases negative <;> simp [readNumber?, hf, he, hne]
  · have hm : c ≠ '-' := by
      intro he
      subst he
      cases hw.digits _ (.head _)
    cases negative <;>
      simp [readNumber?, hm, h0, hspan, hf, he, hne, -List.span_eq_takeWhile_dropWhile]

theorem readNumber?_integer (i : Int64) {rest : List Char} (hr : NumberEnds rest) :
    readNumber? (writeScalar (.integer i) ++ rest) = some (.scalar (.integer i), rest) := by
  have hread := readNumber?_eq (decide (i.toInt < 0)) (whole_toDigits i.toInt.natAbs) hr.ends
    hr.scanFraction nofun hr.scanExponent?
  have hvalue : (if decide (i.toInt < 0) = true then -(i.toInt.natAbs : Int) else i.toInt.natAbs) =
      i.toInt := by
    by_cases h : i.toInt < 0
    · rw [if_pos (decide_eq_true h)]
      omega
    · rw [if_neg fun hd => h (of_decide_eq_true hd)]
      omega
  have hint : i.toInt.natAbs < 2 ^ 64 ∧ ¬ (decide (i.toInt < 0) = true ∧ i.toInt.natAbs = 0) := by
    have hlow := i.le_toInt
    have hhigh := i.toInt_lt
    rw [decide_eq_true_eq]
    omega
  rw [writeScalar, toList_toString_int, List.append_assoc]
  simp only [decide_eq_true_eq] at hread
  rw [hread, ofNumeral, digitsValue_toDigits]
  dsimp only
  rw [if_pos ⟨rfl, rfl, hint⟩, hvalue, Value.ofInt_toInt]

/-- A decimal that is not a zero with an exponent. -/
def Canonical (d : Decimal) : Prop := d.digits = 0 → d.exponent = 0

section
variable {d : Decimal} {rest : List Char}

theorem Canonical.head_ne (hd : Canonical d) (he : d.exponent ≠ 0) :
    d.digitChars.head? ≠ some '0' :=
  head?_toDigits_ne (Nat.pos_of_ne_zero fun h => he (hd h))

theorem Canonical.whole_append_zeros (hd : Canonical d) :
    Whole (d.digitChars ++ List.replicate d.exponent.toNat '0') where
  ne_nil h := Nat.toDigits_ne_nil (List.append_eq_nil_iff.1 h).1
  digits c hc := by
    rcases List.mem_append.1 hc with hc | hc
    · exact isDigit_of_mem_digitChars hc
    · rw [List.eq_of_mem_replicate hc]
      rfl
  zero h := by
    have hs : d.digitChars.head?.isSome := List.isSome_head?.2 Nat.toDigits_ne_nil
    rw [List.head?_append, Option.or_of_isSome hs] at h
    have h0 : d.digits = 0 := Nat.eq_zero_of_not_pos fun hpos => head?_toDigits_ne hpos h
    rw [hd h0, Decimal.digitChars, h0]
    rfl

theorem readNumber?_integral (negative : Bool) (hd : Canonical d) (hr : NumberEnds rest) :
    readNumber? ((if negative then ['-'] else []) ++
        (d.digitChars ++ List.replicate d.exponent.toNat '0' ++ ('.' :: (['0'] ++ rest)))) =
      some (ofNumeral
        ⟨negative, d.digitChars ++ List.replicate d.exponent.toNat '0', some ['0'], none⟩, rest) := by
  have hzero : ∀ c ∈ ['0'], c.isDigit := by simp
  exact readNumber?_eq negative hd.whole_append_zeros (Numeral.ends_point _)
    (Numeral.scanFraction_point hzero hr.ends) (by simp) hr.scanExponent?

theorem readNumber?_mixed (negative : Bool) (hd : Canonical d) (he : d.exponent < 0)
    (hp : 0 < d.pointPlace) (hr : NumberEnds rest) :
    readNumber? ((if negative then ['-'] else []) ++ (d.digitChars.take d.pointPlace.toNat ++
        ('.' :: (d.digitChars.drop d.pointPlace.toNat ++ rest)))) =
      some (ofNumeral ⟨negative, d.digitChars.take d.pointPlace.toNat,
        some (d.digitChars.drop d.pointPlace.toNat), none⟩, rest) := by
  have hlen : d.pointPlace = d.digitChars.length + d.exponent := rfl
  have hpos : 0 < d.pointPlace.toNat := by omega
  have hw : Whole (d.digitChars.take d.pointPlace.toNat) := by
    constructor
    · intro hnil
      have hdigits := length_digitChars_pos d
      have hl := congrArg List.length hnil
      rw [List.length_take, List.length_nil] at hl
      omega
    · intro c hc
      exact isDigit_of_mem_digitChars (List.mem_of_mem_take hc)
    · intro h0
      rw [List.head?_take, if_neg (by omega)] at h0
      exact absurd h0 (hd.head_ne (Int.ne_of_lt he))
  have hfraction : ∀ c ∈ d.digitChars.drop d.pointPlace.toNat, c.isDigit := by
    intro c hc
    exact isDigit_of_mem_digitChars (List.mem_of_mem_drop hc)
  refine readNumber?_eq negative hw (Numeral.ends_point _)
    (Numeral.scanFraction_point hfraction hr.ends) ?_ hr.scanExponent?
  intro hnil
  have hl := congrArg List.length (Option.some.inj hnil)
  rw [List.length_drop, List.length_nil] at hl
  omega

theorem readNumber?_fractional (d : Decimal) (negative : Bool) (hr : NumberEnds rest) :
    readNumber? ((if negative then ['-'] else []) ++ (['0'] ++
        ('.' :: (List.replicate d.pointPlace.natAbs '0' ++ d.digitChars ++ rest)))) =
      some (ofNumeral ⟨negative, ['0'],
        some (List.replicate d.pointPlace.natAbs '0' ++ d.digitChars), none⟩, rest) := by
  have hdigits : ∀ c ∈ List.replicate d.pointPlace.natAbs '0' ++ d.digitChars, c.isDigit := by
    intro c hc
    rcases List.mem_append.1 hc with hc | hc
    · rw [List.eq_of_mem_replicate hc]
      rfl
    · exact isDigit_of_mem_digitChars hc
  refine readNumber?_eq negative (whole_toDigits 0) (Numeral.ends_point _)
    (Numeral.scanFraction_point hdigits hr.ends) ?_ hr.scanExponent?
  intro hnil
  exact Nat.toDigits_ne_nil (List.append_eq_nil_iff.1 (Option.some.inj hnil)).2

def mark (exponent : Int) : List Char :=
  'e' :: (if 0 ≤ exponent then ['+'] else []) ++ (toString exponent).toList

theorem scanExponent?_mark_append (exponent : Int) (hr : NumberEnds rest) :
    Numeral.scanExponent? (mark exponent ++ rest) = some (some exponent, rest) := by
  have h := scanExponent?_mark exponent hr.ends
  rwa [← List.append_assoc, ← List.cons_append, ← List.cons_append] at h

theorem ends_mark_append (exponent : Int) (rest : List Char) :
    Numeral.Ends (mark exponent ++ rest) := Numeral.ends_cons rfl

theorem scientific_of_one {first : Char} (h : d.digitChars = [first]) :
    d.scientific = [first] ++ mark (d.pointPlace - 1) := by
  unfold Decimal.scientific
  rw [h]
  rfl

theorem scientific_of_more {first second : Char} {more : List Char}
    (h : d.digitChars = first :: second :: more) :
    d.scientific = [first] ++ ('.' :: (second :: more ++ mark (d.pointPlace - 1))) := by
  unfold Decimal.scientific
  rw [h]
  rfl

theorem readNumber?_scientific (negative : Bool) (hne : d.digitChars.head? ≠ some '0')
    (hr : NumberEnds rest) :
    readNumber? ((if negative then ['-'] else []) ++ (d.scientific ++ rest)) =
      some (ofNumeral (d.scientificNumeral negative), rest) := by
  have hdigits : ∀ c ∈ d.digitChars, c.isDigit := fun c => isDigit_of_mem_digitChars
  have hmark := scanExponent?_mark_append (d.pointPlace - 1) hr
  cases hds : d.digitChars with
  | nil => exact absurd hds Nat.toDigits_ne_nil
  | cons first tail =>
    rw [hds] at hne hdigits
    have hw : Whole [first] := by
      refine ⟨List.cons_ne_nil _ _, ?_, fun h0 => absurd h0 hne⟩
      intro c hc
      rw [List.mem_singleton.1 hc]
      exact hdigits first (.head _)
    cases tail with
    | nil =>
      rw [scientific_of_one hds, List.append_assoc, Decimal.scientificNumeral, hds]
      exact readNumber?_eq negative hw (ends_mark_append _ rest) rfl (by simp) hmark
    | cons second more =>
      have hassoc : d.scientific ++ rest =
          [first] ++ ('.' :: (second :: more ++ (mark (d.pointPlace - 1) ++ rest))) := by
        rw [scientific_of_more hds]
        simp
      rw [hassoc, Decimal.scientificNumeral, hds]
      exact readNumber?_eq negative hw (Numeral.ends_point _)
        (Numeral.scanFraction_point (fun c hc => hdigits c (.tail _ hc)) (ends_mark_append _ rest))
        (by simp) hmark

theorem readNumber?_writeMagnitude (negative : Bool) (hd : Canonical d) (hr : NumberEnds rest) :
    readNumber? ((if negative then ['-'] else []) ++ (writeMagnitude d ++ rest)) =
      some (ofNumeral (d.numeral negative), rest) := by
  have hlen : d.pointPlace = d.digitChars.length + d.exponent := rfl
  have hpos := length_digitChars_pos d
  rw [writeMagnitude, Decimal.numeral]
  by_cases hp : -5 < d.pointPlace ∧ d.pointPlace ≤ 16
  · rw [if_pos hp, if_pos hp, Decimal.positional]
    by_cases he : 0 ≤ d.exponent
    · rw [if_pos he, if_pos he, if_pos he]
      simpa using readNumber?_integral negative hd hr
    · have he : d.exponent < 0 := Int.lt_of_not_ge he
      rw [if_neg (Int.not_le.2 he), if_neg (Int.not_le.2 he), if_neg (Int.not_le.2 he),
        List.append_nil]
      by_cases hpp : 0 < d.pointPlace
      · rw [if_pos hpp, if_pos hpp]
        simpa using readNumber?_mixed negative hd he hpp hr
      · rw [if_neg hpp, if_neg hpp]
        simpa using readNumber?_fractional d negative hr
  · rw [if_neg hp, if_neg hp]
    refine readNumber?_scientific negative ?_ hr
    intro h0
    apply hp
    have hz : d.digits = 0 := Nat.eq_zero_of_not_pos fun hpos => head?_toDigits_ne hpos h0
    have hone : d.digitChars.length = 1 := by
      rw [Decimal.digitChars, hz]
      rfl
    have hexp := hd hz
    omega

end

theorem canonical_shortest (tie : Tie) (rank : Fin finiteMagnitudes) :
    Canonical (Binary64.shortest tie rank) := by
  intro h
  have hs := Binary64.ofDecimal_shortest_finite tie rank false
  rw [h, Binary64.ofDecimal, if_pos rfl] at hs
  cases hs
  rfl

theorem ofFloat_of_isFinite {f : Binary64} (h : f.isFinite) : ofFloat f = scalar (.float f) :=
  if_pos h

theorem readNumber?_finite (negative : Bool) (rank : Fin finiteMagnitudes) {rest : List Char}
    (hr : NumberEnds rest) :
    readNumber? (writeScalar (.float (.finite negative rank)) ++ rest) =
      some (.scalar (.float (Binary64.finite negative rank).reread), rest) := by
  have hparts := numeral_parts negative (Binary64.shortest .even rank)
  have hfinite := Binary64.isFinite_reread (f := .finite negative rank) rfl
  rw [writeScalar, List.append_assoc,
    readNumber?_writeMagnitude negative (canonical_shortest .even rank) hr, ofNumeral,
    if_neg fun h => hparts ⟨h.1, h.2.1⟩]
  rw [Binary64.reread] at hfinite ⊢
  rw [ofFloat_of_isFinite hfinite]

end DocBase.Json
