import DocBase.Numeral
import DocBase.Proofs.Text.Run
import Mathlib.Algebra.Group.Nat.Defs
import Mathlib.Data.List.TakeDrop

namespace DocBase

theorem digitsValue_eq (cs : List Char) : digitsValue cs = Nat.ofDigitChars 10 cs 0 := rfl

theorem digitsValue_toDigits (n : Nat) : digitsValue (Nat.toDigits 10 n) = n :=
  Nat.ofDigitChars_toDigits (by decide) (by decide)

theorem digitsValue_append_zeros (cs : List Char) (k : Nat) :
    digitsValue (cs ++ List.replicate k '0') = digitsValue cs * 10 ^ k := by
  rw [digitsValue_eq, Nat.ofDigitChars_append, Nat.ofDigitChars_replicate_zero, Nat.mul_comm]
  rfl

theorem digitsValue_zeros_append (k : Nat) (cs : List Char) :
    digitsValue (List.replicate k '0' ++ cs) = digitsValue cs := by
  rw [digitsValue_eq, Nat.ofDigitChars_append, Nat.ofDigitChars_replicate_zero, Nat.mul_zero]
  rfl

theorem digitsValue_lt {cs : List Char} (h : ∀ c ∈ cs, c.isDigit) :
    digitsValue cs < 10 ^ cs.length := by
  induction cs with
  | nil => exact Nat.one_pos
  | cons c cs ih =>
    have hc : c.toNat ≤ 57 := (Char.isDigit_iff_toNat.1 (h c (.head _))).2
    have hrest := ih fun d hd => h d (.tail _ hd)
    have hzero : '0'.toNat = 48 := rfl
    have hdigit : c.toNat - '0'.toNat ≤ 9 := by omega
    have hmul := Nat.mul_le_mul_left (10 ^ cs.length) hdigit
    rw [digitsValue_eq, Nat.ofDigitChars_cons, Nat.ofDigitChars_eq_ofDigitChars_zero,
      List.length_cons, Nat.pow_succ, ← digitsValue_eq, Nat.mul_zero, Nat.zero_add]
    omega

theorem isDigit_of_mem_toDigits {n : Nat} {c : Char} (h : c ∈ Nat.toDigits 10 n) : c.isDigit :=
  Nat.isDigit_of_mem_toDigits (by decide) (by decide) h

theorem head?_toDigits_ne {n : Nat} (h : 0 < n) : (Nat.toDigits 10 n).head? ≠ some '0' := by
  induction n using Nat.strongRecOn with
  | ind n ih =>
    by_cases hn : n < 10
    · rw [Nat.toDigits_of_lt_base hn]
      intro h0
      exact Nat.pos_iff_ne_zero.1 h (Nat.digitChar_eq_zero.1 (Option.some.inj h0))
    · have hd := ih (n / 10) (by omega) (by omega)
      have hs : (Nat.toDigits 10 (n / 10)).head?.isSome :=
        List.isSome_head?.2 Nat.toDigits_ne_nil
      rwa [Nat.toDigits_of_base_le (by decide) (Nat.le_of_not_lt hn), List.head?_append,
        Option.or_of_isSome hs]

theorem toList_toString_int (i : Int) : (toString i).toList =
    (if i < 0 then ['-'] else []) ++ Nat.toDigits 10 i.natAbs := by
  cases i with
  | ofNat n => exact Nat.toList_repr
  | negSucc n =>
    have hl : (toString (Int.negSucc n)).toList = '-' :: (Nat.repr (n + 1)).toList :=
      String.toList_append
    rw [hl, Nat.toList_repr, if_pos (Int.negSucc_lt_zero n)]
    rfl

theorem hexDigit?_digitChar {n : Nat} (h : n < 16) : hexDigit? n.digitChar = some n := by
  have hall : ∀ n < 16, hexDigit? (Nat.digitChar n) = some n := by decide
  exact hall n h

def hexValue (cs : List Char) : Nat := cs.foldl (fun n c => 16 * n + (hexDigit? c).getD 0) 0

theorem hexValue_append_digit (cs : List Char) {d : Nat} (h : d < 16) :
    hexValue (cs ++ [d.digitChar]) = 16 * hexValue cs + d := by
  rw [hexValue, List.foldl_append, List.foldl_cons, hexDigit?_digitChar h]
  rfl

theorem hexValue_toDigits (n : Nat) : hexValue (Nat.toDigits 16 n) = n := by
  induction n using Nat.strongRecOn with
  | ind n ih =>
    by_cases h : n < 16
    · rw [Nat.toDigits_of_lt_base h]
      exact (hexValue_append_digit [] h).trans (Nat.zero_add n)
    · rw [Nat.toDigits_of_base_le (by decide) (Nat.le_of_not_lt h),
        hexValue_append_digit _ (Nat.mod_lt n (by decide)), ih (n / 16) (by omega)]
      omega

namespace Numeral

def Ends (rest : List Char) : Prop := ∀ c ∈ rest.head?, c.isDigit = false

theorem ends_nil : Ends [] := by
  intro _ hc
  cases hc

theorem ends_cons {c : Char} {rest : List Char} (h : c.isDigit = false) : Ends (c :: rest) := by
  intro d hd
  cases hd
  exact h

theorem ends_point (rest : List Char) : Ends ('.' :: rest) := ends_cons rfl

theorem span_digits {digits rest : List Char} (hd : ∀ c ∈ digits, c.isDigit)
    (hr : Ends rest) : (digits ++ rest).span Char.isDigit = (digits, rest) := by
  rw [List.span_eq_takeWhile_dropWhile, Text.takeWhile_append_of_stops hd hr,
    Text.dropWhile_append_of_stops hd hr]

theorem scanSign_digit {c : Char} (hc : c.isDigit) (rest : List Char) :
    scanSign (c :: rest) = (false, c :: rest) := by
  unfold scanSign
  split
  · next h =>
    cases h
    cases hc
  · next h =>
    cases h
    cases hc
  · rfl

theorem scanSign_digits (negative : Bool) {digits : List Char} (hne : digits ≠ [])
    (hd : ∀ c ∈ digits, c.isDigit) (rest : List Char) :
    scanSign ((if negative then ['-'] else []) ++ (digits ++ rest)) =
      (negative, digits ++ rest) := by
  obtain ⟨c, cs, rfl⟩ := List.exists_cons_of_ne_nil hne
  cases negative with
  | true => rfl
  | false => exact scanSign_digit (hd c (.head _)) _

theorem scanFraction_nil : scanFraction [] = (none, []) := rfl

theorem scanFraction_point {digits rest : List Char} (hd : ∀ c ∈ digits, c.isDigit)
    (hr : Ends rest) : scanFraction ('.' :: (digits ++ rest)) = (some digits, rest) := by
  rw [scanFraction, span_digits hd hr]

theorem ofText?_integer (negative : Bool) {digits : List Char} (hne : digits ≠ [])
    (hd : ∀ c ∈ digits, c.isDigit) :
    ofText? ((if negative then ['-'] else []) ++ digits) =
      some ⟨negative, digits, none, none⟩ := by
  have hs := scanSign_digits negative hne hd []
  have hp := span_digits hd ends_nil
  rw [List.append_nil] at hs hp
  simp only [ofText?, hs, hp, scanFraction_nil]
  simp [scanExponent?, hne]

theorem ofText?_float (negative : Bool) {whole fraction : List Char} (hne : whole ≠ [])
    (hw : ∀ c ∈ whole, c.isDigit) (hf : ∀ c ∈ fraction, c.isDigit) :
    ofText? ((if negative then ['-'] else []) ++ (whole ++ '.' :: fraction)) =
      some ⟨negative, whole, some fraction, none⟩ := by
  have hs := scanSign_digits negative hne hw ('.' :: fraction)
  have hp := span_digits hw (ends_point fraction)
  have hq := scanFraction_point hf ends_nil
  rw [List.append_nil] at hq
  simp only [ofText?, hs, hp, hq]
  simp [scanExponent?, hne]

end Numeral

end DocBase
