import DocBase.Proofs.Binary64.Shortest
import DocBase.Value.Comparison

namespace DocBase

namespace Binary64

theorem ofRank_ne_nan (negative : Bool) (rank : Nat) : ofRank negative rank ≠ nan := by
  rw [ofRank]
  split <;> simp

theorem ofInt_ne_nan (i : Int) : ofInt i ≠ nan := ofRank_ne_nan _ _

theorem ofDecimal_ne_nan (negative : Bool) (digits : Nat) (exponent : Int) :
    ofDecimal negative digits exponent ≠ nan := by
  obtain ⟨rank, h⟩ := ofDecimal_eq_ofRank digits exponent
  rw [h]
  exact ofRank_ne_nan negative rank

theorem ofInt_signed (negative : Bool) {n : Nat} (hn : n ≠ 0) :
    ofInt (if negative then -(n : Int) else n) = ofDecimal negative n 0 := by
  have hd : ofDecimal negative n 0 = ofQuotient negative n 1 := by
    simp [ofDecimal, hn]
  rw [hd, ofInt]
  cases negative with
  | false =>
    have h : ¬ (n : Int) < 0 := by omega
    simp [h]
  | true => simp [Nat.pos_of_ne_zero hn]

theorem exists_key_eq {f : Binary64} (h : f ≠ nan) : ∃ k, f.key = some k := by
  cases f with
  | nan => exact absurd rfl h
  | infinite negative => exact ⟨_, rfl⟩
  | finite negative rank => exact ⟨_, rfl⟩

end Binary64

namespace Value

/-- The values that have a place in every order: all but NaN. -/
def Ordered (v : Value) : Prop := v ≠ .float .nan

theorem ofInt_toInt (i : Int64) : ofInt i.toInt = integer i := by
  rw [ofInt, if_pos ⟨Int64.minValue_le_toInt i, Int64.toInt_le i⟩, Int64.ofInt_toInt]

def Fits (i : Int) : Prop := -9223372036854775808 ≤ i ∧ i ≤ 9223372036854775807

instance (i : Int) : Decidable (Fits i) := inferInstanceAs (Decidable (_ ∧ _))

theorem ofInt_of_fits {i : Int} (h : Fits i) :
    ∃ n : Int64, n.toInt = i ∧ ofInt i = integer n := by
  refine ⟨.ofInt i, Int64.toInt_ofInt_of_le h.1 (Int.lt_of_le_sub_one h.2), ?_⟩
  rw [ofInt, Int64.toInt_minValue, Int64.toInt_maxValue]
  exact if_pos h

theorem ofInt_of_not_fits {i : Int} (h : ¬ Fits i) : ofInt i = float (.ofInt i) := by
  rw [ofInt, Int64.toInt_minValue, Int64.toInt_maxValue]
  exact if_neg h

theorem ordered_ofInt (i : Int) : (ofInt i).Ordered := by
  rw [Ordered, ofInt]
  split
  · exact nofun
  · intro h
    exact Binary64.ofInt_ne_nan i (float.inj h)

theorem Ordered.stored {v : Value} (h : v.Ordered) : v.stored.Ordered := by
  cases v with
  | float f =>
    simp only [Value.stored]
    split
    · split
      · exact nofun
      · exact h
    · exact h
  | _ => exact nofun

theorem Ordered.toNumber_ne_nan {v : Value} (h : v.Ordered) (ht : v.isText = false) :
    v.toNumber ≠ .nan := by
  cases v with
  | null => exact Binary64.ofRank_ne_nan false 0
  | boolean b => exact Binary64.ofInt_ne_nan _
  | integer i => exact Binary64.ofInt_ne_nan _
  | float f =>
    intro hf
    exact h (congrArg float hf)
  | text s => cases ht

/-- No two values are left without an order: texts have that of their characters, and all else that
of numbers. -/
theorem Ordered.compare?_isSome {v w : Value} (hv : v.Ordered) (hw : w.Ordered)
    (tv : v.isText = false) (tw : w.isText = false) :
    (v.toNumber.compare? w.toNumber).isSome := by
  obtain ⟨i, hi⟩ := Binary64.exists_key_eq (hv.toNumber_ne_nan tv)
  obtain ⟨j, hj⟩ := Binary64.exists_key_eq (hw.toNumber_ne_nan tw)
  rw [Binary64.compare?, hi, hj]
  rfl

/-- Where a field stands among all others: by class, by number and by characters. -/
def place : Option Value → Nat × Int × String
  | none => (2, 0, "")
  | some (text s) => (1, 0, s)
  | some v => (0, v.toNumber.key.getD 0, "")

def comparePlaces : Nat × Int × String → Nat × Int × String → Ordering :=
  compareLex (compareOn fun p => p.1)
    (compareLex (compareOn fun p => p.2.1) (compareOn fun p => p.2.2))

theorem place_of_not_text {v : Value} (ht : v.isText = false) :
    place (some v) = (0, v.toNumber.key.getD 0, "") := by
  cases v with
  | text s => cases ht
  | _ => rfl

theorem compareForSort_numbers {v w : Value} (tv : v.isText = false) (tw : w.isText = false) :
    compareForSort (some v) (some w) = (v.toNumber.compare? w.toNumber).getD .eq := by
  cases v with
  | text s => cases tv
  | _ =>
    cases w with
    | text s => cases tw
    | _ => rfl

theorem compareForSort_of_not_text {v w : Value} (hv : v.Ordered) (hw : w.Ordered)
    (tv : v.isText = false) (tw : w.isText = false) :
    compareForSort (some v) (some w) = comparePlaces (place (some v)) (place (some w)) := by
  obtain ⟨i, hi⟩ := Binary64.exists_key_eq (hv.toNumber_ne_nan tv)
  obtain ⟨j, hj⟩ := Binary64.exists_key_eq (hw.toNumber_ne_nan tw)
  rw [compareForSort_numbers tv tw, Binary64.compare?, place_of_not_text tv, place_of_not_text tw,
    hi, hj]
  simp [comparePlaces, compareLex, compareOn]

theorem compareForSort_text (s t : String) :
    compareForSort (some (text s)) (some (text t)) =
      comparePlaces (place (some (text s))) (place (some (text t))) := by
  simp [compareForSort, comparePlaces, place, compareLex, compareOn]

/-- The order of sort keys is that of places. -/
theorem compareForSort_eq {a b : Option Value} (ha : ∀ v ∈ a, v.Ordered) (hb : ∀ v ∈ b, v.Ordered) :
    compareForSort a b = comparePlaces (place a) (place b) := by
  cases a with
  | none =>
    cases b with
    | none => rfl
    | some w => cases w <;> rfl
  | some v =>
    cases b with
    | none => cases v <;> rfl
    | some w =>
      cases tv : v.isText with
      | false =>
        cases tw : w.isText with
        | false => exact compareForSort_of_not_text (ha v rfl) (hb w rfl) tv tw
        | true =>
          rw [place_of_not_text tv]
          cases w with
          | text t =>
            cases v with
            | text s => cases tv
            | _ => rfl
          | _ => cases tw
      | true =>
        cases v with
        | text s =>
          cases w with
          | text t => exact compareForSort_text s t
          | _ => rfl
        | _ => cases tv

end Value

end DocBase
