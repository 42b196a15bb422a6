import DocBase.Text.Letter
import DocBase.Text.Uppercase

namespace DocBase.Text

/-- The capital letters of ASCII, the only ones with another lower case. -/
def capitalLetters : List Char := "ABCDEFGHIJKLMNOPQRSTUVWXYZ".toList

theorem toLower_eq_self_or_mem (c : Char) : c.toLower = c ∨ c ∈ capitalLetters := by
  unfold Char.toLower
  split
  · next h =>
    right
    have hall : ∀ n ≤ 90, 65 ≤ n → Char.ofNat n ∈ capitalLetters := by decide
    obtain ⟨hl, hh⟩ := h
    rw [← Char.ofNat_toNat c]
    exact hall _ (UInt32.le_iff_toNat_le.1 hh) (UInt32.le_iff_toNat_le.1 hl)
  · exact .inl rfl

/-- What does not tell capital letters from their lower case tells no character from it. -/
theorem apply_toLower {α : Type} {f : Char → α}
    (hf : capitalLetters.map (fun c => f c.toLower) = capitalLetters.map f) (c : Char) :
    f c.toLower = f c := by
  rcases toLower_eq_self_or_mem c with h | h
  · rw [h]
  · exact List.map_inj_left.1 hf c h

theorem isAlpha_toLower (c : Char) : c.toLower.isAlpha = c.isAlpha :=
  apply_toLower (f := Char.isAlpha) (by decide) c

theorem isLetter_toLower (c : Char) : isLetter c.toLower = isLetter c :=
  apply_toLower (by decide) c

theorem isDigit_toLower (c : Char) : c.toLower.isDigit = c.isDigit :=
  apply_toLower (f := Char.isDigit) (by decide) c

theorem capitals_toLower (c : Char) : capitals c.toLower = capitals c :=
  apply_toLower (by decide) c

theorem toLower_of_not_isAlpha {c : Char} (h : c.isAlpha = false) : c.toLower = c := by
  have hall : capitalLetters.all Char.isAlpha := by decide
  rcases toLower_eq_self_or_mem c with he | hm
  · exact he
  · exact absurd (List.all_eq_true.1 hall c hm) (Bool.eq_false_iff.1 h)

theorem eq_of_toLower_eq {c d : Char} (h : c.toLower = d.toLower) (hd : d.isAlpha = false) :
    c = d := by
  have hc : c.isAlpha = false := by
    rw [← isAlpha_toLower, h, isAlpha_toLower, hd]
  rw [← toLower_of_not_isAlpha hc, h, toLower_of_not_isAlpha hd]

theorem capitalize_eq {a b : String} (h : equalsIgnoringCase a b) :
    capitalize a = capitalize b := by
  have hl : a.toList.map Char.toLower = b.toList.map Char.toLower := eq_of_beq h
  have hc (cs : List Char) : cs.flatMap capitals = (cs.map Char.toLower).flatMap capitals := by
    rw [List.flatMap_map]
    simp only [capitals_toLower]
  rw [capitalize, capitalize, hc, hl, ← hc]

/-- The letters outside ASCII whose capitals lie in ASCII. -/
def foreignLetters : List Char := ['ß', 'ı', 'ſ', 'ﬀ', 'ﬁ', 'ﬂ', 'ﬃ', 'ﬄ', 'ﬅ', 'ﬆ']

/-- What can be written for a word in capitals: its letters in either case, and letters outside ASCII
for the capitals that they have. -/
inductive Respells : List Char → List Char → Prop
  | nil : Respells [] []
  | letter {c d : Char} {cs ds : List Char} : c.toLower = d.toLower → Respells cs ds →
    Respells (c :: cs) (d :: ds)
  | foreign {c : Char} {cs ds : List Char} : c ∈ foreignLetters → Respells cs ds →
    Respells (c :: cs) (capitals c ++ ds)

theorem toLower_toUpper (c : Char) : c.toUpper.toLower = c.toLower := by
  by_cases h : 97 ≤ c.toNat ∧ c.toNat ≤ 122
  · have hall : ∀ n ≤ 122, 97 ≤ n → (Char.ofNat n).toUpper.toLower = (Char.ofNat n).toLower := by
      decide
    rw [← Char.ofNat_toNat c]
    exact hall _ h.2 h.1
  · have hc : c.toUpper = c := by
      unfold Char.toUpper
      split
      · next hl =>
        exact absurd ⟨UInt32.le_iff_toNat_le.1 hl.1, UInt32.le_iff_toNat_le.1 hl.2⟩ h
      · rfl
    rw [hc]

theorem capitals_of_not_foreign {c : Char} (h : c ∉ foreignLetters) :
    capitals c = [c.toUpper] := by
  unfold capitals
  split
  case h_11 => rfl
  all_goals exact absurd (by decide) h

theorem toLower_of_foreign {c d : Char} (hc : c ∈ foreignLetters) (h : c.toLower = d.toLower) :
    d = c := by
  have hall : foreignLetters.all fun c => c.isAlpha = false := by decide
  exact eq_of_toLower_eq h.symm (of_decide_eq_true (List.all_eq_true.1 hall c hc))

def IsCapital (cs : List Char) : Prop := ∀ c ∈ cs, capitals c = [c]

instance (cs : List Char) : Decidable (IsCapital cs) :=
  List.decidableBAll (fun c => capitals c = [c]) cs

variable {cs ds : List Char}

theorem isCapital_cons {d : Char} : IsCapital (d :: ds) ↔ capitals d = [d] ∧ IsCapital ds :=
  List.forall_mem_cons

theorem IsCapital.right (h : IsCapital (cs ++ ds)) : IsCapital ds :=
  (List.forall_mem_append.1 h).2

/-- A word in capitals is respelled by what has its capitals. -/
theorem respells_iff (hd : IsCapital ds) :
    Respells cs ds ↔ cs.flatMap capitals = ds := by
  constructor
  · intro h
    induction h with
    | nil => rfl
    | @letter c d cs ds hc _ ih =>
      rw [isCapital_cons] at hd
      rw [List.flatMap_cons, ih hd.2, ← capitals_toLower, hc, capitals_toLower, hd.1]
      rfl
    | foreign _ _ ih => rw [List.flatMap_cons, ih hd.right]
  · rintro rfl
    induction cs with
    | nil => exact .nil
    | cons c cs ih =>
      rw [List.flatMap_cons] at hd ⊢
      have hrest := ih hd.right
      by_cases hc : c ∈ foreignLetters
      · exact .foreign hc hrest
      · rw [capitals_of_not_foreign hc]
        exact .letter (toLower_toUpper c).symm hrest

theorem map_toLower_eq_iff (hd : IsCapital ds) :
    cs.map Char.toLower = ds.map Char.toLower ↔
      Respells cs ds ∧ ∀ c ∈ cs, c ∉ foreignLetters := by
  constructor
  · intro h
    induction cs generalizing ds with
    | nil =>
      rw [List.map_eq_nil_iff.1 h.symm]
      exact ⟨.nil, nofun⟩
    | cons c cs ih =>
      obtain ⟨d, ds, rfl, hc, hs⟩ := List.map_eq_cons_iff.1 h.symm
      rw [isCapital_cons] at hd
      rw [List.forall_mem_cons]
      obtain ⟨hr, hf⟩ := ih hd.2 hs.symm
      refine ⟨.letter hc.symm hr, ?_, hf⟩
      intro hm
      have hall : foreignLetters.all fun c => capitals c ≠ [c] := by decide
      rw [toLower_of_foreign hm hc.symm] at hd
      exact of_decide_eq_true (List.all_eq_true.1 hall c hm) hd.1
  · rintro ⟨hr, hf⟩
    induction hr with
    | nil => rfl
    | letter hc _ ih =>
      rw [isCapital_cons] at hd
      rw [List.forall_mem_cons] at hf
      rw [List.map_cons, List.map_cons, hc, ih hd.2 hf.2]
    | foreign hc _ _ => exact absurd hc (List.forall_mem_cons.1 hf).1

end DocBase.Text
