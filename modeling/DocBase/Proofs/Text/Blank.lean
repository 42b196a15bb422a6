import DocBase.Proofs.Text.Run
import DocBase.Text.Blank

namespace DocBase.Text

theorem mem_of_inRanges {ranges : List (Nat × Nat)} {n : Nat} (h : inRanges ranges n) :
    n ∈ ranges.flatMap fun (low, high) => List.range' low (high + 1 - low) := by
  obtain ⟨⟨low, high⟩, hm, hn⟩ := List.any_eq_true.1 h
  obtain ⟨hl, hh⟩ := Bool.and_eq_true_iff.1 hn
  have hlow : low ≤ n := of_decide_eq_true hl
  have hhigh : n ≤ high := of_decide_eq_true hh
  exact List.mem_flatMap.2 ⟨_, hm, List.mem_range'_1.2 (by omega)⟩

theorem eq_false_of_isBlank {p : Char → Bool}
    (hp : ∀ n ∈ blankRanges.flatMap fun (low, high) => List.range' low (high + 1 - low),
      p (.ofNat n) = false) {c : Char} (h : isBlank c) : p c = false := by
  rw [← Char.ofNat_toNat c]
  exact hp _ (mem_of_inRanges h)

theorem isDigit_of_isBlank {c : Char} (h : isBlank c) : c.isDigit = false :=
  eq_false_of_isBlank (by decide) h

theorem ne_of_isBlank {c d : Char} (h : isBlank c) (hd : isBlank d = false) : c ≠ d := by
  rintro rfl
  exact Bool.false_ne_true (hd.symm.trans h)

def AllBlank (cs : List Char) : Prop := ∀ c ∈ cs, isBlank c

theorem allBlank_nil : AllBlank [] := fun _ hc => absurd hc List.not_mem_nil

theorem AllBlank.not_mem {cs : List Char} {c : Char} (h : AllBlank cs)
    (hc : isBlank c = false) : c ∉ cs := by
  intro hm
  exact ne_of_isBlank (h c hm) hc rfl

def Framed (core cs : List Char) : Prop :=
  ∃ front back, AllBlank front ∧ AllBlank back ∧ cs = front ++ (core ++ back)

theorem framed_trim (cs : List Char) : Framed (trim cs) cs := by
  refine ⟨cs.takeWhile isBlank, ((cs.dropWhile isBlank).reverse.takeWhile isBlank).reverse, ?_, ?_,
    ?_⟩
  · exact fun c hc => of_mem_takeWhile hc
  · exact fun c hc => of_mem_takeWhile (List.mem_reverse.1 hc)
  · rw [trim, ← List.reverse_append, List.takeWhile_append_dropWhile, List.reverse_reverse,
      List.takeWhile_append_dropWhile]

theorem Framed.trim_eq {core cs : List Char} (h : Framed core cs)
    (hc : ∀ c ∈ core, isBlank c = false) : trim cs = core := by
  obtain ⟨front, back, hf, hb, rfl⟩ := h
  cases core with
  | nil =>
    have hblank : AllBlank (front ++ back) := fun c hm => (List.mem_append.1 hm).elim (hf c) (hb c)
    have hnone : (front ++ back ++ []).dropWhile isBlank = [] :=
      dropWhile_append_of_stops hblank nofun
    rw [List.append_nil] at hnone
    rw [trim, List.nil_append, hnone]
    rfl
  | cons d core =>
    have hback : AllBlank back.reverse := fun c hm => hb c (List.mem_reverse.1 hm)
    have hlast : ∀ c ∈ (d :: core).reverse.head?, isBlank c = false :=
      fun c hm => hc c (List.mem_reverse.1 (List.mem_of_mem_head? hm))
    have hfirst : ∀ c ∈ (d :: core ++ back).head?, isBlank c = false := by
      intro c hm
      cases hm
      exact hc d (.head _)
    rw [trim, dropWhile_append_of_stops hf hfirst, List.reverse_append,
      dropWhile_append_of_stops hback hlast, List.reverse_reverse]

end DocBase.Text
