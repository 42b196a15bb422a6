import DocBase.Proofs.Engine.Transition
import DocBase.Proofs.Record
import Mathlib.Data.List.Forall2
import Mathlib.Logic.Equiv.Basic
import Mathlib.Logic.Relator

namespace DocBase

namespace IdSource

/-- The next identifiers, as many as asked for. -/
def following (ids : IdSource) : Nat → List RecordId
  | 0 => []
  | n + 1 => ids.idAt ids.count :: (ids.skip 1).following n

theorem length_following (ids : IdSource) (n : Nat) : (ids.following n).length = n := by
  induction n generalizing ids with
  | zero => rfl
  | succ n ih => rw [following, List.length_cons, ih]

theorem following_add (ids : IdSource) (m n : Nat) :
    ids.following (m + n) = ids.following m ++ (ids.skip m).following n := by
  induction m generalizing ids with
  | zero => rw [Nat.zero_add]; rfl
  | succ m ih =>
    have hskip : (ids.skip 1).skip m = ids.skip (m + 1) := by
      simp only [skip, Nat.add_assoc, Nat.add_comm 1 m]
    rw [Nat.add_right_comm, following, following, ih, hskip]
    rfl

theorem exists_of_mem_following {ids : IdSource} {n : Nat} {id : RecordId}
    (h : id ∈ ids.following n) : ∃ k, ids.count ≤ k ∧ k < ids.count + n ∧ id = ids.idAt k := by
  induction n generalizing ids with
  | zero => cases h
  | succ n ih =>
    rcases List.mem_cons.1 h with rfl | h
    · exact ⟨ids.count, Nat.le_refl _, by omega, rfl⟩
    · obtain ⟨k, hk, hlt, rfl⟩ := ih h
      have hcount : (ids.skip 1).count = ids.count + 1 := rfl
      exact ⟨k, by omega, by omega, rfl⟩

theorem nodup_following (ids : IdSource) (n : Nat) : (ids.following n).Nodup := by
  induction n generalizing ids with
  | zero => exact .nil
  | succ n ih =>
    refine List.nodup_cons.2 ⟨?_, ih _⟩
    intro h
    obtain ⟨k, hk, -, he⟩ := exists_of_mem_following h
    have hcount : ids.count + 1 ≤ k := hk
    have hsame : ids.count = k := idAt_inj he
    omega

end IdSource

namespace Engine

variable {σ : Type} [Store σ]

theorem exists_ids_execute (store : σ) (ids : IdSource) (text : String) :
    ∃ n, (execute store ids text).ids = ids.skip n := by
  cases hp : Sql.parse text with
  | error e =>
    rw [execute_of_parse_error hp]
    exact ⟨0, rfl⟩
  | ok s =>
    have ht : Transition store ids s (execute store ids text) := execute_transition hp
    generalize execute store ids text = o at ht
    cases ht with
    | refused e warnings n => exact ⟨n, rfl⟩
    | rewritten warnings h =>
      cases h with
      | insert => exact ⟨_, rfl⟩
      | update => exact ⟨0, rfl⟩
      | delete => exact ⟨0, rfl⟩
    | selected | created | halfCreated | dropped | halfDropped | undeclaredDropped =>
      exact ⟨0, rfl⟩

end Engine

/-- Identifiers that stand for each other, and those at the same places of two lists. -/
def Along (Q : RecordId → RecordId → Prop) (left right : List RecordId) (a b : RecordId) : Prop :=
  Q a b ∨ (a, b) ∈ left.zip right

/-- The identifiers with a property, each of which stands for itself. -/
def Known (K : RecordId → Prop) (a b : RecordId) : Prop := a = b ∧ K a

section
variable {Q : RecordId → RecordId → Prop} {left right left' right' : List RecordId}

theorem along_append (h : left.length = right.length) :
    Along (Along Q left right) left' right' = Along Q (left ++ left') (right ++ right') := by
  funext a b
  rw [Along, Along, Along, List.zip_append h, List.mem_append, or_assoc]

/-- Identifiers that stand for each other one to one did so before more of them were given out. -/
theorem biUnique_of_append (h : left.length = right.length)
    (hQ : Relator.BiUnique (Along Q (left ++ left') (right ++ right'))) :
    Relator.BiUnique (Along Q left right) := by
  rw [← along_append h] at hQ
  exact ⟨fun _ _ _ hac hbc => hQ.1 (.inl hac) (.inl hbc),
    fun _ _ _ hab hac => hQ.2 (.inl hab) (.inl hac)⟩

theorem biUnique_zip (hl : left.Nodup) (hr : right.Nodup) {a b a' b' : RecordId}
    (h : (a, b) ∈ left.zip right) (h' : (a', b') ∈ left.zip right) : a = a' ↔ b = b' := by
  induction left generalizing right with
  | nil => cases h
  | cons c left ih =>
    cases right with
    | nil => cases h
    | cons d right =>
      obtain ⟨hc, hl⟩ := List.nodup_cons.1 hl
      obtain ⟨hd, hr⟩ := List.nodup_cons.1 hr
      rcases List.mem_cons.1 h with he | ht
      · cases he
        rcases List.mem_cons.1 h' with he | ht'
        · cases he
          exact iff_of_true rfl rfl
        · obtain ⟨ha, hb⟩ := List.of_mem_zip ht'
          exact iff_of_false (fun he => hc (he ▸ ha)) fun he => hd (he ▸ hb)
      · rcases List.mem_cons.1 h' with he | ht'
        · cases he
          obtain ⟨ha, hb⟩ := List.of_mem_zip ht
          exact iff_of_false (fun he => hc (he ▸ ha)) fun he => hd (he ▸ hb)
        · exact ih hl hr ht ht'

/-- Lists without repetitions, and without identifiers known before, make identifiers stand for each
other one to one. -/
theorem biUnique_along {K : RecordId → Prop} (hl : left.Nodup) (hr : right.Nodup)
    (hkl : ∀ id ∈ left, ¬ K id) (hkr : ∀ id ∈ right, ¬ K id) :
    Relator.BiUnique (Along (Known K) left right) := by
  constructor
  · intro a b c hac hbc
    rcases hac with ⟨rfl, hk⟩ | hac
    · rcases hbc with ⟨rfl, -⟩ | hbc
      · rfl
      · exact absurd hk (hkr _ (List.of_mem_zip hbc).2)
    · rcases hbc with ⟨rfl, hk⟩ | hbc
      · exact absurd hk (hkr _ (List.of_mem_zip hac).2)
      · exact (biUnique_zip hl hr hac hbc).2 rfl
  · intro a b c hab hac
    rcases hab with ⟨rfl, hk⟩ | hab
    · rcases hac with ⟨rfl, -⟩ | hac
      · rfl
      · exact absurd hk (hkl _ (List.of_mem_zip hac).1)
    · rcases hac with ⟨rfl, hk⟩ | hac
      · exact absurd hk (hkl _ (List.of_mem_zip hab).1)
      · exact (biUnique_zip hl hr hab hac).1 rfl

/-- Identifiers that stand for each other are those of a renaming, which leaves all others alone. -/
theorem exists_perm_map_eq (h : left.length = right.length) (hl : left.Nodup) (hr : right.Nodup) :
    ∃ ρ : Equiv.Perm RecordId, left.map ρ = right ∧
      ∀ id, id ∉ left → id ∉ right → ρ id = id := by
  induction left generalizing right with
  | nil =>
    obtain rfl := List.length_eq_zero_iff.1 h.symm
    exact ⟨.refl _, rfl, fun _ _ _ => rfl⟩
  | cons a left ih =>
    cases right with
    | nil => cases h
    | cons b right =>
      obtain ⟨ha, hl⟩ := List.nodup_cons.1 hl
      obtain ⟨hb, hr⟩ := List.nodup_cons.1 hr
      obtain ⟨ρ, hρ, hfix⟩ := ih (Nat.succ.inj h) hl hr
      -- What the renaming of the rest makes of `a` changes places with `b`.
      have hkept {id : RecordId} (hne : id ≠ a) (hb : ρ id ≠ b) :
          Equiv.swap (ρ a) b (ρ id) = ρ id :=
        Equiv.swap_apply_of_ne_of_ne (fun he => hne (ρ.injective he)) hb
      refine ⟨ρ.trans (Equiv.swap (ρ a) b), ?_, ?_⟩
      · have hrest : left.map (ρ.trans (Equiv.swap (ρ a) b)) = left.map ρ := by
          apply List.map_congr_left
          intro id hm
          apply hkept
          · exact fun he => ha (he ▸ hm)
          · intro he
            apply hb
            rw [← hρ, ← he]
            exact List.mem_map_of_mem hm
        rw [List.map_cons, hrest, hρ]
        exact congrArg (· :: right) (Equiv.swap_apply_left _ _)
      · intro id hleft hright
        obtain ⟨hna, hnl⟩ := not_or.1 (mt List.mem_cons.2 hleft)
        obtain ⟨hnb, hnr⟩ := not_or.1 (mt List.mem_cons.2 hright)
        have hid := hfix id hnl hnr
        change Equiv.swap (ρ a) b (ρ id) = id
        rw [hkept hna (by rwa [hid]), hid]

theorem eq_of_mem_zip_map {ρ : RecordId → RecordId} (h : left.map ρ = right) {a b : RecordId}
    (hm : (a, b) ∈ left.zip right) : ρ a = b := by
  subst h
  induction left with
  | nil => cases hm
  | cons c left ih =>
    rcases List.mem_cons.1 hm with he | hm
    · cases he
      rfl
    · exact ih hm

end

end DocBase
