import DocBase.Proofs.Engine.Effect
import Mathlib.GroupTheory.Perm.ViaEmbedding

namespace DocBase

open Engine Sql

def Record.rename (ρ : RecordId → RecordId) (r : Record) : Record := { r with id := ρ r.id }

def Fixes (ρ : RecordId → RecordId) (records : List Record) : Prop := ∀ r ∈ records, ρ r.id = r.id

section
variable {ρ : RecordId → RecordId} {records : List Record}

theorem Fixes.map_rename (h : Fixes ρ records) : records.map (Record.rename ρ) = records := by
  have he : records.map (Record.rename ρ) = records.map id := by
    apply List.map_congr_left
    intro r hr
    rw [Record.rename, h r hr]
    rfl
  rw [he, List.map_id]

theorem Fixes.map {f : Record → Record} (hf : ∀ r, (f r).id = r.id) (h : Fixes ρ records) :
    Fixes ρ (records.map f) := by
  intro r hr
  obtain ⟨old, ho, rfl⟩ := List.mem_map.1 hr
  rw [hf]
  exact h old ho

end

namespace IdSource

/-- A renaming takes the next identifiers of one source to the next ones of another. -/
def Carries (ρ : RecordId → RecordId) (ids ids' : IdSource) (n : Nat) : Prop :=
  ∀ k < n, ρ (ids.idAt (ids.count + k)) = ids'.idAt (ids'.count + k)

theorem Carries.skip {ρ : RecordId → RecordId} {ids ids' : IdSource} {n : Nat}
    (h : Carries ρ ids ids' (n + 1)) : Carries ρ (ids.skip 1) (ids'.skip 1) n := by
  intro k hk
  have hnext := h (1 + k) (by omega)
  rwa [← Nat.add_assoc, ← Nat.add_assoc] at hnext

/-- The numbers with two blocks behind `start`, of lengths `a` and `b`, the other way round. -/
def swapped (start a b n : Nat) : Nat :=
  if n < start then n
  else if n < start + a then n + b
  else if n < start + a + b then n - a
  else n

section
variable {start a b n k : Nat}

theorem swapped_swapped (start a b n : Nat) : swapped start b a (swapped start a b n) = n := by
  simp only [swapped]
  split_ifs <;> omega

theorem swapped_first (h : k < a) : swapped start a b (start + k) = start + b + k := by
  rw [swapped, if_neg (by omega), if_pos (by omega)]
  omega

theorem swapped_second (h : k < b) : swapped start a b (start + a + k) = start + k := by
  rw [swapped, if_neg (by omega), if_neg (by omega), if_pos (by omega)]
  omega

theorem between_of_swapped_ne (h : swapped start a b n ≠ n) : start ≤ n ∧ n < start + a + b := by
  constructor
  · by_contra hlt
    apply h
    rw [swapped, if_pos (by omega)]
  · by_contra hle
    apply h
    rw [swapped, if_neg (by omega), if_neg (by omega), if_neg (by omega)]

end

def numbering (ids : IdSource) : Nat ↪ RecordId := ⟨ids.idAt, fun _ _ => idAt_inj⟩

/-- The renaming under which the next `a` identifiers come behind the `b` that follow them. -/
noncomputable def exchange (ids : IdSource) (a b : Nat) : Equiv.Perm RecordId :=
  Equiv.Perm.viaEmbedding
    ⟨swapped ids.count a b, swapped ids.count b a, swapped_swapped _ a b, swapped_swapped _ b a⟩
    ids.numbering

variable (ids : IdSource) (a b : Nat)

theorem exchange_idAt (n : Nat) :
    ids.exchange a b (ids.idAt n) = ids.idAt (swapped ids.count a b n) :=
  Equiv.Perm.viaEmbedding_apply _ ids.numbering n

theorem fresh_of_exchange_ne {id : RecordId} (h : ids.exchange a b id ≠ id) :
    ∃ n, ids.count ≤ n ∧ n < ids.count + a + b ∧ id = ids.idAt n := by
  by_cases hr : id ∈ Set.range ids.idAt
  · obtain ⟨n, rfl⟩ := hr
    rw [exchange_idAt] at h
    obtain ⟨hle, hlt⟩ := between_of_swapped_ne fun he => h (by rw [he])
    exact ⟨n, hle, hlt, rfl⟩
  · exact absurd (Equiv.Perm.viaEmbedding_apply_of_notMem _ ids.numbering id hr) h

variable {ids a b}

/-- A renaming under which the next `a` identifiers and the `b` behind them change places. -/
structure Exchanges (ids : IdSource) (a b : Nat) (ρ : Equiv.Perm RecordId) : Prop where
  fresh : ∀ id, ρ id ≠ id → ∃ n, ids.count ≤ n ∧ n < ids.count + a + b ∧ id = ids.idAt n
  first : Carries ρ ids (ids.skip b) a
  second : Carries ρ (ids.skip a) ids b

variable (ids a b) in
theorem exists_exchanges : ∃ ρ, ids.Exchanges a b ρ := by
  refine ⟨ids.exchange a b, fun id h => ids.fresh_of_exchange_ne a b h, ?_, ?_⟩
  · intro k hk
    rw [exchange_idAt, swapped_first hk]
    rfl
  · intro k hk
    change ids.exchange a b (ids.idAt (ids.count + a + k)) = _
    rw [exchange_idAt, swapped_second hk]

theorem Exchanges.fixes {ρ : Equiv.Perm RecordId} (h : ids.Exchanges a b ρ) {records : List Record}
    (hn : ids.Numbers records) : Fixes ρ records := by
  intro r hr
  by_contra hne
  obtain ⟨n, hn', he⟩ := hn.given r hr
  obtain ⟨m, hm, -, he'⟩ := h.fresh r.id hne
  have hnm := idAt_inj (he.symm.trans he')
  omega

end IdSource

namespace Engine

theorem newRecords_rename {ρ : RecordId → RecordId} {ids ids' : IdSource} (columns : List String)
    {tuples : List (List Value)} (h : IdSource.Carries ρ ids ids' tuples.length) :
    newRecords ids' columns tuples = (newRecords ids columns tuples).map (Record.rename ρ) := by
  induction tuples generalizing ids ids' with
  | nil => rfl
  | cons tuple tuples ih =>
    have hfirst := h 0 (Nat.succ_pos _)
    rw [newRecords, newRecords, List.map_cons, Record.rename, ih h.skip]
    exact congrArg (fun id => (⟨id, _⟩ : Record) :: _) hfirst.symm

end Engine

def Place.Fixed (p : Place) (ρ : RecordId → RecordId) : Prop :=
  ∀ records ∈ p.records, Fixes ρ records

namespace Engine.Effect

def rename (ρ : RecordId → RecordId) (e : Effect) : Effect :=
  { e with records := e.records.map (List.map (Record.rename ρ)) }

variable {ρ : RecordId → RecordId} {p : Place}

theorem rename_answer (hp : p.Fixed ρ) (result : Except QueryError ResultSet)
    (warnings : List Warning) : (answer p result warnings).rename ρ = answer p result warnings := by
  have hr : p.records.map (List.map (Record.rename ρ)) = p.records := by
    cases hf : p.records with
    | none => rfl
    | some records => exact congrArg some (hp records hf).map_rename
  rw [rename, answer, hr]

section
variable {keep : Record → Record} (hk : ∀ r, keep (r.rename ρ) = (keep r).rename ρ)
include hk

theorem rename_rewrite (hp : p.Fixed ρ) {table : String} {warnings : List Warning} {drawn : Nat}
    {change change' : List Record → List Record} {message : List Record → String}
    (hc : ∀ records, p.load table = .ok records → Fixes ρ records →
      change' records = (change records).map (Record.rename ρ)) :
    rewrite keep p table warnings drawn change' message =
      (rewrite keep p table warnings drawn change message).rename ρ := by
  rw [rewrite, rewrite]
  cases hl : p.load table with
  | error e => exact (rename_answer hp _ _).symm
  | ok records =>
    have hchange := hc records hl (hp records (Place.records_of_load hl))
    have hkeep : (change' records).map keep =
        ((change records).map keep).map (Record.rename ρ) := by
      rw [hchange, List.map_map, List.map_map]
      exact List.map_congr_left fun r _ => hk r
    simp only [rename, hkeep, Option.map_some]

/-- What a statement comes to depends on the identifiers that come next in their names only. -/
theorem of_carries {ids ids' : IdSource} (hp : p.Fixed ρ) {s : Statement}
    (h : IdSource.Carries ρ ids ids' (of keep p ids s).drawn) :
    of keep p ids' s = (of keep p ids s).rename ρ := by
  cases s with
  | select s =>
    change select p s = (select p s).rename ρ
    rw [select]
    split
    · split
      · exact (rename_answer hp _ _).symm
      · exact (rename_answer hp _ _).symm
    · exact (rename_answer hp _ _).symm
  | insert s =>
    apply rename_rewrite hk hp
    intro records hl hf
    have hdrawn : (of keep p ids (.insert s)).drawn = s.tuples.length := by
      rw [of, insert, rewrite, hl]
    rw [hdrawn] at h
    rw [newRecords_rename _ h, List.map_append, hf.map_rename]
  | update s =>
    apply rename_rewrite hk hp
    intro records _ hf
    exact (hf.map (assignAll_id s.assignments)).map_rename.symm
  | delete s =>
    apply rename_rewrite hk hp
    intro records _ _
    rfl
  | create s =>
    change create p s = (create p s).rename ρ
    rw [create]
    split
    · rfl
    · exact (rename_answer hp _ _).symm
  | drop s =>
    change drop p s = (drop p s).rename ρ
    rw [drop]
    split
    · rfl
    · exact (rename_answer hp _ _).symm

end

end Engine.Effect

end DocBase
