import DocBase.Proofs.Query.Truth
import Mathlib.Data.Set.Basic

namespace DocBase.Query

open Sql

/-- The identifiers that a condition selects from a table: a comparison those of the records of which
it is true, AND those that both sides select, OR those that one of them does. -/
def selected (records : List Record) : Expression → Set RecordId
  | .comparison column operator literal =>
    {id | ∃ r ∈ records, r.id = id ∧ (Expression.comparison column operator literal).Holds r}
  | .logical left .and right => selected records left ∩ selected records right
  | .logical left .or right => selected records left ∪ selected records right

variable {records : List Record} {condition : Expression}

theorem id_mem_map_filter_iff {p : Record → Bool} {id : RecordId} :
    id ∈ (records.filter p).map Record.id ↔ ∃ r ∈ records, r.id = id ∧ p r := by
  simp only [List.mem_map, List.mem_filter]
  constructor
  · intro h
    obtain ⟨r, ⟨hr, hp⟩, he⟩ := h
    exact ⟨r, hr, he, hp⟩
  · intro h
    obtain ⟨r, hr, he, hp⟩ := h
    exact ⟨r, ⟨hr, hp⟩, he⟩

theorem exists_id_of_mem_selected {id : RecordId} (h : id ∈ selected records condition) :
    ∃ r ∈ records, r.id = id := by
  induction condition with
  | comparison column operator literal =>
    obtain ⟨r, hr, he, -⟩ := h
    exact ⟨r, hr, he⟩
  | logical left connective right ihl ihr =>
    cases connective with
    | and => exact ihl h.1
    | or => exact h.elim ihl ihr

/-- What is left of a table has the identifiers that the condition selects. -/
theorem id_mem_filter_iff_mem_selected {id : RecordId} :
    id ∈ (filter records condition).map Record.id ↔ id ∈ selected records condition := by
  induction condition generalizing id with
  | comparison column operator literal =>
    rw [filter_comparison, id_mem_map_filter_iff]
    simp only [Operator.holds_iff]
    rfl
  | logical left connective right ihl ihr =>
    have hsides (other : RecordId) : combine connective ((filter records left).map Record.id)
        ((filter records right).map Record.id) other ↔
          other ∈ selected records (.logical left connective right) := by
      rw [combine_iff, ihl, ihr]
      cases connective <;> rfl
    rw [filter_connective, id_mem_map_filter_iff]
    constructor
    · intro h
      obtain ⟨r, -, rfl, hr⟩ := h
      exact (hsides r.id).1 hr
    · intro h
      obtain ⟨r, hr, rfl⟩ := exists_id_of_mem_selected h
      exact ⟨r, hr, rfl, (hsides r.id).2 h⟩

instance (records : List Record) (condition : Expression) :
    DecidablePred (· ∈ selected records condition) :=
  fun _ => decidable_of_iff _ id_mem_filter_iff_mem_selected

/-- A connective keeps all records with a selected identifier, whatever else they hold. -/
theorem filter_logical (records : List Record) (left right : Expression)
    (connective : Connective) : filter records (.logical left connective right) =
      records.filter fun r => decide (r.id ∈ selected records (.logical left connective right)) := by
  rw [filter_connective]
  apply List.filter_congr
  intro r hr
  rw [Bool.eq_iff_iff, decide_eq_true_iff, combine_iff]
  simp only [id_mem_filter_iff_mem_selected]
  cases connective <;> rfl

/-- From the records whose identifiers lie in a set, a condition selects what it selects from the
whole table within that set. -/
theorem selected_filter_id (records : List Record) (condition : Expression)
    (p : RecordId → Bool) : selected (records.filter fun r => p r.id) condition =
      selected records condition ∩ {id | p id} := by
  induction condition with
  | comparison column operator literal =>
    ext id
    constructor
    · intro h
      obtain ⟨r, hr, rfl, hh⟩ := h
      obtain ⟨hm, hp⟩ := List.mem_filter.1 hr
      exact ⟨⟨r, hm, rfl, hh⟩, hp⟩
    · intro h
      obtain ⟨⟨r, hm, rfl, hh⟩, hp⟩ := h
      exact ⟨r, List.mem_filter.2 ⟨hm, hp⟩, rfl, hh⟩
  | logical left connective right ihl ihr =>
    cases connective with
    | and => exact (congrArg₂ _ ihl ihr).trans (Set.inter_inter_distrib_right ..).symm
    | or => exact (congrArg₂ _ ihl ihr).trans (Set.union_inter_distrib_right ..).symm

theorem filter_filter_self (records : List Record) (condition : Expression) :
    filter (filter records condition) condition = filter records condition := by
  cases condition with
  | comparison column operator literal =>
    rw [filter_comparison, filter_comparison, List.filter_filter]
    simp only [Bool.and_self]
  | logical left connective right =>
    -- What is kept is all of some identifiers, so it selects these identifiers and no others.
    let whole : Expression := .logical left connective right
    have hkept : filter records whole =
        records.filter fun r => decide (r.id ∈ selected records whole) :=
      filter_logical records left right connective
    have hselected : selected (filter records whole) whole = selected records whole := by
      rw [hkept, selected_filter_id records whole fun id => decide (id ∈ selected records whole)]
      ext id
      simp
    rw [filter_logical (filter records whole), List.filter_eq_self]
    intro r hr
    rw [decide_eq_true_iff, hselected]
    rw [hkept] at hr
    exact of_decide_eq_true (List.mem_filter.1 hr).2

/-- Filtering keeps the order, leaves exactly the selected identifiers, at a connective with all
their records, and is done after one time. No two records need have identifiers of their own. -/
theorem filter_selects (records : List Record) (condition : Expression) :
    (filter records condition).Sublist records ∧
      (∀ id, id ∈ (filter records condition).map Record.id ↔ id ∈ selected records condition) ∧
      (∀ left connective right, filter records (.logical left connective right) =
        records.filter fun r =>
          decide (r.id ∈ selected records (.logical left connective right))) ∧
      filter (filter records condition) condition = filter records condition := by
  refine ⟨?_, fun _ => id_mem_filter_iff_mem_selected, ?_, filter_filter_self records condition⟩
  · obtain ⟨p, hp⟩ := exists_filter_eq records condition
    rw [hp]
    exact List.filter_sublist
  · intro left connective right
    exact filter_logical records left right connective

/-- Two records share an identifier. A comparison keeps the one of which it is true, a connective
keeps both. -/
example :
    let first : Record := ⟨⟨"a"⟩, OrderedMap.empty.assign "n" (.integer 1)⟩
    let second : Record := ⟨⟨"a"⟩, OrderedMap.empty.assign "n" (.integer 2)⟩
    let one : Expression := .comparison ⟨none, "n"⟩ .equal (.integer 1)
    let other : Expression := .comparison ⟨none, "n"⟩ .lessEqual (.integer 1)
    filter [first, second] one = [first] ∧
      filter [first, second] (.logical one .or other) = [first, second] := by
  decide +kernel

end DocBase.Query
