import DocBase.Proofs.Query.Agreement
import Mathlib.Logic.Relator

namespace DocBase

variable {Q Q' : RecordId → RecordId → Prop}

structure Record.Matches (Q : RecordId → RecordId → Prop) (a b : Record) : Prop where
  id : Q a.id b.id
  fields : a.fields = b.fields

theorem Record.Matches.agree {a b : Record} (h : a.Matches Q b) (names : List String) :
    a.Agree names b := by
  intro name _
  exact congrArg (·.get? name) h.fields

theorem Record.Matches.mono {a b : Record} (h : a.Matches Q b) (hQ : Subrelation Q Q') :
    a.Matches Q' b :=
  ⟨hQ h.id, h.fields⟩

abbrev Matching (Q : RecordId → RecordId → Prop) : List Record → List Record → Prop :=
  List.Forall₂ (Record.Matches Q)

namespace Matching

open Sql Query

variable {records records' : List Record}

theorem mono (h : Matching Q records records') (hQ : Subrelation Q Q') :
    Matching Q' records records' :=
  List.Forall₂.imp (fun _ _ hm => hm.mono hQ) h

theorem ids (h : Matching Q records records') :
    List.Forall₂ Q (records.map Record.id) (records'.map Record.id) := by
  rw [List.forall₂_map_left_iff, List.forall₂_map_right_iff]
  exact List.Forall₂.imp (fun _ _ hm => hm.id) h

section
variable (hQ : Relator.BiUnique Q) (h : Matching Q records records')
include hQ h

theorem filter (condition : Expression) :
    Matching Q (Query.filter records condition) (Query.filter records' condition) := by
  induction condition with
  | comparison column operator literal =>
    rw [filter_comparison, filter_comparison]
    apply List.rel_filter _ h
    intro a b hab
    beta_reduce
    rw [hab.agree [column.name] _ (.head _)]
  | logical left connective right ihl ihr =>
    -- An identifier is selected on a side just if its counterpart is.
    have hmem {l l' : List Record} (hl : Matching Q l l') {a b : Record} (hab : a.Matches Q b) :
        a.id ∈ l.map Record.id ↔ b.id ∈ l'.map Record.id := List.rel_mem hQ hab.id hl.ids
    apply List.rel_filter _ h
    intro a b hab
    beta_reduce
    rw [combine_iff, combine_iff]
    cases connective with
    | and => exact and_congr (hmem ihl hab) (hmem ihr hab)
    | or => exact or_congr (hmem ihl hab) (hmem ihr hab)

theorem filtered (s : Select) : Matching Q (s.filtered records) (s.filtered records') := by
  rw [Select.filtered, Select.filtered, Select.evaluated, Select.evaluated]
  cases s.condition with
  | none => exact h
  | some condition => exact filter hQ h condition

theorem paged (s : Select) : Matching Q (s.paged records) (s.paged records') := by
  have hsorted : Matching Q (s.sorted records) (s.sorted records') := by
    apply forall₂_mergeSort (filtered hQ h s)
    intro a b a' b' hab hab'
    rw [compareRecords_congr (hab.agree _) (hab'.agree _)]
  rw [Select.paged, Select.paged]
  cases s.limit with
  | none => exact hsorted
  | some limit => exact forall₂_page hsorted limit

theorem rows_eq (s : Select) : s.rows records = s.rows records' := by
  rw [Select.rows, Select.rows]
  cases s.projection with
  | all =>
    rw [← List.forall₂_eq_eq_eq, List.forall₂_map_left_iff, List.forall₂_map_right_iff]
    exact List.Forall₂.imp (fun _ _ hm => hm.fields) h
  | columns columns =>
    dsimp only
    rw [← List.forall₂_eq_eq_eq, List.forall₂_map_left_iff, List.forall₂_map_right_iff]
    exact List.Forall₂.imp (fun _ _ hm => project_congr (hm.agree _)) (paged hQ h s)

end

end Matching

end DocBase
