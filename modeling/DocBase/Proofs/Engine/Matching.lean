import DocBase.Proofs.Engine.Identifiers
import DocBase.Proofs.Store.Matching

namespace DocBase

/-- Identifiers that stand for each other once so many more are given out. -/
abbrev Given (Q : RecordId → RecordId → Prop) (ids ids' : IdSource) (n : Nat) :
    RecordId → RecordId → Prop :=
  Along Q (ids.following n) (ids'.following n)

theorem given_zero (Q : RecordId → RecordId → Prop) (ids ids' : IdSource) :
    Given Q ids ids' 0 = Q := by
  funext a b
  exact propext (or_iff_left nofun)

theorem Follows.of_eq {α : Type} {x y : Except StorageError α} (h : y = x) : Follows Eq x y := by
  subst h
  cases y with
  | ok a => exact .done rfl
  | error e => exact .failed e

theorem Follows.elim {α β : Type} {R : α → β → Prop} {x : Except StorageError α}
    {y : Except StorageError β} {P : Prop} (h : Follows R x y)
    (done : ∀ a b, x = .ok a → y = .ok b → R a b → P)
    (failed : ∀ e, x = .error e → y = .error e → P) : P := by
  cases h with
  | done h => exact done _ _ rfl rfl h
  | failed e => exact failed e rfl rfl

namespace Engine

open DocBase.Action DocBase.Sql

variable {σ : Type} {R : (RecordId → RecordId → Prop) → σ → σ → Prop}
  {Q : RecordId → RecordId → Prop} {store store' : σ} {ids ids' : IdSource}

/-- Two outcomes with the same answer, on stores that are related once the identifiers given out
stand for each other. -/
structure Outcome.Mirrors (R : (RecordId → RecordId → Prop) → σ → σ → Prop)
    (Q : RecordId → RecordId → Prop) (ids ids' : IdSource) (o o' : Outcome σ) : Prop where
  result : o'.result = o.result
  warnings : o'.warnings = o.warnings
  store : ∃ n, o.ids = ids.skip n ∧ o'.ids = ids'.skip n ∧
    R (Given Q ids ids' n) o.store o'.store

theorem matching_newRecords (columns : List String) (tuples : List (List Value)) :
    Matching (Given Q ids ids' tuples.length) (newRecords ids columns tuples)
      (newRecords ids' columns tuples) := by
  induction tuples generalizing ids ids' with
  | nil => exact .nil
  | cons tuple tuples ih =>
    apply List.Forall₂.cons
    · exact ⟨.inr (.head _), rfl⟩
    · apply ih.mono
      intro a b hab
      exact hab.imp_right (.tail _)

theorem matches_assignAll (assignments : List Assignment) {a b : Record} (h : a.Matches Q b) :
    (assignAll assignments a).Matches Q (assignAll assignments b) := by
  apply List.foldl_rel (r := Record.Matches Q) h
  intro assignment _ a b hab
  constructor
  · exact hab.id
  · change a.fields.assign _ _ = b.fields.assign _ _
    rw [hab.fields]

section
variable {n : Nat} (h : R (Given Q ids ids' n) store store')
include h

theorem pure_mirrors (result : Except QueryError ResultSet) (warnings : List Warning) :
    Outcome.Mirrors R Q ids ids' ⟨result, warnings, store, ids.skip n⟩
      ⟨result, warnings, store', ids'.skip n⟩ :=
  ⟨rfl, rfl, n, rfl, rfl, h⟩

theorem look_mirrors {α : Type} {V : α → α → Prop} {g : σ → Except StorageError α}
    {f f' : α → Action σ ResultSet} {warnings : List Warning}
    (hg : Follows V (g store) (g store')) (hf : ∀ a a', V a a' → Outcome.Mirrors R Q ids ids'
      (.ofResult (f a ⟨store, ids.skip n, warnings⟩))
      (.ofResult (f' a' ⟨store', ids'.skip n, warnings⟩))) :
    Outcome.Mirrors R Q ids ids' (.ofResult ((look g >>= f) ⟨store, ids.skip n, warnings⟩))
      (.ofResult ((look g >>= f') ⟨store', ids'.skip n, warnings⟩)) := by
  apply hg.elim
  · intro a a' ha ha' hv
    rw [bind_ok (look_ok ha), bind_ok (look_ok ha')]
    exact hf a a' hv
  · intro e he he'
    rw [bind_error (look_error he), bind_error (look_error he')]
    exact pure_mirrors h _ _

theorem change_mirrors {g g' : σ → Except StorageError σ} {f f' : Unit → Action σ ResultSet}
    {warnings : List Warning}
    (hg : Follows (R (Given Q ids ids' n)) (g store) (g' store'))
    (hf : ∀ changed changed', R (Given Q ids ids' n) changed changed' →
      Outcome.Mirrors R Q ids ids' (.ofResult (f () ⟨changed, ids.skip n, warnings⟩))
        (.ofResult (f' () ⟨changed', ids'.skip n, warnings⟩))) :
    Outcome.Mirrors R Q ids ids' (.ofResult ((change g >>= f) ⟨store, ids.skip n, warnings⟩))
      (.ofResult ((change g' >>= f') ⟨store', ids'.skip n, warnings⟩)) := by
  apply hg.elim
  · intro changed changed' hc hc' hr
    rw [bind_ok (change_ok hc), bind_ok (change_ok hc')]
    exact hf changed changed' hr
  · intro e he he'
    rw [bind_error (change_error he), bind_error (change_error he')]
    exact pure_mirrors h _ _

end

section
variable [Store σ] (M : Mirrors σ R) (h : R (Given Q ids ids' 0) store store')
include M h

theorem rewrite_mirrors (table : String) (warnings : List Warning)
    (f : List Record → List Record) (message : Nat → String)
    (hf : ∀ records records', Matching (Given Q ids ids' 0) records records' →
      Matching (Given Q ids ids' 0) (f records) (f records')) : Outcome.Mirrors R Q ids ids'
      (.ofResult ((do
        let records ← look (Store.loadTable · table)
        change (Store.saveTable · table (f records))
        return .status (message records.length) : Action σ ResultSet) ⟨store, ids, warnings⟩))
      (.ofResult ((do
        let records ← look (Store.loadTable · table)
        change (Store.saveTable · table (f records))
        return .status (message records.length) : Action σ ResultSet)
          ⟨store', ids', warnings⟩)) := by
  apply look_mirrors (n := 0) h (M.loadTable h table)
  intro records records' hm
  apply change_mirrors (n := 0) h (M.saveTable h table (hf _ _ hm))
  intro saved saved' hs
  rw [hm.length_eq]
  exact pure_mirrors (n := 0) hs _ warnings

theorem update_mirrors (s : Update) : Outcome.Mirrors R Q ids ids'
    (.ofResult (update s ⟨store, ids, []⟩)) (.ofResult (update s ⟨store', ids', []⟩)) := by
  have hf (records records' : List Record) (hm : Matching (Given Q ids ids' 0) records records') :
      Matching (Given Q ids ids' 0) (records.map (assignAll s.assignments))
        (records'.map (assignAll s.assignments)) := by
    rw [Matching, List.forall₂_map_left_iff, List.forall₂_map_right_iff]
    exact List.Forall₂.imp (fun _ _ => matches_assignAll s.assignments) hm
  rw [update]
  split
  · rw [bind_ok (warn_apply _ _), bind_ok (warn_apply _ _)]
    exact rewrite_mirrors M h s.table _ _ (fun n => counted n "row" ++ " updated") hf
  · exact rewrite_mirrors M h s.table [] _ (fun n => counted n "row" ++ " updated") hf

theorem delete_mirrors (s : Delete) : Outcome.Mirrors R Q ids ids'
    (.ofResult (delete s ⟨store, ids, []⟩)) (.ofResult (delete s ⟨store', ids', []⟩)) := by
  rw [delete]
  split
  · rw [bind_ok (warn_apply _ _), bind_ok (warn_apply _ _)]
    exact rewrite_mirrors M h s.table _ (fun _ => []) (fun n => counted n "row" ++ " deleted")
      fun _ _ _ => .nil
  · exact rewrite_mirrors M h s.table [] (fun _ => []) (fun n => counted n "row" ++ " deleted")
      fun _ _ _ => .nil

theorem insertInto_mirrors (s : Insert) (columns : List String) : Outcome.Mirrors R Q ids ids'
    (.ofResult ((do
      let records ← look (Store.loadTable · s.table)
      let new ← s.tuples.mapM (insertRecord columns)
      change (Store.saveTable · s.table (records ++ new))
      return .status (counted s.tuples.length "row" ++ " inserted") : Action σ ResultSet)
        ⟨store, ids, []⟩))
    (.ofResult ((do
      let records ← look (Store.loadTable · s.table)
      let new ← s.tuples.mapM (insertRecord columns)
      change (Store.saveTable · s.table (records ++ new))
      return .status (counted s.tuples.length "row" ++ " inserted") : Action σ ResultSet)
        ⟨store', ids', []⟩)) := by
  apply look_mirrors (n := 0) h (M.loadTable h s.table)
  intro records records' hm
  have hsub : Subrelation (Given Q ids ids' 0) (Given Q ids ids' s.tuples.length) := by
    intro a b hab
    rw [given_zero] at hab
    exact .inl hab
  have hdrawn := M.mono h hsub
  have hnew := List.rel_append (hm.mono hsub) (matching_newRecords columns s.tuples)
  rw [bind_ok (mapM_insertRecord columns s.tuples _),
    bind_ok (mapM_insertRecord columns s.tuples _)]
  apply change_mirrors hdrawn (M.saveTable hdrawn s.table hnew)
  intro saved saved' hs
  exact pure_mirrors hs _ []

theorem insert_mirrors (s : Insert) : Outcome.Mirrors R Q ids ids'
    (.ofResult (insert s ⟨store, ids, []⟩)) (.ofResult (insert s ⟨store', ids', []⟩)) := by
  rw [insert]
  cases s.columns with
  | some columns => exact insertInto_mirrors M h s columns
  | none =>
    apply look_mirrors (n := 0) h (.of_eq (M.loadCatalog h))
    rintro catalog _ rfl
    exact insertInto_mirrors M h s _

theorem select_mirrors (hQ : Relator.BiUnique (Given Q ids ids' 0)) (s : Select) :
    Outcome.Mirrors R Q ids ids' (.ofResult (select s ⟨store, ids, []⟩))
      (.ofResult (select s ⟨store', ids', []⟩)) := by
  rw [select]
  cases s.projection with
  | all =>
    apply look_mirrors (n := 0) h (.of_eq (M.loadCatalog h))
    rintro catalog _ rfl
    apply look_mirrors (n := 0) h (M.loadTable h s.table)
    intro records records' hm
    rw [hm.rows_eq hQ s]
    exact pure_mirrors (n := 0) h _ []
  | columns columns =>
    apply look_mirrors (n := 0) h (M.loadTable h s.table)
    intro records records' hm
    rw [bind_ok (forM_warn _ _), bind_ok (forM_warn _ _), hm.rows_eq hQ s,
      Query.warnings_congr s records records']
    exact pure_mirrors (n := 0) h _ _

theorem saveCatalog_mirrors (catalog : Catalog) (message : String) (warnings : List Warning) :
    Outcome.Mirrors R Q ids ids'
      (.ofResult ((do
        change (Store.saveCatalog · catalog)
        return .status message : Action σ ResultSet) ⟨store, ids, warnings⟩))
      (.ofResult ((do
        change (Store.saveCatalog · catalog)
        return .status message : Action σ ResultSet) ⟨store', ids', warnings⟩)) := by
  apply change_mirrors (n := 0) h (M.saveCatalog h catalog)
  intro saved saved' hs
  exact pure_mirrors (n := 0) hs _ warnings

theorem create_mirrors (s : Create) : Outcome.Mirrors R Q ids ids'
    (.ofResult (create s ⟨store, ids, []⟩)) (.ofResult (create s ⟨store', ids', []⟩)) := by
  rw [create]
  apply look_mirrors (n := 0) h (.of_eq (M.loadCatalog h))
  rintro catalog _ rfl
  apply change_mirrors (n := 0) h (M.saveTable h s.table .nil)
  intro saved saved' hs
  split
  · rw [bind_ok (warn_apply _ _), bind_ok (warn_apply _ _)]
    exact saveCatalog_mirrors M hs _ _ _
  · exact saveCatalog_mirrors M hs _ _ []

theorem drop_mirrors (s : Drop) : Outcome.Mirrors R Q ids ids'
    (.ofResult (drop s ⟨store, ids, []⟩)) (.ofResult (drop s ⟨store', ids', []⟩)) := by
  rw [drop]
  apply look_mirrors (n := 0) h (.of_eq (M.loadCatalog h))
  rintro catalog _ rfl
  rw [bind_ok (get_apply _), bind_ok (get_apply _)]
  dsimp only
  rw [M.tableExists h]
  by_cases ht : Store.tableExists store s.table
  · simp only [ht, if_true, Bool.not_true, Bool.false_eq_true, if_false]
    apply change_mirrors (n := 0) h (M.deleteTable h s.table)
    intro left left' hd
    by_cases hm : catalog.contains s.table
    · rw [if_pos hm]
      exact saveCatalog_mirrors M hd _ _ []
    · rw [if_neg hm]
      exact pure_mirrors (n := 0) hd _ []
  · simp only [ht, Bool.false_eq_true, if_false, Bool.not_false, if_true]
    by_cases hm : catalog.contains s.table
    · rw [if_pos hm]
      exact saveCatalog_mirrors M h _ _ []
    · rw [if_neg hm]
      exact pure_mirrors (n := 0) h _ []

theorem run_mirrors (hQ : Relator.BiUnique (Given Q ids ids' 0)) (s : Statement) :
    Outcome.Mirrors R Q ids ids' (.ofResult (run s ⟨store, ids, []⟩))
      (.ofResult (run s ⟨store', ids', []⟩)) := by
  cases s with
  | select s => exact select_mirrors M h hQ s
  | insert s => exact insert_mirrors M h s
  | update s => exact update_mirrors M h s
  | delete s => exact delete_mirrors M h s
  | create s => exact create_mirrors M h s
  | drop s => exact drop_mirrors M h s

end

/-- As long as identifiers stand for each other one to one, a text comes to the same on stores that
are related. -/
theorem execute_mirrors [Store σ] (M : Mirrors σ R) (hQ : Relator.BiUnique Q)
    (h : R Q store store') (ids ids' : IdSource) (text : String) :
    Outcome.Mirrors R Q ids ids' (execute store ids text) (execute store' ids' text) := by
  rw [← given_zero Q ids ids'] at hQ h
  cases hp : parse text with
  | error e =>
    rw [execute_of_parse_error hp, execute_of_parse_error hp]
    exact pure_mirrors (n := 0) h _ []
  | ok s =>
    rw [execute_of_parse_ok hp, execute_of_parse_ok hp]
    exact run_mirrors M h hQ s

end Engine

end DocBase
