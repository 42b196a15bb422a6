import DocBase.Proofs.Engine.Transition
import DocBase.Proofs.Sql.Unevaluated
import DocBase.Store.Memory

namespace DocBase

namespace Action

variable {σ α β : Type}

/-- An action that gives no warning, whether it ends well or fails. -/
def Quiet (p : Action σ α) : Prop := ∀ x, match p x with
  | .ok _ y => y.warnings = x.warnings
  | .error _ y => y.warnings = x.warnings

theorem Quiet.pure (a : α) : Quiet (Pure.pure a : Action σ α) := fun _ => rfl

theorem Quiet.throw (e : QueryError) : Quiet (MonadExcept.throw e : Action σ α) := fun _ => rfl

theorem Quiet.get : Quiet (MonadState.get : Action σ (Session σ)) := fun _ => rfl

theorem Quiet.bind {p : Action σ α} {f : α → Action σ β} (hp : Quiet p)
    (hf : ∀ a, Quiet (f a)) : Quiet (p >>= f) := by
  intro x
  have hx := hp x
  cases h : p x with
  | error e y =>
    rw [h] at hx
    rw [bind_error h]
    exact hx
  | ok a y =>
    rw [h] at hx
    rw [bind_ok h, ← hx]
    exact hf a y

theorem Quiet.look (f : σ → Except StorageError α) : Quiet (look f) := by
  intro x
  cases h : f x.store with
  | ok a => rw [look_ok h]
  | error e => rw [look_error h]

theorem Quiet.change (f : σ → Except StorageError σ) : Quiet (change f) :=
  (Quiet.look f).bind fun _ _ => rfl

theorem Quiet.mapM {f : α → Action σ β} (h : ∀ a, Quiet (f a)) (as : List α) :
    Quiet (as.mapM f) := by
  induction as with
  | nil => exact .pure []
  | cons a as ih =>
    rw [List.mapM_cons]
    exact (h a).bind fun _ => ih.bind fun _ => .pure _

end Action

namespace Engine

open DocBase.Action DocBase.Sql

variable {σ : Type} [Store σ]

/-- The warnings that a statement gives in a store. -/
def given (store : σ) : Statement → List Warning
  | .select s =>
    match s.projection, Store.loadTable store s.table with
    | .columns _, .ok _ => s.unevaluated.map fun (column, operator) =>
      .unsupportedOperator operator column
    | _, _ => []
  | .insert _ => []
  | .update s => if s.condition.isSome then [.updateIgnoresCondition s.table] else []
  | .delete s => if s.condition.isSome then [.deleteIgnoresCondition s.table] else []
  | .create s =>
    match Store.loadCatalog store, Store.saveTable store s.table [] with
    | .ok catalog, .ok _ => if catalog.contains s.table then [.tableReplaced s.table] else []
    | _, _ => []
  | .drop _ => []

variable {store : σ} {ids : IdSource}

end Engine

end DocBase
