import DocBase.Proofs.Engine.Transition

namespace DocBase.Engine

open DocBase.Sql

/-- A statement that succeeded, and the identifiers that it could give out. -/
structure Event where
  statement : Statement
  ids : IdSource

structure Run (σ : Type) where
  store : σ
  ids : IdSource
  history : List Event

variable {σ : Type} [Store σ]

/-- The event that a text is, if it is a statement and succeeds. -/
def event? (ids : IdSource) (text : String) (o : Outcome σ) : Option Event :=
  match parse text, o.result with
  | .ok statement, .ok _ => some ⟨statement, ids⟩
  | _, _ => none

namespace Run

def start (store : σ) (ids : IdSource) : Run σ := ⟨store, ids, []⟩

def next (r : Run σ) (text : String) : Run σ :=
  let o := execute r.store r.ids text
  ⟨o.store, o.ids, r.history ++ (event? r.ids text o).toList⟩

def ofTexts (store : σ) (ids : IdSource) (texts : List String) : Run σ :=
  texts.foldl next (start store ids)

theorem invariant {P : Run σ → Prop} {store : σ} {ids : IdSource} (start : P (start store ids))
    (next : ∀ r text, P r → P (r.next text)) (texts : List String) :
    P (ofTexts store ids texts) := by
  have hfold (r : Run σ) (hr : P r) : P (texts.foldl Run.next r) := by
    induction texts generalizing r with
    | nil => exact hr
    | cons text texts ih => exact ih _ (next r text hr)
  exact hfold _ start

theorem next_of_parse_error {r : Run σ} {text : String} {e : ParseError}
    (h : parse text = .error e) : r.next text = r := by
  rw [next, execute_of_parse_error h, event?, h]
  simp

theorem next_of_ok {r : Run σ} {text : String} {s : Statement} {result : ResultSet}
    {warnings : List Warning} {store : σ} {ids : IdSource} (h : parse text = .ok s)
    (ho : execute r.store r.ids text = ⟨.ok result, warnings, store, ids⟩) :
    r.next text = ⟨store, ids, r.history ++ [⟨s, r.ids⟩]⟩ := by
  rw [next, ho, event?, h]
  rfl

theorem next_of_error {r : Run σ} {text : String} {e : QueryError} {warnings : List Warning}
    {store : σ} {ids : IdSource}
    (ho : execute r.store r.ids text = ⟨.error e, warnings, store, ids⟩) :
    r.next text = ⟨store, ids, r.history⟩ := by
  rw [next, ho, event?]
  cases parse text <;> simp

end Run

end DocBase.Engine
