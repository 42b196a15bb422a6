import DocBase.Proofs.CommandLine.Lines
import DocBase.Proofs.Engine.Transition
import DocBase.Proofs.Numeral

namespace DocBase

namespace Action

theorem bind_eq_ok {σ α β : Type} {p : Action σ α} {f : α → Action σ β} {x y : Session σ} {b : β}
    (h : (p >>= f) x = .ok b y) : ∃ a z, p x = .ok a z ∧ f a z = .ok b y := by
  cases hp : p x with
  | ok a z =>
    rw [bind_ok hp] at h
    exact ⟨a, z, rfl, h⟩
  | error e z =>
    rw [bind_error hp] at h
    cases h

end Action

namespace Engine

open DocBase.Action DocBase.Sql

variable {σ : Type} [Store σ] {store : σ} {ids : IdSource}

theorem exists_rows_of_select {s : Select} {x y : Session σ} {result : ResultSet}
    (h : select s x = .ok result y) : ∃ columns rows, result = .rows columns rows := by
  rw [select] at h
  cases hp : s.projection with
  | all =>
    rw [hp] at h
    obtain ⟨catalog, _, -, h⟩ := bind_eq_ok h
    obtain ⟨records, _, -, h⟩ := bind_eq_ok h
    cases h
    exact ⟨_, _, rfl⟩
  | columns columns =>
    rw [hp] at h
    obtain ⟨records, _, -, h⟩ := bind_eq_ok h
    obtain ⟨_, _, -, h⟩ := bind_eq_ok h
    cases h
    exact ⟨_, _, rfl⟩

theorem head?_counted_append (n : Nat) (noun rest : String) :
    (counted n noun ++ rest).toList.head? ≠ some 'E' := by
  have hn : (toString n).toList = Nat.toDigits 10 n := by simp
  have hne : Nat.toDigits 10 n ≠ [] := Nat.toDigits_ne_nil
  obtain ⟨d, ds, hds⟩ := List.exists_cons_of_ne_nil hne
  have hdigit : d.isDigit := by
    apply isDigit_of_mem_toDigits
    rw [hds]
    exact .head _
  simp only [counted, String.toList_append, hn, hds, List.cons_append, List.head?_cons]
  intro he
  cases he
  cases hdigit

theorem head?_rewrites {s : Statement} {records : List Record} {message : String}
    {ids' : IdSource} (h : Rewrites store ids s records message ids') :
    message.toList.head? ≠ some 'E' := by
  cases h with
  | insert => exact head?_counted_append _ _ _
  | update => exact head?_counted_append _ _ _
  | delete => exact head?_counted_append _ _ _

theorem head?_status {text message : String}
    (h : (execute store ids text).result = .ok (.status message)) :
    message.toList.head? ≠ some 'E' := by
  cases hp : parse text with
  | error e =>
    rw [execute_of_parse_error hp] at h
    cases h
  | ok s =>
    by_cases hs : ∃ q, s = .select q
    · obtain ⟨q, rfl⟩ := hs
      rw [execute_of_parse_ok hp, run] at h
      cases hq : select q ⟨store, ids, []⟩ with
      | error e y =>
        rw [hq] at h
        cases h
      | ok result y =>
        obtain ⟨columns, rows, rfl⟩ := exists_rows_of_select hq
        rw [hq] at h
        cases h
    · have ht : Transition store ids s (execute store ids text) := execute_transition hp
      generalize execute store ids text = o at h ht
      cases ht with
      | refused => cases h
      | selected => exact absurd ⟨_, rfl⟩ hs
      | rewritten _ hr =>
        cases h
        exact head?_rewrites hr
      | created =>
        cases h
        simp
      | halfCreated => cases h
      | dropped =>
        cases h
        simp
      | halfDropped => cases h
      | undeclaredDropped =>
        cases h
        simp

end Engine

namespace CommandLine

def IsError (text : String) : Prop := ∃ rest, text = "Error: " ++ rest

theorem not_isError_of_head? {text : String} (h : text.toList.head? ≠ some 'E') :
    ¬ IsError text := by
  rintro ⟨rest, rfl⟩
  simp at h

theorem isError_errorLine (causes : List String) : IsError (Shell.errorLine causes) :=
  ⟨_, rfl⟩

theorem head?_writeItems (style : Json.Style) (depth : Nat) (opening closing : Char)
    (items : List (List Char)) :
    (Json.writeItems style depth opening closing items).head? = some opening := by
  cases items <;> simp [Json.writeItems]

theorem not_isError_toJson (style : Json.Style) (result : ResultSet) :
    ¬ IsError (result.toJson.write style) := by
  apply not_isError_of_head?
  rw [Json.write, String.toList_ofList]
  cases result <;> simp [ResultSet.toJson, Json.writeAt, head?_writeItems]

theorem not_isError_display {result : ResultSet}
    (h : ∀ message, result = .status message → message.toList.head? ≠ some 'E') :
    ¬ IsError result.display := by
  cases result with
  | status message => exact not_isError_of_head? (h message rfl)
  | rows columns rows =>
    cases columns with
    | nil =>
      rintro ⟨rest, hr⟩
      have hl := congrArg String.toList hr
      simp [ResultSet.display] at hl
    | cons column columns =>
      apply not_isError_of_head?
      simp [ResultSet.display, ResultSet.table, ResultSet.line]

theorem not_isError_of_render? {db : Database} {ids : IdSource} {text shown : String}
    {result : ResultSet} (h : (Engine.execute db.store ids text).result = .ok result)
    (hs : db.render? result = some shown) : ¬ IsError shown := by
  rw [Database.render?] at hs
  split at hs
  · split at hs <;> cases hs
    apply not_isError_display
    rintro message rfl
    exact Engine.head?_status h
  · cases hs
    exact not_isError_toJson _ result

end CommandLine

end DocBase
