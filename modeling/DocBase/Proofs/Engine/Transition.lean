import DocBase.Engine

namespace DocBase

def IdSource.skip (ids : IdSource) (n : Nat) : IdSource := { ids with count := ids.count + n }

def Sql.Statement.table : Statement → String
  | select s => s.table
  | insert s => s.table
  | update s => s.table
  | delete s => s.table
  | create s => s.table
  | drop s => s.table

namespace Action

variable {σ α β : Type}

theorem bind_ok {p : Action σ α} {f : α → Action σ β} {x y : Session σ} {a : α}
    (h : p x = .ok a y) : (p >>= f) x = f a y := by
  change EStateM.bind p f x = _
  rw [EStateM.bind, h]

theorem bind_error {p : Action σ α} {f : α → Action σ β} {x y : Session σ} {e : QueryError}
    (h : p x = .error e y) : (p >>= f) x = .error e y := by
  change EStateM.bind p f x = _
  rw [EStateM.bind, h]

theorem warn_apply (w : Warning) (x : Session σ) :
    warn w x = .ok () { x with warnings := x.warnings ++ [w] } := rfl

theorem forM_warn (warnings : List Warning) (x : Session σ) :
    (warnings.forM warn) x = .ok () { x with warnings := x.warnings ++ warnings } := by
  induction warnings generalizing x with
  | nil =>
    rw [List.append_nil]
    rfl
  | cons w warnings ih =>
    change (warn w >>= fun _ => warnings.forM warn) x = _
    rw [bind_ok (warn_apply w x), ih]
    simp only [List.append_assoc, List.cons_append, List.nil_append]

theorem get_apply (x : Session σ) : (get : Action σ (Session σ)) x = .ok x x := rfl

theorem look_ok {f : σ → Except StorageError α} {x : Session σ} {a : α} (h : f x.store = .ok a) :
    look f x = .ok a x := by
  rw [look, bind_ok (get_apply x), h]
  rfl

theorem look_error {f : σ → Except StorageError α} {x : Session σ} {e : StorageError}
    (h : f x.store = .error e) : look f x = .error (.ofStorage e) x := by
  rw [look, bind_ok (get_apply x), h]
  rfl

theorem change_ok {f : σ → Except StorageError σ} {x : Session σ} {store : σ}
    (h : f x.store = .ok store) : change f x = .ok () { x with store := store } := by
  rw [change, bind_ok (look_ok h)]
  rfl

theorem change_error {f : σ → Except StorageError σ} {x : Session σ} {e : StorageError}
    (h : f x.store = .error e) : change f x = .error (.ofStorage e) x := by
  rw [change, bind_error (look_error h)]

end Action

namespace Engine

open DocBase.Action DocBase.Sql

/-- The records that an INSERT adds: one for each tuple, with the next identifiers in order. -/
def newRecords (ids : IdSource) (columns : List String) : List (List Value) → List Record
  | [] => []
  | tuple :: tuples =>
    ⟨ids.idAt ids.count, fieldsOf columns tuple⟩ :: newRecords (ids.skip 1) columns tuples

section
variable {σ : Type}

theorem mapM_insertRecord (columns : List String) (tuples : List (List Value)) (x : Session σ) :
    (tuples.mapM (insertRecord columns)) x =
      .ok (newRecords x.ids columns tuples) { x with ids := x.ids.skip tuples.length } := by
  induction tuples generalizing x with
  | nil => rfl
  | cons tuple tuples ih =>
    have hr : (insertRecord columns tuple : Action σ Record) x =
        .ok ⟨x.ids.idAt x.ids.count, fieldsOf columns tuple⟩ { x with ids := x.ids.skip 1 } := rfl
    rw [List.mapM_cons, bind_ok hr, bind_ok (ih _)]
    simp only [newRecords, IdSource.skip, List.length_cons, Nat.add_assoc, Nat.add_comm 1]
    rfl

end

variable {σ : Type} [Store σ]

def columnsFor (store : σ) (s : Insert) : Except StorageError (List String) :=
  match s.columns with
  | some columns => .ok columns
  | none => (Store.loadCatalog store).map fun catalog => catalog.columnNames s.table

/-- What INSERT, UPDATE and DELETE make of the records of their table: the new records, the status
they report and the source of identifiers behind them. -/
inductive Rewrites (store : σ) (ids : IdSource) :
    Statement → List Record → String → IdSource → Prop
  | insert {s : Insert} {columns : List String} {records : List Record} :
    columnsFor store s = .ok columns → Store.loadTable store s.table = .ok records →
    Rewrites store ids (.insert s) (records ++ newRecords ids columns s.tuples)
      (counted s.tuples.length "row" ++ " inserted") (ids.skip s.tuples.length)
  | update {s : Update} {records : List Record} : Store.loadTable store s.table = .ok records →
    Rewrites store ids (.update s) (records.map (assignAll s.assignments))
      (counted records.length "row" ++ " updated") ids
  | delete {s : Delete} {records : List Record} : Store.loadTable store s.table = .ok records →
    Rewrites store ids (.delete s) [] (counted records.length "row" ++ " deleted") ids

def discard (store : σ) (table : String) : Except StorageError σ :=
  if Store.tableExists store table then Store.deleteTable store table else .ok store

/-- What a statement can come to. It fails with the store as it was, unless it is one of the two
that change both a table and the catalog: these can fail halfway. -/
inductive Transition (store : σ) (ids : IdSource) : Statement → Outcome σ → Prop
  | refused {s : Statement} (e : QueryError) (warnings : List Warning) (n : Nat) :
    Transition store ids s ⟨.error e, warnings, store, ids.skip n⟩
  | selected {s : Select} (result : ResultSet) (warnings : List Warning) :
    Transition store ids (.select s) ⟨.ok result, warnings, store, ids⟩
  | rewritten {s : Statement} {records : List Record} {message : String} {ids' : IdSource}
      {store' : σ} (warnings : List Warning) :
    Rewrites store ids s records message ids' →
    Store.saveTable store s.table records = .ok store' →
    Transition store ids s ⟨.ok (.status message), warnings, store', ids'⟩
  | created {s : Create} {catalog : Catalog} {half store' : σ} (warnings : List Warning) :
    Store.loadCatalog store = .ok catalog → Store.saveTable store s.table [] = .ok half →
    Store.saveCatalog half (catalog.create s.table (.ofColumns s.columns)) = .ok store' →
    Transition store ids (.create s)
      ⟨.ok (.status ("Table " ++ s.table ++ " created")), warnings, store', ids⟩
  | halfCreated {s : Create} {catalog : Catalog} {half : σ} {e : StorageError}
      (warnings : List Warning) :
    Store.loadCatalog store = .ok catalog → Store.saveTable store s.table [] = .ok half →
    Store.saveCatalog half (catalog.create s.table (.ofColumns s.columns)) = .error e →
    Transition store ids (.create s) ⟨.error (.ofStorage e), warnings, half, ids⟩
  | dropped {s : Drop} {catalog : Catalog} {half store' : σ} :
    Store.loadCatalog store = .ok catalog → discard store s.table = .ok half →
    catalog.contains s.table → Store.saveCatalog half (catalog.drop s.table) = .ok store' →
    Transition store ids (.drop s)
      ⟨.ok (.status ("Table " ++ s.table ++ " dropped")), [], store', ids⟩
  | halfDropped {s : Drop} {catalog : Catalog} {half : σ} {e : StorageError} :
    Store.loadCatalog store = .ok catalog → discard store s.table = .ok half →
    catalog.contains s.table → Store.saveCatalog half (catalog.drop s.table) = .error e →
    Transition store ids (.drop s) ⟨.error (.ofStorage e), [], half, ids⟩
  | undeclaredDropped {s : Drop} {catalog : Catalog} {store' : σ} :
    Store.loadCatalog store = .ok catalog → Store.tableExists store s.table →
    ¬ catalog.contains s.table → Store.deleteTable store s.table = .ok store' →
    Transition store ids (.drop s)
      ⟨.ok (.status ("Table " ++ s.table ++ " dropped")), [], store', ids⟩

def Outcome.ofResult : EStateM.Result QueryError (Session σ) ResultSet → Outcome σ
  | .ok result s => ⟨.ok result, s.warnings, s.store, s.ids⟩
  | .error e s => ⟨.error e, s.warnings, s.store, s.ids⟩

variable {store : σ} {ids : IdSource}

theorem refused_now (s : Statement) (e : QueryError) (warnings : List Warning) :
    Transition store ids s ⟨.error e, warnings, store, ids⟩ :=
  .refused e warnings 0

theorem save_transition {s : Statement} {records : List Record} {message : String} {n : Nat}
    (warnings : List Warning) (h : Rewrites store ids s records message (ids.skip n)) :
    Transition store ids s (.ofResult ((do
      change (Store.saveTable · s.table records)
      return .status message : Action σ ResultSet) ⟨store, ids.skip n, warnings⟩)) := by
  cases hs : Store.saveTable store s.table records with
  | ok store' =>
    rw [bind_ok (change_ok hs)]
    exact .rewritten warnings h hs
  | error e =>
    rw [bind_error (change_error hs)]
    exact .refused _ warnings n

theorem insertInto_transition {s : Insert} {columns : List String}
    (hc : columnsFor store s = .ok columns) :
    Transition store ids (.insert s) (.ofResult ((do
      let records ← look (Store.loadTable · s.table)
      let new ← s.tuples.mapM (insertRecord columns)
      change (Store.saveTable · s.table (records ++ new))
      return .status (counted s.tuples.length "row" ++ " inserted") : Action σ ResultSet)
        ⟨store, ids, []⟩)) := by
  cases hl : Store.loadTable store s.table with
  | error e =>
    rw [bind_error (look_error hl)]
    exact refused_now _ _ _
  | ok records =>
    rw [bind_ok (look_ok hl), bind_ok (mapM_insertRecord columns s.tuples _)]
    exact save_transition [] (.insert hc hl)

theorem insert_transition (s : Insert) :
    Transition store ids (.insert s) (.ofResult (insert s ⟨store, ids, []⟩)) := by
  rw [insert]
  cases hs : s.columns with
  | some columns => exact insertInto_transition (by rw [columnsFor, hs])
  | none =>
    dsimp only
    cases hc : Store.loadCatalog store with
    | error e =>
      rw [bind_error (look_error hc)]
      exact refused_now _ _ _
    | ok catalog =>
      rw [bind_ok (look_ok hc)]
      exact insertInto_transition (by rw [columnsFor, hs, hc]; rfl)

theorem updateAll_transition (s : Update) (warnings : List Warning) :
    Transition store ids (.update s) (.ofResult ((do
      let records ← look (Store.loadTable · s.table)
      change (Store.saveTable · s.table (records.map (assignAll s.assignments)))
      return .status (counted records.length "row" ++ " updated") : Action σ ResultSet)
        ⟨store, ids, warnings⟩)) := by
  cases hl : Store.loadTable store s.table with
  | error e =>
    rw [bind_error (look_error hl)]
    exact refused_now _ _ _
  | ok records =>
    rw [bind_ok (look_ok hl)]
    exact save_transition (n := 0) warnings (.update hl)

theorem update_transition (s : Update) :
    Transition store ids (.update s) (.ofResult (update s ⟨store, ids, []⟩)) := by
  rw [update]
  split
  · rw [bind_ok (warn_apply _ _)]
    exact updateAll_transition s _
  · exact updateAll_transition s _

theorem deleteAll_transition (s : Delete) (warnings : List Warning) :
    Transition store ids (.delete s) (.ofResult ((do
      let records ← look (Store.loadTable · s.table)
      change (Store.saveTable · s.table [])
      return .status (counted records.length "row" ++ " deleted") : Action σ ResultSet)
        ⟨store, ids, warnings⟩)) := by
  cases hl : Store.loadTable store s.table with
  | error e =>
    rw [bind_error (look_error hl)]
    exact refused_now _ _ _
  | ok records =>
    rw [bind_ok (look_ok hl)]
    exact save_transition (n := 0) warnings (.delete hl)

theorem delete_transition (s : Delete) :
    Transition store ids (.delete s) (.ofResult (delete s ⟨store, ids, []⟩)) := by
  rw [delete]
  split
  · rw [bind_ok (warn_apply _ _)]
    exact deleteAll_transition s _
  · exact deleteAll_transition s _

theorem select_transition (s : Select) :
    Transition store ids (.select s) (.ofResult (select s ⟨store, ids, []⟩)) := by
  have hfail (e : StorageError) :
      Transition store ids (.select s) ⟨.error (.ofStorage e), [], store, ids⟩ := refused_now _ _ _
  rw [select]
  cases hp : s.projection with
  | all =>
    dsimp only
    cases hc : Store.loadCatalog store with
    | error e =>
      rw [bind_error (look_error hc)]
      exact hfail e
    | ok catalog =>
      rw [bind_ok (look_ok hc)]
      cases hl : Store.loadTable store s.table with
      | error e =>
        rw [bind_error (look_error hl)]
        exact hfail e
      | ok records =>
        rw [bind_ok (look_ok hl)]
        exact .selected _ _
  | columns columns =>
    dsimp only
    cases hl : Store.loadTable store s.table with
    | error e =>
      rw [bind_error (look_error hl)]
      exact hfail e
    | ok records =>
      rw [bind_ok (look_ok hl), bind_ok (forM_warn _ _)]
      exact .selected _ _

theorem declare_transition {s : Create} {catalog : Catalog} {half : σ} (warnings : List Warning)
    (hc : Store.loadCatalog store = .ok catalog)
    (hs : Store.saveTable store s.table [] = .ok half) :
    Transition store ids (.create s) (.ofResult ((do
      change (Store.saveCatalog · (catalog.create s.table (.ofColumns s.columns)))
      return .status ("Table " ++ s.table ++ " created") : Action σ ResultSet)
        ⟨half, ids, warnings⟩)) := by
  cases hd : Store.saveCatalog half (catalog.create s.table (.ofColumns s.columns)) with
  | error e =>
    rw [bind_error (change_error hd)]
    exact .halfCreated warnings hc hs hd
  | ok store' =>
    rw [bind_ok (change_ok hd)]
    exact .created warnings hc hs hd

theorem create_transition (s : Create) :
    Transition store ids (.create s) (.ofResult (create s ⟨store, ids, []⟩)) := by
  rw [create]
  cases hc : Store.loadCatalog store with
  | error e =>
    rw [bind_error (look_error hc)]
    exact refused_now _ _ _
  | ok catalog =>
    rw [bind_ok (look_ok hc)]
    cases hs : Store.saveTable store s.table [] with
    | error e =>
      rw [bind_error (change_error hs)]
      exact refused_now _ _ _
    | ok half =>
      rw [bind_ok (change_ok hs)]
      split
      · exact declare_transition _ hc hs
      · exact declare_transition _ hc hs

theorem forget_transition {s : Drop} {catalog : Catalog} {half : σ}
    (hc : Store.loadCatalog store = .ok catalog) (hd : discard store s.table = .ok half)
    (hm : catalog.contains s.table) :
    Transition store ids (.drop s) (.ofResult ((do
      change (Store.saveCatalog · (catalog.drop s.table))
      return .status ("Table " ++ s.table ++ " dropped") : Action σ ResultSet)
        ⟨half, ids, []⟩)) := by
  cases hs : Store.saveCatalog half (catalog.drop s.table) with
  | error e =>
    rw [bind_error (change_error hs)]
    exact .halfDropped hc hd hm hs
  | ok store' =>
    rw [bind_ok (change_ok hs)]
    exact .dropped hc hd hm hs

theorem drop_transition (s : Drop) :
    Transition store ids (.drop s) (.ofResult (drop s ⟨store, ids, []⟩)) := by
  rw [drop]
  cases hc : Store.loadCatalog store with
  | error e =>
    rw [bind_error (look_error hc)]
    exact refused_now _ _ _
  | ok catalog =>
    rw [bind_ok (look_ok hc), bind_ok (get_apply _)]
    by_cases ht : Store.tableExists store s.table
    · simp only [ht, if_true, Bool.not_true, Bool.false_eq_true, if_false]
      cases hd : Store.deleteTable store s.table with
      | error e =>
        rw [bind_error (change_error hd)]
        exact refused_now _ _ _
      | ok half =>
        have hh : discard store s.table = .ok half := by rw [discard, if_pos ht, hd]
        rw [bind_ok (change_ok hd)]
        by_cases hm : catalog.contains s.table
        · rw [if_pos hm]
          exact forget_transition hc hh hm
        · rw [if_neg hm]
          exact .undeclaredDropped hc ht hm hd
    · have hh : discard store s.table = .ok store := by rw [discard, if_neg ht]
      simp only [ht, Bool.false_eq_true, if_false, Bool.not_false, if_true]
      by_cases hm : catalog.contains s.table
      · rw [if_pos hm]
        exact forget_transition hc hh hm
      · rw [if_neg hm]
        exact refused_now _ _ _

theorem run_transition (s : Statement) :
    Transition store ids s (.ofResult (run s ⟨store, ids, []⟩)) := by
  cases s with
  | select s => exact select_transition s
  | insert s => exact insert_transition s
  | update s => exact update_transition s
  | delete s => exact delete_transition s
  | create s => exact create_transition s
  | drop s => exact drop_transition s

theorem execute_eq_ofResult (text : String) :
    execute store ids text = .ofResult (runText text ⟨store, ids, []⟩) := by
  rw [execute]
  cases runText text ⟨store, ids, []⟩ <;> rfl

theorem execute_of_parse_ok {text : String} {s : Statement} (h : parse text = .ok s) :
    execute store ids text = .ofResult (run s ⟨store, ids, []⟩) := by
  rw [execute_eq_ofResult, runText, h]

/-- A text that is a statement has one of the effects of the statement. -/
theorem execute_transition {text : String} {s : Statement} (h : parse text = .ok s) :
    Transition store ids s (execute store ids text) := by
  rw [execute_of_parse_ok h]
  exact run_transition s

theorem execute_of_parse_error {text : String} {e : ParseError} (h : parse text = .error e) :
    execute store ids text = ⟨.error (.parse e), [], store, ids⟩ := by
  rw [execute_eq_ofResult, runText, h]
  rfl

/-- A property that no change of a table or of the catalog takes from a store. -/
structure Lasts (P : σ → Prop) : Prop where
  saveTable {store store' : σ} {table : String} {records : List Record} : P store →
    Store.saveTable store table records = .ok store' → P store'
  deleteTable {store store' : σ} {table : String} : P store →
    Store.deleteTable store table = .ok store' → P store'
  saveCatalog {store store' : σ} {catalog : Catalog} : P store →
    Store.saveCatalog store catalog = .ok store' → P store'

namespace Lasts

variable {P : σ → Prop} (hP : Lasts P) (h : P store)
include hP h

theorem discard {table : String} {half : σ} (hd : discard store table = .ok half) : P half := by
  rw [Engine.discard] at hd
  split at hd
  · exact hP.deleteTable h hd
  · cases hd
    exact h

theorem transition {s : Statement} {o : Outcome σ} (ht : Transition store ids s o) : P o.store := by
  cases ht with
  | refused => exact h
  | selected => exact h
  | rewritten _ _ hs => exact hP.saveTable h hs
  | created _ _ hs hc => exact hP.saveCatalog (hP.saveTable h hs) hc
  | halfCreated _ _ hs => exact hP.saveTable h hs
  | dropped _ hd _ hc => exact hP.saveCatalog (hP.discard h hd) hc
  | halfDropped _ hd => exact hP.discard h hd
  | undeclaredDropped _ _ _ hd => exact hP.deleteTable h hd

theorem execute (text : String) : P (Engine.execute store ids text).store := by
  cases hp : parse text with
  | ok s => exact hP.transition h (execute_transition hp)
  | error e =>
    rw [execute_of_parse_error hp]
    exact h

end Lasts

end Engine

end DocBase
