import DocBase.Proofs.Engine.Consistency
import DocBase.Proofs.Store.Exact

namespace DocBase

/-- All that a store holds under the name of a table. -/
structure Place where
  room : Except StorageError Unit
  records : Option (List Record)
  schema : Option Schema

namespace Place

def columnNames (p : Place) : List String :=
  match p.schema with
  | some schema => schema.columnNames
  | none => []

def load (p : Place) (table : String) : Except StorageError (List Record) :=
  match p.records with
  | some records => .ok records
  | none => p.room >>= fun _ => .error (.tableNotFound table)

theorem load_of_present {p : Place} {table : String} {records : List Record}
    (h : p.records = some records) : p.load table = .ok records := by
  rw [load, h]

theorem load_of_absent {p : Place} {table : String} (h : p.records = none) :
    p.load table = (p.room >>= fun _ => .error (.tableNotFound table)) := by
  rw [load, h]

theorem records_of_load {p : Place} {table : String} {records : List Record}
    (h : p.load table = .ok records) : p.records = some records := by
  cases hp : p.records with
  | some found =>
    rw [load_of_present hp] at h
    rw [Except.ok.inj h]
  | none =>
    rw [load_of_absent hp] at h
    cases hr : p.room with
    | ok u =>
      rw [hr] at h
      cases h
    | error e =>
      rw [hr] at h
      cases h

end Place

inductive Declaration
  | kept
  | declared (schema : Schema)
  | dropped

namespace Declaration

def apply (table : String) (c : Catalog) : Declaration → Catalog
  | kept => c
  | declared schema => c.create table schema
  | dropped => c.drop table

theorem schema?_apply (d : Declaration) {table other : String} (c : Catalog) (h : other ≠ table) :
    (d.apply table c).schema? other = c.schema? other := by
  cases d with
  | kept => rfl
  | declared schema => rw [apply, Catalog.schema?_create, if_neg h]
  | dropped => rw [apply, Catalog.schema?_drop, if_neg h]

end Declaration

namespace View

variable {v : View} {table : String}

def place (v : View) (room : String → Except StorageError Unit) (table : String) : Place :=
  ⟨room table, v.tables table, v.catalog.schema? table⟩

theorem contains_eq_isSome (v : View) (room : String → Except StorageError Unit) (table : String) :
    v.catalog.contains table = (v.place room table).schema.isSome :=
  v.catalog.tables.contains_eq_isSome table

end View

namespace Exact

variable {σ : Type} [Store σ] {Shows : σ → View → Prop} {room : String → Except StorageError Unit}
  {keep : Record → Record} (E : Exact σ Shows room keep) {store : σ} {v : View}
include E

theorem load_eq (hs : Shows store v) (table : String) :
    Store.loadTable store table = (v.place room table).load table := by
  cases hv : v.tables table with
  | some records => rw [(E.loadTable hs).2 hv, Place.load_of_present hv]
  | none => rw [E.loadTable_of_absent hs hv, Place.load_of_absent hv, View.place]

theorem tableExists_eq (hs : Shows store v) (table : String) :
    Store.tableExists store table = (v.place room table).records.isSome :=
  Bool.eq_iff_iff.2 (E.tableExists hs)

end Exact

namespace Engine

open DocBase.Action DocBase.Sql

/-- What a statement comes to: what it answers, what it leaves of the records of its table and of
the declaration, and how many identifiers it takes. -/
structure Effect where
  result : Except QueryError ResultSet
  warnings : List Warning
  records : Option (List Record)
  declaration : Declaration
  drawn : Nat

namespace Effect

def answer (p : Place) (result : Except QueryError ResultSet) (warnings : List Warning) : Effect :=
  ⟨result, warnings, p.records, .kept, 0⟩

/-- The effect of other records in the place of those that are found. -/
def rewrite (keep : Record → Record) (p : Place) (table : String) (warnings : List Warning)
    (drawn : Nat) (change : List Record → List Record) (message : List Record → String) : Effect :=
  match p.load table with
  | .ok records =>
    ⟨.ok (.status (message records)), warnings, some ((change records).map keep), .kept, drawn⟩
  | .error e => answer p (.error (.ofStorage e)) warnings

def select (p : Place) (s : Select) : Effect :=
  match p.load s.table with
  | .ok records =>
    let rows := s.rows records
    match s.projection with
    | .all => answer p (.ok (.rows (allColumns p.columnNames rows) rows)) []
    | .columns columns =>
      answer p (.ok (.rows (columns.map ColumnRef.name) rows)) (s.warnings records)
  | .error e => answer p (.error (.ofStorage e)) []

def insert (keep : Record → Record) (p : Place) (ids : IdSource) (s : Insert) : Effect :=
  rewrite keep p s.table [] s.tuples.length
    (fun records => records ++ newRecords ids (s.columns.getD p.columnNames) s.tuples)
    fun _ => counted s.tuples.length "row" ++ " inserted"

def update (keep : Record → Record) (p : Place) (s : Update) : Effect :=
  rewrite keep p s.table (if s.condition.isSome then [.updateIgnoresCondition s.table] else []) 0
    (fun records => records.map (assignAll s.assignments))
    fun records => counted records.length "row" ++ " updated"

def delete (keep : Record → Record) (p : Place) (s : Delete) : Effect :=
  rewrite keep p s.table (if s.condition.isSome then [.deleteIgnoresCondition s.table] else []) 0
    (fun _ => [])
    fun records => counted records.length "row" ++ " deleted"

def create (p : Place) (s : Create) : Effect :=
  match p.room with
  | .ok _ => ⟨.ok (.status ("Table " ++ s.table ++ " created")),
      if p.schema.isSome then [.tableReplaced s.table] else [], some [],
      .declared (.ofColumns s.columns), 0⟩
  | .error e => answer p (.error (.ofStorage e)) []

def drop (p : Place) (s : Drop) : Effect :=
  if p.records.isSome ∨ p.schema.isSome then
    ⟨.ok (.status ("Table " ++ s.table ++ " dropped")), [], none, .dropped, 0⟩
  else answer p (.error (.tableNotFound s.table)) []

def of (keep : Record → Record) (p : Place) (ids : IdSource) : Statement → Effect
  | .select s => select p s
  | .insert s => insert keep p ids s
  | .update s => update keep p s
  | .delete s => delete keep p s
  | .create s => create p s
  | .drop s => drop p s

def apply (e : Effect) (table : String) (v : View) : View :=
  (v.write table e.records).declare (e.declaration.apply table v.catalog)

theorem tables_apply (e : Effect) (table other : String) (v : View) :
    (e.apply table v).tables other = if other = table then e.records else v.tables other := rfl

theorem apply_answer (room : String → Except StorageError Unit) (v : View) (table : String)
    (result : Except QueryError ResultSet) (warnings : List Warning) :
    (answer (v.place room table) result warnings).apply table v = v :=
  v.write_self table

/-- A statement reads nothing that another one on another table has changed. -/
theorem place_apply (e : Effect) {table other : String} (h : other ≠ table) (v : View)
    (room : String → Except StorageError Unit) :
    (e.apply table v).place room other = v.place room other := by
  rw [View.place, tables_apply, if_neg h]
  exact congrArg _ (e.declaration.schema?_apply v.catalog h)

end Effect

variable {σ : Type} {Shows : σ → View → Prop} {room : String → Except StorageError Unit}
  {keep : Record → Record} {store : σ} {v : View} {ids : IdSource}

/-- An outcome is what an effect on a view says. -/
structure Outcome.Realizes (Shows : σ → View → Prop) (v : View) (ids : IdSource) (table : String)
    (e : Effect) (o : Outcome σ) : Prop where
  result : o.result = e.result
  warnings : o.warnings = e.warnings
  ids : o.ids = ids.skip e.drawn
  shows : Shows o.store (e.apply table v)
  named : (e.apply table v).catalog.Named

theorem realizes_answer (hs : Shows store v) (hn : v.catalog.Named) (table : String)
    (result : Except QueryError ResultSet) (warnings : List Warning) :
    Outcome.Realizes Shows v ids table (.answer (v.place room table) result warnings)
      ⟨result, warnings, store, ids⟩ where
  result := rfl
  warnings := rfl
  ids := rfl
  shows := by
    rw [Effect.apply_answer]
    exact hs
  named := by
    rw [Effect.apply_answer]
    exact hn

section
variable [Store σ] (E : Exact σ Shows room keep) (hn : v.catalog.Named)
include E hn

theorem declare_realizes {s : Create} (hsound : (Statement.create s).Sound) {half : σ}
    (hh : Shows half (v.write s.table (some []))) (warnings : List Warning) :
    Outcome.Realizes Shows v ids s.table
      ⟨.ok (.status ("Table " ++ s.table ++ " created")), warnings, some [],
        .declared (.ofColumns s.columns), 0⟩
      (.ofResult ((do
        change (Store.saveCatalog · (v.catalog.create s.table (.ofColumns s.columns)))
        return .status ("Table " ++ s.table ++ " created") : Action σ ResultSet)
          ⟨half, ids, warnings⟩)) := by
  have hnamed : (v.catalog.create s.table (.ofColumns s.columns)).Named := by
    intro entry he
    rcases OrderedMap.mem_entries_assign.1 he with rfl | ⟨-, he⟩
    · exact (Schema.declarable_ofColumns hsound.1 hsound.2).named
    · exact hn entry he
  obtain ⟨store', hw, hs'⟩ := E.saveCatalog hh hnamed
  rw [bind_ok (change_ok hw)]
  exact ⟨rfl, rfl, rfl, hs', hnamed⟩

theorem forget_realizes {s : Drop} {half : σ} (hh : Shows half (v.write s.table none)) :
    Outcome.Realizes Shows v ids s.table
      ⟨.ok (.status ("Table " ++ s.table ++ " dropped")), [], none, .dropped, 0⟩
      (.ofResult ((do
        change (Store.saveCatalog · (v.catalog.drop s.table))
        return .status ("Table " ++ s.table ++ " dropped") : Action σ ResultSet)
          ⟨half, ids, []⟩)) := by
  have hnamed : (v.catalog.drop s.table).Named := by
    intro entry he
    exact hn entry (OrderedMap.mem_entries_erase.1 he).1
  obtain ⟨store', hw, hs'⟩ := E.saveCatalog hh hnamed
  rw [bind_ok (change_ok hw)]
  exact ⟨rfl, rfl, rfl, hs', hnamed⟩

variable (hs : Shows store v)
include hs

theorem select_realizes (s : Select) :
    Outcome.Realizes Shows v ids s.table (.select (v.place room s.table) s)
      (.ofResult (select s ⟨store, ids, []⟩)) := by
  have hc := look_ok (x := ⟨store, ids, []⟩) (E.loadCatalog hs)
  have hl := E.load_eq hs s.table
  rw [select, Effect.select]
  cases hp : s.projection with
  | all =>
    dsimp only
    rw [bind_ok hc]
    cases hr : (v.place room s.table).load s.table with
    | ok records =>
      rw [bind_ok (look_ok (hl.trans hr))]
      exact realizes_answer hs hn s.table _ []
    | error e =>
      rw [bind_error (look_error (hl.trans hr))]
      exact realizes_answer hs hn s.table _ []
  | columns columns =>
    dsimp only
    cases hr : (v.place room s.table).load s.table with
    | ok records =>
      rw [bind_ok (look_ok (hl.trans hr)), bind_ok (forM_warn _ _)]
      exact realizes_answer hs hn s.table _ (s.warnings records)
    | error e =>
      rw [bind_error (look_error (hl.trans hr))]
      exact realizes_answer hs hn s.table _ []

theorem save_realizes {table : String} {records : List Record} (hp : v.tables table = some records)
    (warnings : List Warning) (n : Nat) (new : List Record) (message : String) :
    Outcome.Realizes Shows v ids table
      ⟨.ok (.status message), warnings, some (new.map keep), .kept, n⟩
      (.ofResult ((do
        change (Store.saveTable · table new)
        return .status message : Action σ ResultSet) ⟨store, ids.skip n, warnings⟩)) := by
  have hroom := E.room_of_present hs (Option.isSome_of_eq_some hp)
  obtain ⟨store', hw⟩ := E.saveTable_of_room new hs hroom
  rw [bind_ok (change_ok hw)]
  exact ⟨rfl, rfl, rfl, E.saveTable hs hw, hn⟩

theorem rewrite_realizes (table : String) (warnings : List Warning)
    (f : List Record → List Record) (message : List Record → String) :
    Outcome.Realizes Shows v ids table
      (.rewrite keep (v.place room table) table warnings 0 f message)
      (.ofResult ((do
        let records ← look (Store.loadTable · table)
        change (Store.saveTable · table (f records))
        return .status (message records) : Action σ ResultSet) ⟨store, ids, warnings⟩)) := by
  have hl := E.load_eq hs table
  rw [Effect.rewrite]
  cases hr : (v.place room table).load table with
  | ok records =>
    rw [bind_ok (look_ok (hl.trans hr))]
    exact save_realizes E hn hs (Place.records_of_load hr) warnings 0 (f records) (message records)
  | error e =>
    rw [bind_error (look_error (hl.trans hr))]
    exact realizes_answer hs hn table _ warnings

theorem update_realizes (s : Update) :
    Outcome.Realizes Shows v ids s.table (.update keep (v.place room s.table) s)
      (.ofResult (update s ⟨store, ids, []⟩)) := by
  rw [update, Effect.update]
  split
  · rw [bind_ok (warn_apply _ _)]
    exact rewrite_realizes E hn hs s.table _ _ _
  · exact rewrite_realizes E hn hs s.table [] _ _

theorem delete_realizes (s : Delete) :
    Outcome.Realizes Shows v ids s.table (.delete keep (v.place room s.table) s)
      (.ofResult (delete s ⟨store, ids, []⟩)) := by
  rw [delete, Effect.delete]
  split
  · rw [bind_ok (warn_apply _ _)]
    exact rewrite_realizes E hn hs s.table _ (fun _ => []) _
  · exact rewrite_realizes E hn hs s.table [] (fun _ => []) _

theorem insertInto_realizes (s : Insert) {columns : List String}
    (hc : s.columns.getD (v.place room s.table).columnNames = columns) :
    Outcome.Realizes Shows v ids s.table (.insert keep (v.place room s.table) ids s)
      (.ofResult ((do
        let records ← look (Store.loadTable · s.table)
        let new ← s.tuples.mapM (insertRecord columns)
        change (Store.saveTable · s.table (records ++ new))
        return .status (counted s.tuples.length "row" ++ " inserted") : Action σ ResultSet)
          ⟨store, ids, []⟩)) := by
  have hl := E.load_eq hs s.table
  rw [Effect.insert, Effect.rewrite, hc]
  cases hr : (v.place room s.table).load s.table with
  | ok records =>
    rw [bind_ok (look_ok (hl.trans hr)), bind_ok (mapM_insertRecord columns s.tuples _)]
    exact save_realizes E hn hs (Place.records_of_load hr) [] s.tuples.length _ _
  | error e =>
    rw [bind_error (look_error (hl.trans hr))]
    exact realizes_answer hs hn s.table _ []

theorem insert_realizes (s : Insert) :
    Outcome.Realizes Shows v ids s.table (.insert keep (v.place room s.table) ids s)
      (.ofResult (insert s ⟨store, ids, []⟩)) := by
  rw [insert]
  cases hs' : s.columns with
  | some columns => exact insertInto_realizes E hn hs s (by rw [hs']; rfl)
  | none =>
    dsimp only
    have hc := look_ok (x := ⟨store, ids, []⟩) (E.loadCatalog hs)
    rw [bind_ok hc]
    exact insertInto_realizes E hn hs s (by rw [hs']; rfl)

theorem create_realizes {s : Create} (hsound : (Statement.create s).Sound) :
    Outcome.Realizes Shows v ids s.table (.create (v.place room s.table) s)
      (.ofResult (create s ⟨store, ids, []⟩)) := by
  have hc := look_ok (x := ⟨store, ids, []⟩) (E.loadCatalog hs)
  rw [create, Effect.create, bind_ok hc]
  cases hr : (v.place room s.table).room with
  | ok u =>
    obtain ⟨half, hw⟩ := E.saveTable_of_room [] hs hr
    have hh := E.saveTable hs hw
    rw [bind_ok (change_ok hw), v.contains_eq_isSome room]
    dsimp only
    split
    · rw [bind_ok (warn_apply _ _)]
      exact declare_realizes E hn hsound hh _
    · exact declare_realizes E hn hsound hh []
  | error e =>
    rw [bind_error (change_error (E.saveTable_of_no_room [] hs hr))]
    exact realizes_answer hs hn s.table _ []

theorem drop_realizes (s : Drop) :
    Outcome.Realizes Shows v ids s.table (.drop (v.place room s.table) s)
      (.ofResult (drop s ⟨store, ids, []⟩)) := by
  have hc := look_ok (x := ⟨store, ids, []⟩) (E.loadCatalog hs)
  rw [drop, Effect.drop, bind_ok hc, bind_ok (get_apply _)]
  dsimp only
  rw [E.tableExists_eq hs, v.contains_eq_isSome room]
  by_cases ht : (v.place room s.table).records.isSome
  · obtain ⟨half, hd⟩ := E.deleteTable_of_present hs ht
    have hh := E.deleteTable hs hd
    rw [if_pos (.inl ht), if_pos ht, bind_ok (change_ok hd)]
    by_cases hm : (v.place room s.table).schema.isSome
    · rw [if_pos hm]
      exact forget_realizes E hn hh
    · rw [if_neg hm, ht]
      have hm' : ¬ v.catalog.contains s.table := by rwa [v.contains_eq_isSome room]
      have hdrop := Catalog.drop_of_not_contains hm'
      refine ⟨rfl, rfl, rfl, ?_, ?_⟩
      · rw [Effect.apply, Declaration.apply, hdrop]
        exact hh
      · rw [Effect.apply, Declaration.apply, hdrop]
        exact hn
  · rw [if_neg ht]
    by_cases hm : (v.place room s.table).schema.isSome
    · have hh : Shows store (v.write s.table none) := by
        rw [View.write_none_of_absent (Option.not_isSome_iff_eq_none.1 ht)]
        exact hs
      rw [if_pos (.inr hm), if_pos hm]
      exact forget_realizes E hn hh
    · rw [if_neg (not_or.2 ⟨ht, hm⟩), if_neg hm, if_pos (by simpa using ht)]
      exact realizes_answer hs hn s.table _ []

theorem run_realizes {s : Statement} (hsound : s.Sound) :
    Outcome.Realizes Shows v ids s.table (.of keep (v.place room s.table) ids s)
      (.ofResult (run s ⟨store, ids, []⟩)) := by
  cases s with
  | select s => exact select_realizes E hn hs s
  | insert s => exact insert_realizes E hn hs s
  | update s => exact update_realizes E hn hs s
  | delete s => exact delete_realizes E hn hs s
  | create s => exact create_realizes E hn hs hsound
  | drop s => exact drop_realizes E hn hs s

variable (ids) in
/-- On a store that shows a view, a statement comes to its effect on the view. -/
theorem execute_realizes {text : String} {s : Statement} (hp : parse text = .ok s) :
    Outcome.Realizes Shows v ids s.table (.of keep (v.place room s.table) ids s)
      (execute store ids text) := by
  rw [execute_of_parse_ok hp]
  exact run_realizes E hn hs (sound_of_parse hp)

end

end Engine

end DocBase
