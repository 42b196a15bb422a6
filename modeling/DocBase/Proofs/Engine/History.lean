import DocBase.Proofs.Engine.Identifiers
import DocBase.Proofs.Engine.Writing
import DocBase.Proofs.Sql.Parsing

namespace DocBase.Engine

open DocBase.Sql

/-- A record as its history tells it: the identifier that it was given, and what has been written to
it, in order. -/
structure Account where
  id : RecordId
  writes : List (String × Value)

namespace Account

/-- The record of an account has each column where it was first written with the value that was last
written to it. -/
structure Tells (a : Account) (r : Record) : Prop where
  id : r.id = a.id
  columns : r.fields.keys = (a.writes.map Prod.fst).eraseDups
  values : ∀ column, r.get? column = lastValue? a.writes column

def add (a : Account) (writes : List (String × Value)) : Account :=
  { a with writes := a.writes ++ writes }

theorem Tells.unique {a : Account} {r s : Record} (hr : a.Tells r) (hs : a.Tells s) : r = s :=
  Record.ext (hr.id.trans hs.id.symm) (OrderedMap.ext_get? (hr.columns.trans hs.columns.symm)
    fun column => (hr.values column).trans (hs.values column).symm)

theorem Tells.assignAll {a : Account} {r : Record} (h : a.Tells r)
    (assignments : List Assignment) :
    (a.add (assigned assignments)).Tells (assignAll assignments r) where
  id := (assignAll_id assignments r).trans h.id
  columns := by
    rw [keys_assignAll, add, List.map_append, map_fst_assigned, List.eraseDups_append]
    simp only [h.columns, List.mem_eraseDups]
    simp [List.removeAll]
  values column := by
    rw [get?_assignAll, h.values, add]
    simp only [lastValue?, List.reverse_append, List.lookup_append]

theorem tells_unique {accounts : List Account} {records others : List Record}
    (h : List.Forall₂ Tells accounts records) (ho : List.Forall₂ Tells accounts others) :
    others = records := by
  induction h generalizing others with
  | nil =>
    cases ho
    rfl
  | cons hr _ ih =>
    cases ho with
    | cons hs hrest => rw [hs.unique hr, ih hrest]

/-- The accounts of new records: each tuple is given the next identifier and paired with the
columns. -/
def ofTuples (ids : IdSource) (columns : List String) (tuples : List (List Value)) :
    List Account :=
  List.zipWith mk (ids.following tuples.length)
    (tuples.map fun tuple => columns.zip (tuple.map Value.stored))

theorem tells_newRecords (ids : IdSource) (columns : List String) (tuples : List (List Value)) :
    List.Forall₂ Tells (ofTuples ids columns tuples) (newRecords ids columns tuples) := by
  induction tuples generalizing ids with
  | nil => exact .nil
  | cons tuple tuples ih =>
    refine .cons ⟨rfl, ?_, fun column => get?_fieldsOf columns tuple column⟩ (ih _)
    rw [keys_fieldsOf, map_fst_zip_eq_take, List.length_map]

end Account

namespace Event

def clears (table : String) (e : Event) : Bool :=
  match e.statement with
  | .create s => s.table = table
  | .delete s => s.table = table
  | _ => false

def declare (table : String) (columns : List String) (e : Event) : List String :=
  match e.statement with
  | .create s => if s.table = table then (s.columns.map Prod.fst).eraseDups else columns
  | .drop s => if s.table = table then [] else columns
  | _ => columns

/-- The records that the event adds to a table whose declared columns are `columns`. -/
def inserts (table : String) (columns : List String) (e : Event) : List Account :=
  match e.statement with
  | .insert s =>
    if s.table = table then Account.ofTuples e.ids (s.columns.getD columns) s.tuples else []
  | _ => []

def rewrite (table : String) (a : Account) (e : Event) : Account :=
  match e.statement with
  | .update s => if s.table = table then a.add (assigned s.assignments) else a
  | _ => a

theorem inserts_of_clears {table : String} {columns : List String} {e : Event}
    (h : e.clears table) : e.inserts table columns = [] := by
  obtain ⟨statement, ids⟩ := e
  cases statement with
  | insert s => cases h
  | _ => rfl

end Event

/-- The declared columns of a table after a history that began with `columns`. -/
def columnsAfter (table : String) (columns : List String) (history : List Event) : List String :=
  history.foldl (Event.declare table) columns

/-- The records of a table after a history that found it empty with declared columns `columns`. An
event adds records unless a later one clears the table, and they pass through all later events. -/
def accountsAfter (table : String) (columns : List String) : List Event → List Account
  | [] => []
  | e :: later =>
    (if later.any (Event.clears table) then []
      else (e.inserts table columns).map fun a => later.foldl (Event.rewrite table) a) ++
    accountsAfter table (e.declare table columns) later

def report? (history : List Event) : Statement → Option String
  | .insert s => some (counted s.tuples.length "row" ++ " inserted")
  | .update s => some (counted (accountsAfter s.table [] history).length "row" ++ " updated")
  | .delete s => some (counted (accountsAfter s.table [] history).length "row" ++ " deleted")
  | _ => none

theorem columnsAfter_snoc (table : String) (columns : List String) (history : List Event)
    (e : Event) : columnsAfter table columns (history ++ [e]) =
      e.declare table (columnsAfter table columns history) := by
  rw [columnsAfter, List.foldl_append]
  rfl

/-- One more event clears the table, or passes over its records and adds to them. -/
theorem accountsAfter_snoc (table : String) (columns : List String) (history : List Event)
    (e : Event) : accountsAfter table columns (history ++ [e]) =
      if e.clears table then []
      else (accountsAfter table columns history).map (fun r => Event.rewrite table r e) ++
        e.inserts table (columnsAfter table columns history) := by
  induction history generalizing columns with
  | nil =>
    by_cases hc : e.clears table
    · simp [accountsAfter, hc, Event.inserts_of_clears hc]
    · simp [accountsAfter, columnsAfter, hc]
  | cons first later ih =>
    have hd : columnsAfter table columns (first :: later) =
        columnsAfter table (first.declare table columns) later := rfl
    rw [List.cons_append, accountsAfter, accountsAfter, ih, hd]
    -- An event that clears the table takes with it what `first` inserted.
    by_cases hc : e.clears table
    · have ha : (later ++ [e]).any (Event.clears table) := by simp [hc]
      rw [if_pos ha, if_pos hc, if_pos hc, List.append_nil]
    · have ha : (later ++ [e]).any (Event.clears table) = later.any (Event.clears table) := by
        simp [hc]
      rw [ha, if_neg hc, if_neg hc, List.map_append, ← List.append_assoc]
      congr 2
      split
      · rfl
      · simp only [List.map_map, List.foldl_append, List.foldl_cons, List.foldl_nil]
        rfl

section
variable {table : String} {e : Event} (h : e.statement.table ≠ table)
include h

theorem Event.clears_of_ne : e.clears table = false := by
  obtain ⟨statement, ids⟩ := e
  cases statement with
  | create s => exact decide_eq_false h
  | delete s => exact decide_eq_false h
  | _ => rfl

theorem Event.inserts_of_ne (columns : List String) : e.inserts table columns = [] := by
  obtain ⟨statement, ids⟩ := e
  cases statement with
  | insert s => exact if_neg h
  | _ => rfl

theorem Event.rewrite_of_ne (a : Account) : e.rewrite table a = a := by
  obtain ⟨statement, ids⟩ := e
  cases statement with
  | update s => exact if_neg h
  | _ => rfl

theorem accountsAfter_snoc_of_ne (columns : List String) (history : List Event) :
    accountsAfter table columns (history ++ [e]) = accountsAfter table columns history := by
  rw [accountsAfter_snoc, Event.clears_of_ne h, Event.inserts_of_ne h, List.append_nil]
  simp only [Bool.false_eq_true, if_false, Event.rewrite_of_ne h, List.map_id']

end

/-- A store in memory that holds what the history of its run tells. -/
structure Run.Recorded (r : Run MemoryStore) : Prop where
  named : ∀ table ∈ r.store.tables.keys, isTableName table
  declared : ∀ table, r.store.catalog.columnNames table = columnsAfter table [] r.history
  stored : ∀ table records, r.store.tables.get? table = some records →
    List.Forall₂ Account.Tells (accountsAfter table [] r.history) records

namespace Run.Recorded

variable {r : Run MemoryStore}

theorem start (ids : IdSource) : (Run.start MemoryStore.empty ids).Recorded where
  named _ h := by cases h
  declared _ := rfl
  stored _ _ h := by cases h

theorem loadTable (h : r.Recorded) {table : String} {records : List Record}
    (hl : Store.loadTable r.store table = .ok records) :
    List.Forall₂ Account.Tells (accountsAfter table [] r.history) records :=
  h.stored table records (MemoryStore.loadTable_eq_ok_iff.1 hl).2

theorem columnsFor (h : r.Recorded) {s : Insert} {columns : List String}
    (hc : columnsFor r.store s = .ok columns) :
    columns = s.columns.getD (columnsAfter s.table [] r.history) := by
  rw [Engine.columnsFor] at hc
  cases hs : s.columns with
  | some given =>
    rw [hs] at hc
    cases hc
    rfl
  | none =>
    rw [hs] at hc
    cases hc
    exact h.declared s.table

theorem report (h : r.Recorded) {s : Statement} {message expected : String}
    {records : List Record} {ids : IdSource} (hr : Rewrites r.store r.ids s records message ids)
    (he : report? r.history s = some expected) : message = expected := by
  cases hr with
  | insert => exact Option.some.inj he
  | update hl =>
    rw [← (h.loadTable hl).length_eq]
    exact Option.some.inj he
  | delete hl =>
    rw [← (h.loadTable hl).length_eq]
    exact Option.some.inj he

theorem rewrites (h : r.Recorded) {s : Statement} {message : String} {records : List Record}
    {ids : IdSource} (hr : Rewrites r.store r.ids s records message ids) :
    List.Forall₂ Account.Tells (accountsAfter s.table [] (r.history ++ [⟨s, r.ids⟩])) records := by
  rw [accountsAfter_snoc]
  cases hr with
  | @insert s columns records hc hl =>
    have hnew := Account.tells_newRecords r.ids columns s.tuples
    rw [h.columnsFor hc] at hnew ⊢
    simpa [Event.clears, Event.rewrite, Event.inserts, Statement.table] using
      List.rel_append (h.loadTable hl) hnew
  | @update s records hl =>
    have hall : List.Forall₂ Account.Tells
        ((accountsAfter s.table [] r.history).map (·.add (assigned s.assignments)))
        (records.map (assignAll s.assignments)) :=
      List.rel_map (fun _ _ ht => ht.assignAll s.assignments) (h.loadTable hl)
    simpa [Event.clears, Event.rewrite, Event.inserts, Statement.table] using hall
  | delete hl => simp [Event.clears, Statement.table]

theorem columnsAfter_of_rewrites {s : Statement} {message : String} {records : List Record}
    {ids : IdSource} (hr : Rewrites r.store r.ids s records message ids) (table : String)
    (columns : List String) (history : List Event) :
    columnsAfter table columns (history ++ [⟨s, r.ids⟩]) = columnsAfter table columns history := by
  rw [columnsAfter_snoc]
  cases hr <;> rfl

theorem saved (h : r.Recorded) {s : Statement} {records : List Record} {ids : IdSource}
    (hn : isTableName s.table)
    (hr : List.Forall₂ Account.Tells (accountsAfter s.table [] (r.history ++ [⟨s, r.ids⟩])) records)
    {catalog : Catalog}
    (hd : ∀ table, catalog.columnNames table = columnsAfter table [] (r.history ++ [⟨s, r.ids⟩])) :
    Recorded ⟨⟨r.store.tables.assign s.table records, catalog⟩, ids,
      r.history ++ [⟨s, r.ids⟩]⟩ where
  named table ht := by
    rcases OrderedMap.mem_keys_assign.1 ht with rfl | ht
    · exact hn
    · exact h.named table ht
  declared := hd
  stored table found hf := by
    rw [OrderedMap.get?_assign] at hf
    split at hf
    · next he =>
      cases hf
      rw [he]
      exact hr
    · next hne =>
      rw [accountsAfter_snoc_of_ne (Ne.symm hne)]
      exact h.stored table found hf

theorem dropped (h : r.Recorded) {s : Drop} {store : MemoryStore} {ids : IdSource}
    (hn : ∀ table ∈ store.tables.keys, isTableName table)
    (ht : ∀ table records, store.tables.get? table = some records →
      table ≠ s.table ∧ r.store.tables.get? table = some records)
    (hd : ∀ table, store.catalog.columnNames table =
      if table = s.table then [] else r.store.catalog.columnNames table) :
    Recorded ⟨store, ids, r.history ++ [⟨.drop s, r.ids⟩]⟩ where
  named := hn
  declared table := by
    rw [columnsAfter_snoc]
    by_cases he : table = s.table
    · simp [hd, he, Event.declare]
    · simp [hd, he, Ne.symm he, Event.declare, h.declared]
  stored table found hf := by
    obtain ⟨hne, hf⟩ := ht table found hf
    rw [accountsAfter_snoc_of_ne (Ne.symm hne)]
    exact h.stored table found hf

theorem next (h : r.Recorded) (text : String) : (r.next text).Recorded := by
  cases hp : parse text with
  | error e =>
    rw [next_of_parse_error hp]
    exact h
  | ok s =>
    have ht : Transition r.store r.ids _ _ := execute_transition hp
    generalize ho : execute r.store r.ids text = o at ht
    cases ht with
    -- A refused statement may have used up identifiers, which no record has.
    | refused e warnings n =>
      rw [next_of_error ho]
      exact ⟨h.named, h.declared, h.stored⟩
    | @selected s result warnings =>
      rw [next_of_ok hp ho]
      refine ⟨h.named, ?_, ?_⟩
      · intro table
        rw [columnsAfter_snoc]
        exact h.declared table
      · intro table records hf
        rw [accountsAfter_snoc]
        simpa [Event.clears, Event.rewrite, Event.inserts] using h.stored table records hf
    | rewritten warnings hr hs =>
      obtain ⟨hn, rfl⟩ := MemoryStore.saveTable_eq_ok_iff.1 hs
      rw [next_of_ok hp ho]
      apply h.saved hn (h.rewrites hr)
      intro table
      rw [columnsAfter_of_rewrites hr]
      exact h.declared table
    | @created s catalog half store' warnings hc hs hd =>
      cases MemoryStore.loadCatalog_eq_ok_iff.1 hc
      obtain ⟨hn, rfl⟩ := MemoryStore.saveTable_eq_ok_iff.1 hs
      cases MemoryStore.saveCatalog_eq_ok_iff.1 hd
      rw [next_of_ok hp ho]
      apply h.saved (s := .create s) hn
      · rw [accountsAfter_snoc]
        simp [Event.clears, Statement.table]
      · intro table
        rw [columnsAfter_snoc, Catalog.columnNames_create, Schema.columnNames_ofColumns, h.declared]
        simp [Event.declare, eq_comm]
    -- The catalog of a store in memory can always be saved.
    | halfCreated warnings hc hs hd => cases hd
    | @dropped s catalog half store' hc hd hm hs =>
      cases MemoryStore.loadCatalog_eq_ok_iff.1 hc
      cases MemoryStore.saveCatalog_eq_ok_iff.1 hs
      rw [next_of_ok hp ho]
      obtain ⟨hk, ht, -⟩ := MemoryStore.discard_eq_ok hd
      refine h.dropped (fun table hm => h.named table (hk table hm)) ht ?_
      intro table
      exact Catalog.columnNames_drop _ _ _
    | halfDropped hc hd hm hs => cases hs
    | @undeclaredDropped s catalog store' hc hx hm hd =>
      cases MemoryStore.loadCatalog_eq_ok_iff.1 hc
      rw [next_of_ok hp ho]
      have hd : discard r.store s.table = .ok store' := by rw [discard, if_pos hx, hd]
      obtain ⟨hk, ht, hc⟩ := MemoryStore.discard_eq_ok hd
      apply h.dropped (fun table hm => h.named table (hk table hm)) ht
      intro table
      rw [hc]
      split
      · next he => rw [he, Catalog.columnNames_of_not_contains hm]
      · rfl

end Run.Recorded

theorem recorded_ofTexts (ids : IdSource) (texts : List String) :
    (Run.ofTexts MemoryStore.empty ids texts).Recorded :=
  Run.invariant (.start ids) (fun _ text h => h.next text) texts

/-- After any run from the empty store, a table that exists holds one record for each account that
the history of the run gives of it, and nothing else could be told by these accounts. What the next
statement reports if it succeeds is what the history tells too. -/
theorem run_tells_records (ids : IdSource) (texts : List String) :
    let r := Run.ofTexts MemoryStore.empty ids texts
    (∀ table, Store.tableExists r.store table →
      ∃ records, Store.loadTable r.store table = .ok records ∧
        ∀ others, List.Forall₂ Account.Tells (accountsAfter table [] r.history) others ↔
          others = records) ∧
    ∀ text statement answer message, parse text = .ok statement →
      (execute r.store r.ids text).result = .ok answer →
      report? r.history statement = some message → answer = .status message := by
  intro r
  have h : r.Recorded := recorded_ofTexts ids texts
  constructor
  · intro table ht
    rw [MemoryStore.tableExists_eq] at ht
    obtain ⟨records, hg⟩ := Option.isSome_iff_exists.1 ht
    have hn := h.named table (OrderedMap.isSome_get?_iff.1 ht)
    have htells := h.stored table records hg
    refine ⟨records, MemoryStore.loadTable_eq_ok_iff.2 ⟨hn, hg⟩, ?_⟩
    intro others
    constructor
    · exact Account.tells_unique htells
    · rintro rfl
      exact htells
  · intro text statement answer message hp ha hm
    have ht : Transition r.store r.ids _ _ := execute_transition hp
    generalize execute r.store r.ids text = o at ht ha
    cases ht with
    | rewritten warnings hr hs =>
      cases ha
      rw [h.report hr hm]
    | refused | halfCreated | halfDropped => cases ha
    | selected | created | dropped | undeclaredDropped => cases hm

/-- Rows of a column list, of the declared columns and of a tuple that is too short are rewritten,
and are still there to delete when a statement fails. -/
theorem run_tells_records_of_three_rows :
    let r := Run.ofTexts MemoryStore.empty ⟨0, 0, 0⟩
      ["CREATE TABLE t (a INT, b TEXT)", "INSERT INTO t VALUES (1, 'p'), (2)",
        "INSERT INTO t (b, c, b) VALUES ('q', 3, 'r')", "DROP TABLE u",
        "UPDATE t SET c = 'x', a = NULL, c = 'y' WHERE a = 9"]
    Store.tableExists r.store "t" ∧
      (∃ records, Store.loadTable r.store "t" = .ok records ∧
        List.Forall₂ Account.Tells (accountsAfter "t" [] r.history) records ∧
        records.map (fun r => (r.id.text, r.fields.entries)) =
          [("00000000-0000-7000-8000-000000000000",
            [("a", .null), ("b", .text "p"), ("c", .text "y")]),
          ("00000000-0000-7000-8000-000000000001", [("a", .null), ("c", .text "y")]),
          ("00000000-0000-7000-8000-000000000002",
            [("b", .text "r"), ("c", .text "y"), ("a", .null)])]) ∧
      ∀ answer, (execute r.store r.ids "DELETE FROM t").result = .ok answer →
        answer = .status "3 rows deleted" := by
  intro r
  have hp : parse "DELETE FROM t" = .ok (.delete ⟨"t", none⟩) :=
    parse_eq_ok_of_toOption (by decide +kernel)
  have hrun : Store.tableExists r.store "t" ∧
      (Store.loadTable r.store "t").toOption.map
        (List.map fun r => (r.id.text, r.fields.entries)) = some
          [("00000000-0000-7000-8000-000000000000",
            [("a", .null), ("b", .text "p"), ("c", .text "y")]),
          ("00000000-0000-7000-8000-000000000001", [("a", .null), ("c", .text "y")]),
          ("00000000-0000-7000-8000-000000000002",
            [("b", .text "r"), ("c", .text "y"), ("a", .null)])] ∧
      report? r.history (.delete ⟨"t", none⟩) = some "3 rows deleted" := by decide +kernel
  obtain ⟨hx, hshown, hm⟩ := hrun
  obtain ⟨hload, hreport⟩ := run_tells_records ⟨0, 0, 0⟩
    ["CREATE TABLE t (a INT, b TEXT)", "INSERT INTO t VALUES (1, 'p'), (2)",
      "INSERT INTO t (b, c, b) VALUES ('q', 3, 'r')", "DROP TABLE u",
      "UPDATE t SET c = 'x', a = NULL, c = 'y' WHERE a = 9"]
  obtain ⟨records, hrecords, htells⟩ := hload "t" hx
  rw [hrecords] at hshown
  refine ⟨hx, ⟨records, hrecords, (htells records).2 rfl, Option.some.inj hshown⟩, ?_⟩
  intro answer ha
  exact hreport _ _ _ _ hp ha hm

end DocBase.Engine
