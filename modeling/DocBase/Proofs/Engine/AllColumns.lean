import DocBase.Proofs.Engine.Transition
import DocBase.Proofs.OrderedMap
import DocBase.Store.Memory

namespace DocBase

open DocBase.Action DocBase.Sql

theorem Catalog.nodup_columnNames (c : Catalog) (table : String) : (c.columnNames table).Nodup := by
  rw [columnNames]
  split
  · next schema _ => exact schema.columns.distinct
  · exact .nil

theorem ResultSet.cell_of_mem {row : Row} {entry : String × Value} (h : entry ∈ row.entries) :
    cell row entry.1 = entry.2.display := by
  rw [cell, OrderedMap.get?_eq_some_iff.2 h]

namespace Engine

section
variable (declared : List String) (rows : List Row)

theorem allColumns_eq : allColumns declared rows = declared ++
    ((rows.flatMap OrderedMap.keys).filter fun column => decide (column ∉ declared)).eraseDups :=
  foldl_addNew declared _

theorem mem_allColumns_iff {column : String} :
    column ∈ allColumns declared rows ↔ column ∈ declared ∨ ∃ row ∈ rows, column ∈ row.keys := by
  rw [allColumns_eq, List.mem_append, List.mem_eraseDups, List.mem_filter, List.mem_flatMap,
    decide_eq_true_iff]
  by_cases h : column ∈ declared <;> simp [h]

end

theorem execute_select_all {σ : Type} [Store σ] {store : σ} {text : String} {s : Select}
    {catalog : Catalog} {records : List Record} (h : parse text = .ok (.select s))
    (hall : s.projection = .all) (hc : Store.loadCatalog store = .ok catalog)
    (hl : Store.loadTable store s.table = .ok records) (ids : IdSource) :
    (execute store ids text).result = .ok (.rows
      (allColumns (catalog.columnNames s.table) (records.map Record.fields))
      (records.map Record.fields)) := by
  have hrows : s.rows records = records.map Record.fields := by rw [Select.rows, hall]
  have hselect : select s ⟨store, ids, []⟩ = .ok (.rows
      (allColumns (catalog.columnNames s.table) (records.map Record.fields))
      (records.map Record.fields)) ⟨store, ids, []⟩ := by
    rw [select, hall]
    dsimp only
    rw [bind_ok (look_ok hc), bind_ok (look_ok hl), hrows]
    rfl
  rw [execute_of_parse_ok h, run, hselect]
  rfl

/-- A SELECT of all columns answers with all fields of all records in their order, whatever else it
asks for. Its columns are the declared ones, and behind them those that only records have, in the
order in which the records first show them; so no field is left out of the table. -/
theorem select_all_shows_every_field {σ : Type} [Store σ] {store : σ} {text : String} {s : Select}
    {catalog : Catalog} {records : List Record} (h : parse text = .ok (.select s))
    (hall : s.projection = .all) (hc : Store.loadCatalog store = .ok catalog)
    (hl : Store.loadTable store s.table = .ok records) (ids : IdSource) :
    let declared := catalog.columnNames s.table
    let rows := records.map Record.fields
    ∃ columns, (execute store ids text).result = .ok (.rows columns rows) ∧
      columns.Nodup ∧
      columns = declared ++
        ((rows.flatMap OrderedMap.keys).filter fun column => decide (column ∉ declared)).eraseDups ∧
      (∀ column, column ∈ columns ↔ column ∈ declared ∨ ∃ row ∈ rows, column ∈ row.keys) ∧
      ∀ row ∈ rows, ∀ entry ∈ row.entries, entry.1 ∈ columns ∧
        (ResultSet.rows columns rows).display = ResultSet.table columns rows ∧
        ResultSet.cell row entry.1 = entry.2.display := by
  intro declared rows
  refine ⟨_, execute_select_all h hall hc hl ids, ?_, allColumns_eq declared rows,
    fun column => mem_allColumns_iff declared rows, ?_⟩
  · exact nodup_foldl_addNew (catalog.nodup_columnNames s.table) _
  · intro row hrow entry hentry
    have hmem : entry.1 ∈ allColumns declared rows := by
      rw [mem_allColumns_iff]
      exact .inr ⟨row, hrow, OrderedMap.mem_keys_iff.2 ⟨entry.2, hentry⟩⟩
    refine ⟨hmem, ?_, ResultSet.cell_of_mem hentry⟩
    cases hcolumns : allColumns declared rows with
    | nil =>
      rw [hcolumns] at hmem
      cases hmem
    | cons column columns => rfl

/-- Records that lack a declared column and have fields that no column was declared for. -/
theorem select_all_shows_undeclared_fields :
    let store : MemoryStore :=
      ⟨.ofAssignments [("t", [⟨⟨"1"⟩, .ofAssignments [("x", .integer 1), ("a", .integer 2)]⟩,
          ⟨⟨"2"⟩, .ofAssignments [("y", .null), ("x", .text "z")]⟩])],
        ⟨.ofAssignments [("t", .ofColumns [("a", .integer), ("b", .text)])]⟩⟩
    let rows : List Row := [.ofAssignments [("x", .integer 1), ("a", .integer 2)],
      .ofAssignments [("y", .null), ("x", .text "z")]]
    let columns := ["a", "b", "x", "y"]
    (execute store ⟨0, 0, 0⟩ "SELECT * FROM t WHERE a = 2 ORDER BY x LIMIT 1").result =
        .ok (.rows columns rows) ∧
      (∀ row ∈ rows, ∀ entry ∈ row.entries, entry.1 ∈ columns) ∧
      (ResultSet.rows columns rows).display =
        "| a | b | x   | y    |\n" ++
        "|---|---|-----|------|\n" ++
        "| 2 |   | 1   |      |\n" ++
        "|   |   | \"z\" | NULL |\n" ++
        "(2 rows)" := by
  intro store rows columns
  have hparse : parse "SELECT * FROM t WHERE a = 2 ORDER BY x LIMIT 1" =
      .ok (.select ⟨.all, "t", some (.comparison ⟨none, "a"⟩ .equal (.integer 2)),
        [⟨⟨none, "x"⟩, .ascending⟩], some ⟨1, 0⟩⟩) := by
    decide +kernel
  have hload : Store.loadTable store "t" = .ok [⟨⟨"1"⟩, rows[0]⟩, ⟨⟨"2"⟩, rows[1]⟩] := by decide
  obtain ⟨shown, hresult, -, hshown, -, hfields⟩ :=
    select_all_shows_every_field hparse rfl rfl hload ⟨0, 0, 0⟩
  have hcolumns : shown = columns := hshown.trans (by decide)
  subst hcolumns
  exact ⟨hresult, fun row hrow entry hentry => (hfields row hrow entry hentry).1, by decide +kernel⟩

end Engine

end DocBase
