import DocBase.Proofs.OrderedMap
import DocBase.ResultSet
import DocBase.Sql.Parser.Statement

namespace DocBase.Query

open Sql

theorem project_eq_ofInsertions (columns : List ColumnRef) (r : Record) :
    project columns r =
      .ofInsertions (columns.filterMap fun c => (r.get? c.name).map (c.name, ·)) := by
  rw [OrderedMap.ofInsertions, List.foldl_filterMap, project]
  congr
  funext row column
  cases r.get? column.name <;> rfl

/-- The names asked for that a record has a field under, as often as they are asked for. -/
def present (columns : List ColumnRef) (r : Record) : List String :=
  (columns.map ColumnRef.name).filter fun name => (r.get? name).isSome

/-- The fields of a record under these names, in the order of the names. -/
def cells (r : Record) (names : List String) : List (String × Value) :=
  names.filterMap fun name => (r.get? name).map (name, ·)

theorem map_fst_cells {r : Record} {names : List String} (h : ∀ name ∈ names, (r.get? name).isSome) :
    (cells r names).map Prod.fst = names := by
  induction names with
  | nil => rfl
  | cons name names ih =>
    obtain ⟨hname, hnames⟩ := List.forall_mem_cons.1 h
    obtain ⟨value, hvalue⟩ := Option.isSome_iff_exists.1 hname
    rw [cells, List.filterMap_cons, hvalue]
    exact congrArg (name :: ·) (ih hnames)

theorem cells_filter_isSome (r : Record) (names : List String) :
    cells r (names.filter fun name => (r.get? name).isSome) = cells r names := by
  rw [cells, List.filterMap_filter]
  apply List.filterMap_congr
  intro name _
  cases r.get? name <;> rfl

variable (columns : List ColumnRef) (r : Record)

theorem isSome_of_mem_present {name : String} (h : name ∈ present columns r) :
    (r.get? name).isSome :=
  (List.mem_filter.1 h).2

theorem project_eq_ofInsertions_cells :
    project columns r = .ofInsertions (cells r (present columns r)) := by
  rw [project_eq_ofInsertions, present, cells_filter_isSome, cells, List.filterMap_map]
  rfl

theorem keys_project : (project columns r).keys = (present columns r).dedup := by
  rw [project_eq_ofInsertions_cells, OrderedMap.keys_ofInsertions,
    map_fst_cells fun _ => isSome_of_mem_present columns r]

theorem get?_of_mem_entries_project {entry : String × Value}
    (h : entry ∈ (project columns r).entries) : r.get? entry.1 = some entry.2 := by
  rw [project_eq_ofInsertions_cells] at h
  obtain ⟨name, -, hname⟩ := List.mem_filterMap.1 (OrderedMap.mem_of_mem_ofInsertions h)
  obtain ⟨value, hvalue, rfl⟩ := Option.map_eq_some_iff.1 hname
  exact hvalue

/-- A row holds what the record has under the names asked for, and nothing else. -/
theorem get?_project (name : String) : (project columns r).get? name =
    if name ∈ columns.map ColumnRef.name then r.get? name else none := by
  cases h : (project columns r).get? name with
  | some value =>
    have hentry := OrderedMap.get?_eq_some_iff.1 h
    have hname : name ∈ present columns r := by
      rw [← List.mem_dedup, ← keys_project]
      exact OrderedMap.mem_keys_iff.2 ⟨value, hentry⟩
    rw [if_pos (List.mem_filter.1 hname).1]
    exact (get?_of_mem_entries_project columns r hentry).symm
  | none =>
    have hname : name ∉ present columns r := by
      rw [← List.mem_dedup, ← keys_project, ← OrderedMap.isSome_get?_iff, h]
      exact Bool.false_ne_true
    split
    · next hm =>
      by_contra hne
      exact hname (List.mem_filter.2 ⟨hm, Option.isSome_iff_ne_none.2 (Ne.symm hne)⟩)
    · rfl

theorem entries_project : (project columns r).entries = cells r (present columns r).dedup := by
  rw [OrderedMap.entries_eq_filterMap, keys_project]
  apply List.filterMap_congr
  intro name hname
  rw [← keys_project] at hname
  obtain ⟨value, hentry⟩ := OrderedMap.mem_keys_iff.1 hname
  rw [OrderedMap.get?_eq_some_iff.2 hentry, get?_of_mem_entries_project columns r hentry]

theorem dedup_perm_eraseDups (names : List String) : names.dedup.Perm names.eraseDups := by
  rw [List.perm_ext_iff_of_nodup names.nodup_dedup (nodup_eraseDups names)]
  intro name
  rw [List.mem_dedup, List.mem_eraseDups]

/-- A row has each field asked for once, with the value of the record, in the order in which the
columns mention them last; and so has its object. This is the order of first mention exactly if the
two orders are the same for the names that the record has. -/
theorem project_in_order_of_last_mention :
    (project columns r).entries = cells r (present columns r).dedup ∧
    Document.ofFields (project columns r) =
      .object ((cells r (present columns r).dedup).map fun (name, value) => (name, .scalar value)) ∧
    (project columns r).entries.Perm (cells r (present columns r).eraseDups) ∧
    ((project columns r).entries = cells r (present columns r).eraseDups ↔
      (present columns r).dedup = (present columns r).eraseDups) := by
  have hentries := entries_project columns r
  refine ⟨hentries, ?_, ?_, ?_⟩
  · rw [Document.ofFields, hentries]
  · rw [hentries]
    exact (dedup_perm_eraseDups _).filterMap _
  · rw [hentries]
    constructor
    · intro h
      have hnames := congrArg (List.map Prod.fst) h
      rwa [map_fst_cells fun name hn => isSome_of_mem_present columns r (List.mem_dedup.1 hn),
        map_fst_cells fun name hn => isSome_of_mem_present columns r (List.mem_eraseDups.1 hn)]
        at hnames
    · intro h
      rw [h]

/-- A column that is asked for again behind another one stands behind that one. -/
theorem project_moves_repeated_column :
    let columns : List ColumnRef := [⟨none, "a"⟩, ⟨none, "b"⟩, ⟨none, "a"⟩]
    let r : Record := ⟨⟨"1"⟩, .ofAssignments [("a", .integer 1), ("b", .integer 2)]⟩
    parse "SELECT a, b, a FROM t" = .ok (.select ⟨.columns columns, "t", none, [], none⟩) ∧
      (project columns r).entries = [("b", .integer 2), ("a", .integer 1)] ∧
      (Document.ofFields (project columns r)).write .compact = "\x7b\"b\":2,\"a\":1\x7d" ∧
      cells r (present columns r).eraseDups = [("a", .integer 1), ("b", .integer 2)] ∧
      (project columns r).entries ≠ cells r (present columns r).eraseDups := by
  decide +kernel

end DocBase.Query
