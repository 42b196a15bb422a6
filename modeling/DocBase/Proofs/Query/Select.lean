import DocBase.Proofs.Query.Order
import DocBase.Proofs.Query.Projection
import DocBase.Proofs.Query.Truth

namespace DocBase.Query

open Sql

/-- Whether a key puts one record before another. A record that has the column comes first; of two
that have it, the greater value does in ascending order and the smaller one in descending order. -/
def PrecedesBy (key : OrderKey) (a b : Record) : Prop :=
  match a.get? key.column.name, b.get? key.column.name, key.direction with
  | some _, none, _ => True
  | some v, some w, .ascending => Value.compareForSort (some v) (some w) = .gt
  | some v, some w, .descending => Value.compareForSort (some v) (some w) = .lt
  | none, _, _ => False

def TiedBy (key : OrderKey) (a b : Record) : Prop :=
  match a.get? key.column.name, b.get? key.column.name with
  | none, none => True
  | some v, some w => Value.compareForSort (some v) (some w) = .eq
  | _, _ => False

/-- Whether the first key that does not tie two records puts the one before the other. -/
def Precedes : List OrderKey → Record → Record → Prop
  | [], _, _ => False
  | key :: keys, a, b => PrecedesBy key a b ∨ TiedBy key a b ∧ Precedes keys a b

def Tied (keys : List OrderKey) (a b : Record) : Prop := ∀ key ∈ keys, TiedBy key a b

/-- The records found in the order that the keys ask for, those tied on all keys as they were. -/
structure Arranges (keys : List OrderKey) (found arranged : List Record) : Prop where
  perm : arranged.Perm found
  inOrder : arranged.Pairwise fun a b => Precedes keys a b ∨ Tied keys a b ∧ [a, b].Sublist found

theorem compareByKey_eq_lt_iff {key : OrderKey} {a b : Record} :
    compareByKey key a b = .lt ↔ PrecedesBy key a b := by
  unfold compareByKey PrecedesBy
  cases a.get? key.column.name with
  | none => cases b.get? key.column.name <;> cases key.direction <;> simp [Value.compareForSort]
  | some v => cases b.get? key.column.name <;> cases key.direction <;> simp

theorem compareByKey_eq_eq_iff {key : OrderKey} {a b : Record} :
    compareByKey key a b = .eq ↔ TiedBy key a b := by
  unfold compareByKey TiedBy
  cases a.get? key.column.name with
  | none => cases b.get? key.column.name <;> cases key.direction <;> simp [Value.compareForSort]
  | some v => cases b.get? key.column.name <;> cases key.direction <;> simp

theorem compareRecords_eq_lt_iff {keys : List OrderKey} {a b : Record} :
    compareRecords keys a b = .lt ↔ Precedes keys a b := by
  induction keys with
  | nil => exact iff_of_false nofun id
  | cons key keys ih =>
    rw [compareRecords, Ordering.then_eq_lt, compareByKey_eq_lt_iff, compareByKey_eq_eq_iff, ih]
    rfl

theorem compareRecords_eq_eq_iff {keys : List OrderKey} {a b : Record} :
    compareRecords keys a b = .eq ↔ Tied keys a b := by
  induction keys with
  | nil => exact iff_of_true rfl nofun
  | cons key keys ih =>
    rw [compareRecords, Ordering.then_eq_eq, compareByKey_eq_eq_iff, ih]
    exact (List.forall_mem_cons (p := fun key => TiedBy key a b)).symm

theorem pair_sublist_or {α : Type} {l : List α} {a b : α} (ha : a ∈ l) (hb : b ∈ l) (hne : a ≠ b) :
    [a, b].Sublist l ∨ [b, a].Sublist l := by
  induction l with
  | nil => cases ha
  | cons c l ih =>
    rcases List.mem_cons.1 ha with rfl | ha'
    · rcases List.mem_cons.1 hb with rfl | hb'
      · exact absurd rfl hne
      · exact .inl ((List.singleton_sublist.2 hb').cons_cons _)
    · rcases List.mem_cons.1 hb with rfl | hb'
      · exact .inr ((List.singleton_sublist.2 ha').cons_cons _)
      · exact (ih ha' hb').imp (.cons c) (.cons c)

theorem eq_of_pair_sublists {α : Type} {l : List α} (distinct : l.Nodup) {a b : α}
    (hab : [a, b].Sublist l) (hba : [b, a].Sublist l) : a = b := by
  induction l with
  | nil => cases hab
  | cons c l ih =>
    obtain ⟨hc, distinct⟩ := List.nodup_cons.1 distinct
    rcases List.cons_sublist_cons'.1 hab with hab' | ⟨rfl, hb⟩
    · rcases List.cons_sublist_cons'.1 hba with hba' | ⟨rfl, _⟩
      · exact ih distinct hab' hba'
      · exact absurd (hab'.subset (by simp)) hc
    · rcases List.cons_sublist_cons'.1 hba with hba' | ⟨rfl, _⟩
      · exact absurd (hba'.subset (by simp)) hc
      · rfl

section
variable (keys : List OrderKey) (a b c : { r : Record // r.OrderedOn keys })

theorem isLE_trans (hab : (compareRecords keys a.1 b.1).isLE)
    (hbc : (compareRecords keys b.1 c.1).isLE) : (compareRecords keys a.1 c.1).isLE :=
  (transCmp_compareRecords_comp (Subtype.val (p := Record.OrderedOn keys))
    Subtype.property).isLE_trans hab hbc

theorem compareRecords_swap :
    compareRecords keys a.1 b.1 = (compareRecords keys b.1 a.1).swap :=
  (transCmp_compareRecords_comp (Subtype.val (p := Record.OrderedOn keys))
    Subtype.property).eq_swap

theorem isLE_total : (compareRecords keys a.1 b.1).isLE || (compareRecords keys b.1 a.1).isLE := by
  rw [compareRecords_swap]
  cases compareRecords keys b.1 a.1 <;> rfl

end

theorem sort_map {ι : Type} (f : ι → Record) (l : List ι) (keys : List OrderKey) :
    sort (l.map f) keys =
      (l.mergeSort fun i j => (compareRecords keys (f i) (f j)).isLE).map f :=
  (List.map_mergeSort (s := fun a b => (compareRecords keys a b).isLE) fun _ _ _ _ => rfl).symm

section
variable {keys : List OrderKey} {found : List Record} (ordered : ∀ r ∈ found, r.OrderedOn keys)
include ordered

/-- Records are compared by an order only where they have no NaN, so they are sorted with the proof
that they have none. -/
theorem exists_sort_eq_map : ∃ l : List { r : Record // r.OrderedOn keys },
    l.map Subtype.val = found ∧
      sort found keys = (l.mergeSort fun a b => (compareRecords keys a.1 b.1).isLE).map
        Subtype.val := by
  have hl := List.attachWith_map_subtype_val ordered
  refine ⟨found.attachWith _ ordered, hl, ?_⟩
  rw [← sort_map, hl]

theorem pairwise_sort : (sort found keys).Pairwise fun a b => (compareRecords keys a b).isLE := by
  obtain ⟨l, -, hs⟩ := exists_sort_eq_map ordered
  rw [hs, List.pairwise_map]
  exact List.pairwise_mergeSort (isLE_trans keys) (isLE_total keys) l

theorem pair_sublist_sort {a b : Record} (hle : (compareRecords keys a b).isLE)
    (h : [a, b].Sublist found) : [a, b].Sublist (sort found keys) := by
  obtain ⟨l, rfl, hs⟩ := exists_sort_eq_map ordered
  obtain ⟨l', hl, he⟩ := List.sublist_map_iff.1 h
  have hlength : l'.length = 2 := by rw [← List.length_map Subtype.val, ← he]; rfl
  obtain ⟨x, y, rfl⟩ := List.length_eq_two.1 hlength
  cases he
  rw [hs]
  exact (List.pair_sublist_mergeSort (isLE_trans keys) (isLE_total keys) hle hl).map Subtype.val

theorem swap_of_mem {a b : Record} (ha : a ∈ found) (hb : b ∈ found) :
    compareRecords keys a b = (compareRecords keys b a).swap :=
  compareRecords_swap keys ⟨a, ordered a ha⟩ ⟨b, ordered b hb⟩

variable (distinct : found.Nodup)
include distinct

theorem arranges_sort : Arranges keys found (sort found keys) := by
  have hperm : (sort found keys).Perm found := List.mergeSort_perm found _
  refine ⟨hperm, List.pairwise_iff_forall_sublist.2 ?_⟩
  intro a b hab
  have ha : a ∈ found := hperm.subset (hab.subset (by simp))
  have hb : b ∈ found := hperm.subset (hab.subset (by simp))
  have hsorted : (sort found keys).Nodup := hperm.nodup_iff.2 distinct
  have hle := List.pairwise_iff_forall_sublist.1 (pairwise_sort ordered) hab
  rcases Ordering.isLE_iff_eq_lt_or_eq_eq.1 hle with hlt | htied
  · exact .inl (compareRecords_eq_lt_iff.1 hlt)
  · refine .inr ⟨compareRecords_eq_eq_iff.1 htied, ?_⟩
    have hne : a ≠ b := by
      intro he
      subst he
      exact List.nodup_iff_sublist.1 hsorted a hab
    -- Had they stood the other way, sorting would have kept them so.
    apply (pair_sublist_or ha hb hne).resolve_right
    intro hba
    have hge : (compareRecords keys b a).isLE := by
      rw [swap_of_mem ordered hb ha, htied]
      rfl
    exact hne (eq_of_pair_sublists hsorted hab (pair_sublist_sort ordered hge hba))

/-- No two records can stand either way, so there is one arrangement only. -/
theorem Arranges.eq {s t : List Record} (hs : Arranges keys found s) (ht : Arranges keys found t) :
    s = t := by
  apply List.Perm.eq_of_pairwise _ hs.inOrder ht.inOrder (hs.perm.trans ht.perm.symm)
  intro a b ha hb hab hba
  have hswap := swap_of_mem ordered (hs.perm.subset ha) (ht.perm.subset hb)
  rw [← compareRecords_eq_lt_iff, ← compareRecords_eq_eq_iff] at hab hba
  rcases hab with hab | ⟨hab, hsub⟩
  · rcases hba with hba | ⟨hba, -⟩
    · rw [hab, hba] at hswap
      cases hswap
    · rw [hab, hba] at hswap
      cases hswap
  · rcases hba with hba | ⟨-, hsub'⟩
    · rw [hab, hba] at hswap
      cases hswap
    · exact eq_of_pair_sublists distinct hsub hsub'

end

/-- The records of which a condition is true; without a condition these are all records. -/
def found (condition : Option Expression) (records : List Record) : List Record :=
  match condition with
  | some condition => records.filter fun r => decide (condition.Holds r)
  | none => records

theorem filtered_eq_found {records : List Record} (distinct : (records.map Record.id).Nodup)
    (s : Select) : s.filtered records = found s.condition records := by
  rw [Select.filtered, Select.evaluated]
  cases s.condition with
  | none => rfl
  | some condition =>
    obtain ⟨p, hp⟩ := exists_filter_eq records condition
    change filter records condition = records.filter _
    rw [hp]
    apply List.filter_congr
    intro r hr
    rw [Bool.eq_iff_iff, decide_eq_true_iff, ← id_mem_filter_iff distinct hr, ← hp]
    exact id_mem_filter_iff_holds distinct condition hr

/-- The records do not matter to the warnings, nor does what either side of a connective selects. -/
theorem warnings_evaluate (records : List Record) (condition : Expression) :
    (evaluate records condition).warnings = condition.warnings := by
  induction condition with
  | comparison column operator literal => cases operator <;> rfl
  | logical left connective right ihl ihr => exact congrArg₂ (· ++ ·) ihl ihr

theorem warnings_evaluated (s : Select) (records : List Record) :
    (s.evaluated records).warnings = s.condition.elim [] Expression.warnings := by
  rw [Select.evaluated]
  cases s.condition with
  | none => rfl
  | some condition => exact warnings_evaluate records condition

theorem warnings_congr (s : Select) (records records' : List Record) :
    s.warnings records = s.warnings records' := by
  rw [Select.warnings, Select.warnings, warnings_evaluated, warnings_evaluated]

theorem found_sublist (condition : Option Expression) (records : List Record) :
    (found condition records).Sublist records := by
  cases condition with
  | none => exact .refl records
  | some condition => exact List.filter_sublist

section
variable {α : Type} (items : List α)

theorem page_eq_extract (limit : Limit) : page items limit = items.extract limit.offset.toNat
    (min (limit.offset.toNat + limit.count.toNat) items.length) := by
  rw [page, List.extract_eq_take_drop, List.take_eq_take_iff, List.length_drop]
  omega

theorem flatMap_page (size : UInt64) {n : Nat} (h : ∀ j < n, j * size.toNat < UInt64.size) :
    (List.range n).flatMap (fun j => page items ⟨size, .ofNat (j * size.toNat)⟩) =
      items.take (n * size.toNat) := by
  induction n with
  | zero => simp
  | succ n ih =>
    have hoffset : (UInt64.ofNat (n * size.toNat)).toNat = n * size.toNat :=
      UInt64.toNat_ofNat_of_lt' (h n (Nat.lt_succ_self n))
    rw [List.range_succ, List.flatMap_append, ih fun j hj => h j (Nat.lt_succ_of_lt hj),
      List.flatMap_singleton, page, hoffset, Nat.succ_mul, List.take_add]

end

theorem rows_eq_map_project {records : List Record} (distinct : (records.map Record.id).Nodup)
    (columns : List ColumnRef) (table : String) (condition : Option Expression)
    (order : List OrderKey) (limit : Option Limit) :
    Select.rows ⟨.columns columns, table, condition, order, limit⟩ records =
      (match limit with
        | some limit => page (sort (found condition records) order) limit
        | none => sort (found condition records) order).map (project columns) := by
  have hf := filtered_eq_found distinct ⟨.columns columns, table, condition, order, limit⟩
  cases limit <;> rw [Select.rows, Select.paged, Select.sorted, hf]

/-- A SELECT of columns answers with the rows of the one arrangement of the records found, as far as
they are on the page, and a row holds what its record has under the names of the columns. The counts
are those of natural numbers, so no offset is too large for a count; and pages of one size that reach
the end make up the answer without a limit. -/
theorem rows_of_columns {records : List Record} (distinct : (records.map Record.id).Nodup)
    (columns : List ColumnRef) (table : String) (condition : Option Expression)
    (order : List OrderKey)
    (noNaN : ∀ r ∈ records, ∀ key ∈ order, r.get? key.column.name ≠ some (.float .nan)) :
    let answer (limit : Option Limit) : List Row :=
      Select.rows ⟨.columns columns, table, condition, order, limit⟩ records
    ∃ arranged, Arranges order (found condition records) arranged ∧
      (∀ other, Arranges order (found condition records) other → other = arranged) ∧
      answer none = arranged.map (project columns) ∧
      (∀ r name, (project columns r).get? name =
        if name ∈ columns.map ColumnRef.name then r.get? name else none) ∧
      (∀ count offset : UInt64,
        answer (some ⟨count, offset⟩) = (arranged.extract offset.toNat
          (min (offset.toNat + count.toNat) arranged.length)).map (project columns) ∧
        (answer (some ⟨count, offset⟩)).length =
          min count.toNat (arranged.length - offset.toNat)) ∧
      ∀ (size : UInt64) (n : Nat), 0 < size → (∀ j < n, j * size.toNat < UInt64.size) →
        arranged.length ≤ n * size.toNat →
        (List.range n).flatMap (fun j => answer (some ⟨size, .ofNat (j * size.toNat)⟩)) =
          answer none := by
  intro answer
  have hsub := found_sublist condition records
  have hdistinct : (found condition records).Nodup := (distinct.of_map _).sublist hsub
  have hordered : ∀ r ∈ found condition records, r.OrderedOn order := by
    intro r hr key hk v hv he
    exact noNaN r (hsub.subset hr) key hk (he ▸ hv)
  have hall : answer none = (sort (found condition records) order).map (project columns) :=
    rows_eq_map_project distinct columns table condition order none
  have hpage (limit : Limit) : answer (some limit) =
      (page (sort (found condition records) order) limit).map (project columns) :=
    rows_eq_map_project distinct columns table condition order (some limit)
  have harranged := arranges_sort hordered hdistinct
  refine ⟨_, harranged, fun other ho => ho.eq hordered hdistinct harranged, hall,
    get?_project columns, ?_, ?_⟩
  · intro count offset
    rw [hpage, page_eq_extract]
    refine ⟨rfl, ?_⟩
    rw [List.length_map, List.extract_eq_take_drop, List.length_take, List.length_drop]
    dsimp only
    omega
  · intro size n _ hoffsets hlength
    simp only [hpage]
    rw [hall, ← List.map_flatMap, flatMap_page _ size hoffsets, List.take_of_length_le hlength]

instance (keys : List OrderKey) (a b : Record) : Decidable (Precedes keys a b) :=
  decidable_of_iff _ compareRecords_eq_lt_iff

instance (keys : List OrderKey) (a b : Record) : Decidable (Tied keys a b) :=
  decidable_of_iff _ compareRecords_eq_eq_iff

/-- The second page of records that are found in another order, with a tie and an absent field. -/
theorem rows_of_columns_second_page :
    let person (id : String) (fields : List (String × Value)) : Record :=
      ⟨⟨id⟩, .ofAssignments fields⟩
    let ann := person "1" [("name", .text "Ann"), ("age", .integer 30)]
    let bob := person "2" [("name", .text "Bob")]
    let cid := person "3" [("name", .text "Cid"), ("age", .float (.ofInt 40))]
    let dan := person "4" [("name", .text "Dan"), ("age", .integer 30)]
    let eve := person "5" [("name", .text "Eve"), ("age", .integer 7)]
    let records := [ann, bob, cid, dan, eve]
    let name : ColumnRef := ⟨none, "name"⟩
    let age : ColumnRef := ⟨none, "age"⟩
    let order : List OrderKey := [⟨age, .ascending⟩]
    let condition : Expression := .comparison name .notEqual (.text "Eve")
    (records.map Record.id).Nodup ∧
      (∀ r ∈ records, ∀ key ∈ order, r.get? key.column.name ≠ some (.float .nan)) ∧
      Arranges order (found (some condition) records) [cid, ann, dan, bob] ∧
      Select.rows ⟨.columns [age, name], "people", some condition, order, some ⟨3, 1⟩⟩ records =
        [.ofAssignments [("age", .integer 30), ("name", .text "Ann")],
          .ofAssignments [("age", .integer 30), ("name", .text "Dan")],
          .ofAssignments [("name", .text "Bob")]] := by
  intro person ann bob cid dan eve records name age order condition
  have distinct : (records.map Record.id).Nodup := by decide
  have noNaN : ∀ r ∈ records, ∀ key ∈ order, r.get? key.column.name ≠ some (.float .nan) := by
    decide +kernel
  have harranged : Arranges order (found (some condition) records) [cid, ann, dan, bob] :=
    ⟨by decide +kernel, by decide +kernel⟩
  obtain ⟨arranged, -, hunique, -, -, hpage, -⟩ :=
    rows_of_columns distinct [age, name] "people" (some condition) order noNaN
  refine ⟨distinct, noNaN, harranged, ?_⟩
  refine (hpage 3 1).1.trans ?_
  rw [← hunique _ harranged]
  decide +kernel

end DocBase.Query
