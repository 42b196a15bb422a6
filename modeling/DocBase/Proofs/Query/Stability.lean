import DocBase.Proofs.Query.Select

namespace DocBase.Query

open Sql

section
variable {α : Type}

/-- Whether a comparison does not tell two things apart. -/
def ties (cmp : α → α → Ordering) (a b : α) : Bool := cmp a b == .eq

def sortBy (cmp : α → α → Ordering) (l : List α) : List α := l.mergeSort fun a b => (cmp a b).isLE

variable {cmp cmp' : α → α → Ordering}

theorem ties_iff {a b : α} : ties cmp a b ↔ cmp a b = .eq := beq_iff_eq

theorem filter_ties_compareLex (l : List α) (a : α) : l.filter (ties (compareLex cmp cmp') a) =
    (l.filter (ties cmp' a)).filter (ties cmp a) := by
  rw [List.filter_filter]
  apply List.filter_congr
  intro b _
  unfold ties compareLex
  cases cmp a b <;> rfl

variable [Std.TransCmp cmp] [Std.TransCmp cmp']

theorem ties_self (a : α) : ties cmp a a := ties_iff.2 Std.ReflCmp.compare_self

theorem isLE_or_isLE (a b : α) : (cmp a b).isLE || (cmp b a).isLE := by
  have hs : cmp b a = (cmp a b).swap := Std.OrientedCmp.eq_swap
  rw [hs]
  cases cmp a b <;> rfl

theorem pairwise_sortBy (l : List α) : (sortBy cmp l).Pairwise fun a b => (cmp a b).isLE :=
  List.pairwise_mergeSort (fun _ _ _ => Std.TransCmp.isLE_trans) isLE_or_isLE l

theorem pairwise_filter_ties (l : List α) (a : α) :
    (l.filter (ties cmp a)).Pairwise fun b c => (cmp b c).isLE := by
  apply List.pairwise_of_forall_mem_list
  intro b hb c hc
  have hab : cmp a b = .eq := ties_iff.1 (List.mem_filter.1 hb).2
  have hac : cmp a c = .eq := ties_iff.1 (List.mem_filter.1 hc).2
  rw [← Std.TransCmp.congr_left hab, hac]
  rfl

theorem filter_ties_sortBy (l : List α) (a : α) :
    (sortBy cmp l).filter (ties cmp a) = l.filter (ties cmp a) := by
  have hkept : (l.filter (ties cmp a)).Sublist (sortBy cmp l) :=
    List.sublist_mergeSort (fun _ _ _ => Std.TransCmp.isLE_trans) isLE_or_isLE
      (pairwise_filter_ties l a) List.filter_sublist
  have hsub := hkept.filter (ties cmp a)
  rw [List.filter_filter] at hsub
  simp only [Bool.and_self] at hsub
  have hperm := (List.mergeSort_perm l fun a b => (cmp a b).isLE).filter (ties cmp a)
  exact (hsub.eq_of_length hperm.length_eq.symm).symm

theorem isLE_head {a b : α} {l : List α} (h : (a :: l).Pairwise fun a b => (cmp a b).isLE)
    (hb : b ∈ a :: l) : (cmp a b).isLE := by
  rcases List.mem_cons.1 hb with rfl | hb
  · exact Std.ReflCmp.isLE_rfl
  · exact List.rel_of_pairwise_cons h hb

theorem mem_of_filter_ties {s t : List α}
    (h : ∀ a, s.filter (ties cmp a) = t.filter (ties cmp a)) {a : α} (ha : a ∈ s) : a ∈ t := by
  have hmem : a ∈ s.filter (ties cmp a) := List.mem_filter.2 ⟨ha, ties_self a⟩
  rw [h a] at hmem
  exact (List.mem_filter.1 hmem).1

/-- A sorted list is known by what ties with each of its members. -/
theorem eq_of_filter_ties {s t : List α} (hs : s.Pairwise fun a b => (cmp a b).isLE)
    (ht : t.Pairwise fun a b => (cmp a b).isLE)
    (h : ∀ a, s.filter (ties cmp a) = t.filter (ties cmp a)) : s = t := by
  induction s generalizing t with
  | nil =>
    cases t with
    | nil => rfl
    | cons b t => cases mem_of_filter_ties (fun c => (h c).symm) (.head t)
  | cons a s ih =>
    cases t with
    | nil => cases mem_of_filter_ties h (.head s)
    | cons b t =>
      have hmem : a ∈ b :: t := mem_of_filter_ties h (.head s)
      have hmem' : b ∈ a :: s := mem_of_filter_ties (fun c => (h c).symm) (.head t)
      have hab : cmp a b = .eq :=
        Std.OrientedCmp.isLE_antisymm (isLE_head hs hmem') (isLE_head ht hmem)
      have ha := h a
      rw [List.filter_cons_of_pos (ties_self a), List.filter_cons_of_pos (ties_iff.2 hab)] at ha
      obtain ⟨rfl, -⟩ := List.cons.inj ha
      congr 1
      apply ih hs.tail ht.tail
      intro c
      have hc := h c
      rw [List.filter_cons, List.filter_cons] at hc
      split at hc
      · exact (List.cons.inj hc).2
      · exact hc

theorem pairwise_sortBy_sortBy (l : List α) :
    (sortBy cmp (sortBy cmp' l)).Pairwise fun a b => (compareLex cmp cmp' a b).isLE := by
  apply List.pairwise_iff_forall_sublist.2
  intro a b hab
  have hle := List.pairwise_iff_forall_sublist.1 (pairwise_sortBy _) hab
  rw [compareLex]
  rcases Ordering.isLE_iff_eq_lt_or_eq_eq.1 hle with hlt | heq
  · rw [hlt]
    rfl
  · rw [heq]
    have htied := hab.filter (ties cmp a)
    rw [filter_ties_sortBy, List.filter_cons_of_pos (ties_self a),
      List.filter_cons_of_pos (ties_iff.2 heq), List.filter_nil] at htied
    exact List.pairwise_iff_forall_sublist.1 (pairwise_sortBy l) (htied.trans List.filter_sublist)

theorem filter_ties_sortBy_sortBy (l : List α) (a : α) :
    (sortBy cmp (sortBy cmp' l)).filter (ties (compareLex cmp cmp') a) =
      l.filter (ties (compareLex cmp cmp') a) := by
  calc
    (sortBy cmp (sortBy cmp' l)).filter (ties (compareLex cmp cmp') a)
        = ((sortBy cmp (sortBy cmp' l)).filter (ties cmp' a)).filter (ties cmp a) :=
      filter_ties_compareLex _ a
    _ = ((sortBy cmp (sortBy cmp' l)).filter (ties cmp a)).filter (ties cmp' a) :=
      List.filter_comm ..
    _ = ((sortBy cmp' l).filter (ties cmp a)).filter (ties cmp' a) := by rw [filter_ties_sortBy]
    _ = ((sortBy cmp' l).filter (ties cmp' a)).filter (ties cmp a) := List.filter_comm ..
    _ = (l.filter (ties cmp' a)).filter (ties cmp a) := by rw [filter_ties_sortBy]
    _ = l.filter (ties (compareLex cmp cmp') a) := (filter_ties_compareLex l a).symm

theorem sortBy_compareLex (l : List α) :
    sortBy (compareLex cmp cmp') l = sortBy cmp (sortBy cmp' l) := by
  apply @eq_of_filter_ties _ (compareLex cmp cmp') _ _ _ (pairwise_sortBy l)
    (pairwise_sortBy_sortBy l)
  intro a
  rw [filter_ties_sortBy, filter_ties_sortBy_sortBy]

end

section
variable {keys first second : List OrderKey} {records : List Record}

theorem compareRecords_append (first second : List OrderKey) (a b : Record) :
    compareRecords (first ++ second) a b =
      (compareRecords first a b).then (compareRecords second a b) := by
  induction first with
  | nil => rfl
  | cons key first ih =>
    rw [List.cons_append, compareRecords, compareRecords, ih, Ordering.then_assoc]

/-- To sort by more keys is to sort by the last ones first. -/
theorem sort_append (ordered : ∀ r ∈ records, r.OrderedOn (first ++ second)) :
    sort records (first ++ second) = sort (sort records second) first := by
  rw [← List.attachWith_map_subtype_val ordered]
  generalize records.attachWith _ ordered = l
  have hfirst : Std.TransCmp fun a b : { r : Record // r.OrderedOn (first ++ second) } =>
      compareRecords first a.1 b.1 :=
    transCmp_compareRecords_comp _ fun r => r.2.mono (List.subset_append_left first second)
  have hsecond : Std.TransCmp fun a b : { r : Record // r.OrderedOn (first ++ second) } =>
      compareRecords second a.1 b.1 :=
    transCmp_compareRecords_comp _ fun r => r.2.mono (List.subset_append_right first second)
  rw [sort_map, sort_map, sort_map]
  simp only [compareRecords_append]
  exact congrArg (List.map Subtype.val) (sortBy_compareLex l)

theorem sort_eq_foldr (ordered : ∀ r ∈ records, r.OrderedOn keys) :
    sort records keys = keys.foldr (fun key sorted => sort sorted [key]) records := by
  induction keys with
  | nil => exact List.mergeSort_of_pairwise (List.pairwise_of_forall fun _ _ => rfl)
  | cons key keys ih =>
    have hkeys := ih fun r hr => (ordered r hr).mono (List.subset_cons_self key keys)
    rw [List.foldr_cons, ← hkeys]
    change sort records ([key] ++ keys) = sort (sort records keys) [key]
    exact sort_append ordered

theorem sort_sort_self (ordered : ∀ r ∈ records, r.OrderedOn keys) :
    sort (sort records keys) keys = sort records keys :=
  List.mergeSort_of_pairwise (pairwise_sort ordered)

theorem mem_sort_iff {r : Record} : r ∈ sort records keys ↔ r ∈ records := List.mem_mergeSort

theorem pair_sublist_iff {a b : Record} (ordered : ∀ r ∈ records, r.OrderedOn keys)
    (sorted : records.Pairwise fun a b => (compareRecords keys a b).isLE) (ha : a ∈ records)
    (hb : b ∈ records) (apart : compareRecords keys a b ≠ .eq) :
    [a, b].Sublist records ↔ compareRecords keys a b = .lt := by
  have hswap := swap_of_mem ordered hb ha
  constructor
  · intro h
    have hle := List.pairwise_iff_forall_sublist.1 sorted h
    exact (Ordering.isLE_iff_eq_lt_or_eq_eq.1 hle).resolve_right apart
  · intro hlt
    have hne : a ≠ b := by
      intro he
      rw [he] at hswap hlt
      rw [hlt] at hswap
      cases hswap
    apply (pair_sublist_or ha hb hne).resolve_right
    intro hba
    have hle := List.pairwise_iff_forall_sublist.1 sorted hba
    rw [hswap, hlt] at hle
    cases hle

/-- Keys behind the others leave those records in place that the others tell apart. -/
theorem pair_sublist_sort_append_iff {a b : Record}
    (ordered : ∀ r ∈ records, r.OrderedOn (first ++ second)) (ha : a ∈ records) (hb : b ∈ records)
    (apart : compareRecords first a b ≠ .eq) :
    [a, b].Sublist (sort records (first ++ second)) ↔ [a, b].Sublist (sort records first) := by
  have hfirst : ∀ r ∈ records, r.OrderedOn first := fun r hr =>
    (ordered r hr).mono (List.subset_append_left first second)
  have hsecond : ∀ r ∈ sort records second, r.OrderedOn first := fun r hr =>
    hfirst r (mem_sort_iff.1 hr)
  rw [sort_append ordered,
    pair_sublist_iff (fun r hr => hsecond r (mem_sort_iff.1 hr)) (pairwise_sort hsecond)
      (mem_sort_iff.2 (mem_sort_iff.2 ha)) (mem_sort_iff.2 (mem_sort_iff.2 hb)) apart,
    pair_sublist_iff (fun r hr => hfirst r (mem_sort_iff.1 hr)) (pairwise_sort hfirst)
      (mem_sort_iff.2 ha) (mem_sort_iff.2 hb) apart]

theorem TiedBy.of_column {key other : OrderKey} {a b : Record} (h : TiedBy key a b)
    (hc : key.column.name = other.column.name) : TiedBy other a b := by
  rw [TiedBy, ← hc]
  exact h

/-- A key on a column that an earlier key has looked at decides nothing. -/
theorem sort_of_listed {key earlier : OrderKey} (records : List Record) (he : earlier ∈ first)
    (hc : earlier.column.name = key.column.name) :
    sort records (first ++ key :: second) = sort records (first ++ second) := by
  have hsame (a b : Record) :
      compareRecords (first ++ key :: second) a b = compareRecords (first ++ second) a b := by
    rw [compareRecords_append, compareRecords_append]
    cases hf : compareRecords first a b with
    | lt => rfl
    | gt => rfl
    | eq =>
      have htied : TiedBy key a b := (compareRecords_eq_eq_iff.1 hf earlier he).of_column hc
      rw [compareRecords, compareByKey_eq_eq_iff.2 htied]
      rfl
  unfold sort
  simp only [hsame]

/-- Sorting by several keys is sorting by each of them alone, the last one first. So further keys
reorder no records that the keys before them tell apart, sorting again changes nothing, and a column
counts once only. -/
theorem sort_is_successive (ordered : ∀ r ∈ records, r.OrderedOn keys) :
    sort records keys = keys.foldr (fun key sorted => sort sorted [key]) records ∧
      (∀ first second, keys = first ++ second → ∀ a ∈ records, ∀ b ∈ records,
        compareRecords first a b ≠ .eq →
          ([a, b].Sublist (sort records keys) ↔ [a, b].Sublist (sort records first))) ∧
      sort (sort records keys) keys = sort records keys ∧
      ∀ first key second, keys = first ++ key :: second →
        (∃ earlier ∈ first, earlier.column.name = key.column.name) →
          sort records keys = sort records (first ++ second) := by
  refine ⟨sort_eq_foldr ordered, ?_, sort_sort_self ordered, ?_⟩
  · intro first second hk a ha b hb apart
    subst hk
    exact pair_sublist_sort_append_iff ordered ha hb apart
  · intro first key second hk hlisted
    obtain ⟨earlier, he, hc⟩ := hlisted
    rw [hk]
    exact sort_of_listed records he hc

end

/-- Four records, two of them tied on all keys, and a key on a column named before. -/
theorem sort_is_successive_with_ties :
    let item (id : String) (g : Value) (n : String) : Record :=
      ⟨⟨id⟩, .ofAssignments [("g", g), ("n", .text n)]⟩
    let a := item "a" (.integer 1) "x"
    let b := item "b" (.integer 2) "y"
    let c := item "c" (.boolean true) "y"
    let d := item "d" (.integer 1) "x"
    let records := [a, b, c, d]
    let g (direction : Direction) : OrderKey := ⟨⟨none, "g"⟩, direction⟩
    let n : OrderKey := ⟨⟨none, "n"⟩, .ascending⟩
    let keys := [g .descending, n, g .ascending]
    (∀ r ∈ records, r.OrderedOn keys) ∧ sort records keys = [c, a, d, b] ∧
      sort (sort (sort records [g .ascending]) [n]) [g .descending] = [c, a, d, b] ∧
      compareRecords [g .descending] a b ≠ .eq ∧ [a, b].Sublist (sort records [g .descending]) ∧
      sort [c, a, d, b] keys = [c, a, d, b] ∧ sort records [g .descending, n] = [c, a, d, b] := by
  intro item a b c d records g n keys
  have ordered : ∀ r ∈ records, r.OrderedOn keys := by decide +kernel
  have distinct : records.Nodup := by decide +kernel
  have hsort : sort records keys = [c, a, d, b] :=
    (arranges_sort ordered distinct).eq ordered distinct ⟨by decide +kernel, by decide +kernel⟩
  have apart : compareRecords [g .descending] a b ≠ .eq := by decide +kernel
  obtain ⟨hpasses, hplaces, hagain, hlisted⟩ := sort_is_successive ordered
  refine ⟨ordered, hsort, hpasses.symm.trans hsort, apart, ?_, ?_, ?_⟩
  · apply (hplaces [g .descending] [n, g .ascending] rfl a (by simp [records]) b
      (by simp [records]) apart).1
    rw [hsort]
    decide +kernel
  · rw [hsort] at hagain
    exact hagain
  · rw [← hsort]
    exact (hlisted [g .descending, n] (g .ascending) [] rfl ⟨g .descending, .head _, rfl⟩).symm

end DocBase.Query
