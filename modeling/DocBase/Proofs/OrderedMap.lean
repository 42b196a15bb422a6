import DocBase.OrderedMap
import Mathlib.Data.List.Dedup

namespace DocBase

section
variable {α : Type} [DecidableEq α]

theorem eraseDups_cons (a : α) (l : List α) :
    (a :: l).eraseDups = a :: (l.filter fun b => decide (b ≠ a)).eraseDups := by
  rw [List.eraseDups_cons]
  congr 3
  funext b
  by_cases h : b = a <;> simp [h]

theorem foldl_addNew (known l : List α) :
    l.foldl (fun known a => if a ∈ known then known else known ++ [a]) known =
      known ++ (l.filter fun a => decide (a ∉ known)).eraseDups := by
  induction l generalizing known with
  | nil => exact (List.append_nil _).symm
  | cons a l ih =>
    rw [List.foldl_cons, ih]
    by_cases h : a ∈ known
    · simp [h]
    · have hrest : (l.filter fun b => decide (b ∉ known ++ [a])) =
          (l.filter fun b => decide (b ∉ known)).filter fun b => decide (b ≠ a) := by
        rw [List.filter_filter]
        simp [and_comm]
      rw [if_neg h, hrest, List.filter_cons_of_pos (by simpa using h), eraseDups_cons,
        List.append_assoc]
      rfl

theorem nodup_foldl_addNew {known : List α} (distinct : known.Nodup) (l : List α) :
    (l.foldl (fun known a => if a ∈ known then known else known ++ [a]) known).Nodup := by
  induction l generalizing known with
  | nil => exact distinct
  | cons a l ih =>
    rw [List.foldl_cons]
    apply ih
    split
    · exact distinct
    · next h => exact List.nodup_append'.2 ⟨distinct, List.nodup_singleton a, by simpa using h⟩

theorem nodup_eraseDups (l : List α) : l.eraseDups.Nodup := by
  have h := nodup_foldl_addNew (List.nodup_nil (α := α)) l
  rw [foldl_addNew] at h
  simpa using h

end

namespace OrderedMap

variable {κ α : Type}

theorem ext_entries {m n : OrderedMap κ α} (h : m.entries = n.entries) : m = n := by
  cases m
  cases n
  cases h
  rfl

theorem mem_keys_iff {m : OrderedMap κ α} {key : κ} :
    key ∈ m.keys ↔ ∃ value, (key, value) ∈ m.entries := by
  simp [keys]

theorem value_unique {entries : List (κ × α)} (distinct : (entries.map Prod.fst).Nodup) {key : κ}
    {a b : α} (ha : (key, a) ∈ entries) (hb : (key, b) ∈ entries) : a = b := by
  induction entries with
  | nil => cases ha
  | cons entry entries ih =>
    obtain ⟨hn, distinct⟩ := List.nodup_cons.1 distinct
    have habsent {value : α} (h : (entry.1, value) ∈ entries) : False :=
      hn (List.mem_map.2 ⟨_, h, rfl⟩)
    rcases List.mem_cons.1 ha with rfl | ha'
    · rcases List.mem_cons.1 hb with he | hb'
      · exact congrArg Prod.snd he.symm
      · exact (habsent hb').elim
    · rcases List.mem_cons.1 hb with rfl | hb'
      · exact (habsent ha').elim
      · exact ih distinct ha' hb'

def mapValues {β : Type} (f : α → β) (m : OrderedMap κ α) : OrderedMap κ β :=
  ⟨m.entries.map fun entry => (entry.1, f entry.2), by
    rw [List.map_map]
    exact m.distinct⟩

theorem mapValues_eq_self {f : α → α} {m : OrderedMap κ α}
    (h : ∀ entry ∈ m.entries, f entry.2 = entry.2) : m.mapValues f = m := by
  apply ext_entries
  have he : m.entries.map (fun entry => (entry.1, f entry.2)) = m.entries.map id :=
    List.map_congr_left fun entry hm => by rw [h entry hm]; rfl
  exact he.trans (List.map_id _)

variable [DecidableEq κ]

theorem contains_iff {m : OrderedMap κ α} {key : κ} : m.contains key ↔ key ∈ m.keys :=
  decide_eq_true_iff

theorem get?_eq_some_iff {m : OrderedMap κ α} {key : κ} {value : α} :
    m.get? key = some value ↔ (key, value) ∈ m.entries := by
  have hmem {value : α} (h : m.get? key = some value) : (key, value) ∈ m.entries := by
    obtain ⟨before, after, he, -⟩ := List.lookup_eq_some_iff.1 h
    rw [he]
    exact List.mem_append_right _ List.mem_cons_self
  refine ⟨hmem, ?_⟩
  intro h
  cases hg : m.get? key with
  | some found => rw [value_unique m.distinct (hmem hg) h]
  | none =>
    have hne := List.lookup_eq_none_iff.1 hg (key, value) h
    simp at hne

theorem isSome_get?_iff {m : OrderedMap κ α} {key : κ} : (m.get? key).isSome ↔ key ∈ m.keys := by
  simp only [Option.isSome_iff_exists, get?_eq_some_iff, mem_keys_iff]

theorem contains_eq_isSome (m : OrderedMap κ α) (key : κ) :
    m.contains key = (m.get? key).isSome :=
  Bool.eq_iff_iff.2 (contains_iff.trans isSome_get?_iff.symm)

theorem mem_entries_assign {m : OrderedMap κ α} {key : κ} {value : α} {entry : κ × α} :
    entry ∈ (m.assign key value).entries ↔
      entry = (key, value) ∨ entry.1 ≠ key ∧ entry ∈ m.entries := by
  rw [assign]
  split
  · next hk =>
    simp only [replaceIn, List.mem_map]
    constructor
    · intro h
      obtain ⟨old, hm, rfl⟩ := h
      by_cases he : old.1 = key
      · simp [he]
      · simp [he, hm]
    · intro h
      rcases h with rfl | ⟨hne, hm⟩
      · obtain ⟨old, hm⟩ := mem_keys_iff.1 hk
        exact ⟨_, hm, by simp⟩
      · exact ⟨entry, hm, by simp [hne]⟩
  · next hk =>
    have habsent (hm : entry ∈ m.entries) : entry.1 ≠ key :=
      fun he => hk (mem_keys_iff.2 ⟨entry.2, he ▸ hm⟩)
    simp only [List.mem_append, List.mem_singleton]
    constructor
    · intro h
      rcases h with hm | he
      · exact .inr ⟨habsent hm, hm⟩
      · exact .inl he
    · intro h
      rcases h with he | ⟨-, hm⟩
      · exact .inr he
      · exact .inl hm

@[simp] theorem get?_assign (m : OrderedMap κ α) (key other : κ) (value : α) :
    (m.assign key value).get? other = if other = key then some value else m.get? other := by
  apply Option.ext
  intro found
  rw [get?_eq_some_iff, mem_entries_assign]
  split
  · next h => simp [h, eq_comm]
  · next h => simp [h, get?_eq_some_iff]

theorem mem_keys_assign {m : OrderedMap κ α} {key other : κ} {value : α} :
    other ∈ (m.assign key value).keys ↔ other = key ∨ other ∈ m.keys := by
  rw [← isSome_get?_iff, ← isSome_get?_iff, get?_assign]
  split
  · next h => simp [h]
  · next h => simp [h]

theorem mem_entries_erase {m : OrderedMap κ α} {key : κ} {entry : κ × α} :
    entry ∈ (m.erase key).entries ↔ entry ∈ m.entries ∧ entry.1 ≠ key := by
  simp [erase, filterKeys]

@[simp] theorem get?_erase (m : OrderedMap κ α) (key other : κ) :
    (m.erase key).get? other = if other = key then none else m.get? other := by
  apply Option.ext
  intro found
  rw [get?_eq_some_iff, mem_entries_erase]
  split
  · next h => simp [h]
  · next h => simp [h, get?_eq_some_iff]

theorem mem_keys_erase {m : OrderedMap κ α} {key other : κ} :
    other ∈ (m.erase key).keys ↔ other ≠ key ∧ other ∈ m.keys := by
  rw [← isSome_get?_iff, ← isSome_get?_iff, get?_erase]
  split
  · next h => simp [h]
  · next h => simp [h]

theorem mem_foldl_assign {pairs : List (κ × α)} {m : OrderedMap κ α} {entry : κ × α}
    (h : entry ∈ (pairs.foldl (fun m (key, value) => m.assign key value) m).entries) :
    entry ∈ m.entries ∨ entry ∈ pairs := by
  induction pairs generalizing m with
  | nil => exact .inl h
  | cons pair pairs ih =>
    rcases ih h with he | he
    · rcases mem_entries_assign.1 he with rfl | ⟨-, he⟩
      · exact .inr List.mem_cons_self
      · exact .inl he
    · exact .inr (List.mem_cons_of_mem _ he)

theorem mem_of_mem_ofAssignments {pairs : List (κ × α)} {entry : κ × α}
    (h : entry ∈ (ofAssignments pairs).entries) : entry ∈ pairs := by
  rcases mem_foldl_assign h with he | he
  · cases he
  · exact he

theorem mem_keys_foldl_assign {pairs : List (κ × α)} {m : OrderedMap κ α} {key : κ} :
    key ∈ (pairs.foldl (fun m (key, value) => m.assign key value) m).keys ↔
      key ∈ m.keys ∨ key ∈ pairs.map Prod.fst := by
  induction pairs generalizing m with
  | nil => simp
  | cons pair pairs ih =>
    rw [List.foldl_cons, ih, mem_keys_assign, List.map_cons, List.mem_cons, or_assoc, or_left_comm]

theorem mem_keys_ofAssignments {pairs : List (κ × α)} {key : κ} :
    key ∈ (ofAssignments pairs).keys ↔ key ∈ pairs.map Prod.fst :=
  mem_keys_foldl_assign.trans (or_iff_right List.not_mem_nil)

theorem entries_foldl_assign {pairs : List (κ × α)} {m : OrderedMap κ α}
    (h : ((m.entries ++ pairs).map Prod.fst).Nodup) :
    (pairs.foldl (fun m (key, value) => m.assign key value) m).entries = m.entries ++ pairs := by
  induction pairs generalizing m with
  | nil => exact (List.append_nil _).symm
  | cons pair pairs ih =>
    have habsent : pair.1 ∉ m.keys := by
      rw [List.map_append, List.nodup_append] at h
      intro hk
      exact h.2.2 _ hk _ (.head _) rfl
    have hassign : (m.assign pair.1 pair.2).entries = m.entries ++ [pair] := by
      rw [assign, dif_neg habsent]
    have hsame : (m.assign pair.1 pair.2).entries ++ pairs = m.entries ++ pair :: pairs := by
      rw [hassign, List.append_assoc]
      rfl
    rw [List.foldl_cons, ih (by rwa [hsame]), hsame]

theorem entries_ofAssignments {pairs : List (κ × α)} (h : (pairs.map Prod.fst).Nodup) :
    (ofAssignments pairs).entries = pairs :=
  entries_foldl_assign h

theorem mem_foldl_insert {pairs : List (κ × α)} {m : OrderedMap κ α} {entry : κ × α}
    (h : entry ∈ (pairs.foldl (fun m (key, value) => m.insert key value) m).entries) :
    entry ∈ m.entries ∨ entry ∈ pairs := by
  induction pairs generalizing m with
  | nil => exact .inl h
  | cons pair pairs ih =>
    rcases ih h with he | he
    · rcases List.mem_append.1 he with he | he
      · exact .inl (mem_entries_erase.1 he).1
      · exact .inr (List.mem_singleton.1 he ▸ List.mem_cons_self)
    · exact .inr (List.mem_cons_of_mem _ he)

theorem mem_of_mem_ofInsertions {pairs : List (κ × α)} {entry : κ × α}
    (h : entry ∈ (ofInsertions pairs).entries) : entry ∈ pairs := by
  rcases mem_foldl_insert h with he | he
  · cases he
  · exact he

theorem entries_foldl_insert {pairs : List (κ × α)} {m : OrderedMap κ α}
    (h : ((m.entries ++ pairs).map Prod.fst).Nodup) :
    (pairs.foldl (fun m (key, value) => m.insert key value) m).entries = m.entries ++ pairs := by
  induction pairs generalizing m with
  | nil => exact (List.append_nil _).symm
  | cons pair pairs ih =>
    have habsent : ∀ entry ∈ m.entries, entry.1 ≠ pair.1 := by
      rw [List.map_append, List.nodup_append] at h
      intro entry he
      exact h.2.2 _ (List.mem_map.2 ⟨entry, he, rfl⟩) _ (.head _)
    have hinsert : (m.insert pair.1 pair.2).entries = m.entries ++ [pair] := by
      change (m.entries.filter _) ++ [pair] = _
      rw [List.filter_eq_self.2 fun entry he => decide_eq_true (habsent entry he)]
    have hsame : (m.insert pair.1 pair.2).entries ++ pairs = m.entries ++ pair :: pairs := by
      rw [hinsert, List.append_assoc]
      rfl
    rw [List.foldl_cons, ih (by rwa [hsame]), hsame]

theorem entries_ofInsertions {pairs : List (κ × α)} (h : (pairs.map Prod.fst).Nodup) :
    (ofInsertions pairs).entries = pairs :=
  entries_foldl_insert h

/-- A map is known by its keys in their order and by what it holds under them. -/
theorem entries_eq_filterMap (m : OrderedMap κ α) :
    m.entries = m.keys.filterMap fun key => (m.get? key).map (key, ·) := by
  have hsome : (m.keys.filterMap fun key => (m.get? key).map (key, ·)) =
      m.entries.filterMap some := by
    rw [keys, List.filterMap_map]
    apply List.filterMap_congr
    intro entry he
    have hg : m.get? entry.1 = some entry.2 := get?_eq_some_iff.2 he
    change (m.get? entry.1).map (entry.1, ·) = _
    rw [hg]
    rfl
  rw [hsome, List.filterMap_some]

theorem ext_get? {m n : OrderedMap κ α} (hk : m.keys = n.keys)
    (hg : ∀ key, m.get? key = n.get? key) : m = n := by
  apply ext_entries
  rw [entries_eq_filterMap m, entries_eq_filterMap n, hk]
  simp only [hg]

theorem perm_of_get? {m n : OrderedMap κ α} (h : ∀ key, m.get? key = n.get? key) :
    m.entries.Perm n.entries := by
  rw [List.perm_ext_iff_of_nodup m.distinct.of_map n.distinct.of_map]
  rintro ⟨key, value⟩
  rw [← get?_eq_some_iff, ← get?_eq_some_iff, h]

theorem keys_assign (m : OrderedMap κ α) (key : κ) (value : α) :
    (m.assign key value).keys = if key ∈ m.keys then m.keys else m.keys ++ [key] := by
  rw [assign]
  split
  · exact map_fst_replaceIn m.entries key value
  · exact List.map_append

theorem keys_foldl_assign (m : OrderedMap κ α) (pairs : List (κ × α)) :
    (pairs.foldl (fun m (key, value) => m.assign key value) m).keys =
      m.keys ++ ((pairs.map Prod.fst).filter fun key => decide (key ∉ m.keys)).eraseDups := by
  rw [← foldl_addNew, List.foldl_map]
  induction pairs generalizing m with
  | nil => rfl
  | cons pair pairs ih => rw [List.foldl_cons, List.foldl_cons, ih, keys_assign]

theorem get?_foldl_assign (m : OrderedMap κ α) (pairs : List (κ × α)) (key : κ) :
    (pairs.foldl (fun m (key, value) => m.assign key value) m).get? key =
      (pairs.reverse.lookup key).or (m.get? key) := by
  induction pairs generalizing m with
  | nil => rfl
  | cons pair pairs ih =>
    have hone : (m.assign pair.1 pair.2).get? key = ([pair].lookup key).or (m.get? key) := by
      rw [get?_assign, List.lookup_cons, List.lookup_nil]
      by_cases h : key = pair.1
      · simp [h]
      · simp [h, beq_eq_false_iff_ne.2 h]
    rw [List.foldl_cons, ih, hone, List.reverse_cons, List.lookup_append, Option.or_assoc]

theorem keys_ofAssignments (pairs : List (κ × α)) :
    (ofAssignments pairs).keys = (pairs.map Prod.fst).eraseDups := by
  rw [ofAssignments, keys_foldl_assign]
  simp [keys, empty]

theorem get?_ofAssignments (pairs : List (κ × α)) (key : κ) :
    (ofAssignments pairs).get? key = pairs.reverse.lookup key := by
  rw [ofAssignments, get?_foldl_assign]
  exact Option.or_none

theorem keys_assign_of_mem {m : OrderedMap κ α} {key : κ} (h : key ∈ m.keys) {value : α} :
    (m.assign key value).keys = m.keys := by
  rw [keys_assign, if_pos h]

theorem keys_erase (m : OrderedMap κ α) (key : κ) :
    (m.erase key).keys = m.keys.filter fun k => decide (k ≠ key) := by
  rw [keys, keys, List.filter_map]
  rfl

theorem keys_insert (m : OrderedMap κ α) (key : κ) (value : α) :
    (m.insert key value).keys = (m.keys.filter fun k => decide (k ≠ key)) ++ [key] := by
  rw [← keys_erase]
  exact List.map_append

/-- Inserting pairs moves their keys to the end, in the order of their last mention. -/
theorem keys_foldl_insert (m : OrderedMap κ α) (pairs : List (κ × α)) :
    (pairs.foldl (fun m (key, value) => m.insert key value) m).keys =
      (m.keys.filter fun key => decide (key ∉ pairs.map Prod.fst)) ++
        (pairs.map Prod.fst).dedup := by
  induction pairs generalizing m with
  | nil => simp
  | cons pair pairs ih =>
    rw [List.foldl_cons, ih, keys_insert, List.filter_append, List.filter_filter, List.map_cons]
    have hkept : (m.keys.filter fun key => decide (key ∉ pair.1 :: pairs.map Prod.fst)) =
        m.keys.filter fun key =>
          decide (key ∉ pairs.map Prod.fst) && decide (key ≠ pair.1) := by
      congr 1
      funext key
      by_cases h : key = pair.1 <;> simp [h]
    rw [hkept, List.append_assoc, List.dedup_cons]
    congr 1
    by_cases h : pair.1 ∈ pairs.map Prod.fst
    · rw [if_pos h, List.filter_cons_of_neg (by simpa using h)]
      rfl
    · rw [if_neg h, List.filter_cons_of_pos (by simpa using h)]
      rfl

theorem keys_ofInsertions (pairs : List (κ × α)) :
    (ofInsertions pairs).keys = (pairs.map Prod.fst).dedup := by
  rw [ofInsertions, keys_foldl_insert]
  simp [keys, empty]

theorem erase_of_not_mem {m : OrderedMap κ α} {key : κ} (h : key ∉ m.keys) : m.erase key = m := by
  apply ext_entries
  apply List.filter_eq_self.2
  intro entry he
  exact decide_eq_true fun hk => h (mem_keys_iff.2 ⟨entry.2, hk ▸ he⟩)

theorem erase_erase_self (m : OrderedMap κ α) (key : κ) : (m.erase key).erase key = m.erase key :=
  erase_of_not_mem fun h => (mem_keys_erase.1 h).1 rfl

theorem erase_assign_self (m : OrderedMap κ α) (key : κ) (value : α) :
    (m.assign key value).erase key = m.erase key := by
  apply ext_get?
  · rw [keys_erase, keys_erase, keys_assign]
    split
    · rfl
    · simp
  · intro k
    simp only [get?_assign, get?_erase]
    split
    · rfl
    · rfl

section
variable {key other : κ} (hne : key ≠ other) (m : OrderedMap κ α)
include hne

/-- Writes under two keys can be made in either order, but those that both append. -/
theorem assign_comm (value value' : α) (h : key ∈ m.keys ∨ other ∈ m.keys) :
    (m.assign key value).assign other value' = (m.assign other value').assign key value := by
  apply ext_get?
  · rcases h with h | h
    · rw [keys_assign_of_mem (mem_keys_assign.2 (.inr h)), keys_assign, keys_assign_of_mem h,
        keys_assign]
    · rw [keys_assign_of_mem (mem_keys_assign.2 (.inr h)), keys_assign, keys_assign,
        keys_assign_of_mem h]
  · intro k
    simp only [get?_assign]
    split
    · next h' => rw [if_neg fun he => hne (he.symm.trans h')]
    · rfl

theorem erase_assign (value : α) :
    (m.assign key value).erase other = (m.erase other).assign key value := by
  apply ext_get?
  · simp only [keys_assign, keys_erase, List.mem_filter, decide_eq_true_iff]
    split
    · next h => rw [if_pos ⟨h, hne⟩]
    · next h =>
      rw [if_neg fun hm => h hm.1, List.filter_append]
      simp [hne]
  · intro k
    simp only [get?_assign, get?_erase]
    split
    · next h => rw [if_neg fun he => hne (he.symm.trans h)]
    · rfl

end

theorem erase_comm (m : OrderedMap κ α) (key other : κ) :
    (m.erase key).erase other = (m.erase other).erase key := by
  apply ext_entries
  exact List.filter_comm ..

end OrderedMap

end DocBase
