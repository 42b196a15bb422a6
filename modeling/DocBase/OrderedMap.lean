namespace DocBase

/-- Pairs of a key and its value, in order, no key twice. -/
structure OrderedMap (κ α : Type) where
  entries : List (κ × α)
  distinct : (entries.map Prod.fst).Nodup

namespace OrderedMap

variable {κ α : Type}

def empty : OrderedMap κ α := ⟨[], .nil⟩

instance : Inhabited (OrderedMap κ α) := ⟨empty⟩

def keys (m : OrderedMap κ α) : List κ := m.entries.map Prod.fst

def size (m : OrderedMap κ α) : Nat := m.entries.length

instance [DecidableEq κ] [DecidableEq α] : DecidableEq (OrderedMap κ α) := fun a b =>
  decidable_of_iff (a.entries = b.entries) (by cases a; cases b; simp)

variable [DecidableEq κ]

def get? (m : OrderedMap κ α) (key : κ) : Option α := m.entries.lookup key

def contains (m : OrderedMap κ α) (key : κ) : Bool := decide (key ∈ m.keys)

/-- The pairs with a new value behind `key`, at its old place. -/
def replaceIn (entries : List (κ × α)) (key : κ) (value : α) : List (κ × α) :=
  entries.map fun entry => if entry.1 = key then (key, value) else entry

theorem map_fst_replaceIn (entries : List (κ × α)) (key : κ) (value : α) :
    (replaceIn entries key value).map Prod.fst = entries.map Prod.fst := by
  induction entries with
  | nil => rfl
  | cons entry entries ih =>
    by_cases h : entry.1 = key <;> simp_all [replaceIn]

/-- Gives `key` a value: at its old place if it is present, else at the end. -/
def assign (m : OrderedMap κ α) (key : κ) (value : α) : OrderedMap κ α :=
  if h : key ∈ m.keys then
    ⟨replaceIn m.entries key value, by rw [map_fst_replaceIn]; exact m.distinct⟩
  else
    ⟨m.entries ++ [(key, value)], by
      rw [List.map_append, List.nodup_append]
      exact ⟨m.distinct, by simp, by
        rintro k hk k' hk' rfl
        simp only [List.map_cons, List.map_nil, List.mem_singleton] at hk'
        exact h (hk' ▸ hk)⟩⟩

def filterKeys (m : OrderedMap κ α) (keep : κ → Bool) : OrderedMap κ α :=
  ⟨m.entries.filter fun entry => keep entry.1, (List.filter_sublist.map Prod.fst).nodup m.distinct⟩

def erase (m : OrderedMap κ α) (key : κ) : OrderedMap κ α := m.filterKeys fun k => decide (k ≠ key)

/-- Gives `key` a value and the last place. -/
def insert (m : OrderedMap κ α) (key : κ) (value : α) : OrderedMap κ α :=
  ⟨(m.erase key).entries ++ [(key, value)], by
    rw [List.map_append, List.nodup_append]
    exact ⟨(m.erase key).distinct, by simp, by
      rintro k hk k' hk' rfl
      simp only [List.map_cons, List.map_nil, List.mem_singleton] at hk'
      subst hk'
      simp [erase, filterKeys] at hk⟩⟩

/-- Assigns the pairs in order, so that each key has its first place and its last value. -/
def ofAssignments (pairs : List (κ × α)) : OrderedMap κ α :=
  pairs.foldl (fun m (key, value) => m.assign key value) empty

/-- Inserts the pairs in order, so that each key has its last place and its last value. -/
def ofInsertions (pairs : List (κ × α)) : OrderedMap κ α :=
  pairs.foldl (fun m (key, value) => m.insert key value) empty

end OrderedMap

end DocBase
