import DocBase.Proofs.OrderedMap
import DocBase.Proofs.Value.Comparison
import DocBase.Query.Order

namespace DocBase

/-- A record in which every value has a place in every order. -/
def Record.Ordered (r : Record) : Prop := ∀ entry ∈ r.fields.entries, entry.2.Ordered

theorem Record.Ordered.of_get? {r : Record} (h : r.Ordered) (column : String) :
    ∀ v ∈ r.get? column, v.Ordered := by
  intro v hv
  exact h (column, v) (OrderedMap.get?_eq_some_iff.1 hv)

/-- A record without NaN in the key columns. -/
def Record.OrderedOn (keys : List Sql.OrderKey) (r : Record) : Prop :=
  ∀ key ∈ keys, ∀ v ∈ r.get? key.column.name, v.Ordered

theorem Record.orderedOn_iff {keys : List Sql.OrderKey} {r : Record} : r.OrderedOn keys ↔
    ∀ key ∈ keys, r.get? key.column.name ≠ some (.float .nan) := by
  constructor
  · intro h key hk he
    exact h key hk _ he rfl
  · intro h key hk v hv he
    rw [he] at hv
    exact h key hk hv

instance (keys : List Sql.OrderKey) (r : Record) : Decidable (r.OrderedOn keys) :=
  decidable_of_iff _ Record.orderedOn_iff.symm

theorem Record.OrderedOn.mono {keys keys' : List Sql.OrderKey} {r : Record} (h : r.OrderedOn keys')
    (hs : keys ⊆ keys') : r.OrderedOn keys := by
  intro key hk
  exact h key (hs hk)

theorem Record.Ordered.on {r : Record} (h : r.Ordered) (keys : List Sql.OrderKey) :
    r.OrderedOn keys := by
  intro key _
  exact h.of_get? key.column.name

namespace Query

open Sql Value

instance : Std.TransCmp comparePlaces := by
  unfold comparePlaces
  infer_instance

theorem transCmp_comp {α β : Type} {cmp : β → β → Ordering} [Std.TransCmp cmp] (f : α → β) :
    Std.TransCmp fun a b => cmp (f a) (f b) where
  eq_swap := Std.OrientedCmp.eq_swap
  isLE_trans := Std.TransCmp.isLE_trans

/-- Two fields of one key: an absent one comes last, and others as the direction has it. -/
def compareDirected (direction : Direction) (a b : Nat × Int × String) : Ordering :=
  match direction with
  | .ascending => comparePlaces b a
  | .descending => comparePlaces a b

instance (direction : Direction) : Std.TransCmp (compareDirected direction) := by
  cases direction with
  | ascending => exact inferInstanceAs (Std.TransCmp fun a b => comparePlaces b a)
  | descending => exact inferInstanceAs (Std.TransCmp comparePlaces)

theorem compareByKey_eq (key : OrderKey) {a b : Record}
    (ha : ∀ v ∈ a.get? key.column.name, v.Ordered)
    (hb : ∀ v ∈ b.get? key.column.name, v.Ordered) :
    compareByKey key a b =
      (compare (a.get? key.column.name).isNone (b.get? key.column.name).isNone).then
        (compareDirected key.direction (place (a.get? key.column.name))
          (place (b.get? key.column.name))) := by
  have hc := compareForSort_eq ha hb
  have hs : comparePlaces (place (b.get? key.column.name)) (place (a.get? key.column.name)) =
      (comparePlaces (place (a.get? key.column.name)) (place (b.get? key.column.name))).swap :=
    Std.OrientedCmp.eq_swap
  rw [← hc] at hs
  unfold compareByKey compareDirected
  cases hda : a.get? key.column.name with
  | none =>
    cases hdb : b.get? key.column.name with
    | none => cases key.direction <;> rfl
    | some w => rfl
  | some v =>
    cases hdb : b.get? key.column.name with
    | none => rfl
    | some w =>
      rw [hda, hdb] at hc hs
      cases key.direction with
      | ascending => exact hs.symm
      | descending => exact hc

theorem transCmp_compareByKey {ι : Type} (key : OrderKey) (f : ι → Record)
    (h : ∀ i, ∀ v ∈ (f i).get? key.column.name, v.Ordered) :
    Std.TransCmp fun i j => compareByKey key (f i) (f j) := by
  have hd : Std.TransCmp fun i j : ι => compareDirected key.direction
      (place ((f i).get? key.column.name)) (place ((f j).get? key.column.name)) :=
    transCmp_comp fun i => place ((f i).get? key.column.name)
  have hl : Std.TransCmp (compareLex
      (compareOn fun i : ι => ((f i).get? key.column.name).isNone)
      fun i j => compareDirected key.direction
        (place ((f i).get? key.column.name)) (place ((f j).get? key.column.name))) := inferInstance
  have he : (fun i j : ι => compareByKey key (f i) (f j)) = compareLex _ _ :=
    funext fun i => funext fun j => compareByKey_eq key (h i) (h j)
  rw [he]
  exact hl

theorem transCmp_compareRecords_comp {ι : Type} {keys : List OrderKey} (f : ι → Record)
    (h : ∀ i, (f i).OrderedOn keys) : Std.TransCmp fun i j => compareRecords keys (f i) (f j) := by
  induction keys with
  | nil => exact { eq_swap := rfl, isLE_trans := fun _ _ => rfl }
  | cons key keys ih =>
    have hk := transCmp_compareByKey key f fun i => h i key (.head _)
    have hs := ih fun i k hk => h i k (.tail _ hk)
    exact inferInstanceAs (Std.TransCmp (compareLex
      (fun i j => compareByKey key (f i) (f j)) fun i j => compareRecords keys (f i) (f j)))

abbrev OrderedRecord : Type := { r : Record // r.Ordered }

/-- Whatever the keys, ORDER BY compares records without NaN by a total order. -/
theorem transCmp_compareRecords (keys : List OrderKey) :
    Std.TransCmp fun a b : OrderedRecord => compareRecords keys a.1 b.1 :=
  transCmp_compareRecords_comp Subtype.val fun r => r.2.on keys

/-- A comparison that arranges all things with a property: the other way round it answers the
reverse, and less-or-equal is transitive and total. -/
structure TotalPreorder {α : Type} (p : α → Prop) (cmp : α → α → Ordering) : Prop where
  swap : ∀ a b, p a → p b → cmp b a = (cmp a b).swap
  trans : ∀ a b c, p a → p b → p c → (cmp a b).isLE → (cmp b c).isLE → (cmp a c).isLE
  total : ∀ a b, p a → p b → (cmp a b).isLE ∨ (cmp b a).isLE

theorem totalPreorder_of_transCmp {α : Type} {p : α → Prop} {cmp : α → α → Ordering}
    (h : Std.TransCmp fun a b : Subtype p => cmp a.1 b.1) : TotalPreorder p cmp where
  swap a b ha hb := h.eq_swap (a := ⟨b, hb⟩) (b := ⟨a, ha⟩)
  trans a b c ha hb hc := h.isLE_trans (a := ⟨a, ha⟩) (b := ⟨b, hb⟩) (c := ⟨c, hc⟩)
  total a b ha hb := by
    have hs : cmp b a = (cmp a b).swap := h.eq_swap (a := ⟨b, hb⟩) (b := ⟨a, ha⟩)
    rw [hs]
    cases cmp a b <;> simp

def OrderedField (field : Option Value) : Prop := ∀ v ∈ field, v.Ordered

theorem transCmp_compareForSort :
    Std.TransCmp fun a b : Subtype OrderedField => compareForSort a.1 b.1 := by
  have he : (fun a b : Subtype OrderedField => compareForSort a.1 b.1) =
      fun a b => comparePlaces (place a.1) (place b.1) :=
    funext fun a => funext fun b => compareForSort_eq a.2 b.2
  rw [he]
  exact transCmp_comp fun a : Subtype OrderedField => place a.1

/-- Sort keys are arranged by a total preorder whatever their kinds, which agrees with less and
greater within a class, and so are records whatever the keys. -/
theorem sorting_is_preorder :
    TotalPreorder OrderedField compareForSort ∧
      (∀ v w : Value, v.isText = w.isText →
        (compareForSort (some v) (some w) = .lt ↔ v.lessThan w) ∧
          (compareForSort (some v) (some w) = .gt ↔ v.greaterThan w)) ∧
      ∀ keys : List OrderKey, TotalPreorder (Record.OrderedOn keys) (compareRecords keys) := by
  refine ⟨totalPreorder_of_transCmp transCmp_compareForSort, ?_, ?_⟩
  · intro v w h
    exact ⟨compareForSort_eq_iff_stands h nofun, compareForSort_eq_iff_stands h nofun⟩
  · intro keys
    exact totalPreorder_of_transCmp
      (transCmp_compareRecords_comp (Subtype.val (p := Record.OrderedOn keys)) Subtype.property)

/-- An integer that ties with another number, a text and an absent field, and two records of which
one lacks the first key column. -/
theorem sorting_is_preorder_on_mixed_kinds :
    let big : Value := .integer 9007199254740993
    let near : Value := .float (.ofInt 9007199254740992)
    let full : Record := ⟨⟨"1"⟩, .ofAssignments [("n", big), ("t", .text "a")]⟩
    let short : Record := ⟨⟨"2"⟩, .ofAssignments [("t", .null)]⟩
    let keys : List OrderKey := [⟨⟨none, "n"⟩, .ascending⟩, ⟨⟨none, "t"⟩, .descending⟩]
    OrderedField (some big) ∧ OrderedField (some near) ∧ OrderedField none ∧
      compareForSort (some big) (some near) = .eq ∧ (compareForSort (some near) none).isLE ∧
      (compareForSort (some big) none).isLE ∧ big.isText = near.isText ∧ ¬ big.lessThan near ∧
      full.OrderedOn keys ∧ short.OrderedOn keys ∧ compareRecords keys full short = .lt ∧
      compareRecords keys short full = .gt := by
  intro big near full short keys
  have hbig : OrderedField (some big) := by
    intro v hv
    cases hv
    exact nofun
  have hnear : OrderedField (some near) := by
    intro v hv
    cases hv
    exact Binary64.ofInt_ne_nan _ ∘ float.inj
  have hnone : OrderedField none := nofun
  have htie : compareForSort (some big) (some near) = .eq := by decide +kernel
  have hlast : (compareForSort (some near) none).isLE := by decide +kernel
  have hfull : full.OrderedOn keys := by decide +kernel
  have hshort : short.OrderedOn keys := by decide +kernel
  have hlt : compareRecords keys full short = .lt := by decide +kernel
  obtain ⟨hfields, hclass, hrecords⟩ := sorting_is_preorder
  refine ⟨hbig, hnear, hnone, htie, hlast, ?_, rfl, ?_, hfull, hshort, hlt, ?_⟩
  · exact hfields.trans _ _ _ hbig hnear hnone (by rw [htie]; rfl) hlast
  · rw [← (hclass big near rfl).1, htie]
    exact nofun
  · rw [(hrecords keys).swap full short hfull hshort, hlt]
    rfl

end Query

end DocBase
