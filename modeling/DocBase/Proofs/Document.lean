import DocBase.Document
import DocBase.Proofs.Catalog
import DocBase.Proofs.Json.RoundTrip
import DocBase.Proofs.Query.Order

namespace DocBase

/-- What a record is after it has been written and read. -/
def Record.kept (r : Record) : Record := ⟨r.id, r.fields.mapValues Value.kept⟩

def Value.isFinite : Value → Bool
  | float f => f.isFinite
  | _ => true

theorem Value.isFinite_kept (v : Value) : v.kept.isFinite := by
  cases v with
  | float f =>
    cases f with
    | finite negative rank => exact Binary64.isFinite_reread (f := .finite negative rank) rfl
    | _ => rfl
  | _ => rfl

theorem Value.ordered_of_isFinite {v : Value} (h : v.isFinite) : v.Ordered := by
  rintro rfl
  cases h

theorem Value.ordered_kept (v : Value) : v.kept.Ordered := ordered_of_isFinite v.isFinite_kept

theorem Record.ordered_kept (r : Record) : r.kept.Ordered := by
  intro entry he
  obtain ⟨⟨column, v⟩, -, rfl⟩ := List.mem_map.1 he
  exact v.ordered_kept

def Record.Finite (r : Record) : Prop := ∀ entry ∈ r.fields.entries, entry.2.isFinite

instance (r : Record) : Decidable r.Finite :=
  inferInstanceAs (Decidable (∀ entry ∈ r.fields.entries, entry.2.isFinite))

/-- Where the value was written as a number with a point or an exponent, it is read back. -/
def Value.Recalled : Value → Prop
  | float f => f.reread = f
  | _ => True

instance : (v : Value) → Decidable v.Recalled
  | .float f => inferInstanceAs (Decidable (f.reread = f))
  | .null | .boolean _ | .integer _ | .text _ => .isTrue trivial

def Record.Recalled (r : Record) : Prop := ∀ entry ∈ r.fields.entries, entry.2.Recalled

instance (r : Record) : Decidable r.Recalled :=
  inferInstanceAs (Decidable (∀ entry ∈ r.fields.entries, entry.2.Recalled))

theorem Value.kept_eq_self_iff {v : Value} : v.kept = v ↔ v.isFinite ∧ v.Recalled := by
  cases v with
  | float f =>
    cases f with
    | finite negative rank =>
      rw [kept, Value.float.injEq]
      exact (and_iff_right rfl).symm
    | _ => exact ⟨nofun, fun h => Bool.noConfusion h.1⟩
  | _ => exact ⟨fun _ => ⟨rfl, trivial⟩, fun _ => rfl⟩

theorem Record.kept_eq_self {r : Record} (hf : r.Finite) (hr : r.Recalled) : r.kept = r := by
  have hfields : r.fields.mapValues Value.kept = r.fields :=
    OrderedMap.mapValues_eq_self fun entry he => Value.kept_eq_self_iff.2 ⟨hf entry he, hr entry he⟩
  rw [kept, hfields]

theorem Record.map_kept_eq_self {records : List Record} (hf : ∀ r ∈ records, r.Finite)
    (hr : ∀ r ∈ records, r.Recalled) : records.map kept = records := by
  rw [List.map_congr_left fun r h => kept_eq_self (hf r h) (hr r h), List.map_id']

namespace Json

theorem keptEach_eq_map (items : List Json) : keptEach items = items.map kept := by
  induction items with
  | nil => rfl
  | cons item items ih => rw [keptEach, ih, List.map_cons]

theorem keptMembers_eq_map (members : List (String × Json)) :
    keptMembers members = members.map fun member => (member.1, kept member.2) := by
  induction members with
  | nil => rfl
  | cons member members ih => rw [keptMembers, ih, List.map_cons]

end Json

namespace Document

open Json

theorem mapM_eq_some_map {α β : Type} {f : α → Option β} {g : α → β} {items : List α}
    (h : ∀ a ∈ items, f a = some (g a)) : items.mapM f = some (items.map g) := by
  induction items with
  | nil => rfl
  | cons a items ih =>
    rw [List.mapM_cons, h a (.head _), ih fun b hb => h b (.tail _ hb)]
    rfl

theorem kept_object {α : Type} (encode : α → Json) (entries : List (String × α)) :
    kept (.object (entries.map fun (key, a) => (key, encode a))) =
      .object (entries.map fun entry => (entry.1, (encode entry.2).kept)) := by
  rw [kept, keptMembers_eq_map, List.map_map]
  rfl

theorem mapM_members {α β : Type} (encode : α → Json) {decode? : Json → Option β} {f : α → β}
    {entries : List (String × α)}
    (h : ∀ entry ∈ entries, decode? (encode entry.2) = some (f entry.2)) :
    (entries.map fun entry => (entry.1, encode entry.2)).mapM
      (fun (key, value) => (decode? value).map (key, ·)) =
        some (entries.map fun entry => (entry.1, f entry.2)) := by
  rw [List.mapM_map]
  exact mapM_eq_some_map fun entry he => congrArg (Option.map (entry.1, ·)) (h entry he)

theorem map?_kept {α : Type} (encode : α → Json) (f : α → α) {decode? : Json → Option α}
    {m : OrderedMap String α}
    (h : ∀ entry ∈ m.entries, decode? (encode entry.2).kept = some (f entry.2)) :
    map? decode? (kept (.object (m.entries.map fun (key, a) => (key, encode a)))) =
      some (m.mapValues f) := by
  have hentries := OrderedMap.entries_ofInsertions (m.mapValues f).distinct
  have hmembers := mapM_members (fun a => (encode a).kept) h
  rw [kept_object, map?, hmembers]
  exact congrArg some (OrderedMap.ext_entries hentries)

theorem record?_ofRecord (r : Record) : record? (ofRecord r).kept = some r.kept := by
  have hfields : map? scalar? (ofFields r.fields).kept = some (r.fields.mapValues Value.kept) :=
    map?_kept Json.scalar Value.kept fun _ _ => rfl
  change (map? scalar? (ofFields r.fields).kept).bind _ = _
  rw [hfields]
  rfl

theorem table?_ofTable (records : List Record) :
    table? (ofTable records).kept = some (records.map Record.kept) := by
  rw [ofTable, kept, keptEach_eq_map, List.map_map, table?, List.mapM_map]
  exact mapM_eq_some_map fun r _ => record?_ofRecord r

theorem schema?_ofSchema {schema : Schema} (h : schema.Named) :
    schema? (ofSchema schema).kept = some schema := by
  have hcolumns : map? (fun type => (text? type).map ColumnType.ofName) (ofSchema schema).kept =
      some (schema.columns.mapValues fun type => .ofName type.name) :=
    map?_kept (fun type : ColumnType => .scalar (.text type.name)) _ fun _ _ => rfl
  have hnamed : schema.columns.mapValues (fun type => .ofName type.name) = schema.columns :=
    OrderedMap.mapValues_eq_self h
  rw [schema?, hcolumns, hnamed]
  rfl

theorem catalog?_ofCatalog {c : Catalog} (h : c.Named) : catalog? (ofCatalog c).kept = some c := by
  have htables : map? schema? (ofCatalog c).kept = some (c.tables.mapValues id) :=
    map?_kept ofSchema id fun entry he => schema?_ofSchema (h entry he)
  rw [catalog?, htables, OrderedMap.mapValues_eq_self fun _ _ => rfl]
  rfl

theorem readTable?_write (style : Style) (records : List Record) :
    readTable? ((ofTable records).write style) = some (records.map Record.kept) := by
  rw [readTable?, parse?_write]
  exact table?_ofTable records

theorem readCatalog?_write (style : Style) {c : Catalog} (h : c.Named) :
    readCatalog? ((ofCatalog c).write style) = some c := by
  rw [readCatalog?, parse?_write]
  exact catalog?_ofCatalog h

/-- The document of a table is that of no catalog. -/
theorem readCatalog?_ofTable (style : Style) (records : List Record) :
    readCatalog? ((ofTable records).write style) = none := by
  rw [readCatalog?, parse?_write]
  rfl

theorem readCatalog?_braces : readCatalog? "\x7b\x7d" = some .empty :=
  (readCatalog?_write .compact (nofun : Catalog.empty.Named) :)

end Document

end DocBase
