import DocBase.Proofs.Document
import DocBase.ResultSet

namespace DocBase

theorem Value.isFinite_of_ne_float {v : Value} (h : ∀ f, v ≠ float f) : v.isFinite := by
  cases v with
  | float f => exact absurd rfl (h f)
  | _ => rfl

namespace Json

/-- Documents without a NaN or an infinity in them. -/
inductive Finite : Json → Prop
  | scalar {value : Value} : value.isFinite → Finite (.scalar value)
  | meaningless : Finite .meaningless
  | array {items : List Json} : (∀ item ∈ items, Finite item) → Finite (.array items)
  | object {members : List (String × Json)} :
    (∀ member ∈ members, Finite member.2) → Finite (.object members)

theorem finite_ofFloat (f : Binary64) : (ofFloat f).Finite := by
  rw [ofFloat]
  split
  · next h => exact .scalar h
  · exact .meaningless

theorem finite_ofNumeral (n : Numeral) : (ofNumeral n).Finite := by
  rw [ofNumeral]
  split
  · split
    · exact finite_ofFloat _
    · next hv => exact .scalar (Value.isFinite_of_ne_float hv)
  · exact finite_ofFloat _

theorem finite_ofPieces (pieces : List Piece) : (ofPieces pieces).Finite := by
  rw [ofPieces]
  split
  · exact .scalar rfl
  · exact .meaningless

end Json

namespace Document

theorem mem_of_mapM_eq_some {α β : Type} {f : α → Option β} {items : List α} {found : List β}
    (h : items.mapM f = some found) {b : β} (hb : b ∈ found) : ∃ a ∈ items, f a = some b := by
  induction items generalizing found with
  | nil =>
    cases h
    cases hb
  | cons a items ih =>
    rw [List.mapM_cons] at h
    obtain ⟨c, hc, h⟩ := Option.bind_eq_some_iff.1 h
    obtain ⟨rest, hrest, he⟩ := Option.bind_eq_some_iff.1 h
    cases he
    rcases List.mem_cons.1 hb with rfl | hb
    · exact ⟨a, .head _, hc⟩
    · obtain ⟨a', ha', hf⟩ := ih hrest hb
      exact ⟨a', .tail _ ha', hf⟩

end Document

namespace Json

theorem finite_ofMembers {members : List (List Piece × Json)} (h : ∀ m ∈ members, m.2.Finite) :
    (ofMembers members).Finite := by
  rw [ofMembers]
  split
  · next named hn =>
    apply Finite.object
    intro member hm
    obtain ⟨m, hmem, he⟩ := Document.mem_of_mapM_eq_some hn hm
    obtain ⟨cs, -, rfl⟩ := Option.map_eq_some_iff.1 he
    exact h m hmem
  · exact .meaningless

theorem finite_of_readWord? {word cs rest : List Char} {value : Value} {document : Json}
    (hv : value.isFinite) (h : readWord? word value cs = some (document, rest)) :
    document.Finite := by
  rw [readWord?] at h
  split at h
  · cases h
    exact .scalar hv
  · cases h

theorem finite_of_readNumber? {cs rest : List Char} {document : Json}
    (h : readNumber? cs = some (document, rest)) : document.Finite := by
  simp only [readNumber?] at h
  obtain ⟨⟨exponent, behind⟩, -, h⟩ := Option.bind_eq_some_iff.1 h
  obtain ⟨-, he⟩ := Option.ite_none_left_eq_some.1 h
  cases he
  exact finite_ofNumeral _

/-- Whatever the readers take off the front of a text with this much fuel is finite. -/
structure ReadsFinite (fuel : Nat) : Prop where
  value {cs rest : List Char} {document : Json} :
    readValue? fuel cs = some (document, rest) → document.Finite
  items {cs rest : List Char} {items : List Json} :
    readItems? fuel cs = some (items, rest) → ∀ item ∈ items, item.Finite
  members {cs rest : List Char} {members : List (List Piece × Json)} :
    readMembers? fuel cs = some (members, rest) → ∀ member ∈ members, member.2.Finite

theorem ReadsFinite.value_succ {fuel : Nat} (h : ReadsFinite fuel) {cs rest : List Char}
    {document : Json} (hr : readValue? (fuel + 1) cs = some (document, rest)) :
    document.Finite := by
  rw [readValue?.eq_def] at hr
  dsimp only at hr
  split at hr
  · obtain ⟨⟨pieces, behind⟩, -, he⟩ := Option.bind_eq_some_iff.1 hr
    cases he
    exact finite_ofPieces pieces
  · split at hr
    · cases hr
      exact .array (List.forall_mem_nil _)
    · obtain ⟨⟨items, behind⟩, hitems, he⟩ := Option.bind_eq_some_iff.1 hr
      cases he
      exact .array (h.items hitems)
  · split at hr
    · cases hr
      exact .object (List.forall_mem_nil _)
    · obtain ⟨⟨members, behind⟩, hmembers, he⟩ := Option.bind_eq_some_iff.1 hr
      cases he
      exact finite_ofMembers (h.members hmembers)
  · exact finite_of_readWord? rfl hr
  · exact finite_of_readWord? rfl hr
  · exact finite_of_readWord? rfl hr
  · exact finite_of_readNumber? hr

theorem ReadsFinite.items_succ {fuel : Nat} (h : ReadsFinite fuel) {cs rest : List Char}
    {items : List Json} (hr : readItems? (fuel + 1) cs = some (items, rest)) :
    ∀ item ∈ items, item.Finite := by
  rw [readItems?.eq_def] at hr
  dsimp only at hr
  obtain ⟨⟨first, behind⟩, hfirst, hr⟩ := Option.bind_eq_some_iff.1 hr
  dsimp only at hr
  split at hr
  · cases hr
    exact List.forall_mem_singleton.2 (h.value hfirst)
  · obtain ⟨⟨more, behind⟩, hmore, he⟩ := Option.bind_eq_some_iff.1 hr
    cases he
    exact List.forall_mem_cons.2 ⟨h.value hfirst, h.items hmore⟩
  · cases hr

theorem ReadsFinite.members_succ {fuel : Nat} (h : ReadsFinite fuel) {cs rest : List Char}
    {members : List (List Piece × Json)}
    (hr : readMembers? (fuel + 1) cs = some (members, rest)) :
    ∀ member ∈ members, member.2.Finite := by
  rw [readMembers?.eq_def] at hr
  dsimp only at hr
  split at hr
  · obtain ⟨⟨key, behind⟩, -, hr⟩ := Option.bind_eq_some_iff.1 hr
    dsimp only at hr
    split at hr
    · obtain ⟨⟨value, behind⟩, hvalue, hr⟩ := Option.bind_eq_some_iff.1 hr
      dsimp only at hr
      split at hr
      · cases hr
        exact List.forall_mem_singleton.2 (h.value hvalue)
      · obtain ⟨⟨more, behind⟩, hmore, he⟩ := Option.bind_eq_some_iff.1 hr
        cases he
        exact List.forall_mem_cons.2 ⟨h.value hvalue, h.members hmore⟩
      · cases hr
    · cases hr
  · cases hr

theorem readsFinite (fuel : Nat) : ReadsFinite fuel := by
  induction fuel with
  | zero => exact ⟨nofun, nofun, nofun⟩
  | succ fuel ih => exact ⟨ih.value_succ, ih.items_succ, ih.members_succ⟩

/-- A number out of range means nothing, so what a text means is finite. -/
theorem finite_of_parse? {text : String} {document : Json} (h : parse? text = some document) :
    document.Finite := by
  obtain ⟨⟨read, rest⟩, hread, h⟩ := Option.bind_eq_some_iff.1 h
  dsimp only at h
  split at h
  · cases h
    exact (readsFinite _).value hread
  · cases h

end Json

namespace Document

open Json

theorem mem_of_map?_eq_some {α : Type} {decode? : Json → Option α} {document : Json}
    {m : OrderedMap String α} (h : map? decode? document = some m) {entry : String × α}
    (he : entry ∈ m.entries) :
    ∃ members value, document = .object members ∧ (entry.1, value) ∈ members ∧
      decode? value = some entry.2 := by
  cases document with
  | object members =>
    obtain ⟨entries, hentries, hm⟩ := Option.bind_eq_some_iff.1 h
    cases hm
    obtain ⟨⟨key, value⟩, hmember, hvalue⟩ :=
      mem_of_mapM_eq_some hentries (OrderedMap.mem_of_mem_ofInsertions he)
    obtain ⟨found, hfound, rfl⟩ := Option.map_eq_some_iff.1 hvalue
    exact ⟨members, value, rfl, hmember, hfound⟩
  | _ => cases h

theorem isFinite_of_map? {document : Json} (hd : document.Finite) {m : OrderedMap String Value}
    (h : map? scalar? document = some m) : ∀ entry ∈ m.entries, entry.2.isFinite := by
  intro entry he
  obtain ⟨members, value, rfl, hmember, hvalue⟩ := mem_of_map?_eq_some h he
  cases hd with
  | object hmembers =>
    have hfinite := hmembers _ hmember
    cases hfinite with
    | scalar hv =>
      cases hvalue
      exact hv
    | _ => cases hvalue

theorem mem_of_onlyMember? {names : List String} {members : List (String × Json)} {value : Json}
    (h : onlyMember? names members = some value) : ∃ key, (key, value) ∈ members := by
  rw [onlyMember?] at h
  split at h
  · next key found hf =>
    cases h
    exact ⟨key, (List.mem_filter.1 (hf ▸ List.mem_singleton_self _)).1⟩
  · cases h

theorem finite_of_record? {document : Json} (hd : document.Finite) {r : Record}
    (h : record? document = some r) : r.Finite := by
  rw [record?.eq_def] at h
  split at h
  · next members =>
    cases hd with
    | object hmembers =>
      obtain ⟨_, -, h⟩ := Option.bind_eq_some_iff.1 h
      obtain ⟨id, -, h⟩ := Option.bind_eq_some_iff.1 h
      obtain ⟨value, hvalue, h⟩ := Option.bind_eq_some_iff.1 h
      obtain ⟨fields, hfields, he⟩ := Option.bind_eq_some_iff.1 h
      cases he
      obtain ⟨key, hmember⟩ := mem_of_onlyMember? hvalue
      exact isFinite_of_map? (hmembers _ hmember) hfields
  · next id value =>
    cases hd with
    | array hitems =>
      obtain ⟨id, -, h⟩ := Option.bind_eq_some_iff.1 h
      obtain ⟨fields, hfields, he⟩ := Option.bind_eq_some_iff.1 h
      cases he
      exact isFinite_of_map? (hitems value (.tail _ (.head _))) hfields
  · cases h

theorem finite_of_table? {document : Json} (hd : document.Finite) {records : List Record}
    (h : table? document = some records) : ∀ r ∈ records, r.Finite := by
  intro r hr
  cases hd with
  | array hitems =>
    obtain ⟨item, hitem, he⟩ := mem_of_mapM_eq_some h hr
    exact finite_of_record? (hitems item hitem) he
  | _ => cases h

theorem finite_of_readTable? {text : String} {records : List Record}
    (h : readTable? text = some records) : ∀ r ∈ records, r.Finite := by
  obtain ⟨document, hparse, htable⟩ := Option.bind_eq_some_iff.1 h
  exact finite_of_table? (finite_of_parse? hparse) htable

theorem named_of_schema? {document : Json} {schema : Schema} (h : schema? document = some schema) :
    schema.Named := by
  obtain ⟨columns, hcolumns, rfl⟩ := Option.map_eq_some_iff.1 h
  intro entry he
  obtain ⟨members, value, -, -, hvalue⟩ := mem_of_map?_eq_some hcolumns he
  obtain ⟨name, -, hname⟩ := Option.map_eq_some_iff.1 hvalue
  exact hname ▸ ColumnType.named_ofName name

theorem named_of_readCatalog? {text : String} {c : Catalog} (h : readCatalog? text = some c) :
    c.Named := by
  obtain ⟨document, -, hcatalog⟩ := Option.bind_eq_some_iff.1 h
  obtain ⟨tables, htables, rfl⟩ := Option.map_eq_some_iff.1 hcatalog
  intro entry he
  obtain ⟨members, value, -, -, hvalue⟩ := mem_of_map?_eq_some htables he
  exact named_of_schema? hvalue

def readRows? (text : String) : Option (List Row) :=
  (Json.parse? text).bind fun
    | .array items => items.mapM (map? scalar?)
    | _ => none

theorem readRows?_write (style : Style) (columns : List String) {found : List Row}
    (h : ∀ row ∈ found, ∀ entry ∈ row.entries, entry.2.isFinite ∧ entry.2.Recalled) :
    readRows? ((ResultSet.rows columns found).toJson.write style) = some found := by
  have hrow : ∀ row ∈ found, map? scalar? (ofFields row).kept = some row := by
    intro row hr
    have hfields : map? scalar? (ofFields row).kept = some (row.mapValues Value.kept) :=
      map?_kept Json.scalar Value.kept fun _ _ => rfl
    have hkept := fun entry he => Value.kept_eq_self_iff.2 (h row hr entry he)
    rw [hfields, OrderedMap.mapValues_eq_self hkept]
  have hrows : found.mapM (map? scalar? ∘ fun row => (ofFields row).kept) = some (found.map id) :=
    mapM_eq_some_map hrow
  rw [List.map_id, ← List.mapM_map] at hrows
  rw [readRows?, parse?_write, ResultSet.toJson, kept, keptEach_eq_map, List.map_map]
  exact hrows

/-- Whatever text a table, a catalog or an answer is read from, writing it in either style keeps
what it means, and writing what that means once more writes the same text. The floats that are
written must be read back as they are; finite they are anyway. -/
theorem rewriting_keeps (style : Style) :
    (∀ text records, readTable? text = some records → (∀ r ∈ records, r.Recalled) →
      let rewritten := (ofTable records).write style
      readTable? rewritten = some records ∧
        (readTable? rewritten).map (fun again => (ofTable again).write style) = some rewritten) ∧
    (∀ text c, readCatalog? text = some c →
      let rewritten := (ofCatalog c).write style
      readCatalog? rewritten = some c ∧
        (readCatalog? rewritten).map (fun again => (ofCatalog again).write style) =
          some rewritten) ∧
    (∀ columns found,
      (∀ row ∈ found, ∀ entry ∈ row.entries, entry.2.isFinite ∧ entry.2.Recalled) →
      readRows? ((ResultSet.rows columns found).toJson.write style) = some found) := by
  refine ⟨?_, ?_, ?_⟩
  · intro text records h hrecalled rewritten
    have hread : readTable? rewritten = some records := by
      rw [readTable?_write, Record.map_kept_eq_self (finite_of_readTable? h) hrecalled]
    exact ⟨hread, by rw [hread]; rfl⟩
  · intro text c h rewritten
    have hread := readCatalog?_write style (named_of_readCatalog? h)
    exact ⟨hread, by rw [hread]; rfl⟩
  · intro columns found h
    exact readRows?_write style columns h

/-- A record under its former key with a member that is ignored, a column met twice and an integer
beyond 64 bits, a record as an array, and a catalog with an alias and a type of its own. -/
theorem rewriting_keeps_of_odd_documents :
    let table := "[\x7b\"ulid\": \"a\", \"note\": [1], \"value\": \x7b\"x\": 9223372036854775808, " ++
      "\"y\": 1, \"x\": 1.5e1\x7d\x7d, [\"b\", \x7b\"z\": -9223372036854775809\x7d]]"
    let records : List Record :=
      [⟨⟨"a"⟩, .ofInsertions [("y", .integer 1), ("x", .float (.ofInt 15))]⟩,
        ⟨⟨"b"⟩, .ofInsertions [("z", .float (.ofInt (-9223372036854775808)))]⟩]
    let catalog := "\x7b\"t\": \x7b\"a\": \"varChar\", \"b\": \"Blob\"\x7d\x7d"
    let declared : Catalog :=
      ⟨.ofInsertions [("t", ⟨.ofInsertions [("a", .text), ("b", .other "Blob")]⟩)]⟩
    let answer : List Row := [.ofInsertions [("a", .float .zero)], .ofInsertions []]
    (readTable? table = some records ∧
      readTable? ((ofTable records).write .pretty) = some records) ∧
    (readCatalog? catalog = some declared ∧
      readCatalog? ((ofCatalog declared).write .pretty) = some declared) ∧
    readRows? ((ResultSet.rows ["a"] answer).toJson.write .pretty) = some answer := by
  intro table records catalog declared answer
  have htable : readTable? table = some records := by decide +kernel
  have hcatalog : readCatalog? catalog = some declared := by decide +kernel
  have hrecalled : ∀ r ∈ records, r.Recalled := by decide +kernel
  have hanswer : ∀ row ∈ answer, ∀ entry ∈ row.entries, entry.2.isFinite ∧ entry.2.Recalled := by
    decide +kernel
  obtain ⟨htables, hcatalogs, hrows⟩ := rewriting_keeps .pretty
  exact ⟨⟨htable, (htables _ _ htable hrecalled).1⟩, ⟨hcatalog, (hcatalogs _ _ hcatalog).1⟩,
    hrows _ _ hanswer⟩

end Document

end DocBase
