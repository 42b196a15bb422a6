import DocBase.Catalog
import DocBase.Json.Reader
import DocBase.Json.Writer
import DocBase.Record

namespace DocBase.Document

def ofFields (fields : OrderedMap String Value) : Json :=
  .object (fields.entries.map fun (column, value) => (column, .scalar value))

def ofRecord (r : Record) : Json :=
  .object [("id", .scalar (.text r.id.text)), ("value", ofFields r.fields)]

def ofTable (records : List Record) : Json := .array (records.map ofRecord)

def ofSchema (schema : Schema) : Json :=
  .object (schema.columns.entries.map fun (column, type) => (column, .scalar (.text type.name)))

def ofCatalog (catalog : Catalog) : Json :=
  .object (catalog.tables.entries.map fun (table, schema) => (table, ofSchema schema))

def text? : Json → Option String
  | .scalar (.text s) => some s
  | _ => none

def scalar? : Json → Option Value
  | .scalar value => some value
  | _ => none

/-- A map whose values are decoded by `decode?`; a key met again moves to the end. -/
def map? {α : Type} (decode? : Json → Option α) : Json → Option (OrderedMap String α)
  | .object members => do
    let entries ← members.mapM fun (key, value) => (decode? value).map (key, ·)
    return .ofInsertions entries
  | _ => none

def onlyMember? (names : List String) (members : List (String × Json)) : Option Json :=
  match members.filter fun (key, _) => names.contains key with
  | [(_, value)] => some value
  | _ => none

/-- A record is an object with an identifier, under its current or its former name, and fields, or
an array of the two. Other members are ignored. -/
def record? : Json → Option Record
  | .object members => do
    let id ← text? (← onlyMember? ["id", "ulid"] members)
    let fields ← map? scalar? (← onlyMember? ["value"] members)
    return ⟨⟨id⟩, fields⟩
  | .array [id, fields] => do return ⟨⟨← text? id⟩, ← map? scalar? fields⟩
  | _ => none

def table? : Json → Option (List Record)
  | .array items => items.mapM record?
  | _ => none

def schema? (document : Json) : Option Schema :=
  (map? (fun type => (text? type).map ColumnType.ofName) document).map Schema.mk

def catalog? (document : Json) : Option Catalog :=
  (map? schema? document).map Catalog.mk

def readTable? (text : String) : Option (List Record) := (Json.parse? text).bind table?

def readCatalog? (text : String) : Option Catalog := (Json.parse? text).bind catalog?

end DocBase.Document
