import DocBase.Value

namespace DocBase

inductive Json
  | scalar (value : Value)
  /-- Well-formed text that stands for no document: a number out of range, or a text or key with
  half of a surrogate pair. -/
  | meaningless
  | array (items : List Json)
  | object (members : List (String × Json))

end DocBase
