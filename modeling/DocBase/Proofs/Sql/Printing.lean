import DocBase.Proofs.Catalog
import DocBase.Proofs.Sql.Spelling
import DocBase.Proofs.Value

namespace DocBase

namespace Sql

section
variable {α : Type}

def commaGlyphs (item : α → List Glyph) : List α → List Glyph
  | [] => []
  | [a] => item a
  | a :: as => item a ++ ([.sign .comma] ++ commaGlyphs item as)

def parenGlyphs (inner : List Glyph) : List Glyph :=
  [.sign .leftParen] ++ (inner ++ [.sign .rightParen])

end

def minusGlyphs (negative : Bool) : List Glyph := if negative then [.sign .minus] else []

def literalGlyphs : Value → List Glyph
  | .null => [.keyword .NULL]
  | .boolean b => [.keyword (if b then .TRUE else .FALSE)]
  | .integer i => minusGlyphs (i < 0) ++ [.integer i.toInt.natAbs]
  | .float f => minusGlyphs f.isNegative ++ [.float f.isNegative f]
  | .text s => [.string s]

def ColumnRef.glyphs : ColumnRef → List Glyph
  | ⟨none, name⟩ => [.name name]
  | ⟨some table, name⟩ => [.name table] ++ ([.sign .dot] ++ [.name name])

def Operator.glyphs : Operator → List Glyph
  | equal => [.sign .equal]
  | notEqual => [.sign .notEqual]
  | is => [.keyword .IS]
  | isNot => [.keyword .IS, .keyword .NOT]
  | less => [.sign .less]
  | greater => [.sign .greater]
  | lessEqual => [.sign .lessEqual]
  | greaterEqual => [.sign .greaterEqual]

def Connective.keyword : Connective → Keyword
  | and => .AND
  | or => .OR

namespace Expression

/-- An OR, standing under an AND. -/
def isLooser (outer : Connective) : Expression → Bool
  | logical _ inner _ => outer = .and ∧ inner = .or
  | comparison .. => false

def isAlike (outer : Connective) : Expression → Bool
  | logical _ inner _ => inner = outer
  | comparison .. => false

def glyphs : Expression → List Glyph
  | logical left connective right =>
    (if left.isLooser connective then parenGlyphs left.glyphs else left.glyphs) ++
      ([.keyword connective.keyword] ++
        (if right.isLooser connective || right.isAlike connective then parenGlyphs right.glyphs
          else right.glyphs))
  | comparison column operator literal =>
    column.glyphs ++ (operator.glyphs ++ literalGlyphs literal)

end Expression

def whereGlyphs : Option Expression → List Glyph
  | none => []
  | some e => [.keyword .WHERE] ++ e.glyphs

def Projection.glyphs : Projection → List Glyph
  | all => [.sign .asterisk]
  | columns refs => commaGlyphs ColumnRef.glyphs refs

def Direction.keyword : Direction → Keyword
  | ascending => .ASC
  | descending => .DESC

def OrderKey.glyphs (key : OrderKey) : List Glyph :=
  key.column.glyphs ++ [.keyword key.direction.keyword]

def orderGlyphs : List OrderKey → List Glyph
  | [] => []
  | keys => [.keyword .ORDER, .keyword .BY] ++ commaGlyphs OrderKey.glyphs keys

def limitGlyphs : Option Limit → List Glyph
  | none => []
  | some limit => [.keyword .LIMIT] ++ ([.integer limit.count.toNat] ++
    ([.keyword .OFFSET] ++ [.integer limit.offset.toNat]))

def columnListGlyphs : Option (List String) → List Glyph
  | none => []
  | some columns => parenGlyphs (commaGlyphs (fun column => [.name column]) columns)

def Assignment.glyphs (a : Assignment) : List Glyph :=
  [.name a.column] ++ ([.sign .equal] ++ literalGlyphs a.literal)

def definitionGlyphs (column : String × ColumnType) : List Glyph :=
  [.name column.1] ++ [.name column.2.name]

namespace Statement

def glyphs : Statement → List Glyph
  | select s => [.keyword .SELECT] ++ (s.projection.glyphs ++ ([.keyword .FROM] ++
    ([.name s.table] ++ (whereGlyphs s.condition ++ (orderGlyphs s.order ++ limitGlyphs s.limit)))))
  | insert s => [.keyword .INSERT, .keyword .INTO] ++ ([.name s.table] ++
    (columnListGlyphs s.columns ++ ([.keyword .VALUES] ++
      commaGlyphs (fun tuple => parenGlyphs (commaGlyphs literalGlyphs tuple)) s.tuples)))
  | update s => [.keyword .UPDATE] ++ ([.name s.table] ++ ([.keyword .SET] ++
    (commaGlyphs Assignment.glyphs s.assignments ++ whereGlyphs s.condition)))
  | delete s => [.keyword .DELETE, .keyword .FROM] ++ ([.name s.table] ++ whereGlyphs s.condition)
  | create s => [.keyword .CREATE, .keyword .TABLE] ++ ([.name s.table] ++
    parenGlyphs (commaGlyphs definitionGlyphs s.columns))
  | drop s => [.keyword .DROP, .keyword .TABLE] ++ [.name s.table]

/-- The texts that a statement prints as: numerals of floats can be chosen. -/
def Prints (s : Statement) (text : String) : Prop :=
  ∃ spellings, List.Forall₂ Glyph.Spells s.glyphs spellings ∧
    text = .ofList ([' '].intercalate spellings)

def print (s : Statement) : String := .ofList ([' '].intercalate (s.glyphs.map Glyph.spelling))

/-- Statements without empty lists where the grammar has none, and with types that their names stand
for. -/
def Printable : Statement → Prop
  | select s => s.projection ≠ .columns []
  | insert s => s.columns ≠ some [] ∧ s.tuples ≠ [] ∧ [] ∉ s.tuples
  | update s => s.assignments ≠ []
  | create s => s.columns ≠ [] ∧ ∀ column ∈ s.columns, column.2.Named
  | delete _ | drop _ => True

end Statement

/-! ### Which statements have a text -/

def Expression.literals : Expression → List Value
  | logical left _ right => left.literals ++ right.literals
  | comparison _ _ literal => [literal]

def conditionLiterals (condition : Option Expression) : List Value :=
  condition.elim [] Expression.literals

def Statement.literals : Statement → List Value
  | select s => conditionLiterals s.condition
  | insert s => s.tuples.flatten
  | update s => s.assignments.map Assignment.literal ++ conditionLiterals s.condition
  | delete s => conditionLiterals s.condition
  | create _ | drop _ => []

def AllSpellable (gs : List Glyph) : Prop := ∀ g ∈ gs, g.Spellable

namespace AllSpellable

theorem append {gs hs : List Glyph} (hg : AllSpellable gs) (hh : AllSpellable hs) :
    AllSpellable (gs ++ hs) := List.forall_mem_append.2 ⟨hg, hh⟩

theorem singleton {g : Glyph} (h : g.Spellable) : AllSpellable [g] :=
  List.forall_mem_singleton.2 h

theorem pair {g h : Glyph} (hg : g.Spellable) (hh : h.Spellable) : AllSpellable [g, h] :=
  List.forall_mem_cons.2 ⟨hg, singleton hh⟩

theorem parenGlyphs {gs : List Glyph} (h : AllSpellable gs) : AllSpellable (parenGlyphs gs) :=
  append (singleton trivial) (append h (singleton trivial))

theorem commaGlyphs {α : Type} {item : α → List Glyph} {as : List α}
    (h : ∀ a ∈ as, AllSpellable (item a)) : AllSpellable (commaGlyphs item as) := by
  induction as with
  | nil => exact nofun
  | cons a as ih =>
    cases as with
    | nil => exact h a (.head _)
    | cons b bs =>
      have hrest := ih fun a hm => h a (.tail _ hm)
      exact append (h a (.head _)) (append (singleton trivial) hrest)

theorem minusGlyphs (negative : Bool) : AllSpellable (minusGlyphs negative) := by
  cases negative with
  | false => exact nofun
  | true => exact singleton trivial

theorem literalGlyphs {v : Value} (h : v.Ordered) : AllSpellable (literalGlyphs v) := by
  cases v with
  | null => exact singleton trivial
  | boolean b => exact singleton trivial
  | integer i => exact append (minusGlyphs _) (singleton trivial)
  | float f => exact append (minusGlyphs _) (singleton ⟨fun hf => h (congrArg Value.float hf), rfl⟩)
  | text s => exact singleton trivial

theorem column (column : ColumnRef) : AllSpellable column.glyphs := by
  obtain ⟨table, name⟩ := column
  cases table with
  | none => exact singleton trivial
  | some table =>
    exact append (singleton trivial) (append (singleton trivial) (singleton trivial))

theorem operator (operator : Operator) : AllSpellable operator.glyphs := by
  cases operator with
  | isNot => exact pair trivial trivial
  | _ => exact singleton trivial

theorem expression {e : Expression} (h : ∀ v ∈ e.literals, v.Ordered) :
    AllSpellable e.glyphs := by
  induction e with
  | comparison column operator literal =>
    have hl := literalGlyphs (h literal (.head _))
    exact append (.column column) (append (.operator operator) hl)
  | logical left connective right ihl ihr =>
    obtain ⟨hleft, hright⟩ := List.forall_mem_append.1 h
    have hwrap {wrapped : Bool} {gs : List Glyph} (hg : AllSpellable gs) :
        AllSpellable (if wrapped then Sql.parenGlyphs gs else gs) := by
      cases wrapped with
      | false => exact hg
      | true => exact hg.parenGlyphs
    exact append (hwrap (ihl hleft)) (append (singleton trivial) (hwrap (ihr hright)))

theorem condition {condition : Option Expression}
    (h : ∀ v ∈ conditionLiterals condition, v.Ordered) : AllSpellable (whereGlyphs condition) := by
  cases condition with
  | none => exact nofun
  | some e => exact append (singleton trivial) (expression h)

theorem projection (projection : Projection) : AllSpellable projection.glyphs := by
  cases projection with
  | all => exact singleton trivial
  | columns refs => exact commaGlyphs fun ref _ => column ref

theorem order (keys : List OrderKey) : AllSpellable (orderGlyphs keys) := by
  cases keys with
  | nil => exact nofun
  | cons key keys =>
    have hkeys : AllSpellable (Sql.commaGlyphs OrderKey.glyphs (key :: keys)) :=
      commaGlyphs fun key _ => append (column key.column) (singleton trivial)
    exact append (pair trivial trivial) hkeys

theorem limit (limit : Option Limit) : AllSpellable (limitGlyphs limit) := by
  cases limit with
  | none => exact nofun
  | some limit =>
    exact append (singleton trivial) (append (singleton trivial)
      (append (singleton trivial) (singleton trivial)))

theorem columnList (columns : Option (List String)) : AllSpellable (columnListGlyphs columns) := by
  cases columns with
  | none => exact nofun
  | some columns => exact parenGlyphs (commaGlyphs fun _ _ => singleton trivial)

theorem statement {s : Statement} (h : ∀ v ∈ s.literals, v.Ordered) : AllSpellable s.glyphs := by
  cases s with
  | select s =>
    exact append (singleton trivial) (append (projection _) (append (singleton trivial)
      (append (singleton trivial) (append (condition h) (append (order _) (limit _))))))
  | insert s =>
    have htuples := commaGlyphs fun tuple ht => parenGlyphs (commaGlyphs fun v hv =>
      literalGlyphs (h v (List.mem_flatten_of_mem ht hv)))
    exact append (pair trivial trivial) (append (singleton trivial) (append (columnList _)
      (append (singleton trivial) htuples)))
  | update s =>
    obtain ⟨hassigned, hcondition⟩ := List.forall_mem_append.1 h
    have hlist : AllSpellable (Sql.commaGlyphs Assignment.glyphs s.assignments) :=
      commaGlyphs fun a ha => append (singleton trivial) (append (singleton trivial)
        (literalGlyphs (hassigned _ (List.mem_map_of_mem ha))))
    exact append (singleton trivial) (append (singleton trivial) (append (singleton trivial)
      (append hlist (condition hcondition))))
  | delete s => exact append (pair trivial trivial) (append (singleton trivial) (condition h))
  | create s =>
    have hcolumns : AllSpellable (Sql.commaGlyphs definitionGlyphs s.columns) :=
      commaGlyphs fun _ _ => append (singleton trivial) (singleton trivial)
    exact append (pair trivial trivial) (append (singleton trivial) hcolumns.parenGlyphs)
  | drop s => exact append (pair trivial trivial) (singleton trivial)

end AllSpellable

theorem Statement.prints_print {s : Statement} (h : ∀ v ∈ s.literals, v.Ordered) :
    s.Prints s.print := by
  refine ⟨s.glyphs.map Glyph.spelling, ?_, rfl⟩
  rw [List.forall₂_map_right_iff, List.forall₂_same]
  intro g hg
  exact (AllSpellable.statement h g hg).spells

end Sql

end DocBase
