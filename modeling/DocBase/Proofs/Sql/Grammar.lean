import DocBase.Sql.Lexer
import DocBase.Sql.Statement

namespace DocBase.Sql

def Token.IsInteger (t : Token) (digits : List Char) : Prop :=
  t.kind = .integer ∧ t.literal.toList = digits ∧ digits ≠ [] ∧ ∀ c ∈ digits, c.isDigit

def Token.IsFloat (t : Token) (whole fraction : List Char) : Prop :=
  t.kind = .float ∧ t.literal.toList = whole ++ '.' :: fraction ∧ whole ≠ [] ∧ fraction ≠ [] ∧
    ∀ c ∈ whole ++ fraction, c.isDigit

namespace Grammar

/-- The tokens of a phrase and what they stand for. -/
abbrev Phrase (α : Type) := List Token → α → Prop

variable {α : Type}

def Spelled (kinds : List TokenKind) (ts : List Token) : Prop := ts.map Token.kind = kinds

inductive Listed (item : Phrase α) : Phrase (List α)
  | one {ts : List Token} {a : α} : item ts a → Listed item ts [a]
  | more {ts c us : List Token} {a : α} {as : List α} : item ts a → Spelled [.sign .comma] c →
    Listed item us as → Listed item (ts ++ (c ++ us)) (a :: as)

inductive Parenthesized (inner : Phrase α) : Phrase α
  | mk {l ts r : List Token} {a : α} : Spelled [.sign .leftParen] l → inner ts a →
    Spelled [.sign .rightParen] r → Parenthesized inner (l ++ (ts ++ r)) a

inductive Name : Phrase String
  | mk {t : Token} {name : String} : t.kind = .identifier name → Name [t] name

inductive Minus : Phrase Bool
  | absent : Minus [] false
  | present {ts : List Token} : Spelled [.sign .minus] ts → Minus ts true

/-- An integer that does not fit 64 bits stands for the nearest float, as `Value.ofInt` has it. -/
inductive Literal : Phrase Value
  | integer {ts : List Token} {t : Token} {negative : Bool} {digits : List Char} :
    Minus ts negative → t.IsInteger digits →
    Literal (ts ++ [t])
      (.ofInt (if negative then -(digitsValue digits : Int) else digitsValue digits))
  | float {ts : List Token} {t : Token} {negative : Bool} {whole fraction : List Char} :
    Minus ts negative → t.IsFloat whole fraction →
    Literal (ts ++ [t])
      (.float (.ofDecimal negative (digitsValue (whole ++ fraction)) (-fraction.length)))
  | string {t : Token} {text : String} : t.kind = .string text → Literal [t] (.text text)
  | null {ts : List Token} : Spelled [.keyword .NULL] ts → Literal ts .null
  | true {ts : List Token} : Spelled [.keyword .TRUE] ts → Literal ts (.boolean true)
  | false {ts : List Token} : Spelled [.keyword .FALSE] ts → Literal ts (.boolean false)

inductive Column : Phrase ColumnRef
  | plain {ts : List Token} {name : String} : Name ts name → Column ts ⟨none, name⟩
  | qualified {ts d us : List Token} {table name : String} : Name ts table →
    Spelled [.sign .dot] d → Name us name → Column (ts ++ (d ++ us)) ⟨some table, name⟩

inductive Comparator : Phrase Operator
  | equal {ts : List Token} : Spelled [.sign .equal] ts → Comparator ts .equal
  | notEqual {ts : List Token} : Spelled [.sign .notEqual] ts → Comparator ts .notEqual
  | less {ts : List Token} : Spelled [.sign .less] ts → Comparator ts .less
  | greater {ts : List Token} : Spelled [.sign .greater] ts → Comparator ts .greater
  | lessEqual {ts : List Token} : Spelled [.sign .lessEqual] ts → Comparator ts .lessEqual
  | greaterEqual {ts : List Token} : Spelled [.sign .greaterEqual] ts → Comparator ts .greaterEqual
  | is {ts : List Token} : Spelled [.keyword .IS] ts → Comparator ts .is
  | isNot {ts : List Token} : Spelled [.keyword .IS, .keyword .NOT] ts → Comparator ts .isNot

/-- How tightly the parts of a condition hold together. -/
inductive Level
  | disjunction
  | conjunction
  | primary

/-- A connective joins what it stands behind to a part of the next tighter level, so chains lean to
the left. -/
inductive Condition : Level → Phrase Expression
  | comparison {cs os ls : List Token} {column : ColumnRef} {operator : Operator}
      {literal : Value} : Column cs column → Comparator os operator → Literal ls literal →
    Condition .primary (cs ++ (os ++ ls)) (.comparison column operator literal)
  | parenthesized {l ts r : List Token} {e : Expression} : Spelled [.sign .leftParen] l →
    Condition .disjunction ts e → Spelled [.sign .rightParen] r →
    Condition .primary (l ++ (ts ++ r)) e
  | ofPrimary {ts : List Token} {e : Expression} : Condition .primary ts e →
    Condition .conjunction ts e
  | and {ts c us : List Token} {left right : Expression} : Condition .conjunction ts left →
    Spelled [.keyword .AND] c → Condition .primary us right →
    Condition .conjunction (ts ++ (c ++ us)) (.logical left .and right)
  | ofConjunction {ts : List Token} {e : Expression} : Condition .conjunction ts e →
    Condition .disjunction ts e
  | or {ts c us : List Token} {left right : Expression} : Condition .disjunction ts left →
    Spelled [.keyword .OR] c → Condition .conjunction us right →
    Condition .disjunction (ts ++ (c ++ us)) (.logical left .or right)

inductive Where : Phrase (Option Expression)
  | absent : Where [] none
  | present {w ts : List Token} {e : Expression} : Spelled [.keyword .WHERE] w →
    Condition .disjunction ts e → Where (w ++ ts) (some e)

inductive Projected : Phrase Projection
  | all {ts : List Token} : Spelled [.sign .asterisk] ts → Projected ts .all
  | columns {ts : List Token} {columns : List ColumnRef} : Listed Column ts columns →
    Projected ts (.columns columns)

inductive Directed : Phrase Direction
  | silent : Directed [] .ascending
  | ascending {ts : List Token} : Spelled [.keyword .ASC] ts → Directed ts .ascending
  | descending {ts : List Token} : Spelled [.keyword .DESC] ts → Directed ts .descending

inductive Key : Phrase OrderKey
  | mk {cs ds : List Token} {column : ColumnRef} {direction : Direction} : Column cs column →
    Directed ds direction → Key (cs ++ ds) ⟨column, direction⟩

inductive OrderBy : Phrase (List OrderKey)
  | absent : OrderBy [] []
  | present {w ks : List Token} {keys : List OrderKey} :
    Spelled [.keyword .ORDER, .keyword .BY] w → Listed Key ks keys → OrderBy (w ++ ks) keys

inductive Unsigned : Phrase UInt64
  | mk {t : Token} {digits : List Char} : t.IsInteger digits → digitsValue digits < UInt64.size →
    Unsigned [t] (.ofNat (digitsValue digits))

inductive Limited : Phrase (Option Limit)
  | absent : Limited [] none
  | count {w ns : List Token} {count : UInt64} : Spelled [.keyword .LIMIT] w →
    Unsigned ns count → Limited (w ++ ns) (some ⟨count, 0⟩)
  | offset {w ns o ms : List Token} {count offset : UInt64} : Spelled [.keyword .LIMIT] w →
    Unsigned ns count → Spelled [.keyword .OFFSET] o → Unsigned ms offset →
    Limited (w ++ (ns ++ (o ++ ms))) (some ⟨count, offset⟩)
  | comma {w ms c ns : List Token} {count offset : UInt64} : Spelled [.keyword .LIMIT] w →
    Unsigned ms offset → Spelled [.sign .comma] c → Unsigned ns count →
    Limited (w ++ (ms ++ (c ++ ns))) (some ⟨count, offset⟩)

inductive ColumnList : Phrase (Option (List String))
  | absent : ColumnList [] none
  | present {ts : List Token} {columns : List String} : Parenthesized (Listed Name) ts columns →
    ColumnList ts (some columns)

inductive Assigned : Phrase Assignment
  | mk {ns e ls : List Token} {column : String} {literal : Value} : Name ns column →
    Spelled [.sign .equal] e → Literal ls literal → Assigned (ns ++ (e ++ ls)) ⟨column, literal⟩

inductive Size : List Token → Prop
  | absent : Size []
  | one {ts : List Token} : Spelled [.sign .leftParen, .integer, .sign .rightParen] ts → Size ts
  | two {ts : List Token} :
    Spelled [.sign .leftParen, .integer, .sign .comma, .integer, .sign .rightParen] ts → Size ts

inductive Typed : Phrase ColumnType
  | mk {ns ss : List Token} {name : String} : Name ns name → Size ss →
    Typed (ns ++ ss) (.ofName name)

inductive Constraint : List Token → Prop
  | notNull {ts : List Token} : Spelled [.keyword .NOT, .keyword .NULL] ts → Constraint ts
  | null {ts : List Token} : Spelled [.keyword .NULL] ts → Constraint ts
  | unique {ts : List Token} : Spelled [.keyword .UNIQUE] ts → Constraint ts
  | primaryKey {ts : List Token} : Spelled [.keyword .PRIMARY, .keyword .KEY] ts → Constraint ts
  | default {d ls : List Token} {literal : Value} : Spelled [.keyword .DEFAULT] d →
    Literal ls literal → Constraint (d ++ ls)

inductive Constraints : List Token → Prop
  | none : Constraints []
  | more {ts us : List Token} : Constraint ts → Constraints us → Constraints (ts ++ us)

inductive Uniqueness : List Token → Prop
  | primaryKey {ts : List Token} : Spelled [.keyword .PRIMARY, .keyword .KEY] ts → Uniqueness ts
  | unique {ts : List Token} : Spelled [.keyword .UNIQUE] ts → Uniqueness ts

/-- An item of a table definition: a column or a constraint on the table. -/
inductive Item : Phrase (Option (String × ColumnType))
  | column {ns ts cs : List Token} {name : String} {type : ColumnType} : Name ns name →
    Typed ts type → Constraints cs → Item (ns ++ (ts ++ cs)) (some (name, type))
  | constraint {ws ns : List Token} {names : List String} : Uniqueness ws →
    Parenthesized (Listed Name) ns names → Item (ws ++ ns) none

inductive Sentence : Phrase Statement
  | create {w ns is : List Token} {table : String} {items : List (Option (String × ColumnType))} :
    Spelled [.keyword .CREATE, .keyword .TABLE] w → Name ns table →
    Parenthesized (Listed Item) is items → items.filterMap id ≠ [] →
    Sentence (w ++ (ns ++ is)) (.create ⟨table, items.filterMap id⟩)
  | drop {w ns : List Token} {table : String} : Spelled [.keyword .DROP, .keyword .TABLE] w →
    Name ns table → Sentence (w ++ ns) (.drop ⟨table⟩)
  | insert {w ns cs v ts : List Token} {table : String} {columns : Option (List String)}
      {tuples : List (List Value)} : Spelled [.keyword .INSERT, .keyword .INTO] w →
    Name ns table → ColumnList cs columns → Spelled [.keyword .VALUES] v →
    Listed (Parenthesized (Listed Literal)) ts tuples →
    Sentence (w ++ (ns ++ (cs ++ (v ++ ts)))) (.insert ⟨table, columns, tuples⟩)
  | update {u ns s as cs : List Token} {table : String} {assignments : List Assignment}
      {condition : Option Expression} : Spelled [.keyword .UPDATE] u → Name ns table →
    Spelled [.keyword .SET] s → Listed Assigned as assignments → Where cs condition →
    Sentence (u ++ (ns ++ (s ++ (as ++ cs)))) (.update ⟨table, assignments, condition⟩)
  | delete {w ns cs : List Token} {table : String} {condition : Option Expression} :
    Spelled [.keyword .DELETE, .keyword .FROM] w → Name ns table → Where cs condition →
    Sentence (w ++ (ns ++ cs)) (.delete ⟨table, condition⟩)
  | select {s ps f ns cs os ls : List Token} {projection : Projection} {table : String}
      {condition : Option Expression} {order : List OrderKey} {limit : Option Limit} :
    Spelled [.keyword .SELECT] s → Projected ps projection → Spelled [.keyword .FROM] f →
    Name ns table → Where cs condition → OrderBy os order → Limited ls limit →
    Sentence (s ++ (ps ++ (f ++ (ns ++ (cs ++ (os ++ ls))))))
      (.select ⟨projection, table, condition, order, limit⟩)

inductive Text : Phrase Statement
  | plain {ts : List Token} {s : Statement} : Sentence ts s → Text ts s
  | terminated {ts e : List Token} {s : Statement} : Sentence ts s →
    Spelled [.sign .semicolon] e → Text (ts ++ e) s

end Grammar

end DocBase.Sql
