import DocBase.Sql.Parser
import DocBase.Sql.Statement

namespace DocBase.Sql

/-- The comparison that a sign stands for. -/
def Operator.ofKind? : TokenKind → Option Operator
  | .sign .equal => some equal
  | .sign .notEqual => some notEqual
  | .sign .less => some less
  | .sign .greater => some greater
  | .sign .lessEqual => some lessEqual
  | .sign .greaterEqual => some greaterEqual
  | _ => none

namespace Parser

/-- The comparison that a sign stands for, which has to be one. -/
def comparisonSign (kind : TokenKind) : Except ParseError Operator :=
  match Operator.ofKind? kind with
  | some operator => .ok operator
  | none => .error (.invalidSyntax ("Not a comparison operator: " ++ kind.label))

theorem comparisonSign_eq_ok_iff {kind : TokenKind} {operator : Operator} :
    comparisonSign kind = .ok operator ↔ Operator.ofKind? kind = some operator := by
  rw [comparisonSign]
  cases Operator.ofKind? kind <;> simp

/-- How tightly a token binds the conditions beside it. -/
def precedence : TokenKind → Nat
  | .keyword .OR => 1
  | .keyword .AND => 2
  | _ => 0

def columnRef : Parser ColumnRef := do
  let first ← identifier
  if ← skip (.sign .dot) then
    let name ← identifier
    return ⟨some first, name⟩
  else return ⟨none, first⟩

/-- The number that a numeral of the given kind stands for. An integer too large for 64 bits is a
float. -/
def number (kind : TokenKind) (literal : String) : Parser Value :=
  match Numeral.ofText? literal.toList with
  | some n =>
    if kind = .integer then
      let magnitude : Int := digitsValue n.whole
      return .ofInt (if n.negative then -magnitude else magnitude)
    else return .float n.toBinary64
  | none => throw (.invalidLiteral literal)

def negated : Parser Value := do
  match ← current with
  | some t =>
    let literal := "-" ++ t.literal
    match t.kind with
    | .integer | .float =>
      let value ← number t.kind literal
      advance
      return value
    | .endOfText => throw .endOfInput
    | _ => throw (.invalidLiteral literal)
  | none => throw .endOfInput

def literal : Parser Value := do
  match ← current with
  | some t =>
    match t.kind with
    | .integer | .float =>
      let value ← number t.kind t.literal
      advance
      return value
    | .string text => do advance; return .text text
    | .keyword .NULL => do advance; return .null
    | .keyword .TRUE => do advance; return .boolean true
    | .keyword .FALSE => do advance; return .boolean false
    | .sign .minus => do advance; negated
    | _ => throw (← unexpected)
  | none => throw .endOfInput

def operator (column : ColumnRef) : Parser Operator := do
  if ← skip (.keyword .IS) then
    if ← skip (.keyword .NOT) then return .isNot else return .is
  else
    match ← current with
    | some t =>
      match comparisonSign t.kind with
      | .ok operator =>
        advance
        return operator
      | .error _ =>
        if t.kind = .endOfText then throw .endOfInput
        else
          throw (.invalidSyntax ("Expected a comparison operator after column '" ++ column.name ++
            "', found " ++ t.show))
    | none => throw .endOfInput

def comparison : Parser Expression := do
  let column ← columnRef
  let operator ← operator column
  let literal ← literal
  return .comparison column operator literal

def operand (inner : Parser Expression) : Parser Expression := do
  match ← currentKind with
  | some (.sign .leftParen) =>
    advance
    let expression ← inner
    let _ ← expect (.sign .rightParen)
    return expression
  | some (.identifier _) => comparison
  | _ => throw (← unexpected)

mutual

/-- A condition whose connectives bind tighter than `minimum`. Each step takes a token, so the fuel
need only be their number. -/
def expressionWith : Nat → Nat → Parser Expression
  | 0, _ => throw .endOfInput
  | fuel + 1, minimum => do
    let left ← operand (expressionWith fuel 0)
    extend fuel minimum left

/-- Joins what follows a condition to it as long as the connectives bind tighter than `minimum`. -/
def extend : Nat → Nat → Expression → Parser Expression
  | 0, _, left => return left
  | fuel + 1, minimum, left => do
    match ← currentKind with
    | some kind =>
      if minimum < precedence kind then
        advance
        let right ← expressionWith fuel (precedence kind)
        let connective := if kind = .keyword .AND then .and else .or
        extend fuel minimum (.logical left connective right)
      else return left
    | none => return left

end

/-- A condition whose connectives bind tighter than `minimum`. -/
def expression (minimum : Nat) : Parser Expression := do
  expressionWith (← get).length minimum

def condition : Parser (Option Expression) := do
  if ← skip (.keyword .WHERE) then return some (← expression 0) else return none

end Parser

end DocBase.Sql
