import DocBase.Sql.Lexer

namespace DocBase.Sql

inductive ParseError
  | unexpectedToken (token : Token)
  | expectedToken (expected : TokenKind) (found : Token)
  | invalidLiteral (literal : String)
  | endOfInput
  | invalidSyntax (reason : String)
deriving DecidableEq

def ParseError.message : ParseError → String
  | unexpectedToken token => "Unexpected token " ++ token.show
  | expectedToken expected found => "Expected " ++ expected.label ++ ", found " ++ found.show
  | invalidLiteral literal => "Invalid literal: " ++ literal
  | endOfInput => "Unexpected end of input"
  | invalidSyntax reason => "Invalid syntax: " ++ reason

abbrev Parser := EStateM ParseError (List Token)

namespace Parser

def current : Parser (Option Token) := fun ts => .ok ts.head? ts

def currentKind : Parser (Option TokenKind) := fun ts => .ok (ts.head?.map Token.kind) ts

def advance : Parser Unit := fun ts => .ok () ts.tail

def sees (expected : TokenKind) : Parser Bool := fun ts =>
  .ok (ts.head?.any fun t => t.kind.meets expected) ts

def seesNext (expected : TokenKind) : Parser Bool := fun ts =>
  .ok (ts.tail.head?.any fun t => t.kind.meets expected) ts

/-- Drops the token in front if it meets an expectation, and says whether it did. -/
def skip (expected : TokenKind) : Parser Bool := do
  if ← sees expected then
    advance
    return true
  else return false

/-- What is wrong with the token in front when nothing that could stand there does. -/
def unexpected : Parser ParseError := fun ts =>
  match ts with
  | t :: _ => .ok (if t.kind = .endOfText then .endOfInput else .unexpectedToken t) ts
  | [] => .ok .endOfInput ts

/-- Takes the token in front, which has to meet an expectation. -/
def expect (expected : TokenKind) : Parser Token := do
  match ← current with
  | some t =>
    if t.kind.meets expected then
      advance
      return t
    else if t.kind = .endOfText then throw .endOfInput
    else throw (.expectedToken expected t)
  | none => throw .endOfInput

def identifier : Parser String := do
  match ← current with
  | some t =>
    match t.kind with
    | .identifier name =>
      advance
      return name
    | .endOfText => throw .endOfInput
    | _ => throw (.expectedToken (.identifier "") t)
  | none => throw .endOfInput

def commaTail {α : Type} (item : Parser α) : Nat → Parser (List α)
  | 0 => return []
  | fuel + 1 => do
    if ← skip (.sign .comma) then
      let first ← item
      let rest ← commaTail item fuel
      return first :: rest
    else return []

/-- One item or more, separated by commas. Every comma is a token, so their number bounds the
items. -/
def commaList {α : Type} (item : Parser α) : Parser (List α) := do
  let first ← item
  let rest ← commaTail item (← get).length
  return first :: rest

end Parser

end DocBase.Sql
