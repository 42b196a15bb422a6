import DocBase.Sql.Parser.Expression

namespace DocBase.Sql

namespace Parser

def projection : Parser Projection := do
  if ← skip (.sign .asterisk) then return .all
  else return .columns (← commaList columnRef)

def orderKey : Parser OrderKey := do
  let column ← columnRef
  if ← skip (.keyword .DESC) then return ⟨column, .descending⟩
  else if ← skip (.keyword .ASC) then return ⟨column, .ascending⟩
  else return ⟨column, .ascending⟩

def order : Parser (List OrderKey) := do
  if ← skip (.keyword .ORDER) then
    let _ ← expect (.keyword .BY)
    commaList orderKey
  else return []

/-- An integer below `2 ^ 64` without a sign. -/
def unsigned : Parser UInt64 := do
  match ← current with
  | some t =>
    if t.kind = .integer then
      let n := digitsValue t.literal.toList
      if n < UInt64.size then
        advance
        return .ofNat n
      else throw (.invalidLiteral t.literal)
    else if t.kind = .sign .minus then
      throw (.invalidLiteral "LIMIT and OFFSET must be non-negative")
    else throw (← unexpected)
  | none => throw .endOfInput

/-- A count with or without an offset behind it, or an offset, a comma and a count. -/
def limit : Parser (Option Limit) := do
  if ← skip (.keyword .LIMIT) then
    let first ← unsigned
    if ← skip (.sign .comma) then
      let count ← unsigned
      return some ⟨count, first⟩
    else if ← skip (.keyword .OFFSET) then
      let offset ← unsigned
      return some ⟨first, offset⟩
    else return some ⟨first, 0⟩
  else return none

def select : Parser Select := do
  let _ ← expect (.keyword .SELECT)
  let projection ← projection
  let _ ← expect (.keyword .FROM)
  let table ← identifier
  let condition ← condition
  let order ← order
  let limit ← limit
  return ⟨projection, table, condition, order, limit⟩

def parenthesized {α : Type} (item : Parser α) : Parser (List α) := do
  let _ ← expect (.sign .leftParen)
  let items ← commaList item
  let _ ← expect (.sign .rightParen)
  return items

def insert : Parser Insert := do
  let _ ← expect (.keyword .INSERT)
  let _ ← expect (.keyword .INTO)
  let table ← identifier
  let columns ←
    if ← sees (.sign .leftParen) then some <$> parenthesized identifier else pure none
  let _ ← expect (.keyword .VALUES)
  let tuples ← commaList (parenthesized literal)
  return ⟨table, columns, tuples⟩

def assignment : Parser Assignment := do
  let column ← identifier
  let _ ← expect (.sign .equal)
  let literal ← literal
  return ⟨column, literal⟩

def update : Parser Update := do
  let _ ← expect (.keyword .UPDATE)
  let table ← identifier
  let _ ← expect (.keyword .SET)
  let assignments ← commaList assignment
  let condition ← condition
  return ⟨table, assignments, condition⟩

def delete : Parser Delete := do
  let _ ← expect (.keyword .DELETE)
  let _ ← expect (.keyword .FROM)
  let table ← identifier
  let condition ← condition
  return ⟨table, condition⟩

/-- A type name; a size of one or two integers behind it is read and dropped. -/
def columnType : Parser ColumnType := do
  match ← current with
  | some t =>
    match t.kind with
    | .identifier name =>
      advance
      if ← skip (.sign .leftParen) then
        let _ ← expect .integer
        if ← skip (.sign .comma) then
          let _ ← expect .integer
        let _ ← expect (.sign .rightParen)
      return .ofName name
    | _ => throw (← unexpected)
  | none => throw .endOfInput

/-- Constraints of a column, which are read and dropped. -/
def columnConstraints : Nat → Parser Unit
  | 0 => return ()
  | fuel + 1 => do
    if ← skip (.keyword .NOT) then
      let _ ← expect (.keyword .NULL)
      columnConstraints fuel
    else if ← skip (.keyword .NULL) then columnConstraints fuel
    else if ← skip (.keyword .UNIQUE) then columnConstraints fuel
    else if ← skip (.keyword .PRIMARY) then
      let _ ← expect (.keyword .KEY)
      columnConstraints fuel
    else if ← skip (.keyword .DEFAULT) then
      let _ ← literal
      columnConstraints fuel
    else return ()

def columnDefinition : Parser (String × ColumnType) := do
  let name ← identifier
  let type ← columnType
  columnConstraints (← get).length
  return (name, type)

/-- An item of a table definition: a column, or a constraint on the table, which is read and
dropped. -/
def tableItem : Parser (Option (String × ColumnType)) := do
  if ← skip (.keyword .PRIMARY) then
    let _ ← expect (.keyword .KEY)
    let _ ← parenthesized identifier
    return none
  else if ← skip (.keyword .UNIQUE) then
    let _ ← parenthesized identifier
    return none
  else return some (← columnDefinition)

def tableColumns : Parser (List (String × ColumnType)) := do
  let columns := (← commaList tableItem).filterMap id
  if columns.isEmpty then throw (.invalidSyntax "CREATE TABLE needs at least one column")
  return columns

def create : Parser Create := do
  let _ ← expect (.keyword .CREATE)
  if ← skip (.keyword .TABLE) then
    let table ← identifier
    let _ ← expect (.sign .leftParen)
    let columns ← tableColumns
    let _ ← expect (.sign .rightParen)
    return ⟨table, columns⟩
  else throw (.invalidSyntax "Only CREATE TABLE is supported")

def drop : Parser Drop := do
  let _ ← expect (.keyword .DROP)
  if ← skip (.keyword .TABLE) then return ⟨← identifier⟩
  else throw (.invalidSyntax "Only DROP TABLE is supported")

def statementBody : Parser Statement := do
  match ← currentKind with
  | some (.keyword .SELECT) => .select <$> select
  | some (.keyword .INSERT) => .insert <$> insert
  | some (.keyword .UPDATE) => .update <$> update
  | some (.keyword .DELETE) => .delete <$> delete
  | some (.keyword .CREATE) => .create <$> create
  | some (.keyword .DROP) => .drop <$> drop
  | _ => throw (← unexpected)

/-- One statement and the end of the text, with a semicolon between them or without. -/
def statement : Parser Statement := do
  let statement ← statementBody
  let _ ← skip (.sign .semicolon)
  let _ ← expect .endOfText
  return statement

end Parser

def parse (text : String) : Except ParseError Statement :=
  match Parser.statement (tokens text) with
  | .ok statement _ => .ok statement
  | .error e _ => .error e

end DocBase.Sql
