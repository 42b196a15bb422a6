import DocBase.Text.Quoted
import DocBase.Text.Uppercase

namespace DocBase.Sql

inductive Keyword
  | SELECT | FROM | WHERE | INSERT | INTO | VALUES | DELETE | UPDATE | SET | CREATE | TABLE | DROP
  | AND | OR | NOT | IS | NULL | TRUE | FALSE | ORDER | BY | ASC | DESC | LIMIT | OFFSET | PRIMARY
  | KEY | UNIQUE | DEFAULT
deriving DecidableEq

namespace Keyword

def all : List Keyword :=
  [SELECT, FROM, WHERE, INSERT, INTO, VALUES, DELETE, UPDATE, SET, CREATE, TABLE, DROP, AND, OR, NOT,
   IS, NULL, TRUE, FALSE, ORDER, BY, ASC, DESC, LIMIT, OFFSET, PRIMARY, KEY, UNIQUE, DEFAULT]

def spelling : Keyword → String
  | SELECT => "SELECT"
  | FROM => "FROM"
  | WHERE => "WHERE"
  | INSERT => "INSERT"
  | INTO => "INTO"
  | VALUES => "VALUES"
  | DELETE => "DELETE"
  | UPDATE => "UPDATE"
  | SET => "SET"
  | CREATE => "CREATE"
  | TABLE => "TABLE"
  | DROP => "DROP"
  | AND => "AND"
  | OR => "OR"
  | NOT => "NOT"
  | IS => "IS"
  | NULL => "NULL"
  | TRUE => "TRUE"
  | FALSE => "FALSE"
  | ORDER => "ORDER"
  | BY => "BY"
  | ASC => "ASC"
  | DESC => "DESC"
  | LIMIT => "LIMIT"
  | OFFSET => "OFFSET"
  | PRIMARY => "PRIMARY"
  | KEY => "KEY"
  | UNIQUE => "UNIQUE"
  | DEFAULT => "DEFAULT"

def ofWord? (word : String) : Option Keyword :=
  all.find? fun k => k.spelling = Text.capitalize word

end Keyword

inductive Sign
  | equal
  | notEqual
  | less
  | greater
  | lessEqual
  | greaterEqual
  | minus
  | asterisk
  | semicolon
  | comma
  | leftParen
  | rightParen
  | dot
deriving DecidableEq

namespace Sign

def all : List Sign :=
  [equal, notEqual, less, greater, lessEqual, greaterEqual, minus, asterisk, semicolon, comma,
   leftParen, rightParen, dot]

def label : Sign → String
  | equal => "EQ"
  | notEqual => "NotEq"
  | less => "LT"
  | greater => "GT"
  | lessEqual => "LtEq"
  | greaterEqual => "GtEq"
  | minus => "MINUS"
  | asterisk => "ASTERISK"
  | semicolon => "SEMICOLON"
  | comma => "COMMA"
  | leftParen => "LPAREN"
  | rightParen => "RPAREN"
  | dot => "DOT"

end Sign

/-- What a token is, with the text that a name or a string stands for. -/
inductive TokenKind
  | keyword (k : Keyword)
  | sign (s : Sign)
  | integer
  | float
  | string (text : String)
  | identifier (name : String)
  | endOfText
  | illegal
deriving DecidableEq

namespace TokenKind

def label : TokenKind → String
  | keyword k => k.spelling
  | sign s => s.label
  | integer => "INTEGER"
  | float => "FLOAT"
  | string text => "STRING(" ++ Text.quoted text ++ ")"
  | identifier name => "IDENTIFIER(" ++ Text.quoted name ++ ")"
  | endOfText => "EOF"
  | illegal => "ILLEGAL"

/-- Whether a kind meets an expectation: any string meets a string, and a name meets the empty name
or one that differs in the case of ASCII letters only. -/
def meets : TokenKind → TokenKind → Bool
  | identifier name, identifier expected =>
    expected.isEmpty || Text.equalsIgnoringCase name expected
  | string _, string _ => true
  | kind, expected => decide (kind = expected)

end TokenKind

/-- A place in a text: its line, and how many characters of the line lie up to it. -/
structure Position where
  line : Nat
  column : Nat
deriving DecidableEq

namespace Position

def start : Position := ⟨1, 0⟩

def advance (p : Position) : List Char → Position
  | [] => p
  | c :: cs => (if c = '\n' then ⟨p.line + 1, 0⟩ else ⟨p.line, p.column + 1⟩ : Position).advance cs

end Position

structure Token where
  kind : TokenKind
  literal : String
  position : Position
deriving DecidableEq

def Token.show (t : Token) : String :=
  "'" ++ t.literal ++ "' at line " ++ toString t.position.line ++ ", column " ++
    toString t.position.column

end DocBase.Sql
