import DocBase.CommandLine.Database
import DocBase.Text.Backspace

namespace DocBase.CommandLine

/-- The lines entered so far, and whether there are some that the history file lacks. -/
structure History where
  lines : List String
  changed : Bool

namespace History

def file : Path := ⟨".jsondb_history"⟩

/-- Empty lines and a line that repeats the one before it are not worth keeping. -/
def add (h : History) (line : String) : History :=
  if line.isEmpty || h.lines.getLast? == some line then h else ⟨h.lines ++ [line], true⟩

def load (files : FileSystem) : Except IoError History :=
  match files.read file with
  | .ok text =>
    .ok ⟨((Text.split '\n' text.toList).map String.ofList).filter fun line => !line.isEmpty, false⟩
  | .error .notFound => .ok ⟨[], false⟩
  | .error e => .error e

def save (h : History) (files : FileSystem) : Except IoError FileSystem :=
  if h.changed then files.write file (.join (h.lines.map (· ++ "\n"))) else .ok files

end History

structure Shell where
  database : Database
  history : History

namespace Shell

def welcome : String := "Welcome to jsondb. Type 'help' for assistance or 'exit' to quit."

def help : List String :=
  ["Available commands:",
   "  CREATE TABLE <name> (<col> <type>, ...)    - Create (or replace) a table",
   "  DROP TABLE <name>                          - Drop a table",
   "  INSERT INTO <table> [(cols)] VALUES (...)  - Insert one or more rows",
   "  SELECT <cols|*> FROM <table>               - Query a table",
   "      [WHERE ...] [ORDER BY col [ASC|DESC]] [LIMIT n [OFFSET m]]",
   "  UPDATE <table> SET col = value, ...        - Update every row of a table",
   "  DELETE FROM <table>                        - Delete every row of a table",
   "",
   "Other commands:",
   "  info                                       - List tables and columns",
   "  help                                       - Display this help message",
   "  exit                                       - Exit the CLI"]

def errorLine (causes : List String) : String := "Error: " ++ ": ".intercalate causes

def storageCauses : StorageError → List String
  | .io e => [(StorageError.io e).message, e.message]
  | e => [e.message]

/-- What becomes of a session. A panic ends it at once. -/
inductive Next
  | goesOn
  | ends
  | panics
deriving DecidableEq

structure Reply where
  output : List String
  warnings : List Warning
  shell : Shell
  next : Next

def replyTo (s : Shell) (warnings : List Warning) : Except QueryError (Option String) → Reply
  | .ok (some output) => ⟨[output], warnings, s, .goesOn⟩
  | .ok none => ⟨[], warnings, s, .panics⟩
  | .error e => ⟨[errorLine e.causes], warnings, s, .goesOn⟩

/-- Answers a line: one of the commands in any case, or else a statement. -/
def answer (s : Shell) (line : String) : Reply :=
  let s := { s with history := s.history.add line }
  let text := String.ofList (Text.trim line.toList)
  let isCommand (name : String) : Bool := Text.equalsIgnoringCase text name
  if text.isEmpty then ⟨[], [], s, .goesOn⟩
  else if isCommand "exit" || isCommand "quit" then ⟨["Goodbye!"], [], s, .ends⟩
  else if isCommand "help" then ⟨help, [], s, .goesOn⟩
  else if isCommand "info" then
    let (lines, e) := s.database.info
    ⟨lines ++ (e.map fun e => errorLine (storageCauses e)).toList, [], s, .goesOn⟩
  else
    let (result, warnings, database) := s.database.query text
    replyTo { s with database := database } warnings result

def start (database : Database) : List String × Shell :=
  match History.load database.store.files with
  | .ok history => ([welcome], ⟨database, history⟩)
  | .error e => ([welcome, "Error loading history: " ++ e.message], ⟨database, ⟨[], false⟩⟩)

/-- Leaves the shell: keeps the history, with a complaint if it cannot be written. -/
def finish (s : Shell) : List String × FileSystem :=
  let files := s.database.store.files
  match s.history.save files with
  | .ok files => ([], files)
  | .error e => (["Error saving history: " ++ e.message], files)

/-- What a session says and where it gets. -/
structure Course where
  output : List String
  warnings : List Warning
  shell : Shell
  panicked : Bool

/-- Answers lines up to one that ends the session, or the end of the input. A line that cannot be
read panics. -/
def run (s : Shell) : List (Option String) → Course
  | [] => ⟨["CTRL-D"], [], s, false⟩
  | none :: _ => ⟨[], [], s, true⟩
  | some line :: lines =>
    let reply := s.answer line
    match reply.next with
    | .goesOn =>
      let rest := run reply.shell lines
      { rest with
        output := reply.output ++ rest.output
        warnings := reply.warnings ++ rest.warnings }
    | .ends => ⟨reply.output, reply.warnings, reply.shell, false⟩
    | .panics => ⟨reply.output, reply.warnings, reply.shell, true⟩

/-- The lines of a text. A line ends with a line feed, before which a carriage return is dropped; the
last one may lack it. -/
def rawLinesOf (text : String) : List (List Char) :=
  let pieces := Text.split '\n' text.toList
  let ended := pieces.dropLast.map fun cs => if cs.getLast? = some '\r' then cs.dropLast else cs
  match pieces.getLast? with
  | some [] | none => ended
  | some last => ended ++ [last]

/-- The lines of a text as their backspaces leave them, where they leave one. -/
def linesOf (text : String) : List (Option String) :=
  (rawLinesOf text).map fun cs => (Text.applyBackspaces? cs).map String.ofList

end Shell

end DocBase.CommandLine
