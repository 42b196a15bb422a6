import DocBase.CommandLine.Shell

namespace DocBase.CommandLine

structure Environment where
  args : List String
  directory : Option String
  files : FileSystem
  ids : IdSource

structure Finish where
  code : Nat
  output : String
  errors : String
  warnings : List Warning
  files : FileSystem
  ids : IdSource

/-- A run is over at once, or becomes a shell that has greeted and waits for lines. -/
inductive Beginning
  | over (f : Finish)
  | shell (greeting : List String) (s : Shell)

def unlines (lines : List String) : String :=
  .ofList (lines.flatMap fun line => line.toList ++ ['\n'])

def indentRest (indent text : String) : String :=
  ("\n" ++ indent).intercalate ((Text.split '\n' text.toList).map String.ofList)

/-- An error and what caused it. Causes are numbered if there are several. -/
def report (message : String) (causes : List String) : String :=
  let listed := match causes with
    | [] => []
    | [cause] => ["", "Caused by:", "    " ++ indentRest "    " cause]
    | causes => "" :: "Caused by:" :: causes.mapIdx fun i cause =>
      "    " ++ toString i ++ ": " ++ indentRest "       " cause
  unlines (("Error: " ++ message) :: listed)

def usage : String :=
  "Usage: jsondb [-d DIR] [--pretty] [-f table|json] [--log-level LEVEL] [shell | query SQL | info]\n"

def logTarget : String := "jsondb"

def Options.shown (o : Options) (warnings : List Warning) : List Warning :=
  if (o.logFilter.levelFor logTarget.toList).showsWarnings then warnings else []

/-- The exit code of a panic. What a panic writes to the standard error is left out. -/
def panicCode : Nat := 101

def runQuery (o : Options) (db : Database) (text : String) : Finish :=
  match db.query text with
  | (.ok (some output), warnings, db) =>
    ⟨0, unlines [output], "", o.shown warnings, db.store.files, db.ids⟩
  | (.ok none, warnings, db) =>
    ⟨panicCode, "", "", o.shown warnings, db.store.files, db.ids⟩
  | (.error e, warnings, db) =>
    ⟨1, "", report "Error executing query" e.causes, o.shown warnings, db.store.files, db.ids⟩

def runInfo (db : Database) : Finish :=
  match db.info with
  | (lines, none) => ⟨0, unlines lines, "", [], db.store.files, db.ids⟩
  | (lines, some e) =>
    let (message, causes) := match e with
      | .io cause => (e.message, [cause.message])
      | _ => (e.message, [])
    ⟨1, unlines lines, report message causes, [], db.store.files, db.ids⟩

/-- Runs the command of the options on an open database, up to where it needs input. -/
def beginCommand (o : Options) (db : Database) : Beginning :=
  match o.command with
  | .query text => .over (runQuery o db text)
  | .info => .over (runInfo db)
  | .shell =>
    let (greeting, s) := Shell.start db
    .shell greeting s

def start (e : Environment) (o : Options) : Beginning :=
  match Database.openIn o e.files e.ids with
  | (.ok db, _) => beginCommand o db
  | (.error cause, files) =>
    .over ⟨1, "", report ("Failed to open database at " ++ o.directory) (Shell.storageCauses cause),
      [], files, e.ids⟩

/-- Runs a shell on the lines of a text, and leaves it. A panic leaves it without keeping the
history. -/
def runShell (o : Options) (greeting : List String) (s : Shell) (input : String) : Finish :=
  let course := s.run (Shell.linesOf input)
  let database := course.shell.database
  let shown := o.shown course.warnings
  if course.panicked then
    ⟨panicCode, unlines (greeting ++ course.output), "", shown, database.store.files, database.ids⟩
  else
    let (farewell, files) := course.shell.finish
    ⟨0, unlines (greeting ++ course.output ++ farewell), "", shown, files, database.ids⟩

def run (e : Environment) (input : String) : Finish :=
  match readOptions? e.directory e.args with
  | none => ⟨2, "", usage, [], e.files, e.ids⟩
  | some o =>
    let f :=
      if o.logFilter.panics then ⟨panicCode, "", "", [], e.files, e.ids⟩
      else
        match start e o with
        | .over f => f
        | .shell greeting s => runShell o greeting s input
    { f with errors := unlines o.logFilter.complaints ++ f.errors }

end DocBase.CommandLine
