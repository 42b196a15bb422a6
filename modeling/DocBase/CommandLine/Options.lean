import DocBase.CommandLine.LogFilter

namespace DocBase.CommandLine

inductive Format
  | table
  | json
deriving DecidableEq

inductive Command
  | shell
  | query (text : String)
  | info
deriving DecidableEq

structure Options where
  directory : String
  pretty : Bool
  format : Format
  logLevel : Option String
  command : Command
deriving DecidableEq

/-- The filter that the options ask for: warnings and worse unless they say otherwise. -/
def Options.logFilter (o : Options) : LogFilter := .ofString (o.logLevel.getD "warn")

structure Given where
  directory : Option String
  pretty : Bool
  format : Option Format
  logLevel : Option String

namespace Given

def none : Given := ⟨.none, false, .none, .none⟩

inductive Name
  | directory
  | format
  | logLevel

def Name.ofLong? : String → Option Name
  | "data-dir" => some directory
  | "format" => some format
  | "log-level" => some logLevel
  | _ => .none

def Name.ofShort? : Char → Option Name
  | 'd' => some directory
  | 'f' => some format
  | _ => .none

def set? (g : Given) (name : Name) (value : String) : Option Given :=
  match name with
  | .directory =>
    if g.directory.isSome || value.isEmpty then .none else some { g with directory := some value }
  | .format =>
    match g.format, value with
    | .none, "table" => some { g with format := some .table }
    | .none, "json" => some { g with format := some .json }
    | _, _ => .none
  | .logLevel =>
    if g.logLevel.isSome then .none else some { g with logLevel := some value }

end Given

/-- Whether an argument is taken for an option; a lone hyphen is not. -/
def looksLikeOption (arg : String) : Bool := arg.toList.head? = some '-' && arg != "-"

inductive Argument
  | separator
  | flag
  | valued (name : Given.Name) (value : Option String)
  | word
  | unknown

def Argument.ofString (arg : String) : Argument :=
  match arg.toList with
  | ['-', '-'] => separator
  | '-' :: '-' :: long =>
    if arg = "--pretty" then flag
    else
      let value := match long.dropWhile (· != '=') with
        | _ :: value => some (String.ofList value)
        | [] => none
      match Given.Name.ofLong? (.ofList (long.takeWhile (· != '='))) with
      | some name => valued name value
      | none => unknown
  | ['-'] => word
  | '-' :: short :: value =>
    let value := match value with
      | [] => none
      | '=' :: value => some (String.ofList value)
      | value => some (String.ofList value)
    match Given.Name.ofShort? short with
    | some name => valued name value
    | none => unknown
  | _ => word

def atEnd : List String → Bool
  | [] | ["--"] => true
  | _ => false

/-- The only word of an argument list. Behind a separator any argument is a word. -/
def onlyWord? : List String → Option String
  | ["--", word] => some word
  | [word] => if looksLikeOption word then none else some word
  | [word, "--"] => if looksLikeOption word then none else some word
  | _ => none

def command? : List String → Option Command
  | "shell" :: rest => if atEnd rest then some .shell else none
  | "info" :: rest => if atEnd rest then some .info else none
  | "query" :: rest => (onlyWord? rest).map .query
  | rest => if atEnd rest then some .shell else none

/-- Reads options up to the command, which is the shell if none is named. No option is given twice,
and a value of its own argument must not look like an option. -/
def readArguments? (g : Given) : List String → Option (Given × Command)
  | [] => some (g, .shell)
  | arg :: rest =>
    match Argument.ofString arg, rest with
    | .flag, rest => if g.pretty then none else readArguments? { g with pretty := true } rest
    | .valued name (some value), rest => do readArguments? (← g.set? name value) rest
    | .valued name none, value :: rest => do
      if looksLikeOption value then none else readArguments? (← g.set? name value) rest
    | .valued _ none, [] => none
    | .separator, rest | .word, rest => do return (g, ← command? (arg :: rest))
    | .unknown, _ => none

/-- Reads the arguments. The data directory is that of the option, else that of the environment, and
else `db`. -/
def readOptions? (environment : Option String) (args : List String) : Option Options := do
  let (g, command) ← readArguments? .none args
  let directory ← match g.directory, environment with
    | some directory, _ => some directory
    | none, some "" => none
    | none, some directory => some directory
    | none, none => some "db"
  return ⟨directory, g.pretty, g.format.getD .table, g.logLevel, command⟩

end DocBase.CommandLine
