import DocBase.Pattern
import DocBase.Text.Bytes
import DocBase.Text.Split
import DocBase.Text.Uppercase

namespace DocBase.CommandLine

inductive LogLevel
  | off
  | error
  | warn
  | info
  | debug
  | trace
deriving DecidableEq

namespace LogLevel

def name : LogLevel → String
  | off => "off"
  | error => "error"
  | warn => "warn"
  | info => "info"
  | debug => "debug"
  | trace => "trace"

def all : List LogLevel := [off, error, warn, info, debug, trace]

/-- Reads a level by its number or, in any case, its name. No text stands for errors. -/
def ofChars? (cs : List Char) : Option LogLevel :=
  let digits := if cs.head? = some '+' then cs.tail else cs
  if cs.isEmpty then some error
  else if digits.all Char.isDigit && !digits.isEmpty then all[digitsValue digits]?
  else all.find? fun level => Text.equalsIgnoringCase (.ofList cs) level.name

def showsWarnings : LogLevel → Bool
  | off | error => false
  | _ => true

end LogLevel

/-- Lets the reports of some targets through up to a level. -/
structure LogDirective where
  /-- How the names of the targets start. -/
  target : List Char
  /-- Whether it is for work within a named span only. -/
  spanned : Bool
  level : LogLevel
deriving DecidableEq

inductive LogDirectiveError
  | malformed
  | unknownLevel
  | field (e : Pattern.Error)
  /-- A part of the directive would start or end inside a character. That is a panic. -/
  | torn
deriving DecidableEq

def LogDirectiveError.message : LogDirectiveError → String
  | malformed => "invalid filter directive"
  | torn => "not a character boundary"
  | unknownLevel => "error parsing level filter: expected one of \"off\", \"error\", \"warn\", " ++
      "\"info\", \"debug\", \"trace\", or a number 0-5"
  | field e => "invalid field filter: " ++ e.message

namespace LogDirective

/-- Whether a directive may start with this character if it does not start with a span. -/
def mayStart (c : Char) : Bool := c == '-' || c == ':' || Text.isLetter c || Text.isNumber c

/-- Reads the level behind an equals sign; without one the directive is for all levels. -/
def levelOf (cs : List Char) : Except LogDirectiveError LogLevel :=
  if cs.isEmpty then .ok .trace
  else
    match LogLevel.ofChars? cs with
    | some level => .ok level
    | none => .error .unknownLevel

/-- What stands behind a span: nothing, or an equals sign, of which the rest is returned. -/
def behindSpan : List Char → Except LogDirectiveError (Option (List Char))
  | [] => .ok none
  | '=' :: rest => .ok (some rest)
  | _ => .error .malformed

/-- Whether a field can be compared with this as a number. Infinity and what is no number go by
their names in any case. -/
def isNumeric (cs : List Char) : Bool :=
  let word := String.ofList (Numeral.scanSign cs).2
  (Numeral.ofText? cs).isSome || ["inf", "infinity", "nan"].any (Text.equalsIgnoringCase word)

/-- Checks a field: a name, and perhaps what its value is compared with, a number or a pattern. What
stands behind a second equals sign is ignored. -/
def checkField (cs : List Char) : Except LogDirectiveError Unit :=
  match Text.split '=' cs with
  | _ :: value :: _ =>
    match if isNumeric value then none else Pattern.error? value with
    | none => .ok ()
    | some e => .error (.field e)
  | _ => .ok ()

/-- The text from the place of `rest` on, and the first `length` bytes of it. The place is that in the
text without the blanks around it, but the text is taken as it stands. -/
def textAt (cs rest : List Char) : Except LogDirectiveError (List Char) :=
  match Text.splitBytes? (Text.byteLength (Text.trim cs) - Text.byteLength rest) cs with
  | some (_, found) => .ok found
  | none => .error .torn

def pieceAt (cs rest piece : List Char) : Except LogDirectiveError (List Char) := do
  match Text.splitBytes? (Text.byteLength piece) (← textAt cs rest) with
  | some (found, _) => return found
  | none => throw .torn

/-- Skips a span behind its opening bracket: a name, and perhaps one field in braces, which must not
be empty. -/
def skipSpan (cs span : List Char) : Except LogDirectiveError (Option (List Char)) := do
  let name := span.takeWhile fun c => c ≠ ']' ∧ c ≠ '\x7b'
  match span.dropWhile fun c => c ≠ ']' ∧ c ≠ '\x7b' with
  | ']' :: rest =>
    let _ ← pieceAt cs span name
    behindSpan rest
  | '\x7b' :: field =>
    let _ ← pieceAt cs span name
    let inner := field.takeWhile (· ≠ '\x7d')
    match field.dropWhile (· ≠ '\x7d') with
    | '\x7d' :: rest =>
      let found ← pieceAt cs field inner
      if inner.isEmpty then throw .malformed
      checkField found
      match rest with
      | ']' :: rest => behindSpan rest
      | _ => throw .malformed
    | _ => throw .malformed
  | _ => throw .malformed

def ofChars (cs : List Char) : Except LogDirectiveError LogDirective := do
  let trimmed := Text.trim cs
  let ofSpan (target span : List Char) : Except LogDirectiveError LogDirective := do
    match ← skipSpan cs span with
    | none => return ⟨target, true, .trace⟩
    | some rest => return ⟨target, true, ← levelOf (← textAt cs rest)⟩
  match trimmed with
  | [] => throw .malformed
  | '[' :: span => ofSpan [] span
  | first :: _ =>
    if !mayStart first then throw .malformed
    let name := trimmed.takeWhile fun c => c ≠ '=' ∧ c ≠ '['
    match trimmed.dropWhile fun c => c ≠ '=' ∧ c ≠ '[' with
    | '=' :: rest =>
      let target ← pieceAt cs trimmed name
      return ⟨target, false, ← levelOf (← textAt cs rest)⟩
    | '[' :: span => ofSpan (← pieceAt cs trimmed name) span
    | _ =>
      match LogLevel.ofChars? cs with
      | some level => return ⟨[], false, level⟩
      | none => return ⟨cs, false, .trace⟩

/-- Whether the directive decides on the reports of a target, which are made outside of spans. -/
def covers (d : LogDirective) (target : List Char) : Bool :=
  !d.spanned && d.target.isPrefixOf target

end LogDirective

structure LogFilter where
  directives : List LogDirective
  rejected : List (String × LogDirectiveError)

namespace LogFilter

/-- Reads the directives between commas; empty pieces are none and are passed over. -/
def ofString (text : String) : LogFilter :=
  let pieces := (Text.split ',' text.toList).filter fun piece => !piece.isEmpty
  let results := pieces.map fun piece => (piece, LogDirective.ofChars piece)
  ⟨results.filterMap fun
    | (_, .ok d) => some d
    | (_, .error _) => none,
   results.filterMap fun
    | (_, .ok _) => none
    | (piece, .error e) => some (.ofList piece, e)⟩

/-- Up to which level the reports of a target are let through. Of the directives that cover it the
one with the longest target decides, and of those the last; a filter without any lets errors
through. -/
def levelFor (f : LogFilter) (target : List Char) : LogLevel :=
  if f.directives.isEmpty then .error
  else
    let weigh (best d : LogDirective) : LogDirective :=
      if d.covers target && best.target.length ≤ d.target.length then d else best
    (f.directives.foldl weigh ⟨[], false, .off⟩).level

def panics (f : LogFilter) : Bool := f.rejected.any (·.2 == .torn)

/-- What is said of the directives that are left out, up to a panic. -/
def complaints (f : LogFilter) : List String :=
  (f.rejected.takeWhile (·.2 != .torn)).map fun (piece, e) =>
    "ignoring `" ++ piece ++ "`: " ++ e.message

end LogFilter

end DocBase.CommandLine
