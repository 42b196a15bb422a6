import DocBase.OrderedMap
import DocBase.Path

namespace DocBase

/-- The names on the way down from the root. -/
abbrev Location := List String

/-- The bytes of a file that no text is encoded in. -/
structure BinaryContent where
  bytes : ByteArray
  not_text : ¬ bytes.IsValidUTF8

instance : DecidableEq BinaryContent
  | ⟨⟨data⟩, _⟩, ⟨⟨data'⟩, _⟩ => decidable_of_iff (data = data') (by simp)

inductive Entry
  | file (text : String)
  | binary (content : BinaryContent)
  | directory
deriving DecidableEq

def Entry.ofBytes (bytes : ByteArray) : Entry :=
  if h : bytes.IsValidUTF8 then .file (.ofByteArray bytes h) else .binary ⟨bytes, h⟩

/-- What exists, by location. The root is a directory that always exists. -/
structure FileSystem where
  entries : OrderedMap Location Entry
  /-- Where paths start that do not start at the root. -/
  workingDirectory : Location
deriving DecidableEq

def maxNameLength : Nat := 255

namespace FileSystem

def empty : FileSystem := ⟨.empty, []⟩

def entry? (fs : FileSystem) (location : Location) : Option Entry :=
  if location = [] then some .directory else fs.entries.get? location

def put (fs : FileSystem) (location : Location) (entry : Entry) : FileSystem :=
  { fs with entries := fs.entries.assign location entry }

/-- Where a name leads from a directory. Nothing need be there. -/
def step (directory : Location) (name : String) : Except IoError Location :=
  if maxNameLength < name.utf8ByteSize then .error .nameTooLong
  else if name = ".." then .ok directory.dropLast
  else .ok (directory ++ [name])

def enter (fs : FileSystem) (directory : Location) : List String → Except IoError Location
  | [] => .ok directory
  | name :: names => do
    let next ← step directory name
    match fs.entry? next with
    | some .directory => fs.enter next names
    | some _ => throw .notDirectory
    | none => throw .notFound

def enterAll (fs : FileSystem) (route : Route) : Except IoError Location :=
  fs.enter (if route.absolute then [] else fs.workingDirectory) route.names

/-- Where a way leads. Nothing need be there, but the last name has to stand in a directory. -/
def locate (fs : FileSystem) (route : Route) : Except IoError Location := do
  let directory ← fs.enterAll route.parent
  match route.names.getLast? with
  | none => return directory
  | some name => step directory name

def look (fs : FileSystem) (route : Route) : Except IoError (Location × Entry) := do
  let location ← fs.locate route
  match fs.entry? location with
  | some .directory => return (location, .directory)
  | some entry => if route.ending = .name then return (location, entry) else throw .notDirectory
  | none => throw .notFound

def find (fs : FileSystem) (path : Path) : Except IoError (Location × Entry) := do
  fs.look (← path.route)

def pathExists (fs : FileSystem) (path : Path) : Bool := (fs.find path).isOk

def isFile (fs : FileSystem) (path : Path) : Bool :=
  match fs.find path with
  | .ok (_, entry) => entry ≠ .directory
  | .error _ => false

def read (fs : FileSystem) (path : Path) : Except IoError String := do
  match ← fs.find path with
  | (_, .file text) => return text
  | (_, .binary _) => throw .notText
  | (_, .directory) => throw .isDirectory

def write (fs : FileSystem) (path : Path) (text : String) : Except IoError FileSystem := do
  let route ← path.route
  match route.ending with
  | .name =>
    let location ← fs.locate route
    match fs.entry? location with
    | some .directory => throw .isDirectory
    | _ => return fs.put location (.file text)
  | .slash =>
    let _ ← fs.enterAll route.parent
    throw .isDirectory
  | .dot =>
    let _ ← fs.enterAll route
    throw .isDirectory

def remove (fs : FileSystem) (path : Path) : Except IoError FileSystem := do
  match ← fs.find path with
  | (_, .directory) => throw .isDirectory
  | (location, _) => return { fs with entries := fs.entries.erase location }

def makeDirectory (fs : FileSystem) (route : Route) : Except IoError FileSystem := do
  let location ← if route.ending = .dot then fs.enterAll route else fs.locate route
  match fs.entry? location with
  | some _ => throw .alreadyExists
  | none => return fs.put location .directory

def ensureDirectory (fs : FileSystem) (route : Route) : Except IoError FileSystem :=
  match fs.makeDirectory route, fs.look route with
  | .ok fs, _ => .ok fs
  | .error .alreadyExists, .ok (_, .directory) => .ok fs
  | .error e, _ => .error e

/-- Makes a directory, and before it those it lies in as far as they are missing. What was made
before a failure stays. -/
def ensureDirectories (fs : FileSystem) (route : Route) : Except IoError Unit × FileSystem :=
  match fs.ensureDirectory route with
  | .ok fs => (.ok (), fs)
  | .error .notFound =>
    if _h : route.names = [] then (.error .notFound, fs)
    else
      match fs.ensureDirectories route.parent with
      | (.error e, fs) => (.error e, fs)
      | (.ok (), fs) =>
        match fs.ensureDirectory route with
        | .ok fs => (.ok (), fs)
        | .error e => (.error e, fs)
  | .error e => (.error e, fs)
termination_by route.names.length
decreasing_by
  have := List.length_pos_iff.2 _h
  simp only [Route.parent, List.length_dropLast]
  omega

/-- Makes the directory at a path as far as it is missing. The empty path asks for none. -/
def makeDirectories (fs : FileSystem) (path : Path) : Except IoError Unit × FileSystem :=
  match path.route with
  | .ok route => fs.ensureDirectories route
  | .error e => (if path.text.isEmpty then .ok () else .error e, fs)

/-- The names in a directory, in the order of their characters; none if there is no such
directory. -/
def list (fs : FileSystem) (path : Path) : List String :=
  match fs.find path with
  | .ok (location, .directory) =>
    (fs.entries.keys.filterMap fun l =>
      if l.dropLast = location then l.getLast? else none).mergeSort fun a b => decide (a ≤ b)
  | _ => []

end FileSystem

end DocBase
