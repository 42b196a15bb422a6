import DocBase.CommandLine

namespace DocBase

def Location.path (l : Location) : String := "/" ++ "/".intercalate l

/-- Adds what stands at a location, without what lies in it. -/
def FileSystem.observe (fs : FileSystem) (l : Location) : IO FileSystem := do
  let path := (← IO.currentDir) / l.path
  if ← path.isDir then return fs.put l .directory
  else if ← path.pathExists then
    return fs.put l (.ofBytes (← try IO.FS.readBinFile path catch _ => pure .empty))
  else return fs

def FileSystem.observeDocuments (fs : FileSystem) (l : Location) : IO FileSystem := do
  let path := (← IO.currentDir) / l.path
  if !(← path.isDir) then return fs
  let mut fs := fs
  for entry in ← path.readDir do
    if entry.fileName.endsWith ".json" then fs ← fs.observe (l ++ [entry.fileName])
  return fs

/-- Adds what stands at each step from `l` down, and returns where the steps end. -/
def FileSystem.observeWay (fs : FileSystem) (l : Location) :
    List String → IO (FileSystem × Location)
  | [] => return (fs, l)
  | name :: names => do
    let l := if name = ".." then l.dropLast else l ++ [name]
    let fs ← if l = [] then pure fs else fs.observe l
    fs.observeWay l names

/-- The part of the file system that a run on a data directory can meet. -/
def FileSystem.snapshot (directory : String) : IO FileSystem := do
  let here := (Route.ofChars (← IO.currentDir).toString.toList).names
  let fs : FileSystem := ⟨.empty, here⟩
  let (fs, _) ← fs.observeWay [] here
  let (fs, _) ← fs.observeWay here (Route.ofChars CommandLine.History.file.text.toList).names
  let route := Route.ofChars directory.toList
  let (fs, l) ← fs.observeWay (if route.absolute then [] else here) route.names
  fs.observeDocuments l

def FileSystem.writeBack (before after : FileSystem) : IO Unit := do
  for l in before.entries.keys do
    if (after.entry? l).isNone then IO.FS.removeFile l.path
  for (l, entry) in after.entries.entries do
    if before.entry? l ≠ some entry then
      match entry with
      | .directory => IO.FS.createDirAll l.path
      | .file text => IO.FS.writeFile l.path text
      | .binary content => IO.FS.writeBinFile l.path content.bytes

def printWarnings (warnings : List Warning) : IO Unit := do
  for w in warnings do
    IO.eprintln ("WARN " ++ w.message)

/-- Answers lines until the session ends, keeping the files up to date after each. The exit code
stands behind it. -/
partial def converse (o : CommandLine.Options) (s : CommandLine.Shell) : IO UInt32 := do
  let leave (s : CommandLine.Shell) : IO UInt32 := do
    let (farewell, kept) := s.finish
    farewell.forM (IO.println ·)
    s.database.store.files.writeBack kept
    return 0
  let input ← IO.getStdin
  if ← input.isTty then
    IO.print "jsondb> "
    (← IO.getStdout).flush
  match CommandLine.Shell.linesOf (← input.getLine) with
  | some line :: _ =>
    let reply := s.answer line
    reply.output.forM (IO.println ·)
    printWarnings (o.shown reply.warnings)
    s.database.store.files.writeBack reply.shell.database.store.files
    match reply.next with
    | .goesOn => converse o reply.shell
    | .ends => leave reply.shell
    | .panics => return CommandLine.panicCode.toUInt32
  | none :: _ => return CommandLine.panicCode.toUInt32
  | [] =>
    IO.println "CTRL-D"
    leave s

def IdSource.now : IO IdSource := do
  return ⟨← IO.monoMsNow, ← IO.rand 0 (Nat.pow 2 24 - 1), 0⟩

end DocBase

open DocBase in
def main (args : List String) : IO UInt32 := do
  let directory ← IO.getEnv "JSONDB_DATA_DIR"
  match CommandLine.readOptions? directory args with
  | none =>
    IO.eprint CommandLine.usage
    return 2
  | some o =>
    o.logFilter.complaints.forM (IO.eprintln ·)
    if o.logFilter.panics then return CommandLine.panicCode.toUInt32
    let files ← FileSystem.snapshot o.directory
    match CommandLine.start ⟨args, directory, files, ← IdSource.now⟩ o with
    | .over f =>
      IO.print f.output
      IO.eprint f.errors
      printWarnings f.warnings
      files.writeBack f.files
      return f.code.toUInt32
    | .shell greeting s =>
      greeting.forM (IO.println ·)
      files.writeBack s.database.store.files
      converse o s
