import RecordStore.Shell.Session

/-!
# The program

Reads the files that the arguments name, begins a run over them, and prints
what it prints.  A session goes on line by line until the input ends.  A
store that was created is written back.
-/

namespace RecordStore.Shell

/-- The paths that arguments name. -/
def paths (arguments : List String) : List String :=
  match Arguments.parse? arguments with
  | some arguments => arguments.store :: arguments.create?.toList
  | none => []

/-- The code that the system refuses to read a folder with. -/
def folderCode : UInt32 := 21

/-- What a path leads to, as far as it can be read. -/
def probe (path : String) : IO (Option Entry) := do
  match ← (IO.FS.readBinFile path).toBaseIO with
  | .ok contents => return some (.file contents.toList)
  | .error (.inappropriateType _ code _) =>
    return if code = folderCode then some .folder else none
  | .error _ => return none

/-- The paths of the folders that a path leads through, and the path. -/
def stages (path : String) : List String :=
  let names := path.splitOn "/"
  (List.range names.length).map fun n => "/".intercalate (names.take (n + 1))

/-- The entries that arguments name, as far as they can be read. -/
def gather (arguments : List String) : IO Directory := do
  let mut directory := Directory.holding []
  for path in (paths arguments).flatMap stages do
    match directory.placeOf path (path.splitOn "/") with
    | .error _ => pure ()
    | .ok place =>
      if (directory.entry? place).isNone then
        for entry in (← probe path).toList do
          directory := directory.put place entry
  return directory

/-- Writes the store back if the arguments asked for its creation and that
changed it. -/
def save (arguments : List String) (before after : Directory) : IO Unit := do
  for path in (paths arguments).take 1 do
    let contents? := (after.read path).toOption
    if contents? != (before.read path).toOption then
      for contents in contents?.toList do
        IO.FS.writeBinFile path ⟨contents.toArray⟩

/-- Carries out the commands on the lines of the input, and yields the exit
code. -/
partial def converse (input : IO.FS.Stream) (store : Store) : IO UInt32 := do
  let text ← input.getLine
  if text.isEmpty then
    IO.println Session.farewell
    return 0
  else
    match Session.line? store ((Creation.linesOf text.toList).headD []) with
    | some (lines, store) =>
      IO.print (printed lines)
      (← IO.getStdout).flush
      converse input store
    | none =>
      IO.eprint Session.unreadable
      return 101

/-- Runs the program. -/
def run (arguments : List String) : IO UInt32 := do
  let directory ← gather arguments
  match Run.begin arguments directory with
  | .finished outcome =>
    save arguments directory outcome.directory
    IO.print (printed outcome.lines)
    IO.eprint outcome.report
    return UInt32.ofNat outcome.code
  | .reading lines store after =>
    save arguments directory after
    IO.print (printed lines)
    (← IO.getStdout).flush
    converse (← IO.getStdin) store

end RecordStore.Shell

/-- The program. -/
def main (arguments : List String) : IO UInt32 :=
  RecordStore.Shell.run arguments
