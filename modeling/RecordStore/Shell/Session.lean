import RecordStore.Shell.Arguments
import RecordStore.Shell.Creation
import RecordStore.Shell.Typing
import RecordStore.Shell.Words

/-!
# Runs of the program

A run creates the store if it was asked to, opens it, and carries out its
command.  Without a command it reads lines and carries out the command on
each, until there are no more; a command that fails there ends nothing, but a
line that cannot be read ends the run.
-/

namespace RecordStore.Shell

/-- What a run came to. -/
structure Outcome where
  /-- The exit code: 0 for success, 1 for a fault, 2 for unusable arguments,
  101 for a line that cannot be read. -/
  code : Nat
  /-- The lines printed. -/
  lines : List String
  /-- What was printed besides, about a fault. -/
  report : String
  /-- The files afterwards. -/
  directory : Directory
  deriving DecidableEq, Repr

/-- A run that was begun. -/
inductive Begun
  /-- It is over. -/
  | finished (outcome : Outcome)
  /-- It reads lines; some lines were printed before. -/
  | reading (lines : List String) (store : Store) (directory : Directory)

namespace Session

/-- What is printed before the first line is read. -/
def greeting : String := "terminate with ctrl-c or ctrl-d"

/-- What is printed when there are no more lines. -/
def farewell : String := "terminating..."

/-- A fault as shown in a session. -/
def shown (fault : Fault) : String :=
  "error: " ++ fault.message

/-- What is printed about a line that cannot be read. -/
def unreadable : String := "a backspace cuts a character\n"

/-- Carries out the command on a line, as it came to be after its backspaces. -/
def obey (store : Store) (text : String) : List String × Store :=
  match Command.ofLine text with
  | .error fault => ([shown fault], store)
  | .ok none => ([], store)
  | .ok (some command) =>
    let (reply, store) := command.run store
    (reply.lines ++ (reply.fault?.map shown).toList, store)

/-- Carries out the command on a line as it was typed; none if the line
cannot be read. -/
def line? (store : Store) (typed : List Char) : Option (List String × Store) :=
  (Typing.edited typed).map fun text => obey store (String.ofList text)

/-- Carries out the commands on lines, one after another.  Says whether all
of them could be read. -/
def lines (store : Store) : List (List Char) → List String × Bool
  | [] => ([], true)
  | typed :: rest =>
    match line? store typed with
    | some (printed, store) =>
      let (more, all) := lines store rest
      (printed ++ more, all)
    | none => ([], false)

end Session

namespace Run

/-- Opens a store that is in a file.  A folder can be opened too, but nothing
can be read from it. -/
def openStore (arguments : Arguments) (directory : Directory) : Except Fault Store :=
  match directory.find arguments.store, directory.read arguments.store with
  | .error fault, _ => .error (.within s!"opening store: {arguments.store}" (.ofPath fault))
  | .ok _, .error fault => .error (.within StoreError.readFailed.message (.ofPath fault))
  | .ok _, .ok contents => (Store.ofContents arguments.config contents).mapError .ofStore

/-- A run that ends with a fault or without one. -/
def finish (lines : List String) (fault? : Option Fault) (directory : Directory) : Outcome :=
  match fault? with
  | some fault => ⟨1, lines, fault.report, directory⟩
  | none => ⟨0, lines, "", directory⟩

/-- Opens the store after `printed` and carries out the command, if there is
one. -/
def proceed (arguments : Arguments) (printed : List String) (directory : Directory) : Begun :=
  match openStore arguments directory with
  | .error fault => .finished (finish printed (some fault) directory)
  | .ok store =>
    match arguments.command? with
    | some command =>
      let (reply, _) := command.run store
      .finished (finish (printed ++ reply.lines) reply.fault? directory)
    | none => .reading (printed ++ [Session.greeting]) store directory

/-- Begins a run, as far as it goes without reading lines. -/
def begin (arguments : List String) (directory : Directory) : Begun :=
  match Arguments.parse? arguments with
  | none => .finished ⟨2, [], "", directory⟩
  | some arguments =>
    match arguments.create? with
    | none => proceed arguments [] directory
    | some source =>
      match Creation.run directory arguments.store source with
      | (printed, .error fault) => .finished (finish printed (some fault) directory)
      | (printed, .ok directory) => proceed arguments printed directory

/-- A run with all the lines it will read. -/
def complete (arguments : List String) (directory : Directory) (input : String) : Outcome :=
  match begin arguments directory with
  | .finished outcome => outcome
  | .reading printed store directory =>
    match Session.lines store (Creation.linesOf input.toList) with
    | (lines, true) => ⟨0, printed ++ lines ++ [Session.farewell], "", directory⟩
    | (lines, false) => ⟨101, printed ++ lines, Session.unreadable, directory⟩

end Run

/-- Lines as they are printed. -/
def printed (lines : List String) : String :=
  String.join (lines.map (· ++ "\n"))

end RecordStore.Shell
