import RecordStore.Shell.Command

/-!
# Arguments of a run

A run is given the path of a store, options, and perhaps a command, which
comes last.  An option's value is the next argument, or follows `=` in the
same one, or follows the letter of a short option at once.  After `--`
nothing is an option or a command.  An option may be given once.

Numbers are read as integers of 64 bits with a sign and then checked for
their range.
-/

namespace RecordStore.Shell

/-- What a run was asked to do. -/
structure Arguments where
  /-- The path of the store. -/
  store : String
  /-- The path of the text that the store is to be created from. -/
  create? : Option String
  config : CollectionConfig
  /-- The command; without one, commands are read line by line. -/
  command? : Option Command
  deriving DecidableEq, Repr

namespace Arguments

/-- The options of a run. -/
inductive Setting
  | create
  | loaded
  | capacity
  | concurrency
  deriving DecidableEq, Repr

/-- The option with a long name. -/
def Setting.ofName? : String → Option Setting
  | "create" => some .create
  | "loaded" => some .loaded
  | "capacity" => some .capacity
  | "concurrency" => some .concurrency
  | _ => none

/-- The option with a letter. -/
def Setting.ofLetter? : Char → Option Setting
  | 'c' => some .create
  | 'l' => some .loaded
  | _ => none

/-- An argument before its meaning is known. -/
inductive Shape
  /-- The end of options. -/
  | escape
  /-- An option, with its value if that is in the same argument; none for an
  option that there is not. -/
  | setting (which? : Option Setting) (value? : Option String)
  /-- Anything else. -/
  | plain
  deriving DecidableEq, Repr

/-- The shape of an argument.  A single dash is no option. -/
def Shape.of (argument : String) : Shape :=
  match argument.toList with
  | ['-', '-'] => .escape
  | '-' :: '-' :: rest =>
    let name := rest.takeWhile (· != '=')
    let value? := match rest.dropWhile (· != '=') with
      | [] => none
      | _ :: value => some (String.ofList value)
    .setting (Setting.ofName? (String.ofList name)) value?
  | ['-', letter] => .setting (Setting.ofLetter? letter) none
  | '-' :: letter :: '=' :: value =>
    .setting (Setting.ofLetter? letter) (some (String.ofList value))
  | '-' :: letter :: value => .setting (Setting.ofLetter? letter) (some (String.ofList value))
  | _ => .plain

/-- The number of a range that an argument denotes. -/
def number? (range : Literal.Range) (argument : String) : Option Nat :=
  match Literal.integer Literal.i64 argument.toList with
  | .ok n => if range.contains n then some n.toNat else none
  | .error _ => none

/-- The offset that an argument denotes. -/
def offset? (argument : String) : Option UInt32 :=
  (number? Literal.u32 argument).map UInt32.ofNat

/-- The values given for options, and the store. -/
structure Given where
  values : List (Setting × String)
  store? : Option String
  deriving DecidableEq, Repr

/-- Adds the value of an option; none if it was given before. -/
def Given.set? (given : Given) (setting : Setting) (value : String) : Option Given :=
  match given.values.lookup setting with
  | some _ => none
  | none => some { given with values := (setting, value) :: given.values }

/-- The value of a numeric option, or the default if it was not given; none if
its value is no number of the range. -/
def Given.number? (given : Given) (setting : Setting) (range : Literal.Range) (default : Nat) :
    Option Nat :=
  match given.values.lookup setting with
  | some value => Arguments.number? range value
  | none => some default

/-- The arguments of a command, none of which may be an option. -/
def operands? : List String → Option (List String)
  | [] => some []
  | argument :: rest =>
    match Shape.of argument with
    | .escape => some rest
    | .setting _ _ => none
    | .plain => (operands? rest).map (argument :: ·)

/-- Names of commands. -/
def commandNames : List String :=
  ["compare", "get", "help", "info", "records", "wkt"]

/-- The number of decimal places that an argument denotes. -/
def places? (argument : String) : Option Nat :=
  number? Literal.u8 argument

/-- The command with a name and operands. -/
def commandOf? (name : String) (operands : List String) : Option Command := do
  match name, operands with
  | "compare", [offset, type, target] =>
    return .compare (← offset? offset) (← ValueType.ofName? type) target
  | "get", [offset, type] => return .get (← offset? offset) (← ValueType.ofName? type) none
  | "get", [offset, type, places] =>
    return .get (← offset? offset) (← ValueType.ofName? type) (some (← places? places))
  | "help", [] => return .help
  | "info", [] => return .info
  | "records", [type] => return .records (← ValueType.ofName? type)
  | "wkt", [hex] => return .wkt hex none
  | "wkt", [hex, places] => return .wkt hex (some (← places? places))
  | _, _ => none

/-- What was given, as arguments of a run. -/
def ofGiven? (given : Given) (command? : Option Command) : Option Arguments := do
  let create? := given.values.lookup .create
  if create? = some "" then none
  else
    let loaded ← given.number? .loaded Literal.u32 0
    let capacity ← given.number? .capacity Literal.u32 0
    let concurrency ← given.number? .concurrency Literal.u16 1
    return {
      store := ← given.store?
      create?
      config := ⟨UInt32.ofNat loaded, UInt32.ofNat capacity, UInt16.ofNat concurrency⟩
      command? }

/-- Arguments after the end of options: the store, unless it was given. -/
def afterEscape? (given : Given) : List String → Option Arguments
  | [] => ofGiven? given none
  | [store] =>
    if given.store?.isNone then ofGiven? { given with store? := some store } none else none
  | _ => none

/-- Goes on reading arguments. -/
def parseFrom? (given : Given) : List String → Option Arguments
  | [] => ofGiven? given none
  | argument :: rest =>
    if commandNames.contains argument then do
      ofGiven? given (some (← commandOf? argument (← operands? rest)))
    else
      match Shape.of argument with
      | .escape => afterEscape? given rest
      | .plain =>
        if given.store?.isNone then parseFrom? { given with store? := some argument } rest
        else none
      | .setting none _ => none
      | .setting (some setting) (some value) =>
        match given.set? setting value with
        | some given => parseFrom? given rest
        | none => none
      | .setting (some setting) none =>
        match rest with
        | value :: rest =>
          if Shape.of value = .plain then
            match given.set? setting value with
            | some given => parseFrom? given rest
            | none => none
          else none
        | [] => none

/-- The arguments of a run; none if they cannot be used. -/
def parse? (arguments : List String) : Option Arguments :=
  parseFrom? ⟨[], none⟩ arguments

end Arguments

end RecordStore.Shell
