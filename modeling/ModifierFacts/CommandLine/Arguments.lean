/-!
# Command line arguments

`CommandLine.parse` reads an argument list: options may stand before and after the name of the
subcommand, some belong to one subcommand only, and each may be given once on each side. A value
follows its option as next argument, after `=`, or, for a short option, directly.

* `Side` is what has been read on one side of the subcommand. An option whose value is an argument
  of its own stays open until the next option or the end; only then is its value looked at.
* `Side.read` takes one argument in.
* `finish` makes the command out of both sides.

A request for help ends the reading where it stands, so it wins over what is missing, but not over
what was wrong before it.
-/

namespace ModifierFacts.CommandLine

/-! ## 1. Commands -/

/-- What is to be done. -/
inductive Command where
  /-- Extract the facts of all units of an input file. -/
  | extract (config : Option String) (input output : String) (abortRun : Bool)
      (threads : Option UInt64)
  /-- Print the modifiers of the symbol in a file. -/
  | classify (input : String)
  /-- Print the version. -/
  | version
  deriving DecidableEq, Repr

/-- What an argument list asks for, if it is not a command. -/
inductive Refusal where
  /-- The list is no valid use of the program. -/
  | usage
  /-- The list asks for help. -/
  | help
  deriving DecidableEq, Repr

/-! ## 2. Values -/

/-- The digits of a count, before which a plus may stand. -/
def countDigits : List Char → List Char
  | '+' :: ds => ds
  | ds => ds

/-- A count of 64 bits. -/
def count? (s : String) : Option UInt64 :=
  let ds := countDigits s.toList
  let n := Nat.ofDigitChars 10 ds 0
  if ds.isEmpty || !ds.all Char.isDigit || Nat.pow 2 64 ≤ n then none else some (UInt64.ofNat n)

/-- What the value of an option has to be. -/
inductive ValueForm where
  /-- A path, which is not empty. -/
  | path
  | count
  deriving DecidableEq, Repr

/-- Is the text a value of this form? -/
def ValueForm.admits (s : String) : ValueForm → Bool
  | path => s != ""
  | count => (count? s).isSome

/-! ## 3. Options -/

/-- An option that can be given. -/
structure Switch where
  name : String
  letter : Option Char := none
  /-- The form of its value, if it takes one. -/
  form : Option ValueForm := none
  deriving DecidableEq, Repr

/-- The options that every command has. -/
def commonSwitches : List Switch :=
  [⟨"verbose", some 'v', none⟩, ⟨"config", some 'c', some .path⟩, ⟨"help", some 'h', none⟩]

/-- The subcommands. -/
inductive Subcommand where
  | extract
  | classify
  | version
  | help
  deriving DecidableEq, Repr

/-- The subcommands under their names. -/
def subcommands : List (String × Subcommand) :=
  [("extract", .extract), ("classify", .classify), ("version", .version), ("help", .help)]

/-- The options that can be given after a subcommand. -/
def Subcommand.switches : Subcommand → List Switch
  | extract =>
    [⟨"input", some 'i', some .path⟩, ⟨"output", some 'o', some .path⟩,
      ⟨"abort-run", none, none⟩, ⟨"threads", some 't', some .count⟩] ++ commonSwitches
  | classify => ⟨"input", some 'i', some .path⟩ :: commonSwitches
  | version => commonSwitches
  | help => []

/-! ## 4. Reading -/

/-- Options by name with their values; an option without a value has the empty one. -/
abbrev Given := List (String × String)

/-- What has been read on one side of the subcommand. -/
structure Side where
  given : Given := []
  /-- The option read last, if its value is an argument of its own, and the value once it has
  come. -/
  pending : Option (Switch × Option String) := none
  /-- A double dash has been read: no option follows. -/
  closed : Bool := false

namespace Side

/-- Is the next argument the value of an option? -/
def awaitsValue (side : Side) : Bool :=
  match side.pending with
  | some (_, none) => true
  | _ => false

/-- Records an option. It must be new on its side and its value of the right form. A request for
help ends the reading. -/
def record (side : Side) (s : Switch) (value : String) : Except Refusal Side :=
  if s.name = "help" then .error .help
  else if (side.given.lookup s.name).isSome || !s.form.all (·.admits value) then .error .usage
  else .ok { side with given := side.given ++ [(s.name, value)] }

/-- Closes the option that is still open. -/
def settle (side : Side) : Except Refusal Side :=
  match side.pending with
  | none => .ok side
  | some (_, none) => .error .usage
  | some (s, some value) => { side with pending := none }.record s value

/-- Records an option after the one that is still open. -/
def give (side : Side) (s : Switch) (value : String) : Except Refusal Side := do
  (← side.settle).record s value

/-- Opens an option whose value is the next argument. -/
def await (side : Side) (s : Switch) : Except Refusal Side := do
  return { ← side.settle with pending := some (s, none) }

/-- Can the argument be the value of the option before it? -/
def isValue (arg : String) : Bool := !arg.startsWith "-" || arg == "-"

/-- Reads an option by its name, perhaps with a value after an equals sign. -/
def long (switches : List Switch) (side : Side) (arg : List Char) : Except Refusal Side :=
  let name := String.ofList (arg.takeWhile (· != '='))
  match switches.find? (·.name == name), arg.dropWhile (· != '=') with
  | none, _ => .error .usage
  | some s, [] => if s.form.isSome then side.await s else side.give s ""
  | some s, _ :: value =>
    if s.form.isSome then side.give s (String.ofList value) else .error .usage

/-- Reads options by their letters; the value of the last one may follow directly. -/
def short (switches : List Switch) (side : Side) : List Char → Except Refusal Side
  | [] => .ok side
  | c :: cs =>
    match switches.find? (·.letter == some c) with
    | none => .error .usage
    | some s =>
      if s.form.isSome then
        match cs with
        | [] => side.await s
        | '=' :: value => side.give s (String.ofList value)
        | value => side.give s (String.ofList value)
      else do short switches (← side.give s "") cs

/-- Reads one argument, which is not the name of a subcommand. -/
def read (switches : List Switch) (side : Side) (arg : String) : Except Refusal Side :=
  match side.pending with
  | some (s, none) =>
    if isValue arg then .ok { side with pending := some (s, some arg) } else .error .usage
  | _ =>
    if side.closed then .error .usage
    else
      match arg.toList with
      | ['-', '-'] => .ok { side with closed := true }
      | '-' :: '-' :: name => side.long switches name
      | '-' :: c :: letters => side.short switches (c :: letters)
      | _ => .error .usage

end Side

/-! ## 5. Commands out of options -/

/-- The value of an option that has to be given. -/
def required (given : Given) (name : String) : Except Refusal String :=
  match given.lookup name with
  | some value => .ok value
  | none => .error .usage

/-- The command of a subcommand with the options before and after it. Of an option that is given on
both sides the one after the subcommand counts. -/
def finish (sub : Subcommand) (before after : Given) : Except Refusal Command := do
  match sub with
  | .help => throw .help
  | .version => return .version
  | .classify => return .classify (← required after "input")
  | .extract =>
    let config := (after.lookup "config").or (before.lookup "config")
    let input ← required after "input"
    let output ← required after "output"
    let threads := (after.lookup "threads").bind count?
    return .extract config input output (after.lookup "abort-run").isSome threads

/-- What a request for help with these topics comes to: at most one subcommand can be named. -/
def helpWith : List String → Refusal
  | [] => .help
  | [topic] => if (subcommands.lookup topic).isSome then .help else .usage
  | _ => .usage

/-- The subcommand that an argument names, where it can name one. -/
def subcommand? (before : Side) (arg : String) : Option Subcommand :=
  if before.awaitsValue || before.closed then none else subcommands.lookup arg

/-- Reads the arguments from the given side of the subcommand on. The options after the subcommand
are read to their end before the last one in front of it is closed. -/
def parseFrom (before : Side) : List String → Except Refusal Command
  | [] => do
    let _ ← before.settle
    throw .usage
  | arg :: args =>
    match subcommand? before arg with
    | none => do parseFrom (← before.read commonSwitches arg) args
    | some .help => .error (helpWith args)
    | some sub => do
      let after ← (← args.foldlM (Side.read sub.switches) {}).settle
      finish sub (← before.settle).given after.given

/-- Reads an argument list. -/
def parse (args : List String) : Except Refusal Command := parseFrom {} args

end ModifierFacts.CommandLine
