/-!
Reading arguments by a grammar of switches and positional values.

A switch is written `--name value` or `--name=value`, or with its letter `-n value`, `-nvalue` or `-n=value`.
Switches and positional values may be mixed; behind `--` all arguments are positional. No switch may be given twice,
and a value that begins with a dash has to be attached to its switch. Arguments are taken from left to right, and
the first that is wrong, or that asks for help, decides.
-/
namespace Payphone.CommandLine

inductive UsageError
  | missingCommand
  | unknownCommand (name : String)
  | unexpectedArgument (text : String)
  | repeatedSwitch (name : String)
  | missingValue (name : String)
  | unexpectedValue (name : String)
  | invalidValue (name value : String)
  | missingArgument (name : String)
deriving Repr, DecidableEq

def UsageError.message : UsageError → String
  | missingCommand => "a command is required"
  | unknownCommand name => s!"unrecognized command '{name}'"
  | unexpectedArgument text => s!"unexpected argument '{text}'"
  | repeatedSwitch name => s!"'--{name}' cannot be used more than once"
  | missingValue name => s!"'--{name}' needs a value"
  | unexpectedValue name => s!"'--{name}' takes no value"
  | invalidValue name value => s!"invalid value '{value}' for '{name}'"
  | missingArgument name => s!"'{name}' is required"

/-- Why arguments do not lead to a command. -/
inductive Refusal
  | help
  | usage (error : UsageError)
deriving Repr, DecidableEq

/-! Grammars over the settings that arguments fill in. -/

/-- What a switch does to the settings; a value that is given may turn out not to be one. -/
inductive Action (α : Type)
  | flag (apply : α → α)
  | value (apply : String → α → Option α)

structure Switch (α : Type) where
  name : String
  /-- The letter of the short form, if there is one. -/
  letter : Option Char
  action : Action α

/-- A positional value, which has to be given. -/
structure Positional (α : Type) where
  name : String
  apply : String → α → Option α

structure Grammar (α : Type) where
  /-- The settings before any argument is read. -/
  start : α
  switches : List (Switch α)
  positionals : List (Positional α)

/-! Reading. -/

/-- The settings so far, the names of the switches given, and the positional values still to come. -/
structure Progress (α : Type) where
  settings : α
  given : List String
  waiting : List (Positional α)

variable {α : Type}

/-- Marks a switch as given. -/
def Progress.use (p : Progress α) (name : String) (settings : α) : Except Refusal (Progress α) :=
  if p.given.contains name then .error (.usage (.repeatedSwitch name))
  else .ok { p with settings, given := name :: p.given }

def Progress.takeValue (p : Progress α) (name : String) (apply : String → α → Option α) (value : String) :
    Except Refusal (Progress α) :=
  match apply value p.settings with
  | some settings => p.use name settings
  | none => .error (.usage (.invalidValue name value))

def Progress.takePositional (p : Progress α) (value : String) : Except Refusal (Progress α) :=
  match p.waiting with
  | [] => .error (.usage (.unexpectedArgument value))
  | next :: waiting =>
    match next.apply value p.settings with
    | some settings => .ok { p with settings, waiting }
    | none => .error (.usage (.invalidValue next.name value))

/-- What one argument is. -/
inductive Shape (α : Type)
  | positional
  /-- The mark behind which all is positional. -/
  | separator
  | help
  | switch (s : Switch α) (attached : Option String)
  | unknown

/-- Begins with a dash and is more than one: not a value unless attached. -/
def isDashed (text : String) : Bool :=
  match text.toList with
  | '-' :: _ :: _ => true
  | _ => false

namespace Grammar

/-- The switch of a long form: the name ends at the first equals sign, behind which the value stands. -/
def long (g : Grammar α) (body : List Char) : Shape α :=
  let name := String.ofList (body.takeWhile (· != '='))
  let attached := match body.dropWhile (· != '=') with
    | _ :: value => some (String.ofList value)
    | [] => none
  match g.switches.find? fun s => s.name == name with
  | some s => .switch s attached
  | none => .unknown

/-- The switch of a short form: what follows the letter is the value, less an equals sign. -/
def short (g : Grammar α) (letter : Char) (rest : List Char) : Shape α :=
  let attached := match rest with
    | [] => none
    | '=' :: value => some (String.ofList value)
    | value => some (String.ofList value)
  match g.switches.find? fun s => s.letter == some letter with
  | some s => .switch s attached
  | none => .unknown

def shape (g : Grammar α) (argument : String) : Shape α :=
  match argument.toList with
  | ['-', '-'] => .separator
  | '-' :: '-' :: body => if argument == "--help" then .help else g.long body
  | '-' :: letter :: rest => if letter == 'h' then .help else g.short letter rest
  | _ => .positional

def readFrom (g : Grammar α) (p : Progress α) : List String → Except Refusal (Progress α)
  | [] => .ok p
  | argument :: rest =>
    match g.shape argument with
    | .positional => do g.readFrom (← p.takePositional argument) rest
    | .separator => rest.foldlM Progress.takePositional p
    | .help => .error .help
    | .unknown => .error (.usage (.unexpectedArgument argument))
    | .switch s attached =>
      match s.action, attached, rest with
      | .flag apply, none, rest => do g.readFrom (← p.use s.name (apply p.settings)) rest
      | .flag _, some _, _ => .error (.usage (.unexpectedValue s.name))
      | .value apply, some value, rest => do g.readFrom (← p.takeValue s.name apply value) rest
      | .value apply, none, value :: rest =>
        if isDashed value then .error (.usage (.missingValue s.name))
        else do g.readFrom (← p.takeValue s.name apply value) rest
      | .value _, none, [] => .error (.usage (.missingValue s.name))

/-- The settings that the arguments give, if none is wrong or missing. -/
def read (g : Grammar α) (arguments : List String) : Except Refusal α := do
  let p ← g.readFrom ⟨g.start, [], g.positionals⟩ arguments
  match p.waiting with
  | [] => return p.settings
  | next :: _ => throw (.usage (.missingArgument next.name))

end Grammar

end Payphone.CommandLine
