/-! # Reading command lines

    A command line has levels, one for the program and one for each of its commands.  A level has
    flags with a long name and perhaps a letter, perhaps an argument without a flag, and perhaps
    commands.  A value that follows its flag as an argument of its own is stored only when the
    next flag or argument is taken, or at the end. -/

namespace StackSurvey.CommandLine

/-! ## Section 1: Levels -/

inductive UsageFault where
  | invalidValue
  | unknownArgument
  | unknownCommand
  | repeatedFlag
  | valueNotWanted
  | commandMissing
  | nothingGiven
  | helpWanted
  | versionWanted
deriving DecidableEq, Repr

/-- The exit code for a command line that is not followed. -/
def UsageFault.exitCode : UsageFault → Nat
  | helpWanted | versionWanted => 0
  | _ => 2

/-- Where a value goes. -/
structure Slot (σ : Type) where
  name : String
  /-- May it be given more than once? -/
  repeatable : Bool := false
  /-- Stores a value, or nothing if it is not acceptable. -/
  store : String → σ → Option σ

/-- What a flag does. -/
inductive Action (σ : Type) where
  | help
  | version
  | value (slot : Slot σ)

structure Flag (σ : Type) where
  long : String
  short : Option Char := none
  action : Action σ

/-- A level of a command line. -/
structure Level (σ : Type) where
  flags : List (Flag σ)
  /-- Where an argument without a flag goes. -/
  argument : Option (Slot σ) := none
  commands : List String := []

/-- What is known in the middle of a level. -/
structure State (σ : Type) where
  value : σ
  /-- The names of the slots filled. -/
  filled : List String := []
  /-- A slot that is to be filled, and the value if it is there. -/
  pending : Option (Slot σ × Option String) := none
  /-- Have two dashes been given, after which there are no flags? -/
  plain : Bool := false
  /-- Has an argument without a flag been given? -/
  argumentGiven : Bool := false

namespace State

variable {σ : Type}

def fill (s : State σ) (slot : Slot σ) (text : String) : Except UsageFault (State σ) :=
  if !slot.repeatable && s.filled.contains slot.name then .error .repeatedFlag
  else
    match slot.store text s.value with
    | some value => .ok { s with value, filled := slot.name :: s.filled }
    | none => .error .invalidValue

/-- Fills the pending slot. -/
def resolve (s : State σ) : Except UsageFault (State σ) :=
  match s.pending with
  | none => .ok s
  | some (_, none) => .error .invalidValue
  | some (slot, some text) => { s with pending := none }.fill slot text

/-- Is the pending slot without a value? -/
def isWaiting (s : State σ) : Bool :=
  match s.pending with
  | some (_, none) => true
  | _ => false

/-- Takes a slot, and its value if it is attached to the flag. -/
def take (s : State σ) (slot : Slot σ) (attached : Option String) :
    Except UsageFault (State σ) := do
  let s ← s.resolve
  match attached with
  | some text => s.fill slot text
  | none => return { s with pending := some (slot, none) }

/-- Takes a flag that ends the reading. -/
def finish (s : State σ) (fault : UsageFault) : Except UsageFault (State σ) := do
  let _ ← s.resolve
  throw fault

end State

/-! ## Section 2: Single arguments -/

namespace Level

variable {σ : Type}

/-- Splits a long flag from the value behind an equals sign. -/
def splitAtEquals (cs : List Char) : String × Option String :=
  match cs.dropWhile (· ≠ '=') with
  | [] => (String.ofList cs, none)
  | _ :: rest => (String.ofList (cs.takeWhile (· ≠ '=')), some (String.ofList rest))

/-- Takes a long flag, its dashes being gone. -/
def takeLong (l : Level σ) (s : State σ) (cs : List Char) : Except UsageFault (State σ) :=
  let (name, attached) := splitAtEquals cs
  match l.flags.find? fun f => f.long = name with
  | none => .error .unknownArgument
  | some flag =>
    match flag.action, attached with
    | .value slot, _ => s.take slot attached
    | .help, none => s.finish .helpWanted
    | .version, none => s.finish .versionWanted
    | .help, some _ | .version, some _ => .error .valueNotWanted

/-- The value attached to a letter; an equals sign between them is dropped. -/
def attachedValue : List Char → Option String
  | [] => none
  | '=' :: rest => some (String.ofList rest)
  | cs => some (String.ofList cs)

/-- Takes letters, their dash being gone. -/
def takeShort (l : Level σ) (s : State σ) : List Char → Except UsageFault (State σ)
  | [] => .ok s
  | c :: rest =>
    match l.flags.find? fun f => f.short = some c with
    | none => .error .unknownArgument
    | some flag =>
      match flag.action with
      | .value slot => s.take slot (attachedValue rest)
      | .help => s.finish .helpWanted
      | .version => s.finish .versionWanted

/-- The fault of an argument for which there is no place. -/
def strayFault (l : Level σ) (s : State σ) (arg : String) : UsageFault :=
  if l.commands.isEmpty || (s.plain && l.commands.contains arg) then .unknownArgument
  else .unknownCommand

/-- Takes an argument without a flag. -/
def takePlain (l : Level σ) (s : State σ) (arg : String) : Except UsageFault (State σ) :=
  match l.argument, s.argumentGiven with
  | some slot, false => do
    let s ← s.resolve
    return { s with pending := some (slot, some arg), argumentGiven := true }
  | _, _ => .error (l.strayFault s arg)

/-- Takes an argument that is no command. -/
def takeArgument (l : Level σ) (s : State σ) (arg : String) : Except UsageFault (State σ) :=
  if s.plain then l.takePlain s arg
  else
    match arg.toList with
    | ['-', '-'] => .ok { s with plain := true }
    | '-' :: '-' :: cs => l.takeLong s cs
    | '-' :: c :: cs => l.takeShort s (c :: cs)
    | _ =>
      match s.pending with
      | some (slot, none) => .ok { s with pending := some (slot, some arg) }
      | _ => l.takePlain s arg

/-! ## Section 3: Whole levels -/

/-- Takes arguments up to a command; the answer has the command and what follows it. -/
def scan (l : Level σ) :
    State σ → List String → Except UsageFault (State σ × Option (String × List String))
  | s, [] => .ok (s, none)
  | s, arg :: rest =>
    if !s.plain && !s.isWaiting && l.commands.contains arg then .ok (s, some (arg, rest))
    else do
      let s ← l.takeArgument s arg
      l.scan s rest

/-- Reads a level without commands. -/
def read (l : Level σ) (blank : σ) (args : List String) : Except UsageFault σ := do
  let (s, _) ← l.scan { value := blank } args
  return (← s.resolve).value

end Level
end StackSurvey.CommandLine
