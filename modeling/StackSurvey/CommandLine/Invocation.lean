import StackSurvey.CommandLine.Parser

/-! # The program's command line

    The program has two commands: one analyses a project, the other lists the engines. -/

namespace StackSurvey.CommandLine

/-! ## Section 1: Invocations -/

/-- The format of a report. -/
inductive Format where
  | json
  | text
deriving DecidableEq, Repr

def Format.ofName? (name : String) : Option Format :=
  if name = "json" then some .json
  else if name = "text" then some .text
  else none

/-- The file of the settings unless another one is given. -/
def defaultSettingsPath : String := "belugas.toml"

/-- The file of the registry unless another one is given. -/
def defaultRegistryPath : String := "engines.toml"

/-- How a project is to be analysed. -/
structure Analysis where
  path : String := "."
  /-- The engines asked for; all that are enabled if there are none. -/
  engines : List String := []
  format : Option Format := none
  registry : String := defaultRegistryPath
  label : Option String := none
deriving DecidableEq, Repr

/-- How the engines are to be listed. -/
structure Listing where
  registry : String := defaultRegistryPath
  format : Format := .text
deriving DecidableEq, Repr

inductive Task where
  | analyse (a : Analysis)
  | list (l : Listing)
deriving DecidableEq, Repr

/-- A command line that is followed. -/
structure Invocation where
  settings : String
  logLevel : Option String
  task : Task
deriving DecidableEq, Repr

/-! ## Section 2: Levels -/

/-- A value of a command together with the level of the log, which all commands take. -/
structure Logged (α : Type) where
  options : α
  logLevel : Option String := none

/-- A path that is not empty. -/
def path? (text : String) : Option String := if text.isEmpty then none else some text

def logLevelFlag {α : Type} : Flag (Logged α) :=
  { long := "log-level"
    action := .value
      { name := "log-level", store := fun text s => some { s with logLevel := some text } } }

def helpFlag {σ : Type} : Flag σ := { long := "help", short := some 'h', action := .help }

def helpCommand : String := "help"

def analyseCommand : String := "analyze"

def listCommand : String := "engines"

/-- A slot of a command. -/
def slot {α : Type} (name : String) (store : String → α → Option α) : Slot (Logged α) :=
  { name
    store := fun text s => (store text s.options).map fun options => { s with options } }

/-- A flag of a command, known by its long name. -/
def valueFlag {α : Type} (name : String) (store : String → α → Option α) : Flag (Logged α) :=
  { long := name, action := .value (slot name store) }

def engineFlag : Flag (Logged Analysis) :=
  { long := "engine"
    short := some 'e'
    action := .value
      { slot "engine" fun text (a : Analysis) => some { a with engines := a.engines ++ [text] } with
        repeatable := true } }

/-- The level of the command that analyses a project. -/
def analyseLevel : Level (Logged Analysis) :=
  { flags := [
      engineFlag,
      valueFlag "format" fun text a =>
        (Format.ofName? text).map fun format => { a with format := some format },
      valueFlag "registry" fun text a => (path? text).map fun registry => { a with registry },
      valueFlag "label" fun text a => some { a with label := some text },
      logLevelFlag, helpFlag]
    argument := some (slot "path" fun text a => (path? text).map fun path => { a with path }) }

/-- The level of the command that lists the engines. -/
def listLevel : Level (Logged Listing) :=
  { flags := [
      valueFlag "registry" fun text l => (path? text).map fun registry => { l with registry },
      valueFlag "format" fun text l => (Format.ofName? text).map fun format => { l with format },
      logLevelFlag, helpFlag] }

/-- The level of the program; its own value is the path of the settings. -/
def programLevel : Level (Logged String) :=
  { flags := [
      { long := "config", short := some 'c',
        action := .value (slot "config" fun text _ => path? text) },
      logLevelFlag, helpFlag,
      { long := "version", short := some 'V', action := .version }]
    commands := [analyseCommand, listCommand, helpCommand] }

/-! ## Section 3: Reading -/

/-- The fault of a command for help: help is given for one command or for help itself. -/
def helpFault : List String → UsageFault
  | [] => .helpWanted
  | [name] => if programLevel.commands.contains name then .helpWanted else .unknownCommand
  | _ => .unknownCommand

/-- Reads the rest of a command line behind a command. -/
def readTask (command : String) (args : List String) :
    Except UsageFault (Task × Option String) := do
  if command = helpCommand then throw (helpFault args)
  else if command = analyseCommand then
    let a ← analyseLevel.read { options := {} } args
    return (.analyse a.options, a.logLevel)
  else
    let l ← listLevel.read { options := {} } args
    return (.list l.options, l.logLevel)

/-- Reads a command line.  A level of the log given behind the command goes before one given in
    front of it. -/
def parse (args : List String) : Except UsageFault Invocation := do
  match ← programLevel.scan { value := { options := defaultSettingsPath } } args with
  | (s, some (command, rest)) =>
    let (task, logLevel) ← readTask command rest
    let s ← s.resolve
    return { settings := s.value.options, logLevel := logLevel.or s.value.logLevel, task }
  | (s, none) =>
    let s ← s.resolve
    if s.filled.isEmpty then throw .nothingGiven else throw .commandMissing

end StackSurvey.CommandLine
