import StackSurvey.Engine.Basic
import StackSurvey.Files.Disk
import StackSurvey.Survey.Failure
import StackSurvey.Text.Blank

/-! # The registry of engines

    A registry lists the engines that there are.  Names are distinct and have no colon, and every
    engine has an image or a channel. -/

namespace StackSurvey

/-- An engine in a registry. -/
structure RegistryEntry where
  name : String
  description : String := ""
  enabled : Bool := true
  image : Option String := none
  command : List String := []
  /-- Images by channel, names ascending. -/
  channels : Dictionary String := []
  rules : RunRules := {}
  config : Dictionary Json := []

namespace RegistryEntry

/-- Where the engine's image comes from. -/
def images (e : RegistryEntry) : EngineImages :=
  { image := e.image, command := e.command, channels := e.channels }

/-- The form of an entry, of which only the name is needed. -/
def form : Form RegistryEntry :=
  .record "RegistryEntry" [
    (Form.field "name" .text fun e name => { e with name }).mandatory,
    Form.field "description" .text fun e description => { e with description },
    Form.field "enabled" .flag fun e enabled => { e with enabled },
    Form.field "image" (.optional .text) fun e image => { e with image },
    Form.field "command" (.list .text) fun e command => { e with command },
    Form.field "channels" (.map .text) fun e channels => { e with channels },
    Form.field "run_rules" RunRules.form fun e rules => { e with rules },
    Form.field "config" .object fun e config => { e with config }] { name := "" }

def toJson (e : RegistryEntry) : Json :=
  .object [
    ("name", .text e.name),
    ("description", .text e.description),
    ("enabled", .flag e.enabled),
    ("image", (e.image.map Json.text).getD .null),
    ("command", .ofTexts e.command),
    ("channels", .object (EngineImages.textMembers e.channels)),
    ("run_rules", e.rules.toJson),
    ("config", .object e.config)]

end RegistryEntry

inductive RegistryFault where
  | unreadable (path : String) (fault : FileFault)
  | malformed (reason : String)
  | nameEmpty
  | nameWithColon (name : String)
  | repeatedName (name : String)
  | noImage (name : String)
deriving DecidableEq

def RegistryFault.message : RegistryFault → String
  | unreadable path fault => "failed to read " ++ path ++ ": " ++ fault.message
  | malformed reason => reason
  | nameEmpty => "engine name must not be empty"
  | nameWithColon name => "engine name '" ++ name ++ "' must not contain ':'"
  | repeatedName name => "engine '" ++ name ++ "' is listed more than once"
  | noImage name => "engine '" ++ name ++ "' needs an image or at least one channel"

structure Registry where
  entries : List RegistryEntry := []

namespace Registry

def form : Form Registry :=
  .record "EngineRegistry"
    [Form.field "engine" (.list RegistryEntry.form) fun _ entries => { entries }] {}

/-- What is wrong with an entry that follows others. -/
def entryFault? (earlier : List String) (e : RegistryEntry) : Option RegistryFault :=
  if Text.isBlankText e.name then some .nameEmpty
  else if e.name.toList.contains ':' then some (.nameWithColon e.name)
  else if earlier.contains e.name then some (.repeatedName e.name)
  else if e.image.isNone && e.channels.isEmpty then some (.noImage e.name)
  else none

/-- The first fault of entries that follow others. -/
def firstFault? (earlier : List String) : List RegistryEntry → Option RegistryFault
  | [] => none
  | e :: rest =>
    match entryFault? earlier e with
    | some fault => some fault
    | none => firstFault? (e.name :: earlier) rest

def parse (text : String) : Except RegistryFault Registry :=
  match form.parseToml text with
  | .error fault => .error (.malformed (fault.message text))
  | .ok registry =>
    match firstFault? [] registry.entries with
    | some fault => .error fault
    | none => .ok registry

def load (disk : Disk) (path : String) : Except RegistryFault Registry :=
  match disk.readText path with
  | .error fault => .error (.unreadable path fault)
  | .ok text => parse text

def get? (r : Registry) (name : String) : Option RegistryEntry :=
  r.entries.find? fun e => e.name = name

def enabled (r : Registry) : List RegistryEntry := r.entries.filter RegistryEntry.enabled

/-! ## Section 1: Choosing engines -/

/-- The engine of an entry, on a channel if one is asked for. -/
def engine (codePath label : String) (channel : Option String) (e : RegistryEntry) : Engine :=
  let config :=
    match channel with
    | some channel => Dictionary.put "channel" (.text channel) e.config
    | none => e.config
  { name := e.name, images := e.images, codePath, config := .object config, label
    rules := e.rules }

/-- A request for an engine: its name and, after a colon, the channel. -/
def splitRequest (request : String) : String × Option String :=
  let cs := request.toList
  match cs.dropWhile (· ≠ ':') with
  | [] => (request, none)
  | _ :: channel => (String.ofList (cs.takeWhile (· ≠ ':')), some (String.ofList channel))

/-- The engine that a request asks for. -/
def choose (r : Registry) (codePath label : String) (request : String) :
    Except PlanFault Engine :=
  let (name, channel) := splitRequest request
  match r.get? name with
  | some e => .ok (engine codePath label channel e)
  | none => .error (.unknownEngine request)

/-- The engines that are asked for, or all that are enabled. -/
def build (r : Registry) (codePath label : String) (requests : List String) :
    Except PlanFault (List Engine) :=
  if requests.isEmpty then .ok (r.enabled.map (engine codePath label none))
  else requests.mapM (r.choose codePath label)

end Registry
end StackSurvey
