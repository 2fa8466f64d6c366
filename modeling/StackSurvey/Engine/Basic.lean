import StackSurvey.Container.Spec
import StackSurvey.Files.Path
import StackSurvey.History

/-! # Engines

    An engine is a container image that looks at a project and reports features.  It may have
    several channels, each with an image of its own; its configuration says which channel is
    wanted.  `spec` is the container in which it runs. -/

namespace StackSurvey

/-- Where an engine's image comes from, and the command to run in it. -/
structure EngineImages where
  image : Option String := none
  command : List String := []
  /-- Images by channel, names ascending. -/
  channels : Dictionary String := []
deriving DecidableEq

namespace EngineImages

/-- The image of a channel.  An engine without channels has one image for all. -/
def imageFor (m : EngineImages) (channel : String) : Option String :=
  if m.channels.isEmpty then m.image else Dictionary.get? channel m.channels

def fields : List (Form.Field EngineImages) := [
  Form.field "image" (.optional .text) fun m image => { m with image },
  Form.field "command" (.list .text) fun m command => { m with command },
  Form.field "channels" (.map .text) fun m channels => { m with channels }]

def form : Form EngineImages := .record "EngineMetadata" fields {}

/-- Named texts as data. -/
def textMembers (d : Dictionary String) : List (String × Json) := d.map fun (k, v) => (k, .text v)

/-- The images as data.  What is missing or empty is left out. -/
def toJson (m : EngineImages) : Json :=
  .object <|
    Feature.optionalMember "image" m.image ++ Feature.listMember "command" m.command ++
    (if m.channels.isEmpty then [] else [("channels", .object (textMembers m.channels))])

end EngineImages

/-- An engine and the project it is to look at. -/
structure Engine where
  name : String
  images : EngineImages
  codePath : String
  config : Json := .object []
  /-- The label under which its containers can be found. -/
  label : String := ""
  rules : RunRules := {}

/-- What all engines of a run have in common. -/
structure EngineOptions where
  memory : Nat := Container.defaultMemoryLimit
  timeout : Duration := Container.defaultTimeout
  user : String := Container.defaultUser
  /-- The directory for artifacts. -/
  artifacts : MountedPath
  errorLimit : Nat := Container.defaultErrorLimit

namespace Engine

/-- The channel of an engine whose configuration names none. -/
def defaultChannel : String := "stable"

/-- The channel that the configuration asks for. -/
def channel (e : Engine) : String :=
  ((e.config.member? "channel").bind Json.asText?).getD defaultChannel

/-- The name together with the channel. -/
def qualifiedName (e : Engine) : String := e.name ++ ":" ++ e.channel

def image? (e : Engine) : Option String := e.images.imageFor e.channel

/-- May the engine run after all that has happened? -/
def canRun (e : Engine) (h : RunHistory) : Bool := e.rules.satisfiedBy h

def codeMount : String := "/code"

def configMount : String := "/config.json"

/-- Where the features found so far are in the container. -/
def featuresMount : String := "/previous-engine-results.json"

/-- The container of an engine; `id` makes its name unique. -/
def spec (e : Engine) (o : EngineOptions) (configFile featuresFile : MountedPath) (id : String) :
    Container.Spec :=
  { name := Container.nameFor e.name e.channel id
    image := e.image?
    command := e.images.command
    user := o.user
    labels := [(Container.labelKey, e.label)]
    mounts := [
      { host := e.codePath, inside := codeMount },
      { host := configFile.host, inside := configMount },
      { host := featuresFile.host, inside := featuresMount }]
    memory := o.memory
    -- Memory and swap together may have no more than memory alone.
    memorySwap := o.memory
    timeout := o.timeout
    errorLimit := o.errorLimit }

end Engine
end StackSurvey
