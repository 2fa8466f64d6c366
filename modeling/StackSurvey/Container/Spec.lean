import StackSurvey.Dictionary
import StackSurvey.Duration
import StackSurvey.Text.Utf8

/-! # Container specifications

    Engines run in containers without a network, without privileges and with bounded memory.  A
    specification says all that is needed to create one; `flags` writes it as command line
    options. -/

namespace StackSurvey.Container

/-- A directory or file of the host made visible in a container. -/
structure Mount where
  host : String
  inside : String
  readOnly : Bool := true
deriving DecidableEq, Repr

/-- The mount as one text, parts being separated by colons. -/
def Mount.bind (m : Mount) : String :=
  m.host ++ ":" ++ m.inside ++ (if m.readOnly then ":ro" else "")

/-- The bound on memory unless another one is given, in bytes. -/
def defaultMemoryLimit : Nat := 512000000

def defaultTimeout : Duration := .ofSeconds 900

/-- The number of bytes kept of the error channel unless another one is given. -/
def defaultErrorLimit : Nat := 64 * 1024

def defaultUser : String := "9000:9000"

/-- The byte between two documents. -/
def documentDelimiter : UInt8 := 0

/-- The label under which a run can be found. -/
def labelKey : String := "com.belugas.label"

/-- All that is needed to create a container. -/
structure Spec where
  name : String
  image : Option String
  command : List String := []
  user : String := defaultUser
  /-- Names ascending. -/
  labels : Dictionary String := []
  mounts : List Mount := []
  droppedCapabilities : List String := ["all"]
  network : String := "none"
  memory : Nat := defaultMemoryLimit
  /-- The bound on memory and swap together. -/
  memorySwap : Nat := defaultMemoryLimit
  autoRemove : Bool := true
  timeout : Duration := defaultTimeout
  delimiter : UInt8 := documentDelimiter
  errorLimit : Nat := defaultErrorLimit

namespace Spec

/-- Bounds the memory and leaves nothing to swap. -/
def withMemory (s : Spec) (bytes : Nat) : Spec := { s with memory := bytes, memorySwap := bytes }

def withLabel (s : Spec) (key value : String) : Spec :=
  { s with labels := Dictionary.putSorted key value s.labels }

def withMount (s : Spec) (m : Mount) : Spec := { s with mounts := s.mounts ++ [m] }

def binds (s : Spec) : List String := s.mounts.map Mount.bind

/-- The specification as command line options. -/
def flags (s : Spec) : List String :=
  s.droppedCapabilities.flatMap (fun cap => ["--cap-drop", cap]) ++
  s.labels.flatMap (fun (key, value) => ["--label", key ++ "=" ++ value]) ++
  ["--memory", toString s.memory, "--memory-swap", toString s.memorySwap, "--net", s.network] ++
  (if s.autoRemove then ["--rm"] else []) ++
  s.binds.flatMap (fun bind => ["--volume", bind]) ++
  ["--user", s.user]

end Spec

/-! ## Section 1: Names -/

/-- May `c` stand in the name of a container? -/
def isNameChar (c : Char) : Bool := c.isAlphanum || c = '-' || c = '_' || c = '.'

/-- The name of the container of an engine on a channel; `id` makes it unique. -/
def nameFor (engine channel id : String) : String :=
  "belugas-engines-" ++
    String.ofList ((engine ++ "-" ++ channel).toList.map fun c => if isNameChar c then c else '-') ++
    "-" ++ id

/-- What messages say about a container. -/
structure Identity where
  name : String
  image : String
deriving DecidableEq, Repr

def Identity.display (i : Identity) : String := i.name ++ " (" ++ i.image ++ ")"

/-- What messages say about the container of a specification. -/
def Spec.identity (s : Spec) : Identity := { name := s.name, image := s.image.getD "" }

end StackSurvey.Container
