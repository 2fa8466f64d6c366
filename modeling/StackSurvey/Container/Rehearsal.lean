import StackSurvey.Container.Runtime
import StackSurvey.Stream.CappedBuffer

/-! # Containers that follow a script

    A rehearsal runs no container.  It looks the image up in its scripts, plays back what the
    script says the container writes, and notes what it was asked to run together with the
    artifacts that were mounted. -/

namespace StackSurvey.Container

/-- Why a scripted container cannot be started. -/
inductive Refusal where
  | image (reason : String)
  | api (reason : String)
  | connection (reason : String)
deriving DecidableEq

/-- What a container is to do. -/
structure Script where
  refusal : Option Refusal := none
  /-- What it writes to its output, in pieces. -/
  frames : List Bytes := []
  /-- What it writes to its error channel, in pieces. -/
  stderr : List Bytes := []
  exitStatus : Option Int := some 0
  duration : Duration := {}
  timedOut : Bool := false
  error : Option String := none

structure Launch where
  spec : Spec
  /-- The text of each mounted artifact, by the path inside the container. -/
  artifacts : List (String × Option String)

/-- Scripts by image, and what has been asked for so far. -/
structure Rehearsal where
  scripts : Dictionary Script := []
  /-- The directory in which artifacts are found by the last part of their path. -/
  artifactDirectory : String
  launches : List Launch := []

namespace Rehearsal

def artifactText (r : Rehearsal) (disk : Disk) (m : Mount) : Option String :=
  match (Path.parts m.host).getLast? with
  | some name => (disk.readText (Path.join r.artifactDirectory name)).toOption
  | none => none

/-- Notes what is asked for.  The first mount is the project itself. -/
def note (r : Rehearsal) (disk : Disk) (spec : Spec) : Rehearsal :=
  let artifacts := (spec.mounts.drop 1).map fun m => (m.inside, r.artifactText disk m)
  { r with launches := r.launches ++ [{ spec, artifacts }] }

/-- Plays back the output of a container, as long as more is wanted. -/
def play {τ : Type} (w : Watcher τ) (who : Identity) :
    List Bytes → Splitter → τ → Control × Splitter × τ
  | [], s, t => (.continue, s, t)
  | frame :: frames, s, t =>
    match w.deliver who (s.push frame) t with
    | (.stop, s, t) => (.stop, s, t)
    | (.continue, s, t) => play w who frames s t

/-- What a container writes to its error channel, as far as it is kept. -/
def errorText (spec : Spec) (script : Script) : String :=
  (script.stderr.foldl CappedBuffer.push (.ofLimit spec.errorLimit)).text

/-- Plays back a script from start to end. -/
def perform {τ : Type} (spec : Spec) (script : Script) (w : Watcher τ) (t : τ) : Outcome × τ :=
  let who := spec.identity
  let (control, s, t) :=
    play w who script.frames (.ofDelimiter spec.delimiter) (w.notice (.started who) t)
  -- What is left over is handed out only at a natural end.
  let (control, _, t) :=
    if control = .stop || script.timedOut || script.error.isSome then (control, s, t)
    else w.deliverRest who s t
  let outcome : Outcome :=
    { exitStatus := script.exitStatus
      stderr := errorText spec script
      duration := script.duration
      timedOut := script.timedOut
      stopped := control = .stop
      error := script.error }
  (outcome, w.noticeOutcome who outcome t)

/-- Why a specification cannot be run, if the script says so or there is no image. -/
def failure? (r : Rehearsal) (spec : Spec) : Except RuntimeFailure Script :=
  match spec.image with
  | none => .error (.imageRequired spec.name "no image configured")
  | some image =>
    let script := (Dictionary.get? image r.scripts).getD {}
    match script.refusal with
    | none => .ok script
    | some (.image reason) => .error (.imageRequired spec.name reason)
    | some (.api reason) => .error (.api reason)
    | some (.connection reason) => .error (.connection reason)

/-- The runtime that follows scripts. -/
def runtime : Runtime Rehearsal where
  run disk spec w := fun (r, t) =>
    let r := r.note disk spec
    match r.failure? spec with
    | .error failure => (.error failure, (r, t))
    | .ok script =>
      let (outcome, t) := perform spec script w t
      (.ok outcome, (r, t))

end Rehearsal
end StackSurvey.Container
