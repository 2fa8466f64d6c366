import StackSurvey.Container.Runtime
import StackSurvey.Engine.Basic
import StackSurvey.Engine.Failure
import StackSurvey.Finding.Filter
import StackSurvey.Names

/-! # Running an engine

    An engine gets its configuration and the features found so far as files, and writes
    documents.  Each document is judged: a blank or excluded one is passed over, a finding goes
    to a sink, and an invalid one ends the run.  The files are removed whatever happens. -/

namespace StackSurvey

/-! ## Section 1: Sinks -/

/-- Where findings go. -/
structure Sink (σ : Type) where
  /-- Takes a finding and says whether more are wanted. -/
  write : Finding → σ → Bool × σ
  /-- Learns of an invalid document; the answer is what the log says about it. -/
  fail : String → σ → List LogLine × σ

/-- A sink that remembers all it gets, and wants no more once `limit` findings are there. -/
structure Collection where
  limit : Option Nat := none
  findings : List Finding := []
  failures : List String := []

namespace Collection

def add (x : Finding) (c : Collection) : Bool × Collection :=
  let findings := c.findings ++ [x]
  let more := match c.limit with | none => true | some limit => findings.length < limit
  (more, { c with findings })

def sink : Sink Collection where
  write := add
  fail message c := ([], { c with failures := c.failures ++ [message] })

end Collection

/-! ## Section 2: Judging documents -/

/-- What becomes of a document. -/
inductive Verdict where
  | blank
  | invalid (message : String)
  | excluded
  | reported (x : Finding)

def Filter.judge (filter : Filter) (engine : String) (document : Bytes) : Verdict :=
  match Finding.ofBytes? document with
  | none => .blank
  | some x =>
    match x.message? with
    | some message => .invalid message
    | none => if filter.excludes x then .excluded else .reported (x.attributeTo engine)

/-! ## Section 3: The world of a run -/

/-- All that a run may change, what runs containers in a state `ρ`. -/
structure World (ρ : Type) where
  disk : Disk
  names : Names
  journal : Journal := {}
  runtime : ρ

namespace World

variable {ρ : Type}

/-- Takes a name that was not used before. -/
def freshName (w : World ρ) : String × World ρ :=
  let (name, names) := w.names.take
  (name, { w with names })

def log (w : World ρ) (line : LogLine) : World ρ := { w with journal := w.journal.log line }

def logAll (w : World ρ) (lines : List LogLine) : World ρ := lines.foldl log w

def measure (w : World ρ) (m : Measurement) : World ρ :=
  { w with journal := w.journal.measure m }

/-- Writes an artifact under a fresh name. -/
def writeArtifact (w : World ρ) (directory : MountedPath) (text : String) :
    Except ArtifactFailure MountedPath × World ρ :=
  let (name, w) := w.freshName
  let target := directory.join name
  let (result, lines, disk) := Artifact.write target (Utf8.encode text) w.disk
  (result.map fun _ => target, { w with disk }.logAll lines)

def discardArtifact (w : World ρ) (target : MountedPath) : World ρ :=
  let (lines, disk) := Artifact.discard target w.disk
  { w with disk }.logAll lines

end World

/-! ## Section 4: The run -/

/-- What is kept while an engine's container is followed. -/
structure Watch (σ : Type) where
  journal : Journal
  /-- The first failure that an event stood for. -/
  raised : Option EngineFailure := none
  sink : σ

namespace Engine

variable {ρ σ : Type}

/-- Takes a document, and says whether more are wanted. -/
def accept (e : Engine) (filter : Filter) (sink : Sink σ) (document : Bytes) (t : Watch σ) :
    Container.Control × Watch σ :=
  let engine := e.qualifiedName
  let label := Metric.engineLabel engine
  match filter.judge e.name document with
  | .blank => (.continue, t)
  | .invalid message =>
    let journal := (t.journal.measure (.invalidOutput label)).log
      { level := .warn, message := "invalid engine output",
        fields := [("engine", engine), ("error", message)] }
    -- The sink learns of the document, but an invalid one ends the run in any case.
    let (lines, s) := sink.fail (engine ++ " produced invalid output: " ++ message) t.sink
    (.stop, { t with journal := lines.foldl Journal.log journal, sink := s })
  | .excluded => (.continue, { t with journal := t.journal.measure (.filteredOutput label) })
  | .reported x =>
    let (more, s) := sink.write x t.sink
    let t := { t with sink := s }
    if more then (.continue, t)
    else
      (.stop, { t with
        journal := t.journal.log
          { level := .debug, message := "sink declined further output",
            fields := [("engine", engine)] } })

/-- Follows the engine's container. -/
def watcher (e : Engine) (o : EngineOptions) (sink : Sink σ) : Container.Watcher (Watch σ) where
  notice event t :=
    { t with
      journal := t.journal.observe e.qualifiedName event
      raised := t.raised.or (EngineFailure.ofEvent? e.qualifiedName (some o.timeout) event) }
  log line t := { t with journal := t.journal.log line }
  accept := e.accept (.ofConfig e.config) sink

def imageMessage (e : Engine) (reason : String) : String :=
  let channels :=
    " Available channels: " ++ Text.quoteList (Dictionary.names e.images.channels) ++ "."
  match e.image? with
  | some image =>
    "Unable to find image " ++ image ++ " for " ++ e.qualifiedName ++ ": " ++ reason ++ "." ++
      channels
  | none => "Unable to find an image for " ++ e.qualifiedName ++ "." ++ channels

/-- The failure of an engine whose container could not be run. -/
def failureOf (e : Engine) : Container.RuntimeFailure → EngineFailure
  | .imageRequired _ reason => .imageRequired (e.imageMessage reason)
  | cause => .runtime e.qualifiedName cause

/-- How an engine has ended whose container has been run, or not. -/
def conclude (e : Engine) (result : Except Container.RuntimeFailure Container.Outcome)
    (raised : Option EngineFailure) : Except EngineFailure Container.Outcome :=
  match result, raised with
  | .error cause, _ => .error (e.failureOf cause)
  | .ok _, some failure => .error failure
  | .ok outcome, none => .ok outcome

/-- Runs the engine's container, the artifacts being in place. -/
def runContainer (rt : Container.Runtime ρ) (sink : Sink σ) (e : Engine) (o : EngineOptions)
    (configFile featuresFile : MountedPath) (w : World ρ) (s : σ) :
    Except EngineFailure Container.Outcome × World ρ × σ :=
  let (id, w) := w.freshName
  let (result, runtime, t) :=
    rt.run w.disk (e.spec o configFile featuresFile id) (e.watcher o sink)
      (w.runtime, { journal := w.journal, sink := s })
  (e.conclude result t.raised, { w with runtime, journal := t.journal }, t.sink)

/-- What the log says before an engine's container is run. -/
def configLine (e : Engine) : LogLine :=
  { level := .debug, message := "engine config",
    fields := [("engine", e.qualifiedName), ("config", e.config.compact)] }

/-- Runs an engine on the features found so far. -/
def run (rt : Container.Runtime ρ) (sink : Sink σ) (e : Engine) (o : EngineOptions)
    (features : FeatureSet) (w : World ρ) (s : σ) :
    Except EngineFailure Container.Outcome × World ρ × σ :=
  match w.writeArtifact o.artifacts e.config.compact with
  | (.error cause, w) => (.error (.artifact cause), w, s)
  | (.ok configFile, w) =>
    match w.writeArtifact o.artifacts features.toJson.compact with
    -- The configuration was written already, and must not be left behind.
    | (.error cause, w) => (.error (.artifact cause), w.discardArtifact configFile, s)
    | (.ok featuresFile, w) =>
      let (result, w, s) :=
        runContainer rt sink e o configFile featuresFile (w.log e.configLine) s
      (result, (w.discardArtifact featuresFile).discardArtifact configFile, s)

end Engine
end StackSurvey
