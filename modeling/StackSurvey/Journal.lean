import StackSurvey.Container.Outcome
import StackSurvey.Text.Quoted

/-! # The journal

    Everything a run tells the outside world apart from its report: log lines, measurements and
    the events of its containers, each in the order in which they come about. -/

namespace StackSurvey

open Container (Event)

/-! ## Section 1: Log lines -/

/-- How important a log line is. -/
inductive Level where
  | error
  | warn
  | info
  | debug
  | trace
deriving DecidableEq, Repr

def Level.name : Level → String
  | .error => "ERROR"
  | .warn => "WARN"
  | .info => "INFO"
  | .debug => "DEBUG"
  | .trace => "TRACE"

structure LogLine where
  level : Level
  message : String
  fields : List (String × String) := []
deriving DecidableEq, Repr

/-- A value that may be missing, as a log field shows it. -/
def showOption {α : Type} (render : α → String) : Option α → String
  | none => "None"
  | some x => "Some(" ++ render x ++ ")"

/-- The name of a truth value. -/
def showFlag (b : Bool) : String := if b then "true" else "false"

/-- What the log says about an event of an engine's container. -/
def Container.Event.logLines (engine : String) : Event → List LogLine
  | .started who =>
    [{ level := .info, message := "engine container started",
       fields := [("engine", engine), ("container", who.name), ("image", who.image)] }]
  | .output who chunk =>
    [{ level := .debug, message := "engine output",
       fields := [("engine", engine), ("container", who.name),
         ("output", Utf8.decodeLossy chunk)] }]
  | .finished who o =>
    { level := .info, message := "engine container finished",
      fields := [("engine", engine), ("container", who.name),
        ("exit_status", showOption toString o.exitStatus), ("stopped", showFlag o.stopped),
        ("duration_ms", toString o.duration.milliseconds)] } ::
    -- An engine that has done well is not reproached for what it wrote to its error channel.
    (if o.stderr.isEmpty then []
     else [{ level := .debug, message := "engine stderr",
             fields := [("engine", engine), ("stderr", o.stderr)] }])
  | .timedOut who o =>
    [{ level := .warn, message := "engine container timed out and was killed",
       fields := [("engine", engine), ("container", who.name),
         ("duration_secs", toString o.duration.seconds)] }]
  | .failed who o =>
    [{ level := .error, message := "engine container failed",
       fields := [("engine", engine), ("container", who.name),
         ("exit_status", showOption toString o.exitStatus),
         ("error", showOption Text.quote o.error), ("stderr", o.stderr)] }]

/-! ## Section 2: Measurements -/

inductive Metric where
  | runsStarted
  | runsFinished
  | runDuration
  | outputChunks
  | invalidOutputs
  | filteredOutputs
  | enginesSkipped
  | featuresDetected
deriving DecidableEq, Repr

namespace Metric

def all : List Metric :=
  [runsStarted, runsFinished, runDuration, outputChunks, invalidOutputs, filteredOutputs,
    enginesSkipped, featuresDetected]

def name : Metric → String
  | runsStarted => "belugas_engine_runs_started_total"
  | runsFinished => "belugas_engine_runs_finished_total"
  | runDuration => "belugas_engine_run_duration_seconds"
  | outputChunks => "belugas_engine_output_chunks_total"
  | invalidOutputs => "belugas_engine_invalid_outputs_total"
  | filteredOutputs => "belugas_engine_filtered_outputs_total"
  | enginesSkipped => "belugas_run_engines_skipped_total"
  | featuresDetected => "belugas_run_features_detected"

def description : Metric → String
  | runsStarted => "Number of engine containers started"
  | runsFinished => "Number of engine containers finished, by result"
  | runDuration => "Engine container wall-clock run time in seconds"
  | outputChunks => "NUL-delimited output chunks received from engines"
  | invalidOutputs => "Engine outputs rejected by validation"
  | filteredOutputs => "Engine outputs suppressed by the output filter"
  | enginesSkipped => "Engines skipped because their run rules were not met"
  | featuresDetected => "Distinct features in the accumulated result set"

/-- How the measurements of a metric add up. -/
inductive Kind where
  | counter
  | gauge
  | histogram
deriving DecidableEq, Repr

def kind : Metric → Kind
  | runDuration => .histogram
  | featuresDetected => .gauge
  | _ => .counter

def Kind.name : Kind → String
  | .counter => "counter"
  | .gauge => "gauge"
  | .histogram => "histogram"

/-- The label of an engine: its qualified name with points for colons. -/
def engineLabel (qualified : String) : String :=
  String.ofList (qualified.toList.map fun c => if c = ':' then '.' else c)

end Metric

/-- The result under which a finished container is counted. -/
inductive RunResult where
  | success
  | error
  | timeout
deriving DecidableEq, Repr

def RunResult.name : RunResult → String
  | .success => "success"
  | .error => "error"
  | .timeout => "timeout"

/-- One measurement.  Where it is about an engine, `engine` is the engine's label. -/
inductive Measurement where
  | runStarted (engine : String)
  | runFinished (engine : String) (result : RunResult)
  | runLasted (engine : String) (duration : Duration)
  | outputChunk (engine : String)
  | invalidOutput (engine : String)
  | filteredOutput (engine : String)
  | engineSkipped (engine : String)
  | featuresDetected (count : Nat)
deriving DecidableEq

namespace Measurement

def metric : Measurement → Metric
  | runStarted _ => .runsStarted
  | runFinished _ _ => .runsFinished
  | runLasted _ _ => .runDuration
  | outputChunk _ => .outputChunks
  | invalidOutput _ => .invalidOutputs
  | filteredOutput _ => .filteredOutputs
  | engineSkipped _ => .enginesSkipped
  | featuresDetected _ => .featuresDetected

/-- The labels of a measurement, names ascending. -/
def labels : Measurement → List (String × String)
  | runFinished engine result => [("engine", engine), ("result", result.name)]
  | featuresDetected _ => []
  | runStarted engine | runLasted engine _ | outputChunk engine | invalidOutput engine
  | filteredOutput engine | engineSkipped engine => [("engine", engine)]

/-- Measurements of the end of a container. -/
def ofEnd (engine : String) (o : Container.Outcome) (result : RunResult) : List Measurement :=
  [.runFinished engine result, .runLasted engine o.duration]

/-- What is measured at an event of an engine's container. -/
def ofEvent (engine : String) : Event → List Measurement
  | .started _ => [.runStarted engine]
  | .output _ _ => [.outputChunk engine]
  | .finished _ o => ofEnd engine o .success
  | .timedOut _ o => ofEnd engine o .timeout
  | .failed _ o => ofEnd engine o .error

end Measurement

/-! ## Section 3: The journal -/

/-- What a run has told the outside world. -/
structure Journal where
  logs : List LogLine := []
  measurements : List Measurement := []
  events : List Event := []

namespace Journal

def log (j : Journal) (line : LogLine) : Journal := { j with logs := j.logs ++ [line] }

def measure (j : Journal) (m : Measurement) : Journal :=
  { j with measurements := j.measurements ++ [m] }

/-- Appends an event of the container of the engine with that qualified name, with what the log
    and the measurements say about it. -/
def observe (j : Journal) (engine : String) (e : Event) : Journal :=
  { logs := j.logs ++ e.logLines engine
    measurements := j.measurements ++ Measurement.ofEvent (Metric.engineLabel engine) e
    events := j.events ++ [e] }

def count (j : Journal) (m : Measurement) : Nat := j.measurements.count m

/-- The durations measured for an engine. -/
def durations (j : Journal) (engine : String) : List Duration :=
  j.measurements.filterMap fun
    | .runLasted e d => if e = engine then some d else none
    | _ => none

end Journal
end StackSurvey
