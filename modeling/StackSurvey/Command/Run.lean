import StackSurvey.Command.Failure
import StackSurvey.CommandLine.Invocation
import StackSurvey.Registry.Listing
import StackSurvey.Report.Data
import StackSurvey.Report.Text
import StackSurvey.Settings.Checks
import StackSurvey.Survey.Run

/-! # Running commands

    A command is run on a host, which has files, an environment and something that runs
    containers.  The answer is what the command has written and how it has ended. -/

namespace StackSurvey.Command

open CommandLine (Analysis Format Invocation Listing Task)

/-- What a command finds around it. -/
structure Host (ρ : Type) where
  disk : Disk
  environment : Environment := []
  names : Names
  /-- Are colours wanted in reports for people? -/
  colour : Bool := false
  runtime : Container.Runtime ρ
  /-- Finds what runs containers behind a socket. -/
  connect : String → Except Container.RuntimeFailure ρ
  /-- Asks whether it is there. -/
  ping : ρ → Except Container.RuntimeFailure Unit × ρ

/-- What becomes of a command. -/
structure Result (ρ : Type) where
  outcome : Except CommandFailure Unit
  output : String := ""
  logs : List LogLine := []
  /-- What runs containers, if it was found. -/
  runtime : Option ρ := none

namespace Host

variable {ρ : Type}

/-! ## Section 1: Listing the engines -/

def list (host : Host ρ) (l : Listing) : Result ρ :=
  match Registry.load host.disk l.registry with
  | .error fault => { outcome := .error (.ofRegistry fault) }
  | .ok registry =>
    { outcome := .ok ()
      output :=
        match l.format with
        | .text => registry.table host.colour
        | .json => registry.listing }

/-! ## Section 2: Analysing a project -/

def sourceDirectory (disk : Disk) (path : String) : Except CommandFailure String :=
  match disk.canonical path with
  | .error fault => .error (.command ("cannot access " ++ path ++ ": " ++ fault.message))
  | .ok resolved =>
    if disk.isDirectory resolved then .ok resolved
    else .error (.command (resolved ++ " is not a directory"))

/-- The format asked for, or else that of the settings. -/
def resolveFormat (requested : Option Format) (s : ReportSettings) :
    Except CommandFailure Format :=
  match requested with
  | some format => .ok format
  | none =>
    match Format.ofName? s.format with
    | some format => .ok format
    | none =>
      .error (.settings ("unknown output format '" ++ s.format ++ "', expected 'json' or 'text'"))

/-- What an analysis needs before anything is run. -/
structure Preparation where
  codePath : String
  label : String
  engines : List Engine
  names : Names

/-- The label of an analysis, a fresh name unless one is given. -/
def labelFor (host : Host ρ) (label : Option String) : String × Names :=
  match label with
  | some label => (label, host.names)
  | none => host.names.take

/-- Reads the registry, finds the project and chooses the engines. -/
def prepare (host : Host ρ) (a : Analysis) : Except CommandFailure Preparation := do
  let registry ← (Registry.load host.disk a.registry).mapError .ofRegistry
  let codePath ← sourceDirectory host.disk a.path
  let (label, names) := host.labelFor a.label
  let engines ← (registry.build codePath label a.engines).mapError fun fault =>
    .survey (.plan fault)
  return { codePath, label, engines, names }

/-- What the log says before an analysis. -/
def startLine (p : Preparation) : LogLine :=
  { level := .info, message := "starting analysis",
    fields := [("path", p.codePath), ("label", p.label),
      ("engines", toString p.engines.length)] }

/-- Runs a plan with a reporter; `written` is what the reporter has written in the end. -/
def runPlan {φ : Type} (host : Host ρ) (reporter : Report.Reporter φ) (report : φ)
    (written : φ → String) (o : EngineOptions) (plan : Plan) (w : World ρ) : Result ρ :=
  let (result, w, report) := Survey.run host.runtime reporter o plan w report
  let lines :=
    match result with
    | .ok features =>
      [{ level := .info, message := "analysis complete",
         fields := [("features", toString features.size)] }]
    | .error _ => []
  -- The output is kept also if the survey fails: the report may have been begun.
  { outcome := (result.mapError .survey).map fun _ => ()
    output := written report
    logs := w.journal.logs ++ lines
    runtime := some w.runtime }

/-- Runs the engines of an analysis. -/
def runEngines (host : Host ρ) (s : Settings) (format : Format) (p : Preparation)
    (logs : List LogLine) (runtime : ρ) : Result ρ :=
  match Plan.ofEngines p.engines with
  | .error fault =>
    { outcome := .error (.survey (.plan fault)), logs, runtime := some runtime }
  | .ok plan =>
    let w : World ρ := { disk := host.disk, names := p.names, journal := { logs }, runtime }
    match format with
    | .json =>
      host.runPlan Report.DataReport.reporter (.ofLimit s.report.cap) (·.text) s.engineOptions
        plan w
    | .text =>
      host.runPlan Report.TextReport.reporter (.ofLimit host.colour s.report.cap) (·.text)
        s.engineOptions plan w

/-- Runs the engines of an analysis once what runs containers has been found. -/
def runConnected (host : Host ρ) (s : Settings) (a : Analysis) (p : Preparation) (runtime : ρ) :
    Result ρ :=
  match host.ping runtime with
  | (.error failure, runtime) =>
    { outcome := .error (.ofRuntime failure), logs := [startLine p], runtime := some runtime }
  | (.ok _, runtime) =>
    let logs := [startLine p, { level := .debug, message := "docker daemon reachable" }]
    match resolveFormat a.format s.report with
    | .error failure => { outcome := .error failure, logs, runtime := some runtime }
    | .ok format => host.runEngines s format p logs runtime

def analyse (host : Host ρ) (s : Settings) (a : Analysis) : Result ρ :=
  match host.prepare a with
  | .error failure => { outcome := .error failure }
  | .ok p =>
    match host.connect s.container.socket with
    | .error failure => { outcome := .error (.ofRuntime failure), logs := [startLine p] }
    | .ok runtime => host.runConnected s a p runtime

/-! ## Section 3: Invocations -/

/-- Runs a command with settings. -/
def perform (host : Host ρ) (s : Settings) : Task → Result ρ
  | .analyse a => host.analyse s a
  | .list l => host.list l

/-- Runs what a command line asks for. -/
def execute (host : Host ρ) (i : Invocation) : Result ρ :=
  match Settings.loadOrDefault host.disk i.settings host.environment with
  | (.error failure, logs) => { outcome := .error (.survey failure), logs }
  | (.ok s, logs) =>
    let r := host.perform s i.task
    { r with logs := logs ++ r.logs }

end Host
end StackSurvey.Command
