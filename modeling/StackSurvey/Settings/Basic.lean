import StackSurvey.Engine.Basic
import StackSurvey.Survey.Failure
import StackSurvey.Text.Utf8

/-! # Settings

    Settings come in three sections, and whatever is left out has a default.  Where artifacts go
    by default is for the environment to say. -/

namespace StackSurvey

abbrev Environment : Type := Dictionary Bytes

namespace Environment

/-- The value of a variable, if it is a text. -/
def text? (env : Environment) (name : String) : Option String :=
  (Dictionary.get? name env).bind fun bytes => (Utf8.decode bytes).toOption

/-- Where temporary files go. -/
def temporaryDirectory (env : Environment) : String :=
  match Dictionary.get? "TMPDIR" env with
  | some bytes => Utf8.decodeLossy bytes
  | none => "/tmp"

/-- Where artifacts go unless the settings say otherwise. -/
def artifactDirectory (env : Environment) : String := Path.join env.temporaryDirectory "belugas"

end Environment

structure LogSettings where
  level : String := "info"
  format : String := "pretty"
deriving DecidableEq

/-- How containers are run.  The defaults are those of an environment without variables. -/
structure ContainerSettings where
  /-- The socket of the daemon; the usual one if empty. -/
  socket : String := ""
  /-- Bytes. -/
  memory : Nat := Container.defaultMemoryLimit
  /-- Seconds. -/
  timeout : Nat := 900
  /-- The directory for artifacts as the host of the containers sees it. -/
  hostDirectory : String := Environment.artifactDirectory []
  /-- The same directory as this process sees it. -/
  directory : String := Environment.artifactDirectory []
  user : String := Container.defaultUser
  /-- Bytes. -/
  errorLimit : Nat := Container.defaultErrorLimit
deriving DecidableEq

/-- The defaults in an environment. -/
def ContainerSettings.usual (env : Environment) : ContainerSettings :=
  { hostDirectory := env.artifactDirectory, directory := env.artifactDirectory }

structure ReportSettings where
  format : String := "json"
  /-- The number of findings wanted of an engine. -/
  cap : Nat := 10000
deriving DecidableEq

structure Settings where
  log : LogSettings := {}
  container : ContainerSettings := {}
  report : ReportSettings := {}
deriving DecidableEq

namespace Settings

def usual (env : Environment) : Settings := { container := .usual env }

def logForm : Form LogSettings :=
  .record "GeneralConfig" [
    Form.field "log_level" .text fun s level => { s with level },
    Form.field "log_format" .text fun s format => { s with format }] {}

/-- The form of the settings of containers. -/
def containerForm (env : Environment) : Form ContainerSettings :=
  .record "RuntimeConfig" [
    Form.field "docker_socket" .text fun s socket => { s with socket },
    Form.field "memory_limit_bytes" (.natural "u64") fun s memory => { s with memory },
    Form.field "timeout_secs" (.natural "u64") fun s timeout => { s with timeout },
    Form.field "tmp_host_dir" .text fun s hostDirectory => { s with hostDirectory },
    Form.field "tmp_container_dir" .text fun s directory => { s with directory },
    Form.field "user" .text fun s user => { s with user },
    Form.field "max_stderr_bytes" (.natural "usize") fun s errorLimit => { s with errorLimit }]
    (.usual env)

def reportForm : Form ReportSettings :=
  .record "OutputConfig" [
    Form.field "format" .text fun s format => { s with format },
    Form.field "max_findings_per_engine" (.natural "usize") fun s cap => { s with cap }] {}

/-- The form of the settings, which have the defaults of an environment. -/
def form (env : Environment := []) : Form Settings :=
  .record "BelugasConfig" [
    Form.field "general" logForm fun s log => { s with log },
    Form.field "runtime" (containerForm env) fun s container => { s with container },
    Form.field "output" reportForm fun s report => { s with report }] (.usual env)

def toJson (s : Settings) : Json :=
  .object [
    ("general", .object [("log_level", .text s.log.level), ("log_format", .text s.log.format)]),
    ("runtime", .object [
      ("docker_socket", .text s.container.socket),
      ("memory_limit_bytes", .ofNat s.container.memory),
      ("timeout_secs", .ofNat s.container.timeout),
      ("tmp_host_dir", .text s.container.hostDirectory),
      ("tmp_container_dir", .text s.container.directory),
      ("user", .text s.container.user),
      ("max_stderr_bytes", .ofNat s.container.errorLimit)]),
    ("output", .object [
      ("format", .text s.report.format),
      ("max_findings_per_engine", .ofNat s.report.cap)])]

/-- The settings that a TOML text gives in an environment. -/
def parse (text : String) (env : Environment := []) : Except SettingsFault Settings :=
  ((form env).parseToml text).mapError fun fault => .malformed (fault.message text)

/-- What the engines of a run have in common. -/
def engineOptions (s : Settings) : EngineOptions :=
  { memory := s.container.memory
    timeout := .ofSeconds s.container.timeout
    user := s.container.user
    artifacts := ⟨s.container.hostDirectory, s.container.directory⟩
    errorLimit := s.container.errorLimit }

end Settings
end StackSurvey
