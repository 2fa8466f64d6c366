import StackSurvey.Journal
import StackSurvey.Number.Word
import StackSurvey.Settings.Basic

/-! # Settings from the environment

    Variables of the environment go before the settings of the file.  Each of `overrides` is
    looked at in turn, so of two variables for one setting the later one wins.  A variable that
    is no text is passed over, and one that gives no number is passed over with a warning. -/

namespace StackSurvey

namespace Settings

/-- What a variable sets. -/
inductive Target where
  | text (set : Settings → String → Settings)
  /-- A number, called `kind` in warnings. -/
  | number (kind : String) (set : Settings → Nat → Settings)

/-- A variable and what it sets. -/
structure Override where
  name : String
  target : Target

/-- The width of the numbers among the settings. -/
def numberBits : Nat := 64

def setMemory : Target :=
  .number "u64" fun s memory => { s with container := { s.container with memory } }

def setTimeout : Target :=
  .number "u64" fun s timeout => { s with container := { s.container with timeout } }

/-- The variables, in the order in which they are looked at. -/
def overrides : List Override := [
  ⟨"BELUGAS_GENERAL_LOG_LEVEL", .text fun s level => { s with log := { s.log with level } }⟩,
  ⟨"BELUGAS_GENERAL_LOG_FORMAT", .text fun s format => { s with log := { s.log with format } }⟩,
  ⟨"BELUGAS_RUNTIME_DOCKER_SOCKET",
    .text fun s socket => { s with container := { s.container with socket } }⟩,
  ⟨"BELUGAS_RUNTIME_MEMORY_LIMIT_BYTES", setMemory⟩,
  ⟨"ENGINE_MEMORY_LIMIT_BYTES", setMemory⟩,
  ⟨"BELUGAS_RUNTIME_TIMEOUT_SECS", setTimeout⟩,
  ⟨"CONTAINER_TIMEOUT_SECONDS", setTimeout⟩,
  ⟨"BELUGAS_RUNTIME_TMP_HOST_DIR",
    .text fun s hostDirectory => { s with container := { s.container with hostDirectory } }⟩,
  ⟨"BELUGAS_RUNTIME_TMP_CONTAINER_DIR",
    .text fun s directory => { s with container := { s.container with directory } }⟩,
  ⟨"BELUGAS_RUNTIME_USER", .text fun s user => { s with container := { s.container with user } }⟩,
  ⟨"BELUGAS_OUTPUT_FORMAT", .text fun s format => { s with report := { s.report with format } }⟩,
  ⟨"BELUGAS_OUTPUT_MAX_FINDINGS_PER_ENGINE",
    .number "usize" fun s cap => { s with report := { s.report with cap } }⟩]

/-- What the log says of a variable that gives no number. -/
def overrideLine (name kind value : String) : LogLine :=
  { level := .warn, message := "failed to parse " ++ kind ++ " from env var, ignoring",
    fields := [("env_key", name), ("value", value)] }

/-- The settings after a variable has been looked at, and what the log says about it. -/
def Override.apply (o : Override) (env : Environment) (s : Settings) : Settings × List LogLine :=
  match env.text? o.name with
  | none => (s, [])
  | some value =>
    match o.target with
    | .text set => (set s value, [])
    | .number kind set =>
      match Word.read? numberBits value with
      | some n => (set s n, [])
      | none => (s, [overrideLine o.name kind value])

/-- The settings after variables have been looked at. -/
def applyAll (env : Environment) : List Override → Settings → Settings × List LogLine
  | [], s => (s, [])
  | o :: rest, s =>
    let (s, lines) := o.apply env s
    let (s, more) := applyAll env rest s
    (s, lines ++ more)

/-- The settings after the environment has been looked at, and what the log says about it. -/
def withEnvironment (s : Settings) (env : Environment) : Settings × List LogLine :=
  applyAll env overrides s

end Settings
end StackSurvey
