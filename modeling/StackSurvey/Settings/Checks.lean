import StackSurvey.Files.Disk
import StackSurvey.Settings.Environment

/-! # Checked settings

    Settings are used only after all `checks` have passed.  The first one that does not says
    what is wrong. -/

namespace StackSurvey

/-- A condition on settings. -/
structure SettingsCheck where
  field : String
  /-- What is wrong if the condition does not hold. -/
  reason : String
  holds : Settings → Bool

namespace Settings

def logLevels : List String := ["trace", "debug", "info", "warn", "error"]

def logFormats : List String := ["json", "pretty"]

def reportFormats : List String := ["json", "text"]

/-- The least bound on memory, in bytes. -/
def leastMemory : Nat := 4 * 1024 * 1024

/-- The greatest number of seconds. -/
def greatestTimeout : Nat := 24 * 3600

/-- The greatest number of bytes kept of the error channel. -/
def greatestErrorLimit : Nat := 16 * 1024 * 1024

/-- What stands before the first colon of a text and what stands after it. -/
def splitAtColon (text : String) : Option (String × String) :=
  let cs := text.toList
  match cs.dropWhile (· ≠ ':') with
  | [] => none
  | _ :: rest => some (String.ofList (cs.takeWhile (· ≠ ':')), String.ofList rest)

/-- Is a text the number of a user or group other than the first? -/
def isOrdinaryId (text : String) : Bool :=
  match Word.read? 32 text with
  | some n => n ≠ 0
  | none => false

/-- Is a text a pair of a user and a group, neither of which is the first? -/
def isOrdinaryUser (user : String) : Bool :=
  match splitAtColon user with
  | some (uid, gid) => isOrdinaryId uid && isOrdinaryId gid
  | none => false

/-- The reason against a text that is not in a list. -/
def oneOf (texts : List String) : String := "must be one of: " ++ String.intercalate ", " texts

/-- What settings must fulfil. -/
def checks : List SettingsCheck := [
  ⟨"general.log_level", oneOf logLevels, fun s => logLevels.contains s.log.level⟩,
  ⟨"general.log_format", oneOf logFormats, fun s => logFormats.contains s.log.format⟩,
  ⟨"runtime.memory_limit_bytes", "must be at least " ++ toString leastMemory,
    fun s => leastMemory ≤ s.container.memory⟩,
  ⟨"runtime.memory_limit_bytes", "value does not fit in a signed 64-bit integer",
    fun s => s.container.memory < Nat.pow 2 63⟩,
  ⟨"runtime.timeout_secs", "must be 1-" ++ toString greatestTimeout,
    fun s => 0 < s.container.timeout && s.container.timeout ≤ greatestTimeout⟩,
  ⟨"runtime.max_stderr_bytes", "must be 0-" ++ toString greatestErrorLimit,
    fun s => s.container.errorLimit ≤ greatestErrorLimit⟩,
  ⟨"runtime.tmp_host_dir", "tmp directories must not be empty",
    fun s => !s.container.hostDirectory.isEmpty && !s.container.directory.isEmpty⟩,
  ⟨"runtime.user", "must be a numeric non-root uid:gid pair",
    fun s => isOrdinaryUser s.container.user⟩,
  ⟨"output.format", oneOf reportFormats, fun s => reportFormats.contains s.report.format⟩,
  ⟨"output.max_findings_per_engine", "must be greater than 0", fun s => 0 < s.report.cap⟩]

/-- The first condition that settings do not fulfil. -/
def validate (s : Settings) : Except SettingsFault Unit :=
  match checks.find? fun c => !c.holds s with
  | some c => .error (.refused c.field c.reason)
  | none => .ok ()

/-- Settings pass if and only if they fulfil every condition. -/
theorem validate_eq_ok_iff {s : Settings} :
    s.validate = .ok () ↔ ∀ c ∈ checks, c.holds s = true := by
  unfold validate
  split
  · next c h =>
    constructor
    · intro hc; cases hc
    · intro hall
      have hn := List.find?_some h
      have hm := hall c (List.mem_of_find?_eq_some h)
      simp [hm] at hn
  · next h =>
    simp only [true_iff]
    intro c hc
    simpa using List.find?_eq_none.1 h c hc

def logFormatFault? (format : String) : Option String :=
  if logFormats.contains format then none
  else some ("unknown log format '" ++ format ++ "', expected 'json' or 'pretty'")

/-! ## Section 1: Loading -/

/-- The settings of a file, which have the defaults of an environment. -/
def ofFile (disk : Disk) (path : String) (env : Environment := []) :
    Except SurveyFailure Settings :=
  match disk.readText path with
  | .error .notFound => .error (.settings (.fileNotFound path))
  | .error fault => .error (.io fault.message)
  | .ok text => (parse text env).mapError .settings

/-- Settings that have been overridden by the environment and checked, and what the log says. -/
def settle (s : Settings) (env : Environment) : Except SurveyFailure Settings × List LogLine :=
  let (s, lines) := s.withEnvironment env
  ((s.validate.mapError .settings).map fun _ => s, lines)

/-- The settings of a file, overridden and checked. -/
def load (disk : Disk) (path : String) (env : Environment) :
    Except SurveyFailure Settings × List LogLine :=
  match ofFile disk path env with
  | .ok s => s.settle env
  | .error failure => (.error failure, [])

/-- The settings of a file or, if there is none, the usual ones, overridden and checked. -/
def loadOrDefault (disk : Disk) (path : String) (env : Environment) :
    Except SurveyFailure Settings × List LogLine :=
  match ofFile disk path env with
  | .ok s => s.settle env
  | .error (.settings (.fileNotFound _)) => settle (.usual env) env
  | .error failure => (.error failure, [])

end Settings
end StackSurvey
