import StackSurvey.Report.Basic
import StackSurvey.Report.Style

/-! # The report for people

    Everything is written as it comes: the engines as they start and end, their findings below
    them, and the features found at the end. -/

namespace StackSurvey.Report

/-- A report for people. -/
structure TextReport where
  text : String := ""
  /-- Are colours wanted? -/
  colour : Bool := false
  cap : FindingCap
  /-- The number of findings of the engine that is running. -/
  findings : Nat := 0
  /-- The number of failures in the whole run. -/
  failures : Nat := 0

namespace TextReport

/-- A report that wants at most `limit` findings of an engine. -/
def ofLimit (colour : Bool) (limit : Nat) : TextReport := { colour, cap := .ofLimit limit }

def line (r : TextReport) (text : String) : TextReport := { r with text := r.text ++ text ++ "\n" }

def styled (r : TextReport) (s : Style) (text : String) : String := Report.styled r.colour s text

/-- The engines that have reported a feature. -/
def reportedBy (f : Feature) : String :=
  if f.engines.isEmpty then "" else " [" ++ String.intercalate ", " f.engines ++ "]"

/-- Writes a feature and who has reported it. -/
def feature (r : TextReport) (f : Feature) : TextReport :=
  r.line ("  " ++ f.display ++ r.styled .dimmed (reportedBy f))

def features (r : TextReport) (fs : List Feature) : TextReport :=
  let r := (r.line "").line (r.styled .bold "Detected features")
  let r := if fs.isEmpty then r.line "  (none)" else r
  fs.foldl feature r

/-- Warns of failures. -/
def warning (r : TextReport) : TextReport :=
  if r.failures = 0 then r
  else r.line (r.styled .yellow "Warning:" ++ " " ++ toString r.failures ++
    " invalid output report(s)")

def tell (notice : Notice) (r : TextReport) : TextReport :=
  match notice with
  | .started => r.line (r.styled .bold "Starting analysis")
  | .skipped e =>
    r.line (r.styled .yellow "Skipped" ++ " " ++ e.qualifiedName ++ " (run rules not met)")
  | .running e =>
    { r with cap := r.cap.reset, findings := 0 }.line
      ("Running " ++ r.styled .cyan e.qualifiedName ++ ":")
  | .ended e outcome =>
    r.line (r.styled .green "Done" ++ " " ++ e.qualifiedName ++ " (" ++ toString r.findings ++
      " features, " ++ outcome.duration.display ++ ")")
  | .finished set => (r.features set.features).warning

def write (x : Finding) (r : TextReport) : Bool × TextReport :=
  let r := { r with findings := r.findings + 1 }
  let r :=
    match x.feature? with
    | some f => r.line ("  " ++ r.styled .green "+" ++ " " ++ f.display)
    | none => r
  let (more, cap) := r.cap.accept
  (more, { r with cap })

def fail (message : String) (r : TextReport) : List LogLine × TextReport :=
  let r := { r with failures := r.failures + 1 }
  ([], r.line ("  " ++ r.styled .boldRed "error:" ++ " " ++ message))

def reporter : Reporter TextReport where
  tell notice r := (.ok (), tell notice r)
  write := write
  fail := fail
  close := id

end TextReport
end StackSurvey.Report
