import StackSurvey.Report.Basic

/-! # The report as data

    Nothing is written until the run has ended well; then the features found are written as one
    JSON document.  Failures are only remembered, and logged. -/

namespace StackSurvey.Report

/-- A report as data. -/
structure DataReport where
  text : String := ""
  cap : FindingCap
  failures : List String := []

namespace DataReport

/-- A report that wants at most `limit` findings of an engine. -/
def ofLimit (limit : Nat) : DataReport := { cap := .ofLimit limit }

def document (features : FeatureSet) : String := features.toJson.pretty ++ "\n"

def tell (notice : Notice) (r : DataReport) : DataReport :=
  match notice with
  | .running _ => { r with cap := r.cap.reset }
  | .finished features => { r with text := r.text ++ document features }
  | .started | .skipped _ | .ended _ _ => r

/-- Counts a finding. -/
def write (_ : Finding) (r : DataReport) : Bool × DataReport :=
  let (more, cap) := r.cap.accept
  (more, { r with cap })

def fail (message : String) (r : DataReport) : List LogLine × DataReport :=
  ([{ level := .error, message }], { r with failures := r.failures ++ [message] })

def reporter : Reporter DataReport where
  tell notice r := (.ok (), tell notice r)
  write := write
  fail := fail
  close := id

end DataReport
end StackSurvey.Report
