import StackSurvey.Journal

/-! # Measurements as lines of text

    The measurements of a run are shown by metric and labels: how often something was counted,
    the latest value of a gauge, or all the durations in seconds. -/

namespace StackSurvey

namespace Measurement

/-- A number of milliseconds as seconds with six places. -/
def secondsText (d : Duration) : String :=
  let rest := toString (d.milliseconds % 1000)
  toString d.seconds ++ "." ++ String.ofList (List.replicate (3 - rest.length) '0') ++ rest ++
    "000"

/-- The value of a measurement on its own. -/
def valueText : Measurement → String
  | runLasted _ d => secondsText d
  | featuresDetected n => toString n
  | _ => toString 1

/-- The value of measurements of one kind. -/
def groupText (ms : List Measurement) : Metric.Kind → String
  | .counter => toString ms.length
  | .gauge => ((ms.getLast?).map valueText).getD ""
  | .histogram => String.intercalate " " (ms.map valueText)

/-- The labels in braces. -/
def labelText (m : Measurement) : String :=
  "\x7b" ++ String.intercalate "," (m.labels.map fun (k, v) => k ++ "=" ++ v) ++ "\x7d"

/-- What measurements must share to be shown together. -/
def key (m : Measurement) : String × String := (m.metric.name, m.labelText)

/-- Adds a key to an ascending list without repetitions. -/
def insertKey (k : String × String) : List (String × String) → List (String × String)
  | [] => [k]
  | h :: rest =>
    if h = k then h :: rest
    else if k.1 < h.1 || (k.1 = h.1 && k.2 < h.2) then k :: h :: rest
    else h :: insertKey k rest

/-- The line for measurements that are shown together. -/
def groupLine (ms : List Measurement) : String :=
  match ms with
  | [] => ""
  | m :: _ =>
    m.metric.kind.name ++ " " ++ m.metric.name ++ m.labelText ++ " " ++ groupText ms m.metric.kind

end Measurement

/-- The measurements of a journal as lines, by metric and labels. -/
def Journal.exposition (j : Journal) : List String :=
  let keys := j.measurements.foldl (fun ks m => Measurement.insertKey m.key ks) []
  keys.map fun k => Measurement.groupLine (j.measurements.filter fun m => m.key = k)

end StackSurvey
