import StackSurvey.Journal

/-! # What the journal keeps

    Log lines, measurements and events are kept apart: adding to one of them leaves the others
    as they are. -/

namespace StackSurvey.Journal

@[simp] theorem log_events (j : Journal) (line : LogLine) : (j.log line).events = j.events := rfl

@[simp] theorem measure_events (j : Journal) (m : Measurement) :
    (j.measure m).events = j.events := rfl

@[simp] theorem observe_events (j : Journal) (engine : String) (e : Container.Event) :
    (j.observe engine e).events = j.events ++ [e] := rfl

@[simp] theorem foldl_log_events (lines : List LogLine) (j : Journal) :
    (lines.foldl log j).events = j.events := by
  induction lines generalizing j with
  | nil => rfl
  | cons line rest ih => rw [List.foldl_cons, ih, log_events]

end StackSurvey.Journal
