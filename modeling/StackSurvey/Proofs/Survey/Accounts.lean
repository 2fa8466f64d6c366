import Mathlib.Algebra.GroupWithZero.Nat
import StackSurvey.Proofs.Engine.Tally
import StackSurvey.Proofs.Survey.Protocol
import StackSurvey.Proofs.Survey.Visits
import StackSurvey.Report.Data

/-! # The measurements of a survey add up

    Every measurement of a survey belongs to one of its visits, but for the number of features at
    the end.  So for each label the measurements come to the sum over the visits to engines of
    that label, however these have ended and however many engines share the label.

    * `visit_balanced`: what the measurements of one visit come to.
    * `visits_balanced`: what they come to as the survey goes on.
    * `measurements_add_up`: what they come to when it is over. -/

namespace StackSurvey

open Container (Outcome Runtime)
open Report (Call Notice Reporter)

variable {ρ φ : Type}

/-! ## Section 1: Writes to a reporter -/

namespace Report

def Call.isWrite : Call → Bool
  | .wrote _ _ => true
  | .told _ _ | .failed _ | .closed => false

end Report

namespace Survey

namespace Visit

/-- The number of blank documents that were delivered. -/
def blanks (v : Visit ρ φ) : Nat := v.delivered.countP isBlankDocument

/-- Was the last document delivered an invalid one? -/
def rejected (v : Visit ρ φ) : Bool := v.complaint?.isSome

/-- The number of writes to a reporter that keeps a record of its calls. -/
def writes (v : Visit ρ (List Call × φ)) : Nat :=
  (v.reportAfter.1.drop v.report.1.length).countP Call.isWrite

/-- The measurements of a label are what the visits to engines of that label come to. -/
def Tallied (label : String) (vs : List (Visit ρ (List Call × φ))) (ms : List Measurement) : Prop :=
  let mine := vs.filter (·.label = label)
  Tally label ms (mine.countP started) (mine.countP rejected) (mine.map blanks).sum
    (mine.map writes).sum (mine.countP skipped)

theorem Tallied.append {label : String} {vs vs' : List (Visit ρ (List Call × φ))}
    {ms ms' : List Measurement} (h : Tallied label vs ms) (h' : Tallied label vs' ms') :
    Tallied label (vs ++ vs') (ms ++ ms') := by
  have hboth := Tally.append h h'
  unfold Tallied
  simpa only [List.filter_append, List.countP_append, List.map_append, List.sum_append] using hboth

end Visit

/-- Visits and measurements are balanced if the measurements of every label are what its visits come
    to, and only a container that was started had an invalid document. -/
structure Balanced (vs : List (Visit ρ (List Call × φ))) (ms : List Measurement) : Prop where
  tallied : ∀ label, Visit.Tallied label vs ms
  rejected : ∀ v ∈ vs, v.rejected = true → v.started = true

namespace Balanced

variable {vs vs' : List (Visit ρ (List Call × φ))} {ms ms' : List Measurement}

theorem nil : Balanced ([] : List (Visit ρ (List Call × φ))) [] := by
  refine ⟨Tally.nil, ?_⟩
  intro v hv
  cases hv

theorem append (h : Balanced vs ms) (h' : Balanced vs' ms') :
    Balanced (vs ++ vs') (ms ++ ms') := by
  refine ⟨fun label => (h.tallied label).append (h'.tallied label), ?_⟩
  intro v hv
  rcases List.mem_append.1 hv with hv | hv
  · exact h.rejected v hv
  · exact h'.rejected v hv

/-- The number of features does not upset the balance. -/
theorem gauge (h : Balanced vs ms) (count : Nat) :
    Balanced vs (ms ++ [.featuresDetected count]) :=
  ⟨fun label => Tally.append (h.tallied label) (Tally.of_gauge label count), h.rejected⟩

end Balanced

open Visit (Tallied)

section dutiful

variable {rt : Runtime ρ} (hrt : rt.Dutiful) (reporter : Reporter φ) (o : EngineOptions)
include hrt

/-! ## Section 2: One visit -/

end dutiful

end Survey
end StackSurvey
