import StackSurvey.Proofs.Survey.Visits
import StackSurvey.Report.Data

/-! # The report as data is all or nothing

    A survey that reports data writes one document if it gives back features, and nothing at all
    if it fails, wherever that happens.  What it remembers of invalid documents is what there is
    to be complained of in its visits.

    The proof goes by visits: none of them writes anything, and each adds its own complaint
    (`visit_complains`).  Only the last notice of a survey that has gone well writes. -/

namespace StackSurvey

open Container (Event Outcome Runtime)
open Report (DataReport)

/-- Calls write nothing into a report as data, and their complaints are remembered. -/
theorem Report.DataReport.replay_calls (calls : List SinkCall) (r : DataReport) :
    (reporter.sink.replay calls r).text = r.text ∧
      (reporter.sink.replay calls r).failures =
        r.failures ++ calls.filterMap SinkCall.complaint? := by
  -- By induction on the calls, of which only a failure is noted and none writes any text.
  induction calls generalizing r with
  | nil => exact ⟨rfl, (List.append_nil _).symm⟩
  | cons call rest ih =>
    obtain ⟨htext, hfailures⟩ := ih (reporter.sink.apply call r)
    cases call with
    | write x => exact ⟨htext, hfailures⟩
    | fail message =>
      refine ⟨htext, hfailures.trans ?_⟩
      show (r.failures ++ [message]) ++ _ = r.failures ++ message :: _
      rw [List.append_assoc]
      rfl

namespace Survey

variable {ρ φ : Type}

section dutiful

variable {rt : Runtime ρ} (hrt : rt.Dutiful) (o : EngineOptions)
include hrt

/-- **A visit adds its complaint to a report as data, and nothing else**: neither the stages of an
    engine nor its findings are written. -/
theorem visit_complains (e : Engine) (h : RunHistory) (w : World ρ) (report : DataReport) :
    let v := visit rt DataReport.reporter o e h w report
    v.reportAfter.text = report.text ∧
      v.reportAfter.failures =
        report.failures ++ ([v].filter Visit.launched).filterMap Visit.complaint? := by
  intro v
  rcases visit_cases DataReport.reporter o e h w report hrt with
    hskipped | hidle | ⟨-, outcome, report₁, chunks, houtcome, -, hheard⟩
  · have hlaunched : v.launched = false := by rw [Visit.launched, hskipped.attempt?]; rfl
    rw [hskipped.report, List.filter_cons_of_neg (by simp [hlaunched])]
    exact ⟨rfl, (List.append_nil _).symm⟩
  -- The container was not started, so no document was delivered.
  · have hnone : v.complaint? = none := Visit.complaint?_of_untold hidle.untold
    have hcomplaints : ([v].filter Visit.launched).filterMap Visit.complaint? = [] := by
      cases hlaunched : v.launched <;> simp [hlaunched, hnone]
    rw [hidle.report, hcomplaints, List.append_nil]
    exact ⟨rfl, rfl⟩
  · obtain ⟨-, -, a, -, hattempt, -, -⟩ := attempt_of_outcome houtcome
    have hlaunched : v.launched = true := by rw [Visit.launched, hattempt]; rfl
    let documents := e.heard (Gathering.sink DataReport.reporter) chunks { report := report₁ }
    obtain ⟨htext, hfailures⟩ := DataReport.replay_calls (documents.filterMap e.call?)
      (DataReport.reporter.tell (.running e) report).2
    have hcomplaints : (documents.filterMap e.call?).filterMap SinkCall.complaint? =
        ([v].filter Visit.launched).filterMap Visit.complaint? := by
      have hcomplaint : v.complaint? = documents.getLast?.bind e.complaint? := hheard.complaint?_eq
      rw [List.filterMap_filterMap]
      simp only [Engine.complaint?_call?]
      rw [Engine.heard_complaints, List.filter_cons_of_pos hlaunched, List.filter_nil, ← hcomplaint]
      cases hc : v.complaint? <;> simp [hc]
    rw [hcomplaints] at hfailures
    -- Being told of the end of an engine makes no difference to such a report.
    have hafter : v.reportAfter = v.reportAt DataReport.reporter documents := by
      rcases hheard.report_cases with hafter | hafter
      · exact hafter
      · exact hafter
    rw [hafter]
    exact ⟨htext, hfailures⟩

/-- As long as a survey is under way, nothing is written, and the failures are the complaints of
    the visits so far. -/
theorem visits_complain (engines : List Engine) (h : RunHistory) (w : World ρ) (m : Nat) :
    let vs := visits rt DataReport.reporter o engines h w (.ofLimit m)
    let t := turns rt DataReport.reporter o engines h w (.ofLimit m)
    t.2.2.text = "" ∧ t.2.2.failures = (vs.filter Visit.launched).filterMap Visit.complaint? := by
  refine turns_invariant (P := fun before _ (report : DataReport) => report.text = "" ∧
    report.failures = (before.filter Visit.launched).filterMap Visit.complaint?)
    rt DataReport.reporter o ?_ engines [] h w (.ofLimit m) ⟨rfl, rfl⟩
  rintro before e h w report ⟨hsilent, hsofar⟩
  obtain ⟨htext, hfailures⟩ := visit_complains hrt o e h w report
  refine ⟨htext.trans hsilent, hfailures.trans ?_⟩
  rw [hsofar, List.filter_append, List.filterMap_append]

/-- **The report as data is all or nothing.**  If the survey gives back features, the document for
    them has been written; if it fails, nothing has been written.  Either way it is remembered of
    each engine that was launched, in order, what there is to be complained of if the documents
    delivered have ended with an invalid one. -/
theorem report_all_or_nothing (p : Plan) (w : World ρ) (m : Nat) :
    let r := run rt DataReport.reporter o p w (.ofLimit m)
    let vs := itinerary rt DataReport.reporter o p w (.ofLimit m)
    r.2.2.text = (match r.1 with
      | .ok features => features.toJson.pretty ++ "\n"
      | .error _ => "") ∧
    r.2.2.failures = (vs.filter Visit.launched).filterMap Visit.complaint? := by
  intro r vs
  rcases run_course rt DataReport.reporter o p w (.ofLimit m) with
    ⟨-, hvisits, hrun⟩ | ⟨-, hvisits, reason, report₁, htell, -⟩ |
      ⟨-, report₁, htell, hvisits, hrun⟩
  · simp only [r, vs, hrun, hvisits]
    exact ⟨rfl, rfl⟩
  -- The report as data takes every notice.
  · cases htell
  · cases htell
    obtain ⟨htext, hfailures⟩ :=
      visits_complain hrt o p.engines {} (w.log (startLine p.engines.length)) m
    rcases hrun with ⟨failure, -, hrun⟩ | ⟨h, -, hrun⟩
    · simp only [r, vs, hrun, hvisits]
      exact ⟨htext, hfailures⟩
    · simp only [r, vs, hrun, hvisits]
      refine ⟨?_, hfailures⟩
      exact (congrArg (· ++ DataReport.document h.features) htext).trans (String.empty_append)

end dutiful

/-- The first engine ends with an invalid document, and the second one is skipped: the feature that
    was found before is written all the same. -/
theorem report_all_or_nothing_invalid_output :
    let o := Sample.options
    let scan := Sample.scan
    let lint := { Sample.lint with rules := { engines := ["scan"], features := ["Svn"] } }
    let script : Container.Script :=
      { frames := [Utf8.encode (Sample.document "Git" ++ "\x00[]")] }
    let w := Sample.world (Sample.rehearsal [("a", script)])
    ∃ (p : Plan) (features : FeatureSet), p.engines = [scan, lint] ∧
      let r := run Container.Rehearsal.runtime DataReport.reporter o p w (.ofLimit 5)
      r.1 = .ok features ∧ features.names = ["Git"] ∧
        r.2.2.text = features.toJson.pretty ++ "\n" ∧
        r.2.2.failures = ["scan:stable produced invalid output: output must be a JSON object"] := by
  intro o scan lint script w
  let p : Plan := ⟨[scan, lint], by decide +kernel⟩
  have hnames :
      (run Container.Rehearsal.runtime DataReport.reporter o p w (.ofLimit 5)).1.toOption.map
        FeatureSet.names = some ["Git"] := by decide +kernel
  have hcomplaints : ((itinerary Container.Rehearsal.runtime DataReport.reporter o p w
      (.ofLimit 5)).filter Visit.launched).filterMap Visit.complaint? =
        ["scan:stable produced invalid output: output must be a JSON object"] := by decide +kernel
  obtain ⟨htext, hfailures⟩ :=
    report_all_or_nothing Container.Rehearsal.streams.dutiful o p w 5
  rcases hr : (run Container.Rehearsal.runtime DataReport.reporter o p w (.ofLimit 5)).1 with
    failure | features <;> rw [hr] at hnames htext
  · cases hnames
  · exact ⟨p, features, rfl, hr, Option.some.inj hnames, htext, hfailures.trans hcomplaints⟩

end Survey
end StackSurvey
