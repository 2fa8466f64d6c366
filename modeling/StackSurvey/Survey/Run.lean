import StackSurvey.Report.Basic
import StackSurvey.Survey.Failure

/-! # Surveys

    A survey runs engines one after the other.  An engine whose rules are not met is skipped;
    the others get the features found before them, and what they find is merged into these.  The
    first failure of an engine or a reporter ends the survey, and the reporter is closed in any
    case. -/

namespace StackSurvey

open Report (Notice Reporter)

/-! ## Section 1: Plans -/

/-- Engines to run in order, no two of which share a qualified name. -/
structure Plan where
  engines : List Engine
  distinct : (engines.map Engine.qualifiedName).Nodup

namespace Plan

/-- The first name of a list that has come before. -/
def firstRepeated (seen : List String) : List String → Option String
  | [] => none
  | name :: rest => if name ∈ seen then some name else firstRepeated (name :: seen) rest

theorem firstRepeated_eq_none {seen names : List String} :
    firstRepeated seen names = none ↔ names.Nodup ∧ ∀ n ∈ names, n ∉ seen := by
  induction names generalizing seen with
  | nil => simp [firstRepeated]
  | cons name rest ih =>
    unfold firstRepeated
    split
    · next h => simp [h]
    · next h =>
      rw [ih, List.nodup_cons]
      constructor
      · rintro ⟨hr, hs⟩
        refine ⟨⟨fun hn => hs name hn (by simp), hr⟩, ?_⟩
        intro n hn
        rcases List.mem_cons.1 hn with rfl | hn
        · exact h
        · exact fun hm => hs n hn (by simp [hm])
      · rintro ⟨⟨hn, hr⟩, hs⟩
        refine ⟨hr, fun n hm hc => ?_⟩
        rcases List.mem_cons.1 hc with rfl | hc
        · exact hn hm
        · exact hs n (by simp [hm]) hc

/-- The plan to run engines, unless a name is repeated. -/
def ofEngines (engines : List Engine) : Except PlanFault Plan :=
  match h : firstRepeated [] (engines.map Engine.qualifiedName) with
  | some name => .error (.repeatedEngine name)
  | none => .ok ⟨engines, (firstRepeated_eq_none.1 h).1⟩

end Plan

/-! ## Section 2: Gathering findings -/

/-- What an engine has reported, on its way to a reporter. -/
structure Gathering (φ : Type) where
  report : φ
  features : List Feature := []

/-- Keeps the features of an engine and passes its findings on to a reporter. -/
def Gathering.sink {φ : Type} (reporter : Reporter φ) : Sink (Gathering φ) where
  write x g :=
    let (more, report) := reporter.write x g.report
    -- A feature is kept even if the reporter declines it: it was found all the same.
    (more, { report, features := g.features ++ x.feature?.toList })
  fail message g :=
    let (lines, report) := reporter.fail message g.report
    (lines, { g with report })

/-! ## Section 3: Running a plan -/

namespace Survey

variable {ρ φ : Type}

def tell (reporter : Reporter φ) (notice : Notice) (report : φ) : Except SurveyFailure Unit × φ :=
  let (result, report) := reporter.tell notice report
  (result.mapError .io, report)

def skipLine (e : Engine) : LogLine :=
  { level := .warn, message := "run rules not met, skipping engine",
    fields := [("engine", e.qualifiedName), ("rules", e.rules.display)] }

def skip (reporter : Reporter φ) (e : Engine) (w : World ρ) (report : φ) :
    Except SurveyFailure Unit × World ρ × φ :=
  let w := (w.log (skipLine e)).measure (.engineSkipped (Metric.engineLabel e.qualifiedName))
  let (result, report) := tell reporter (.skipped e) report
  (result, w, report)

/-- What the log says of an engine that has ended well. -/
def endLine (e : Engine) (features : List Feature) (outcome : Container.Outcome) : LogLine :=
  { level := .info, message := "engine finished",
    fields := [("engine", e.qualifiedName), ("features", toString features.length),
      ("stopped", showFlag outcome.stopped)] }

/-- Runs an engine, and notes in the history what it has found. -/
def runEngine (rt : Container.Runtime ρ) (reporter : Reporter φ) (o : EngineOptions) (e : Engine)
    (h : RunHistory) (w : World ρ) (report : φ) :
    Except SurveyFailure RunHistory × World ρ × φ :=
  match tell reporter (.running e) report with
  | (.error failure, report) => (.error failure, w, report)
  | (.ok _, report) =>
    match e.run rt (Gathering.sink reporter) o h.features w { report } with
    -- What an engine has reported before it failed is not merged.
    | (.error failure, w, g) => (.error (.engine failure.fault), w, g.report)
    | (.ok outcome, w, g) =>
      let w := w.log (endLine e g.features outcome)
      let (result, report) := tell reporter (.ended e outcome) g.report
      (result.map fun _ => (h.record e.name).merge g.features, w, report)

def turn (rt : Container.Runtime ρ) (reporter : Reporter φ) (o : EngineOptions) (e : Engine)
    (h : RunHistory) (w : World ρ) (report : φ) :
    Except SurveyFailure RunHistory × World ρ × φ :=
  if e.canRun h then runEngine rt reporter o e h w report
  else
    let (result, w, report) := skip reporter e w report
    (result.map fun _ => h, w, report)

/-- Takes the turns of engines in order, as long as nothing fails. -/
def turns (rt : Container.Runtime ρ) (reporter : Reporter φ) (o : EngineOptions) :
    List Engine → RunHistory → World ρ → φ → Except SurveyFailure RunHistory × World ρ × φ
  | [], h, w, report => (.ok h, w, report)
  | e :: rest, h, w, report =>
    match turn rt reporter o e h w report with
    | (.error failure, w, report) => (.error failure, w, report)
    | (.ok h, w, report) => turns rt reporter o rest h w report

def startLine (count : Nat) : LogLine :=
  { level := .info, message := "analysis started", fields := [("engines", toString count)] }

def finishLine (count : Nat) : LogLine :=
  { level := .info, message := "analysis finished", fields := [("features", toString count)] }

/-- Ends a survey that has gone through all engines. -/
def finish (reporter : Reporter φ) (features : FeatureSet) (w : World ρ) (report : φ) :
    Except SurveyFailure FeatureSet × World ρ × φ :=
  let w := (w.measure (.featuresDetected features.size)).log (finishLine features.size)
  let (result, report) := tell reporter (.finished features) report
  (result.map fun _ => features, w, report)

/-- Runs engines, of which there must be some, without closing the reporter. -/
def runOpen (rt : Container.Runtime ρ) (reporter : Reporter φ) (o : EngineOptions) (p : Plan)
    (w : World ρ) (report : φ) : Except SurveyFailure FeatureSet × World ρ × φ :=
  if p.engines.isEmpty then (.error (.plan .noEngines), w, report)
  else
    match tell reporter .started report with
    | (.error failure, report) => (.error failure, w, report)
    | (.ok _, report) =>
      match turns rt reporter o p.engines {} (w.log (startLine p.engines.length)) report with
      | (.error failure, w, report) => (.error failure, w, report)
      | (.ok h, w, report) => finish reporter h.features w report

def run (rt : Container.Runtime ρ) (reporter : Reporter φ) (o : EngineOptions) (p : Plan)
    (w : World ρ) (report : φ) : Except SurveyFailure FeatureSet × World ρ × φ :=
  -- Reporters are closed after a failure too.
  let (result, w, report) := runOpen rt reporter o p w report
  (result, w, reporter.close report)

end Survey
end StackSurvey
