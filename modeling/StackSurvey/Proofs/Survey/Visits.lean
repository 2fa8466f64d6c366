import Mathlib.Data.List.Chain
import StackSurvey.Proofs.Engine.Hearing

/-! # Visits

    A survey visits its engines one after the other.  A visit is the turn of an engine with all
    that there was before it and all that there is after it, and the itinerary of a survey is the
    list of its visits.  What a survey has told when it is over can be put down to visits in this
    way.

    * `Visit.launched`, `Visit.started`, `Visit.delivered` and others: what can be seen of a
      visit from outside.
    * `visit_cases`: what it comes to.  The engine is skipped, or its container is not started, or
      documents of the container are heard.
    * `first_turn`: how turns begin, on which the inductions over all visits rest.
    * `turns_invariant`: what every visit keeps holds of all visits in the end.
    * `turns_eq_last` and `visits_linked`: the turns end with what their last visit has ended with,
      and each visit goes on from there.  So the features that a survey gives are those of its
      last visit (`features_of_last_visit`). -/

namespace StackSurvey

open Container (Event Outcome Runtime)
open Report (Reporter)

/-- The bytes of a chunk of output that an event is about. -/
def Container.Event.output? : Event → Option Bytes
  | .output _ chunk => some chunk
  | .started _ | .finished _ _ | .timedOut _ _ | .failed _ _ => none

theorem Container.Event.output?_ofOutcome (who : Container.Identity) (outcome : Outcome) :
    (Event.ofOutcome who outcome).output? = none := by
  unfold Event.ofOutcome
  split
  · rfl
  · split <;> rfl

namespace Survey

variable {ρ φ : Type}

/-! ## Section 1: Visits -/

/-- The turn of an engine, with what was before it and what is after it. -/
structure Visit (ρ φ : Type) where
  engine : Engine
  history : RunHistory
  world : World ρ
  report : φ
  /-- What the runtime was asked to run, if it was asked. -/
  attempt? : Option (Attempt ρ)
  result : Except SurveyFailure RunHistory
  worldAfter : World ρ
  reportAfter : φ

namespace Visit

/-- Was the engine launched, so that the runtime was asked to run its container? -/
def launched (v : Visit ρ φ) : Bool := v.attempt?.isSome

/-- The outcome of the container of the engine, if it was started. -/
def outcome? (v : Visit ρ φ) : Option Outcome := v.attempt?.bind fun a => a.answer.toOption

def started (v : Visit ρ φ) : Bool := v.outcome?.isSome

def skipped (v : Visit ρ φ) : Bool := !v.engine.canRun v.history

def label (v : Visit ρ φ) : String := v.engine.metricLabel

def events (v : Visit ρ φ) : List Event :=
  v.worldAfter.journal.events.drop v.world.journal.events.length

def delivered (v : Visit ρ φ) : List Bytes := v.events.filterMap Event.output?

/-- What is to be said of the visit if the documents delivered have ended with an invalid one. -/
def complaint? (v : Visit ρ φ) : Option String := v.delivered.getLast?.bind v.engine.complaint?

/-- What the turn of the engine has come to. -/
def ending (v : Visit ρ φ) : Except SurveyFailure RunHistory × World ρ × φ :=
  (v.result, v.worldAfter, v.reportAfter)

/-- The second visit goes on from what the first one has ended with. -/
def LeadsTo (v v' : Visit ρ φ) : Prop := v.ending = (.ok v'.history, v'.world, v'.report)

/-- Nothing was delivered in a visit without events. -/
theorem delivered_of_untold {v : Visit ρ φ}
    (h : v.worldAfter.journal.events = v.world.journal.events) : v.delivered = [] := by
  rw [delivered, events, h, List.drop_length]
  rfl

/-- Nothing is complained of in a visit without events. -/
theorem complaint?_of_untold {v : Visit ρ φ}
    (h : v.worldAfter.journal.events = v.world.journal.events) : v.complaint? = none := by
  rw [complaint?, delivered_of_untold h]
  rfl

/-- The report after documents have been heard in the visit. -/
def reportAt (reporter : Reporter φ) (v : Visit ρ φ) (documents : List Bytes) : φ :=
  reporter.sink.replay (documents.filterMap v.engine.call?)
    (reporter.tell (.running v.engine) v.report).2

/-- What a visit comes to in which the engine may not run. -/
structure Skipped (v : Visit ρ φ) (reporter : Reporter φ) : Prop where
  skipped : v.skipped = true
  attempt? : v.attempt? = none
  measurements : v.worldAfter.journal.measurements =
    v.world.journal.measurements ++ [.engineSkipped v.label]
  untold : v.worldAfter.journal.events = v.world.journal.events
  report : v.reportAfter = (reporter.tell (.skipped v.engine) v.report).2

/-- What a visit comes to in which the engine may run, but its container was not started. -/
structure Idle (v : Visit ρ φ) (reporter : Reporter φ) : Prop where
  skipped : v.skipped = false
  outcome? : v.outcome? = none
  failed : ∃ failure, v.result = .error failure
  measurements : v.worldAfter.journal.measurements = v.world.journal.measurements
  untold : v.worldAfter.journal.events = v.world.journal.events
  report : v.reportAfter = (reporter.tell (.running v.engine) v.report).2

/-- What a visit comes to in which the container was started, had that outcome, and was heard with
    these documents. -/
structure Heard (v : Visit ρ φ) (reporter : Reporter φ) (o : EngineOptions) (outcome : Outcome)
    (documents : List Bytes) : Prop where
  delivered : v.delivered = documents
  measurements : v.worldAfter.journal.measurements = v.world.journal.measurements ++
    (.runStarted v.label :: (documents.flatMap v.engine.measured ++
      Measurement.ofEnd v.label outcome (.ofOutcome outcome)))
  failed : ∀ failure, v.engine.ending o outcome = .error failure →
    v.result = .error (.engine failure.fault) ∧ v.reportAfter = v.reportAt reporter documents
  ended : v.engine.ending o outcome = .ok outcome →
    let ended := reporter.tell (.ended v.engine outcome) (v.reportAt reporter documents)
    v.result = (ended.1.mapError .io).map (fun _ => (v.history.record v.engine.name).merge
        (passed (documents.filterMap v.engine.call?))) ∧
      v.reportAfter = ended.2

namespace Heard

variable {reporter : Reporter φ} {o : EngineOptions} {v : Visit ρ φ} {outcome : Outcome}
  {documents : List Bytes} (h : v.Heard reporter o outcome documents)
include h

/-- The complaint of a visit in which documents were heard is about the last of them. -/
theorem complaint?_eq : v.complaint? = documents.getLast?.bind v.engine.complaint? := by
  rw [complaint?, h.delivered]

/-- After the documents the reporter is told of the end of the engine, or of nothing more. -/
theorem report_cases : v.reportAfter = v.reportAt reporter documents ∨
    v.reportAfter =
      (reporter.tell (.ended v.engine outcome) (v.reportAt reporter documents)).2 := by
  rcases hending : v.engine.ending o outcome with failure | outcome'
  · exact .inl (h.failed failure hending).2
  · obtain ⟨-, rfl⟩ := Engine.ending_eq_ok_iff.1 hending
    exact .inr (h.ended hending).2

end Heard

end Visit

/-- A survey gathers what is passed on, and its reporter gets the same calls. -/
theorem replay_gathering (reporter : Reporter φ) (calls : List SinkCall) (g : Gathering φ) :
    (Gathering.sink reporter).replay calls g =
      { report := reporter.sink.replay calls g.report, features := g.features ++ passed calls } := by
  -- By induction on the calls: the reporter gets them all, the gathering keeps the features of the
  -- writes.
  induction calls generalizing g with
  | nil => simp [Sink.replay, passed]
  | cons call rest ih =>
    show (Gathering.sink reporter).replay rest ((Gathering.sink reporter).apply call g) = _
    rw [ih]
    cases call with
    | write x =>
      cases hx : x.feature? <;>
        simp [Sink.replay, Sink.apply, Gathering.sink, Reporter.sink, passed, SinkCall.feature?, hx]
    | fail message =>
      have hpassed : passed (.fail message :: rest) = passed rest := List.filterMap_cons_none rfl
      rw [hpassed]
      rfl

section visiting

variable (rt : Runtime ρ) (reporter : Reporter φ) (o : EngineOptions)

/-- What the runtime is asked to run in a turn: something only if the engine may run, the
    reporter is ready for it, and the stage is set. -/
def attempt? (e : Engine) (h : RunHistory) (w : World ρ) (report : φ) : Option (Attempt ρ) :=
  if e.canRun h then
    match tell reporter (.running e) report with
    | (.error _, _) => none
    | (.ok _, report) => e.attempt? rt (Gathering.sink reporter) o h.features w { report }
  else none

/-- Visits an engine. -/
def visit (e : Engine) (h : RunHistory) (w : World ρ) (report : φ) : Visit ρ φ :=
  let r := turn rt reporter o e h w report
  { engine := e
    history := h
    world := w
    report
    attempt? := attempt? rt reporter o e h w report
    result := r.1
    worldAfter := r.2.1
    reportAfter := r.2.2 }

/-- Visits engines in order, as long as nothing fails. -/
def visits : List Engine → RunHistory → World ρ → φ → List (Visit ρ φ)
  | [], _, _, _ => []
  | e :: rest, h, w, report =>
    let v := visit rt reporter o e h w report
    match v.result with
    | .error _ => [v]
    | .ok h => v :: visits rest h v.worldAfter v.reportAfter

/-- The visits of a survey. -/
def itinerary (p : Plan) (w : World ρ) (report : φ) : List (Visit ρ φ) :=
  match tell reporter .started report with
  | (.error _, _) => []
  | (.ok _, report) =>
    visits rt reporter o p.engines {} (w.log (startLine p.engines.length)) report

/-! ## Section 2: What a visit comes to -/

section cases

variable {e : Engine} {h : RunHistory} (w : World ρ) (report : φ)

/-- An engine that may not run is only skipped. -/
theorem visit_skipped (hrun : ¬ e.canRun h = true) :
    (visit rt reporter o e h w report).Skipped reporter := by
  have hturn : turn rt reporter o e h w report =
      let w := (w.log (skipLine e)).measure (.engineSkipped e.metricLabel)
      let told := tell reporter (.skipped e) report
      (told.1.map fun _ => h, w, told.2) := by
    rw [turn, if_neg hrun]
    rfl
  constructor
  case skipped =>
    show (!e.canRun h) = true
    rw [Bool.not_eq_true] at hrun
    rw [hrun]
    rfl
  case attempt? => exact if_neg hrun
  case measurements => exact congrArg (fun r => r.2.1.journal.measurements) hturn
  case untold => exact congrArg (fun r => r.2.1.journal.events) hturn
  case report => exact congrArg (fun r => r.2.2) hturn

variable {report} in
/-- A run of the engine makes the visit, if the reporter is ready for it. -/
theorem visit_of_running (hrun : e.canRun h = true) {report₁ : φ}
    (htell : reporter.tell (.running e) report = (.ok (), report₁)) :
    let v := visit rt reporter o e h w report
    let r := e.run rt (Gathering.sink reporter) o h.features w { report := report₁ }
    v.attempt? = e.attempt? rt (Gathering.sink reporter) o h.features w { report := report₁ } ∧
      v.worldAfter.journal.record = r.2.1.journal.record ∧
      (∀ failure, r.1 = .error failure →
        v.result = .error (.engine failure.fault) ∧ v.reportAfter = r.2.2.report) ∧
      (∀ outcome, r.1 = .ok outcome →
        let ended := reporter.tell (.ended e outcome) r.2.2.report
        v.result = (ended.1.mapError .io).map
            (fun _ => (h.record e.name).merge r.2.2.features) ∧
          v.reportAfter = ended.2) := by
  have htold : tell reporter (.running e) report = (.ok (), report₁) := by
    simp only [tell, htell, Except.mapError]
  unfold visit turn attempt? runEngine
  rw [if_pos hrun, if_pos hrun, htold]
  dsimp only
  rcases e.run rt (Gathering.sink reporter) o h.features w { report := report₁ } with
    ⟨failure | outcome, w₁, g⟩
  · refine ⟨rfl, rfl, ?_, nofun⟩
    intro failure' hfailure
    cases hfailure
    exact ⟨rfl, rfl⟩
  · refine ⟨rfl, rfl, nofun, ?_⟩
    intro outcome' houtcome
    cases houtcome
    exact ⟨rfl, rfl⟩

theorem visit_not_skipped (hrun : e.canRun h = true) :
    (visit rt reporter o e h w report).skipped = false := by
  show (!e.canRun h) = false
  rw [hrun]
  rfl

variable {rt}

/-- An engine that may run but whose container is not started leaves no trace but a failure. -/
theorem visit_idle (hrt : rt.Dutiful) (hrun : e.canRun h = true)
    (houtcome : (visit rt reporter o e h w report).outcome? = none) :
    (visit rt reporter o e h w report).Idle reporter := by
  let v := visit rt reporter o e h w report
  have hskipped : v.skipped = false := visit_not_skipped rt reporter o w report hrun
  rcases htell : reporter.tell (.running e) report with ⟨reason | _, report₁⟩
  -- A reporter that is not ready ends the survey before the engine is run.
  · have hturn : turn rt reporter o e h w report = (.error (.io reason), w, report₁) := by
      have htold : tell reporter (.running e) report = (.error (.io reason), report₁) := by
        simp only [tell, htell, Except.mapError]
      rw [turn, if_pos hrun, runEngine, htold]
    have hreport : v.reportAfter = report₁ := congrArg (fun r => r.2.2) hturn
    constructor
    case skipped => exact hskipped
    case outcome? => exact houtcome
    case failed => exact ⟨_, congrArg Prod.fst hturn⟩
    case measurements => exact congrArg (fun r => r.2.1.journal.measurements) hturn
    case untold => exact congrArg (fun r => r.2.1.journal.events) hturn
    case report => exact hreport.trans (congrArg Prod.snd htell).symm
  · obtain ⟨hattempt, hrecord, hfailed, -⟩ := visit_of_running rt reporter o w hrun htell
    have hnone : ∀ a outcome,
        e.attempt? rt (Gathering.sink reporter) o h.features w { report := report₁ } = some a →
          a.answer ≠ .ok outcome := by
      intro a outcome ha hanswer
      have hsome : v.outcome? = some outcome := by
        simp only [Visit.outcome?, v, hattempt, ha, Option.bind_some, hanswer, Except.toOption]
      rw [houtcome] at hsome
      cases hsome
    obtain ⟨⟨failure, hfailure⟩, hsame, hsink⟩ := Engine.run_of_not_started hrt hnone
    obtain ⟨hresult, hreport⟩ := hfailed failure hfailure
    obtain ⟨hmeasured, hevents⟩ := Prod.mk.inj (hrecord.trans hsame)
    have htold : v.reportAfter = report₁ := hreport.trans (congrArg Gathering.report hsink)
    constructor
    case skipped => exact hskipped
    case outcome? => exact houtcome
    case failed => exact ⟨_, hresult⟩
    case measurements => exact hmeasured
    case untold => exact hevents
    case report => exact htold.trans (congrArg Prod.snd htell).symm

variable {reporter o w report}

/-- A container that was started has been attempted, and the reporter was ready for it. -/
theorem attempt_of_outcome {outcome : Outcome}
    (hstarted : (visit rt reporter o e h w report).outcome? = some outcome) :
    e.canRun h = true ∧ ∃ report₁ a, reporter.tell (.running e) report = (.ok (), report₁) ∧
      (visit rt reporter o e h w report).attempt? = some a ∧
      e.attempt? rt (Gathering.sink reporter) o h.features w { report := report₁ } = some a ∧
      a.answer = .ok outcome := by
  obtain ⟨a, ha, hanswer⟩ := Option.bind_eq_some_iff.1 hstarted
  have hok : a.answer = .ok outcome := by
    rcases hcase : a.answer with failure | outcome'
    · rw [hcase] at hanswer
      cases hanswer
    · rw [hcase] at hanswer
      exact congrArg _ (Option.some.inj hanswer)
  have hasked : attempt? rt reporter o e h w report = some a := ha
  -- Without a run, or with a refusal at its start, nothing was attempted.
  unfold attempt? at hasked
  split at hasked
  · next hrun =>
    rcases htell : reporter.tell (.running e) report with ⟨reason | _, report₁⟩ <;>
      simp only [tell, htell, Except.mapError] at hasked
    · cases hasked
    · exact ⟨hrun, report₁, a, rfl, ha, hasked, hok⟩
  · cases hasked

/-- What a run of the engine tells of its container, its visit comes to. -/
theorem visit_heard (hrun : e.canRun h = true) {report₁ : φ}
    (htell : reporter.tell (.running e) report = (.ok (), report₁)) {outcome : Outcome}
    {documents : List Bytes}
    (hending : (e.run rt (Gathering.sink reporter) o h.features w { report := report₁ }).1 =
      e.ending o outcome)
    (htells : let r := e.run rt (Gathering.sink reporter) o h.features w { report := report₁ }
      e.Tells (Gathering.sink reporter) outcome documents w.journal r.2.1.journal
        { report := report₁ } r.2.2) :
    (visit rt reporter o e h w report).Heard reporter o outcome documents := by
  let v := visit rt reporter o e h w report
  obtain ⟨-, hrecord, hfailed, hended⟩ := visit_of_running rt reporter o w hrun htell
  obtain ⟨hmeasured, hevents⟩ := Prod.mk.inj hrecord
  obtain ⟨who, htold⟩ := htells.events
  have hgathered := htells.sink.trans (replay_gathering reporter _ _)
  have hreport : reporter.sink.replay (documents.filterMap e.call?) report₁ =
      v.reportAt reporter documents := by
    simp only [Visit.reportAt, v, visit, htell]
  rw [hgathered] at hfailed hended
  rw [hending] at hfailed hended
  refine ⟨?_, ?_, ?_, ?_⟩
  · -- The events of the visit are those that were added: the start, the documents and the end.
    have hall : v.events = .started who :: (documents.map (.output who) ++
        [.ofOutcome who outcome]) := by
      show v.worldAfter.journal.events.drop w.journal.events.length = _
      rw [hevents, htold, List.drop_left]
    have hchunks : (documents.map (Event.output who)).filterMap Event.output? = documents := by
      simp [List.filterMap_map, Function.comp_def, Event.output?]
    show v.events.filterMap Event.output? = documents
    rw [hall, List.filterMap_cons_none rfl, List.filterMap_append, hchunks]
    simp [Event.output?_ofOutcome]
  · exact hmeasured.trans htells.measurements
  · intro failure hfailure
    rw [← hreport]
    exact hfailed failure hfailure
  · intro hok
    dsimp only
    rw [← hreport]
    exact hended outcome hok

/-- A visit in which the container was started tells of the documents that were heard. -/
theorem visit_started (hrt : rt.Dutiful) {outcome : Outcome}
    (hstarted : (visit rt reporter o e h w report).outcome? = some outcome) :
    ∃ report₁ chunks, reporter.tell (.running e) report = (.ok (), report₁) ∧
      (visit rt reporter o e h w report).Heard reporter o outcome
        (e.heard (Gathering.sink reporter) chunks { report := report₁ }) := by
  obtain ⟨hrun, report₁, a, htell, -, hattempt, hanswer⟩ := attempt_of_outcome hstarted
  obtain ⟨chunks, hending, htells⟩ := Engine.run_of_started hrt hattempt hanswer
  exact ⟨report₁, chunks, htell, visit_heard hrun htell hending htells⟩

variable (reporter o e h w report)

/-- **What a visit comes to**: the engine is skipped, or its container is not started, or the
    container is started and documents of it are heard. -/
theorem visit_cases (hrt : rt.Dutiful) :
    let v := visit rt reporter o e h w report
    v.Skipped reporter ∨ v.Idle reporter ∨
      v.skipped = false ∧ ∃ outcome report₁ chunks, v.outcome? = some outcome ∧
        reporter.tell (.running e) report = (.ok (), report₁) ∧
        v.Heard reporter o outcome
          (e.heard (Gathering.sink reporter) chunks { report := report₁ }) := by
  intro v
  by_cases hrun : e.canRun h = true
  · rcases houtcome : v.outcome? with _ | outcome
    · exact .inr (.inl (visit_idle reporter o w report hrt hrun houtcome))
    · obtain ⟨report₁, chunks, htell, hheard⟩ := visit_started hrt houtcome
      have hskipped : v.skipped = false := visit_not_skipped rt reporter o w report hrun
      exact .inr (.inr ⟨hskipped, outcome, report₁, chunks, rfl, htell, hheard⟩)
  · exact .inl (visit_skipped rt reporter o w report hrun)

end cases

/-! ## Section 3: All visits -/

/-- The first of several turns fails, and is the only one that is visited, or the others go on
    from what it has ended with. -/
theorem first_turn (e : Engine) (rest : List Engine) (h : RunHistory) (w : World ρ) (report : φ) :
    let v := visit rt reporter o e h w report
    (∃ failure, v.result = .error failure ∧ turns rt reporter o (e :: rest) h w report = v.ending ∧
        visits rt reporter o (e :: rest) h w report = [v]) ∨
      ∃ h', v.result = .ok h' ∧
        turns rt reporter o (e :: rest) h w report =
          turns rt reporter o rest h' v.worldAfter v.reportAfter ∧
        visits rt reporter o (e :: rest) h w report =
          v :: visits rt reporter o rest h' v.worldAfter v.reportAfter := by
  intro v
  rcases hturn : turn rt reporter o e h w report with ⟨failure | h', w', report'⟩ <;>
    obtain ⟨hresult, hworld, hreport⟩ : v.result = _ ∧ v.worldAfter = w' ∧ v.reportAfter = report' :=
      ⟨congrArg Prod.fst hturn, congrArg (·.2.1) hturn, congrArg (·.2.2) hturn⟩
  · refine .inl ⟨failure, hresult, ?_, ?_⟩
    · rw [turns, hturn, Visit.ending, hresult, hworld, hreport]
    · rw [visits]
      simp only [v] at hresult ⊢
      rw [hresult]
  · refine .inr ⟨h', hresult, ?_, ?_⟩
    · rw [turns, hturn, hworld, hreport]
    · rw [visits]
      simp only [v] at hresult ⊢
      rw [hresult]

/-- **What every visit keeps of the visits before it holds of all visits in the end.** -/
theorem turns_invariant {P : List (Visit ρ φ) → World ρ → φ → Prop}
    (hvisit : ∀ before e h w report, P before w report →
      let v := visit rt reporter o e h w report
      P (before ++ [v]) v.worldAfter v.reportAfter)
    (engines : List Engine) (before : List (Visit ρ φ)) (h : RunHistory) (w : World ρ) (report : φ)
    (hP : P before w report) :
    let r := turns rt reporter o engines h w report
    P (before ++ visits rt reporter o engines h w report) r.2.1 r.2.2 := by
  -- By induction on the engines.  A turn that has failed is the last one, and its visit is recorded
  -- all the same.
  induction engines generalizing before h w report with
  | nil => simpa only [visits, turns, List.append_nil] using hP
  | cons e rest ih =>
    have hone := hvisit before e h w report hP
    rcases first_turn rt reporter o e rest h w report with
      ⟨failure, -, hturns, hvisits⟩ | ⟨h', -, hturns, hvisits⟩
    · rw [hturns, hvisits]
      exact hone
    · have hrest := ih _ h' _ _ hone
      rw [List.append_assoc] at hrest
      rw [hturns, hvisits]
      exact hrest

/-- **Turns end where the last visit ends**, with its history, world and report, or where they
    began if there is no visit. -/
theorem turns_eq_last (engines : List Engine) (h : RunHistory) (w : World ρ) (report : φ) :
    turns rt reporter o engines h w report =
      ((visits rt reporter o engines h w report).getLast?.map Visit.ending).getD
        (.ok h, w, report) := by
  induction engines generalizing h w report with
  | nil => rfl
  | cons e rest ih =>
    rcases first_turn rt reporter o e rest h w report with
      ⟨failure, -, hturns, hvisits⟩ | ⟨h', hresult, hturns, hvisits⟩
    · rw [hturns, hvisits]
      rfl
    · rw [hturns, hvisits, ih, List.getLast?_cons, ← hresult]
      -- Without other visits the turns end with this one.
      cases (visits rt reporter o rest h' _ _).getLast? <;> rfl

theorem visits_ne_nil {engines : List Engine} (hsome : engines ≠ []) (h : RunHistory) (w : World ρ)
    (report : φ) : visits rt reporter o engines h w report ≠ [] := by
  cases engines with
  | nil => exact absurd rfl hsome
  | cons e rest =>
    rcases first_turn rt reporter o e rest h w report with
      ⟨failure, -, -, hvisits⟩ | ⟨h', -, -, hvisits⟩ <;>
      rw [hvisits] <;> exact List.cons_ne_nil _ _

/-- The first visit begins with what the turns begin with. -/
theorem first_visit {engines : List Engine} {h : RunHistory} {w : World ρ} {report : φ}
    {v : Visit ρ φ} (hv : v ∈ (visits rt reporter o engines h w report).head?) :
    (v.history, v.world, v.report) = (h, w, report) := by
  cases engines with
  | nil => cases hv
  | cons e rest =>
    rcases first_turn rt reporter o e rest h w report with
      ⟨failure, -, -, hvisits⟩ | ⟨h', -, -, hvisits⟩ <;>
      rw [hvisits] at hv <;> obtain rfl := Option.some.inj hv <;> rfl

/-- **Each visit goes on from what the one before it has ended with.** -/
theorem visits_linked (engines : List Engine) (h : RunHistory) (w : World ρ) (report : φ) :
    (visits rt reporter o engines h w report).IsChain Visit.LeadsTo := by
  induction engines generalizing h w report with
  | nil => exact .nil
  | cons e rest ih =>
    rcases first_turn rt reporter o e rest h w report with
      ⟨failure, -, -, hvisits⟩ | ⟨h', hresult, -, hvisits⟩ <;> rw [hvisits]
    · exact .singleton _
    · refine List.isChain_cons.2 ⟨fun v hv => ?_, ih h' _ _⟩
      -- The next visit finds what the turn of this one has left.
      have hfirst := first_visit rt reporter o hv
      rw [Visit.LeadsTo, Visit.ending, hresult]
      simp only [Prod.mk.injEq] at hfirst ⊢
      exact ⟨congrArg _ hfirst.1.symm, hfirst.2.1.symm, hfirst.2.2.symm⟩

/-- **How a survey goes**: it has no engines, or its reporter is not ready, or it visits engines
    and, if all of that goes well, finishes. -/
theorem run_course (p : Plan) (w : World ρ) (report : φ) :
    let r := run rt reporter o p w report
    let vs := itinerary rt reporter o p w report
    (p.engines = [] ∧ vs = [] ∧
        r = (.error (.plan .noEngines), w, reporter.close report)) ∨
      (p.engines ≠ [] ∧ vs = [] ∧ ∃ reason report₁,
        reporter.tell .started report = (.error reason, report₁) ∧
        r = (.error (.io reason), w, reporter.close report₁)) ∨
      p.engines ≠ [] ∧ ∃ report₁, reporter.tell .started report = (.ok (), report₁) ∧
        let w₁ := w.log (startLine p.engines.length)
        let t := turns rt reporter o p.engines {} w₁ report₁
        vs = visits rt reporter o p.engines {} w₁ report₁ ∧
          ((∃ failure, t.1 = .error failure ∧
              r = (.error failure, t.2.1, reporter.close t.2.2)) ∨
            ∃ h, t.1 = .ok h ∧
              let f := finish reporter h.features t.2.1 t.2.2
              r = (f.1, f.2.1, reporter.close f.2.2)) := by
  intro r vs
  by_cases hnone : p.engines = []
  · refine .inl ⟨hnone, ?_, ?_⟩
    · simp only [vs, itinerary, hnone]
      split <;> rfl
    · simp only [r, run, runOpen, hnone, List.isEmpty_nil, if_true]
  have hsome : ¬ p.engines.isEmpty = true := by simpa using hnone
  rcases htell : reporter.tell .started report with ⟨reason | _, report₁⟩
  · refine .inr (.inl ⟨hnone, ?_, reason, report₁, rfl, ?_⟩)
    · simp only [vs, itinerary, tell, htell, Except.mapError]
    · simp only [r, run, runOpen, if_neg hsome, tell, htell, Except.mapError]
  · refine .inr (.inr ⟨hnone, report₁, rfl, ?_, ?_⟩)
    · simp only [vs, itinerary, tell, htell, Except.mapError]
    · simp only [r, run, runOpen, if_neg hsome, tell, htell, Except.mapError]
      rcases turns rt reporter o p.engines {} (w.log (startLine p.engines.length)) report₁ with
        ⟨failure | h, w', report'⟩
      · exact .inl ⟨failure, rfl, rfl⟩
      · exact .inr ⟨h, rfl, rfl⟩

/-- The visits of a survey are linked from the first to the last. -/
theorem itinerary_linked (p : Plan) (w : World ρ) (report : φ) :
    (itinerary rt reporter o p w report).IsChain Visit.LeadsTo := by
  unfold itinerary
  split
  · exact .nil
  · exact visits_linked rt reporter o p.engines {} _ _

theorem features_of_finish {reporter : Reporter φ} {features found : FeatureSet} {w : World ρ}
    {report : φ} (h : (finish reporter found w report).1 = .ok features) : found = features := by
  unfold finish at h
  rcases htell : tell reporter (.finished found) report with ⟨failure | _, report₁⟩ <;>
    simp only [htell] at h
  · cases h
  · exact Except.ok.inj h

/-- **A survey that ends well gives the features that its last visit has ended with.** -/
theorem features_of_last_visit (p : Plan) (w : World ρ) (report : φ) {features : FeatureSet}
    (hok : (run rt reporter o p w report).1 = .ok features) :
    ∃ v h, (itinerary rt reporter o p w report).getLast? = some v ∧ v.result = .ok h ∧
      h.features = features := by
  rcases run_course rt reporter o p w report with
    ⟨-, -, hrun⟩ | ⟨-, -, reason, report₁, -, hrun⟩ | ⟨hsome, report₁, -, hvisits, hrun⟩
  · rw [hrun] at hok
    cases hok
  · rw [hrun] at hok
    cases hok
  rcases hrun with ⟨failure, -, hrun⟩ | ⟨h, hturns, hrun⟩
  · rw [hrun] at hok
    cases hok
  · let t := turns rt reporter o p.engines {} (w.log (startLine p.engines.length)) report₁
    have hfinish : (finish reporter h.features t.2.1 t.2.2).1 = .ok features := by
      rw [hrun] at hok
      exact hok
    have hfeatures := features_of_finish hfinish
    rw [turns_eq_last, ← hvisits] at hturns
    rcases hlast : (itinerary rt reporter o p w report).getLast? with _ | v
    -- There is an engine, so there is a visit.
    · rw [hvisits, List.getLast?_eq_none_iff] at hlast
      exact absurd hlast (visits_ne_nil rt reporter o hsome _ _ _)
    · rw [hlast] at hturns
      exact ⟨v, h, rfl, hturns, hfeatures⟩

end visiting
end Survey
end StackSurvey
