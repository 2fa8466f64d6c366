import StackSurvey.Proofs.Container.Announcement
import StackSurvey.Proofs.Engine.Scripted

/-! # Outcomes, events and failures agree

    Three parts of a run speak of how a container has ended: the outcome that the runtime gives
    back, the event that tells its end, and the failure that the event stands for.  Whatever runs
    containers, if it announces what it gives back the three agree. -/

namespace StackSurvey

open Container (Event Identity Outcome Runtime RuntimeFailure)

/-! ## Section 1: What an outcome says -/

namespace Container

/-- The container did what it was to do: there was no trouble, and it was stopped on purpose or
    has exited with status 0. -/
def Outcome.DidWell (o : Outcome) : Prop :=
  o.error = none ∧ (o.stopped = true ∨ o.exitStatus = some 0)

instance (o : Outcome) : Decidable o.DidWell :=
  inferInstanceAs (Decidable (o.error = none ∧ (o.stopped = true ∨ o.exitStatus = some 0)))

/-- What a failed container is said to have failed with: its trouble if there was any, else its
    exit status if that is known. -/
def Outcome.complaint (o : Outcome) : String :=
  o.error.elim (o.exitStatus.elim "unknown status" fun status => "status " ++ toString status)
    fun error => "error " ++ error

theorem Outcome.isSuccess_iff {o : Outcome} (h : o.timedOut = false) :
    o.isSuccess = true ↔ o.DidWell := by
  simp [isSuccess, DidWell, h, Option.isNone_iff_eq_none]

/-- The event that tells the end of a container, in terms of the outcome. -/
theorem Event.ofOutcome_eq (who : Identity) (o : Outcome) :
    Event.ofOutcome who o =
      if o.timedOut then .timedOut who o
      else if o.DidWell then .finished who o
      else .failed who o := by
  unfold Event.ofOutcome
  cases htimed : o.timedOut with
  | true => rfl
  | false => simp only [Outcome.isSuccess_iff htimed]

end Container

theorem EngineFailure.reasonOf_eq (o : Outcome) :
    EngineFailure.reasonOf o = "failed with " ++ o.complaint ++ " and stderr " ++ o.stderr := by
  unfold reasonOf Outcome.complaint
  rcases o.error with _ | error
  · rcases o.exitStatus with _ | status <;> rfl
  · rfl

namespace EngineFailure

/-- Only the end of a container stands for a failure. -/
theorem ofEvent?_of_not_terminal {engine : String} {budget : Option Duration} {event : Event}
    (h : event.isTerminal = false) : ofEvent? engine budget event = none := by
  cases event <;> first | rfl | cases h

end EngineFailure

/-! ## Section 2: What is raised -/

namespace Engine

variable {ρ σ : Type}

/-- **Who follows a container has seen the events that it was told**, and has raised the first
    failure that one of them stands for. -/
theorem watch_told {e : Engine} {o : EngineOptions} {sink : Sink σ} {t₀ t : Watch σ}
    {events : List Event} (h : (e.watcher o sink).Told t₀ events t) :
    t.journal.events = t₀.journal.events ++ events ∧
      t.raised = t₀.raised.or ((events.filter Event.isTerminal).findSome?
        (EngineFailure.ofEvent? e.qualifiedName (some o.timeout))) := by
  -- By induction on what was told.  Only a terminal event can stand for a failure, and only the
  -- first failure is kept.
  induction h with
  | nothing => simp
  | notice h event ih =>
    obtain ⟨hevents, hraised⟩ := ih
    refine ⟨by simp [watcher, hevents], ?_⟩
    rw [List.filter_append, List.findSome?_append, ← Option.or_assoc, ← hraised]
    cases hterminal : event.isTerminal with
    | true => simp [watcher, hterminal]
    | false => simp [watcher, hterminal, EngineFailure.ofEvent?_of_not_terminal hterminal]
  | log h line ih => exact ih
  -- A document is told as an event too, but it does not end anything.
  | accept h chunk ih =>
    obtain ⟨-, hraised, hevents⟩ := e.accept_eq sink chunk _
    exact ⟨hevents.trans ih.1, hraised.trans ih.2⟩

/-- What is raised depends on the milestones that were passed. -/
theorem watch_passed {e : Engine} {o : EngineOptions} {sink : Sink σ} {t₀ t : Watch σ}
    {milestones : List Event} (h : (e.watcher o sink).Passed t₀ milestones t) :
    ∃ events, t.journal.events = t₀.journal.events ++ events ∧
      events.filter Event.isTerminal = milestones.filter Event.isTerminal ∧
      t.raised = t₀.raised.or ((milestones.filter Event.isTerminal).findSome?
        (EngineFailure.ofEvent? e.qualifiedName (some o.timeout))) := by
  obtain ⟨events, htold, rfl⟩ := h
  obtain ⟨hevents, hraised⟩ := watch_told htold
  rw [Event.filter_isTerminal] at hraised
  exact ⟨events, hevents, Event.filter_isTerminal events, hraised⟩

/-! ## Section 3: How an engine ends -/

/-- How an engine ends, in terms of the outcome of its container. -/
theorem ending_eq (e : Engine) (o : EngineOptions) (outcome : Outcome) :
    e.ending o outcome =
      if outcome.timedOut then .error (.timedOut e.qualifiedName o.timeout.seconds)
      else if outcome.DidWell then .ok outcome
      else .error (.failed e.qualifiedName
        ("failed with " ++ outcome.complaint ++ " and stderr " ++ outcome.stderr)) := by
  unfold ending
  rw [EngineFailure.reasonOf_eq]
  cases htimed : outcome.timedOut with
  | true => rfl
  | false => simp only [Outcome.isSuccess_iff htimed]

/-- **The outcome of a container, the event that tells its end and the result of the engine agree.**
    The runtime may be any one that in this run announces what it gives back. -/
theorem run_agrees (rt : Runtime ρ) (sink : Sink σ) (e : Engine) (o : EngineOptions)
    (features : FeatureSet) (w : World ρ) (s : σ) {st : Stage} {w₁ : World ρ}
    (hstage : e.stage o features.toJson.compact w = (.ok st, w₁))
    {result : Except RuntimeFailure Outcome} {runtime : ρ} {t : Watch σ}
    (hrun : rt.run w₁.disk (e.stagedSpec o st) (e.watcher o sink)
      (w₁.runtime, { journal := w₁.journal, sink := s }) = (result, runtime, t))
    (hannounced : (e.watcher o sink).Announced { journal := w₁.journal, sink := s } result t) :
    let r := e.run rt sink o features w s
    ∃ events, r.2.1.journal.events = w.journal.events ++ events ∧
      match result with
      | .ok outcome =>
        r.1 =
          (if outcome.timedOut then .error (.timedOut e.qualifiedName o.timeout.seconds)
          else if outcome.DidWell then .ok outcome
          else .error (.failed e.qualifiedName
            ("failed with " ++ outcome.complaint ++ " and stderr " ++ outcome.stderr))) ∧
        ∃ who, events.filter Event.isTerminal =
          [if outcome.timedOut then .timedOut who outcome
          else if outcome.DidWell then .finished who outcome
          else .failed who outcome]
      | .error (.imageRequired _ reason) =>
        r.1 = .error (.imageRequired (e.imageMessage reason)) ∧ events.filter Event.isTerminal = []
      | .error failure =>
        r.1 = .error (.runtime e.qualifiedName failure) ∧ events.filter Event.isTerminal = [] := by
  intro r
  have hr : r = (e.conclude result t.raised,
      { w₁ with runtime, journal := t.journal }.strike st, t.sink) := by
    simp only [r, run_eq, hstage, hrun]
  -- The stage adds log lines to the journal and no events.
  have hjournal : w₁.journal.events = w.journal.events := by
    simpa [hstage] using e.stage_events o features.toJson.compact w
  rcases result with failure | outcome
  · -- What could not be run was announced to nobody.
    obtain ⟨events, hevents, hterminal, -⟩ := watch_passed hannounced
    refine ⟨events, by simp [hr, hevents, hjournal], ?_⟩
    cases failure <;> exact ⟨by rw [hr]; rfl, hterminal⟩
  · obtain ⟨who, who', hpassed⟩ := hannounced
    obtain ⟨events, hevents, hterminal, hraised⟩ := watch_passed hpassed
    -- Of the two events that were announced only the second one is terminal.
    have hend : [Event.started who, .ofOutcome who' outcome].filter Event.isTerminal =
        [.ofOutcome who' outcome] := by
      rw [List.filter_cons_of_neg Bool.false_ne_true,
        List.filter_cons_of_pos (Event.ofOutcome_isTerminal who' outcome), List.filter_nil]
    rw [hend] at hterminal hraised
    refine ⟨events, by simp [hr, hevents, hjournal], ?_, who', ?_⟩
    · rw [hr, hraised, List.findSome?_singleton]
      exact (e.conclude_ofOutcome o who' outcome).trans (e.ending_eq o outcome)
    · rw [hterminal, Event.ofOutcome_eq]

/-- A rehearsal of 903 seconds that ran out of time is told to have run for its budget. -/
theorem run_agrees_timed_out :
    let script : Container.Script := { timedOut := true, duration := .ofSeconds 903 }
    let w := Sample.world (Sample.rehearsal [("b", script)])
    (Sample.lint.run Container.Rehearsal.runtime Collection.sink Sample.options .empty w {}).1 =
      .error (.timedOut "lint:stable" 900) := by
  intro script w
  let e := Sample.lint
  let o := Sample.options
  let st := Sample.stage
  let outcome : Outcome :=
    { exitStatus := some 0, duration := .ofSeconds 903, timedOut := true }
  have hresult : (e.stage o FeatureSet.empty.toJson.compact w).1 = .ok st ∧
      (Container.Rehearsal.runtime.run (e.stage o FeatureSet.empty.toJson.compact w).2.disk
        (e.stagedSpec o st) (e.watcher o Collection.sink)
        ((e.stage o FeatureSet.empty.toJson.compact w).2.runtime,
          { journal := (e.stage o FeatureSet.empty.toJson.compact w).2.journal, sink := {} })).1 =
        .ok outcome := by
    decide +kernel
  rcases hstage : e.stage o FeatureSet.empty.toJson.compact w with ⟨staged, w₁⟩
  rw [hstage] at hresult
  obtain ⟨rfl, hresult⟩ := hresult
  have hannounced := Container.Rehearsal.announces w₁.disk (e.stagedSpec o st)
    (e.watcher o Collection.sink) w₁.runtime { journal := w₁.journal, sink := {} }
  rcases hrun : Container.Rehearsal.runtime.run w₁.disk (e.stagedSpec o st)
    (e.watcher o Collection.sink) (w₁.runtime, { journal := w₁.journal, sink := {} })
    with ⟨result, runtime, t⟩
  rw [hrun] at hannounced hresult
  obtain rfl : result = .ok outcome := hresult
  -- The answer carries the 903 seconds that were run, and the error the 900 of the options.
  obtain ⟨events, -, hends, -⟩ := run_agrees Container.Rehearsal.runtime Collection.sink e o .empty
    w {} hstage hrun hannounced
  exact hends.trans (by decide +kernel)

end Engine
end StackSurvey
