import StackSurvey.Proofs.Container.Honest

/-! # Announcements

    Of all that a watcher is told, the start and the end of a container matter most.  A runtime
    that runs a container announces its start and then, once, the end that belongs to the outcome
    it gives back.  A runtime that fails announces nothing.  Rehearsals and sessions with a
    daemon keep to this. -/

namespace StackSurvey.Container

/-- Is the event the start or the end of a container, and not just some output? -/
def Event.isMilestone : Event → Bool
  | .output _ _ => false
  | .started _ | .finished _ _ | .timedOut _ _ | .failed _ _ => true

theorem Event.ofOutcome_isMilestone (who : Identity) (o : Outcome) :
    (Event.ofOutcome who o).isMilestone = true := by
  unfold Event.ofOutcome
  split
  · rfl
  · split <;> rfl

/-- The end of a container is among its milestones. -/
theorem Event.filter_isTerminal (events : List Event) :
    events.filter isTerminal = (events.filter isMilestone).filter isTerminal := by
  rw [List.filter_filter]
  congr 1
  funext event
  cases event <;> rfl

/-! ## Section 1: What a watcher is told -/

namespace Watcher

variable {τ : Type}

/-- From its state `t₀` on the watcher was told these events, in this order, and nothing else was
    done to it than to call it. -/
inductive Told (w : Watcher τ) (t₀ : τ) : List Event → τ → Prop where
  | nothing : Told w t₀ [] t₀
  | notice {events : List Event} {t : τ} (h : Told w t₀ events t) (event : Event) :
    Told w t₀ (events ++ [event]) (w.notice event t)
  | log {events : List Event} {t : τ} (h : Told w t₀ events t) (line : LogLine) :
    Told w t₀ events (w.log line t)
  | accept {events : List Event} {t : τ} (h : Told w t₀ events t) (chunk : Bytes) :
    Told w t₀ events (w.accept chunk t).2

/-- These are the milestones that the watcher was told from its state `t₀` on. -/
def Passed (w : Watcher τ) (t₀ : τ) (milestones : List Event) (t : τ) : Prop :=
  ∃ events, w.Told t₀ events t ∧ events.filter Event.isMilestone = milestones

variable {w : Watcher τ} {t₀ t : τ} {milestones : List Event}

theorem Passed.nothing : w.Passed t₀ [] t₀ := ⟨[], .nothing, rfl⟩

theorem Passed.log (h : w.Passed t₀ milestones t) (line : LogLine) :
    w.Passed t₀ milestones (w.log line t) := by
  obtain ⟨events, htold, hevents⟩ := h
  exact ⟨events, htold.log line, hevents⟩

theorem Passed.notice (h : w.Passed t₀ milestones t) (event : Event) :
    w.Passed t₀ (milestones ++ [event].filter Event.isMilestone) (w.notice event t) := by
  obtain ⟨events, htold, hevents⟩ := h
  exact ⟨events ++ [event], htold.notice event, by rw [List.filter_append, hevents]⟩

/-- Output is no milestone. -/
theorem Passed.hand (h : w.Passed t₀ milestones t) (who : Identity) (chunk : Bytes) :
    w.Passed t₀ milestones (w.hand who chunk t).2 := by
  obtain ⟨events, htold, hevents⟩ := h.notice (.output who chunk)
  exact ⟨events, htold.accept chunk, hevents.trans (List.append_nil _)⟩

/-- What a watcher must have been told when a runtime gives back that result: the start and then
    the end of the outcome, or nothing about the container if it could not be run. -/
def Announced (w : Watcher τ) (t₀ : τ) : Except RuntimeFailure Outcome → τ → Prop
  | .error _, t => w.Passed t₀ [] t
  | .ok outcome, t => ∃ who who', w.Passed t₀ [.started who, .ofOutcome who' outcome] t

/-- Who has told the start and then tells the end has announced the outcome. -/
theorem Passed.announced {who : Identity} (h : w.Passed t₀ [.started who] t) (who' : Identity)
    (outcome : Outcome) : w.Announced t₀ (.ok outcome) (w.noticeOutcome who' outcome t) := by
  refine ⟨who, who', ?_⟩
  have hend := h.notice (.ofOutcome who' outcome)
  rwa [List.filter_cons_of_pos (Event.ofOutcome_isMilestone who' outcome)] at hend

end Watcher

/-! ## Section 2: Runtimes that announce -/

/-- Whoever runs a container announces what it gives back. -/
def Runtime.Announces {ρ : Type} (rt : Runtime ρ) : Prop :=
  ∀ {τ : Type} (disk : Disk) (spec : Spec) (w : Watcher τ) (r : ρ) (t : τ),
    w.Announced t (rt.run disk spec w (r, t)).1 (rt.run disk spec w (r, t)).2.2

theorem Rehearsal.announces : Rehearsal.runtime.Announces := by
  intro τ disk spec w r t
  simp only [runtime]
  split
  · -- What is refused is not told of at all.
    exact .nothing
  · next script _ =>
    obtain ⟨t', ht', hend⟩ := perform_ends (P := w.Passed t [.started spec.identity])
      (fun chunk _ h => h.hand spec.identity chunk) script (Watcher.Passed.nothing.notice _)
    dsimp only
    rw [hend]
    exact ht'.announced _ _

/-- A container that was created is announced once it has been started. -/
theorem Daemon.launch_announced {δ τ : Type} (d : Daemon δ) (w : Watcher τ) (spec : Spec) {t₀ : τ}
    {s : Exchange δ × τ} (hs : w.Passed t₀ [] s.2) :
    w.Announced t₀ (d.launch w spec s).1 (d.launch w spec s).2.2 := by
  have hfailed := fun x => d.remove_keeps (P := w.Passed t₀ []) (fun line _ h => h.log line)
    spec.name (s := (x, s.2)) hs
  unfold launch
  rcases d.ask (.attach spec.name) s.1 with ⟨_ | _, x₁⟩ <;> dsimp only
  · -- A container that was not attached or not started is removed; the log learns of that, and
    -- nobody else does.
    exact hfailed x₁
  rcases d.ask (.start spec.name) x₁ with ⟨_ | _, x₂⟩ <;> dsimp only
  · exact hfailed x₂
  · -- From here on the container counts as started, and only its end is still to be told.
    obtain ⟨t', ht', hend⟩ := d.accompany_ends (P := w.Passed t₀ [.started spec.identity])
      (fun line _ h => h.log line) (fun chunk _ h => h.hand spec.identity chunk) (s := (x₂, s.2))
      (hs.notice _)
    rw [hend]
    exact ht'.announced _ _

theorem Daemon.announces {δ : Type} (d : Daemon δ) : d.runtime.Announces := by
  intro τ disk spec w x t
  have hnothing : w.Passed t [] t := .nothing
  simp only [runtime, run]
  split
  · exact hnothing
  · split
    · exact hnothing.log _
    · exact d.launch_announced w spec (hnothing.log _)

end StackSurvey.Container
