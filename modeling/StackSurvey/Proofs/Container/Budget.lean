import StackSurvey.Container.ScriptedDaemon
import StackSurvey.Proofs.Container.Discipline

/-! # The time budget of a container

    The deadline of a session is a deadline for the attached stream.  A container whose stream is
    still open then is killed, and is told to have run out of time.  Once its stream is closed a
    container is waited for as long as it takes. -/

namespace StackSurvey.Container

theorem Event.ofOutcome_eq_timedOut_iff {who : Identity} {o : Outcome} :
    Event.ofOutcome who o = .timedOut who o ↔ o.timedOut = true := by
  unfold Event.ofOutcome
  split
  · simp [*]
  · split <;> simp [*]

namespace Daemon

variable {δ τ : Type}

/-- **A container is killed for its time if and only if its stream is open at the deadline**, as
    far as its output is welcome and its stream does not fail.  In that case, and only then, the
    outcome says so and is told as the end of one that ran out of time. -/
theorem killed_iff_openAt (d : Daemon δ) (spec : Spec) (w : Watcher τ) (s : Exchange δ × τ)
    {x : Exchange δ} (hstarted : d.started? spec s.1 = some x)
    (hwelcome : ∀ chunk, .accept chunk .stop ∉ (d.run spec w.recorded (s.1, [], s.2)).2.2.1)
    (hbreaks : ∀ reason, ¬ (d.attachment x.daemon).Breaks spec.timeout reason) :
    let a := d.attachment x.daemon
    ∃ outcome x' acts t' calls,
      d.run spec w.recorded (s.1, [], s.2) = (.ok outcome, x', acts, t') ∧
      x'.requests = s.1.requests ++ calls ∧
      (.kill spec.name ∈ calls ↔ a.OpenAt spec.timeout) ∧
      (outcome.timedOut = true ↔ a.OpenAt spec.timeout) ∧
      (acts.getLast? = some (.notice (.timedOut spec.identity outcome)) ↔
        a.OpenAt spec.timeout) := by
  intro a
  obtain ⟨outcome, x', t', trouble, hrun, htimed, -, hrequests⟩ :=
    d.recorded_run_of_started w spec hstarted
  rw [hrun] at hwelcome
  -- Only a consumer that has said stop can decline, and no chunk was answered in that way.
  have hnot : ¬ Declines w spec a (atStart w spec s.2) := not_declines_of_welcome fun chunk h =>
    hwelcome chunk
      (List.mem_append_left _ (List.mem_cons_of_mem _ (Watcher.accept_mem_handing_iff.2 h)))
  have hopen : outcome.timedOut = true ↔ a.OpenAt spec.timeout := by
    rw [htimed, leave_of_not_declines hnot, decide_eq_true_iff, Attachment.fate_eq_deadline_iff]
  -- A container is killed for a broken stream too, which the hypothesis rules out.
  have hkill := (kill_mem_leave_iff w spec a (atStart w spec s.2)).trans
    ⟨fun ⟨_, h⟩ => h.resolve_right fun ⟨reason, h⟩ => hbreaks reason h, fun h => ⟨hnot, .inl h⟩⟩
  refine ⟨outcome, x', _, t', _, hrun, hrequests, ?_, hopen, ?_⟩
  · rw [← hkill]
    by_cases hremove : spec.autoRemove = true <;> simp [launchRequests, hremove, a]
  · -- The last event is that of the outcome, and it is about time just if the outcome is.
    have hevent : Event.ofOutcome spec.identity outcome = .timedOut spec.identity outcome ↔
        outcome.timedOut = true := Event.ofOutcome_eq_timedOut_iff
    rw [List.getLast?_concat, ← hopen, ← hevent]
    simp

/-- The output of a container never ends, so it is killed. -/
theorem killed_iff_openAt_hanging :
    let spec : Spec := { name := "c1", image := some "img:1" }
    let s : Exchange ScriptedDaemon := { daemon := { common := { hangs := true } } }
    ∃ outcome x' acts t' calls,
      ScriptedDaemon.daemon.run spec Watcher.quiet.recorded (s, [], ()) =
        (.ok outcome, x', acts, t') ∧
      x'.requests = calls ∧ .kill "c1" ∈ calls ∧ outcome.timedOut = true ∧
      acts.getLast? = some (.notice (.timedOut spec.identity outcome)) := by
  intro spec s
  let ended : Event := .timedOut spec.identity { exitStatus := some 0, timedOut := true }
  have hacts : (ScriptedDaemon.daemon.run { name := "c1", image := some "img:1" }
      Watcher.quiet.recorded ({ daemon := { common := { hangs := true } } }, [], ())).2.2.1 =
      [.notice (.started spec.identity), .notice ended] := by
    decide +kernel
  obtain ⟨outcome, x', acts, t', calls, hrun, hcalls, hkill, htimed, hlast⟩ :=
    killed_iff_openAt ScriptedDaemon.daemon spec Watcher.quiet (s, ()) rfl
      (fun chunk h => by simp [spec, s, hacts] at h)
      (fun _ h => h.1 (Attachment.openAt_of_endless rfl))
  exact ⟨outcome, x', acts, t', calls, hrun, hcalls, hkill.2 (Attachment.openAt_of_endless rfl),
    htimed.2 (Attachment.openAt_of_endless rfl), hlast.2 (Attachment.openAt_of_endless rfl)⟩

/-- A daemon whose state is the time since the start of a container.  Its containers close their
    output after one second, and exit after twenty. -/
def lingering : Daemon Duration where
  answer r time :=
    match r with
    | .wait _ => (ScriptedDaemon.usual {} .wait, .ofSeconds 20)
    | _ => (ScriptedDaemon.usual {} r.verb, time)
  attachment _ := { ending := some (.ofSeconds 1, .closed) }
  elapsed time := time

/-- **A container that outlives its output outlives its budget**: with ten seconds to run it has
    exited after twenty, and was neither killed nor told to have run out of time. -/
theorem outlives_budget :
    let spec : Spec := { name := "c1", image := some "img:1", timeout := .ofSeconds 10 }
    let outcome : Outcome := { exitStatus := some 0, duration := .ofSeconds 20 }
    let r := lingering.run spec Watcher.quiet.recorded ({ daemon := {} }, [], ())
    spec.timeout.milliseconds < outcome.duration.milliseconds ∧ r.1 = .ok outcome ∧
      r.2.1.requests.map Request.verb = [.create, .attach, .start, .wait, .remove] ∧
      r.2.2.1 = [.notice (.started spec.identity), .notice (.finished spec.identity outcome)] := by
  dsimp only
  decide +kernel

end Daemon
end StackSurvey.Container
