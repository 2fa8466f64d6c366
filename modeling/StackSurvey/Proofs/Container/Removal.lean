import StackSurvey.Container.ScriptedDaemon
import StackSurvey.Proofs.Container.Course

/-! # Removal of containers

    Whatever a daemon grants or refuses, a session that has created a container removes it, once
    and at last, and a session that has not created one removes none.  In between a container
    that was started is made to end at most once: it is stopped if its output is not wanted any
    more, and killed if its stream fails or is still open at the deadline. -/

namespace StackSurvey.Container.Daemon

variable {δ τ : Type}

/-! ## Section 1: What is asked with and without a start -/

/-- What leads to the start of a container neither ends nor removes it. -/
theorem verb_of_mem_launchRequests {spec : Spec} {r : Request} (h : r ∈ launchRequests spec) :
    r.verb ≠ .remove ∧ r.verb ≠ .stop ∧ r.verb ≠ .kill := by
  simp only [launchRequests, List.mem_cons, List.not_mem_nil, or_false] at h
  rcases h with rfl | rfl | rfl <;> simp [Request.verb]

section calls

variable (d : Daemon δ) (w : Watcher τ) {spec : Spec} {s : Exchange δ × τ}

/-- Without a start a container is at most created and removed again. -/
theorem calls_of_not_started (h : d.started? spec s.1 = none) :
    ∃ calls, (d.run spec w s).2.1.requests = s.1.requests ++ calls ∧
      (d.Creates spec s.1 →
        ∃ before, calls = before ++ [.remove spec.name] ∧ ∀ r ∈ before, r.verb ≠ .remove) ∧
      (¬ d.Creates spec s.1 → ∀ r ∈ calls, r.verb ≠ .remove) ∧
      ∀ r ∈ calls, r.verb ≠ .stop ∧ r.verb ≠ .kill := by
  -- The requests are what matters here, so the watcher is not looked at.
  let obs : τ → Unit := fun _ => ()
  have hlog : ∀ line t, obs (w.log line t) = obs t := fun _ _ => rfl
  obtain ⟨failure, x, t, calls, hrun, -, hrequests, hcalls⟩ := d.run_of_not_started w hlog spec h
  rw [hrun]
  refine ⟨calls, hrequests, ?_⟩
  rcases hcalls with ⟨hcreates, before, hbefore, rfl⟩ | ⟨hcreates, hcalls⟩
  · have hverb := fun r hr => verb_of_mem_launchRequests (hbefore.subset (a := r) hr)
    refine ⟨fun _ => ⟨before, rfl, fun r hr => (hverb r hr).1⟩, fun h => absurd hcreates h,
      fun r hr => ?_⟩
    rcases List.mem_append.1 hr with hr | hr
    · exact (hverb r hr).2
    · obtain rfl := List.mem_singleton.1 hr
      simp [Request.verb]
  · have hverb := fun r hr => verb_of_mem_launchRequests (hcalls.subset (a := r) hr)
    exact ⟨fun h => absurd h hcreates, fun _ r hr => (hverb r hr).1, fun r hr => (hverb r hr).2⟩

/-- After a start a container is left in one way or another, waited for and removed. -/
theorem calls_of_started (hremove : spec.autoRemove = true) {x : Exchange δ}
    (h : d.started? spec s.1 = some x) :
    let ends := (leave w spec (d.attachment x.daemon) (atStart w spec s.2)).requests spec.name
    let before := launchRequests spec ++ ends ++ [.wait spec.name]
    d.Creates spec s.1 ∧
      (d.run spec w s).2.1.requests = s.1.requests ++ (before ++ [.remove spec.name]) ∧
      ∀ r ∈ before, r.verb ≠ .remove := by
  intro ends before
  let obs : τ → Unit := fun _ => ()
  have hlog : ∀ line t, obs (w.log line t) = obs t := fun _ _ => rfl
  obtain ⟨outcome, x', t', trouble, hrun, -, -, -, -, hcreates, hrequests⟩ :=
    d.run_of_started w hlog spec h
  rw [if_pos hremove] at hrequests
  refine ⟨hcreates, by simp [hrun, hrequests, before, ends], fun r hr => ?_⟩
  simp only [before, List.mem_append, List.mem_singleton] at hr
  -- Before the removal there are the launch, what it took to leave the output, and the wait.
  rcases hr with (hr | hr) | rfl
  · exact (verb_of_mem_launchRequests hr).1
  · rcases Leave.mem_requests hr with rfl | rfl <;> simp [Request.verb]
  · simp [Request.verb]

end calls

/-! ## Section 2: Removal -/

/-- **A container that was created is removed by the last request of the session**, and by no
    other one; no container is removed if none was created.  Between its start and its removal a
    container is asked to stop if and only if its output is declined while the stream is open,
    and killed if and only if before that the stream breaks or is still open at the deadline. -/
theorem removed_last (d : Daemon δ) (spec : Spec) (hremove : spec.autoRemove = true)
    (w : Watcher τ) (s : Exchange δ × τ) :
    ∃ calls, (d.run spec w s).2.1.requests = s.1.requests ++ calls ∧
      (d.Creates spec s.1 →
        ∃ before, calls = before ++ [.remove spec.name] ∧ ∀ r ∈ before, r.verb ≠ .remove) ∧
      (¬ d.Creates spec s.1 → ∀ r ∈ calls, r.verb ≠ .remove) ∧
      (d.started? spec s.1 = none → ∀ r ∈ calls, r.verb ≠ .stop ∧ r.verb ≠ .kill) ∧
      ∀ x, d.started? spec s.1 = some x →
        let a := d.attachment x.daemon
        let t := atStart w spec s.2
        ∃ ends, calls = launchRequests spec ++ ends ++ [.wait spec.name, .remove spec.name] ∧
          ends.length ≤ 1 ∧ (∀ r ∈ ends, r = .stop spec.name ∨ r = .kill spec.name) ∧
          (.stop spec.name ∈ ends ↔ Declines w spec a t) ∧
          (.kill spec.name ∈ ends ↔ ¬ Declines w spec a t ∧
            (a.OpenAt spec.timeout ∨ ∃ reason, a.Breaks spec.timeout reason)) := by
  rcases hstarted : d.started? spec s.1 with _ | x
  · obtain ⟨calls, hrequests, hcreated, hnot, hends⟩ := d.calls_of_not_started w hstarted
    exact ⟨calls, hrequests, hcreated, hnot, fun _ => hends, nofun⟩
  · obtain ⟨hcreates, hrequests, hbefore⟩ := d.calls_of_started w hremove hstarted
    refine ⟨_, hrequests, fun _ => ⟨_, rfl, hbefore⟩, fun h => absurd hcreates h, nofun, ?_⟩
    rintro _ ⟨⟩
    exact ⟨_, by simp, Leave.length_requests_le, fun r hr => Leave.mem_requests hr,
      Leave.stop_mem_requests_iff.trans leave_eq_declined_iff, kill_mem_leave_iff w spec _ _⟩

/-- A container that was started and never ends its output is killed before it is removed. -/
theorem removed_last_hanging :
    let spec : Spec := { name := "c1", image := some "img:1" }
    let s : Exchange ScriptedDaemon := { daemon := { common := { hangs := true } } }
    spec.autoRemove = true ∧ ∃ ends, .kill "c1" ∈ ends ∧
      (ScriptedDaemon.daemon.run spec Watcher.quiet (s, ())).2.1.requests =
        launchRequests spec ++ ends ++ [.wait "c1", .remove "c1"] := by
  intro spec s
  obtain ⟨calls, hcalls, -, -, -, hstarted⟩ :=
    removed_last ScriptedDaemon.daemon spec rfl Watcher.quiet (s, ())
  obtain ⟨ends, rfl, -, -, -, hkill⟩ := hstarted _ rfl
  exact ⟨rfl, ends, hkill.2 ⟨fun ⟨chunk, h⟩ => Watcher.not_stop_mem_answers_quiet _ _ chunk h,
    .inl (Attachment.openAt_of_endless rfl)⟩, hcalls⟩

end StackSurvey.Container.Daemon
