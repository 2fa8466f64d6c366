import StackSurvey.Proofs.Container.Following
import StackSurvey.Proofs.Container.Honest

/-! # The course of a session

    What a session asks of its daemon and what it hands over depend on whether its container can
    be started, and then on what the stream of the container brings by the deadline.
    `run_of_started` says so of a session whose container was started, and `run_of_not_started`
    of any other one. -/

namespace StackSurvey.Container.Daemon

variable {δ τ β : Type}

/-! ## Section 1: What the daemon is asked -/

/-- The error of a stream that was left in that way. -/
def Leave.error : Leave → Option String
  | .broken reason => some ("output stream failed: " ++ reason)
  | .closed | .declined | .deadline => none

/-- What the daemon is asked to do about a container whose output was left in that way. -/
def Leave.requests (name : String) : Leave → List Request
  | .closed => []
  | .declined => [.stop name]
  | .broken _ | .deadline => [.kill name]

section asking

variable {name : String} {l : Leave}

theorem Leave.length_requests_le : (l.requests name).length ≤ 1 := by
  cases l <;> simp [requests]

theorem Leave.mem_requests {r : Request} (h : r ∈ l.requests name) :
    r = .stop name ∨ r = .kill name := by
  cases l <;> simp_all [requests]

theorem Leave.stop_mem_requests_iff : .stop name ∈ l.requests name ↔ l = .declined := by
  cases l <;> simp [requests]

theorem Leave.kill_mem_requests_iff :
    .kill name ∈ l.requests name ↔ l = .deadline ∨ ∃ reason, l = .broken reason := by
  cases l <;> simp [requests]

end asking

/-- A container is killed if its stream fails or is open at the deadline, but not if its output
    was declined before. -/
theorem kill_mem_leave_iff (w : Watcher τ) (spec : Spec) (a : Attachment) (t : τ) :
    .kill spec.name ∈ (leave w spec a t).requests spec.name ↔
      ¬ Declines w spec a t ∧
        (a.OpenAt spec.timeout ∨ ∃ reason, a.Breaks spec.timeout reason) := by
  rw [Leave.kill_mem_requests_iff]
  by_cases h : Declines w spec a t
  · simp [leave_of_declines h, h]
  · simp only [leave_of_not_declines h, h, not_false_eq_true, true_and,
      Attachment.fate_eq_deadline_iff, Attachment.fate_eq_broken_iff]

@[simp] theorem ask_requests (d : Daemon δ) (r : Request) (x : Exchange δ) :
    (d.ask r x).2.requests = x.requests ++ [r] := rfl

@[simp] theorem attempt_requests (d : Daemon δ) (w : Watcher τ) (r : Request)
    (message name : String) (s : Exchange δ × τ) :
    (d.attempt w r message name s).1.requests = s.1.requests ++ [r] := by
  have hask := d.ask_requests r s.1
  simp only [attempt]
  rcases h : d.ask r s.1 with ⟨_ | _, x⟩ <;> rw [h] at hask <;> exact hask

@[simp] theorem remove_requests (d : Daemon δ) (w : Watcher τ) (name : String)
    (s : Exchange δ × τ) : (d.remove w name s).1.requests = s.1.requests ++ [.remove name] := by
  have hask := d.ask_requests (.remove name) s.1
  simp only [remove]
  rcases h : d.ask (.remove name) s.1 with ⟨_ | _, x⟩ <;> rw [h] at hask
  · simp only [apply_ite Prod.fst, ite_self]
    exact hask
  · exact hask

@[simp] theorem wait_requests (d : Daemon δ) (name : String) (x : Exchange δ) :
    (d.wait name x).2.requests = x.requests ++ [.wait name] := by
  have hask := d.ask_requests (.wait name) x
  simp only [wait]
  rcases h : d.ask (.wait name) x with ⟨_ | _, x'⟩ <;> rw [h] at hask
  · simp only [apply_ite Prod.snd, ite_self]
    exact hask
  · exact hask

/-- A container is created by one request, and there is none if its bounds on memory are out of
    range. -/
theorem create_requests (d : Daemon δ) (spec : Spec) (image : String) (x : Exchange δ) :
    (d.create spec image x).2.requests = x.requests ++ [.create spec image] ∨
      (∃ failure, (d.create spec image x).1 = .error failure) ∧
        (d.create spec image x).2.requests = x.requests := by
  have hask := d.ask_requests (.create spec image) x
  unfold create
  split
  · -- The two bounds on memory are converted before the daemon is asked.
    exact .inr ⟨⟨_, rfl⟩, rfl⟩
  split
  · exact .inr ⟨⟨_, rfl⟩, rfl⟩
  · refine .inl ?_
    rcases h : d.ask (.create spec image) x with ⟨_ | _, x'⟩ <;> rw [h] at hask
    · simp only [apply_ite Prod.snd, ite_self]
      exact hask
    · exact hask

/-- The requests of a session after those that it takes to leave the output. -/
theorem accompany_requests (d : Daemon δ) (w : Watcher τ) (spec : Spec) (s : Exchange δ × τ)
    {l : Leave} {g : Gathered τ}
    (hfollow : follow w spec.identity spec.timeout (d.attachment s.1.daemon).ending
      (d.attachment s.1.daemon).frames
      { splitter := .ofDelimiter spec.delimiter
        stderr := .ofLimit spec.errorLimit
        watcher := w.notice (.started spec.identity) s.2 } = (l, g)) :
    (d.accompany w spec s).2.1.requests =
      (d.settle w spec l g.splitter (s.1, g.watcher)).2.2.1.requests ++ .wait spec.name ::
        if spec.autoRemove then [.remove spec.name] else [] := by
  obtain ⟨x, t⟩ := s
  rcases hs : d.settle w spec l g.splitter (x, g.watcher) with ⟨control, error, x₁, t₁⟩
  by_cases hremove : spec.autoRemove = true <;> simp [accompany, hfollow, hs, hremove]

/-! ## Section 2: Accompanying a container -/

section settling

variable (d : Daemon δ) {w : Watcher τ} {obs : τ → β} (hlog : ∀ line t, obs (w.log line t) = obs t)
include hlog

/-- What only looks past the log sees nothing of a request that may fail. -/
theorem attempt_eq (r : Request) (message name : String) (s : Exchange δ × τ) :
    obs (d.attempt w r message name s).2 = obs s.2 :=
  d.attempt_keeps (P := fun t => obs t = obs s.2) (fun line t h => (hlog line t).trans h) r message
    name rfl

theorem remove_eq (name : String) (s : Exchange δ × τ) : obs (d.remove w name s).2 = obs s.2 :=
  d.remove_keeps (P := fun t => obs t = obs s.2) (fun line t h => (hlog line t).trans h) name rfl

variable (spec : Spec)

/-- What the end of a container comes to, by the way in which its output was left. -/
theorem accompany_spec (s : Exchange δ × τ) {leave : Leave} {g : Gathered τ}
    (hfollow : follow w spec.identity spec.timeout (d.attachment s.1.daemon).ending
      (d.attachment s.1.daemon).frames
      { splitter := .ofDelimiter spec.delimiter
        stderr := .ofLimit spec.errorLimit
        watcher := w.notice (.started spec.identity) s.2 } = (leave, g)) :
    let settled := d.settle w spec leave g.splitter (s.1, g.watcher)
    let exit := (d.wait spec.name settled.2.2.1).1
    let r := d.accompany w spec s
    ∃ t, obs t = obs settled.2.2.2 ∧ r.2.2 = w.noticeOutcome spec.identity r.1 t ∧
      r.1.exitStatus = exit.toOption.join ∧ r.1.stopped = decide (settled.1 = .stop) ∧
      r.1.timedOut = decide (leave = .deadline) ∧
      r.1.error = settled.2.1.or (match exit with | .ok _ => none | .error e => some e) := by
  obtain ⟨x, t⟩ := s
  -- Removing the container is at most logged, so all four cases look the same to `obs`.
  rcases hs : d.settle w spec leave g.splitter (x, g.watcher) with ⟨control, error, x₁, t₁⟩
  rcases hw : d.wait spec.name x₁ with ⟨_ | _, x₂⟩ <;>
    by_cases hremove : spec.autoRemove = true <;>
    simp only [accompany, hfollow, hs, hw, hremove, if_true, if_false, Bool.false_eq_true, and_true]
  · exact ⟨_, d.remove_eq hlog spec.name (x₂, t₁), rfl⟩
  · exact ⟨t₁, rfl, rfl⟩
  · exact ⟨_, d.remove_eq hlog spec.name (x₂, t₁), rfl⟩
  · exact ⟨t₁, rfl, rfl⟩

/-- What is done about a container whose output was left, and what is handed over then. -/
theorem settle_leave (a : Attachment) (x : Exchange δ) (t : τ) {splitter : Splitter}
    (hsplitter : (w.handAll spec.identity (a.completed spec) t).1 = .continue →
      splitter = (Splitter.feed (a.received spec.timeout) (.ofDelimiter spec.delimiter)).2) :
    let v := w.handAll spec.identity (a.chunks spec) t
    let settled := d.settle w spec (leave w spec a t) splitter
      (x, (w.handAll spec.identity (a.completed spec) t).2)
    settled.1 = v.1 ∧ settled.2.1 = (leave w spec a t).error ∧
      settled.2.2.1.requests = x.requests ++ (leave w spec a t).requests spec.name ∧
      obs settled.2.2.2 = obs v.2 := by
  unfold leave Attachment.chunks
  rw [Watcher.handAll_append]
  -- What was completed by the deadline is handed over first; how that went decides which way the
  -- output was left.
  rcases hv : w.handAll spec.identity (a.completed spec) t with ⟨_ | _, t'⟩ <;> rw [hv] at hsplitter
  · obtain rfl := hsplitter rfl
    have hne : a.fate spec.timeout ≠ .declined := Attachment.fate_ne_declined
    cases hfate : a.fate spec.timeout with
    -- The remainder counts only here: a stream that breaks or runs late loses it.
    | closed =>
      simp only [settle, Watcher.deliverRest_eq, if_true, Leave.error, Leave.requests,
        List.append_nil]
      exact ⟨rfl, trivial, trivial, rfl⟩
    | declined => exact absurd hfate hne
    | broken reason => exact ⟨rfl, rfl, d.attempt_requests _ _ _ _ _, d.attempt_eq hlog _ _ _ _⟩
    | deadline => exact ⟨rfl, rfl, d.attempt_requests _ _ _ _ _, d.attempt_eq hlog _ _ _ _⟩
  · -- Declined: nothing more is handed over, and the container is asked to stop.
    exact ⟨rfl, rfl, d.attempt_requests _ _ _ _ _, d.attempt_eq hlog _ _ _ _⟩

/-- **What accompanying a container comes to**, told from what its stream brings by the
    deadline. -/
theorem accompany_course (s : Exchange δ × τ) :
    let a := d.attachment s.1.daemon
    let t := w.notice (.started spec.identity) s.2
    let v := w.handAll spec.identity (a.chunks spec) t
    let l := leave w spec a t
    let r := d.accompany w spec s
    ∃ t' trouble, obs t' = obs v.2 ∧ r.2.2 = w.noticeOutcome spec.identity r.1 t' ∧
      r.1.stopped = decide (v.1 = .stop) ∧ r.1.timedOut = decide (l = .deadline) ∧
      r.1.error = l.error.or trouble ∧
      r.2.1.requests = s.1.requests ++ l.requests spec.name ++ .wait spec.name ::
        if spec.autoRemove then [.remove spec.name] else [] := by
  intro a t v l r
  -- Following says how the output was left, settling what was handed over after that, and the end
  -- of the container adds its exit status.
  obtain ⟨g, hfollow, hwatcher, hsplitter⟩ := follow_leave w spec a t
  obtain ⟨hcontrol, herror, hrequests, hobs⟩ := d.settle_leave hlog spec a s.1 t hsplitter
  rw [← hwatcher] at hcontrol herror hrequests hobs
  obtain ⟨t', hobs', hend, -, hstopped, htimed, herror'⟩ := d.accompany_spec hlog spec s hfollow
  refine ⟨t', _, hobs'.trans hobs, hend, ?_, htimed, herror'.trans (congrArg (Option.or · _) herror),
    ?_⟩
  · rw [← hcontrol]
    exact hstopped
  · rw [← hrequests]
    exact d.accompany_requests w spec s hfollow

end settling

/-- **A session whose stream is closed in time hands over the documents of the stream**, as far
    as what only looks past the log can see, and then tells how it ended. -/
theorem accompany_eq (d : Daemon δ) (w : Watcher τ) (obs : τ → β)
    (hlog : ∀ line t, obs (w.log line t) = obs t) (spec : Spec) (s : Exchange δ × τ)
    {frames : List Bytes} (hclose : (d.attachment s.1.daemon).Closes spec.timeout frames)
    (hfit : ∀ x ∈ Splitter.documents spec.delimiter frames.flatten,
      x.length ≤ defaultChunkLimit) :
    let v := w.handAll spec.identity (Splitter.documents spec.delimiter frames.flatten)
      (w.notice (.started spec.identity) s.2)
    let r := d.accompany w spec s
    ∃ t, obs t = obs v.2 ∧ r.2.2 = w.noticeOutcome spec.identity r.1 t ∧
      r.1.stopped = decide (v.1 = .stop) := by
  obtain ⟨t, trouble, hobs, hend, hstopped, -⟩ := d.accompany_course hlog spec s
  rw [Attachment.chunks_of_closes hclose hfit] at hobs hstopped
  exact ⟨t, hobs, hend, hstopped⟩

/-! ## Section 3: Whole sessions -/

/-- The container of the specification can be created. -/
def Creates (d : Daemon δ) (spec : Spec) (x : Exchange δ) : Prop :=
  ∃ image, spec.image = some image ∧ ∃ x', d.create spec image x = (.ok (), x')

/-- The exchange after a container that was created has been started, if it can be. -/
def launched? (d : Daemon δ) (name : String) (x : Exchange δ) : Option (Exchange δ) :=
  match d.ask (.attach name) x with
  | (.error _, _) => none
  | (.ok _, x) =>
    match d.ask (.start name) x with
    | (.error _, _) => none
    | (.ok _, x) => some x

/-- The exchange after the container of the specification has been started, if it can be. -/
def started? (d : Daemon δ) (spec : Spec) (x : Exchange δ) : Option (Exchange δ) :=
  match spec.image with
  | none => none
  | some image =>
    match d.create spec image x with
    | (.error _, _) => none
    | (.ok _, x) => d.launched? spec.name x

/-- What a watcher has been told when the output of its container is about to be followed. -/
def atStart (w : Watcher τ) (spec : Spec) (t : τ) : τ :=
  w.notice (.started spec.identity) (w.log (creationLine spec (spec.image.getD "")) t)

/-- What the daemon is asked until a container is started. -/
def launchRequests (spec : Spec) : List Request :=
  [.create spec (spec.image.getD ""), .attach spec.name, .start spec.name]

section sessions

variable (d : Daemon δ) (w : Watcher τ) {obs : τ → β} (hlog : ∀ line t, obs (w.log line t) = obs t)
  (spec : Spec)

theorem launch_of_launched {s : Exchange δ × τ} {x : Exchange δ}
    (h : d.launched? spec.name s.1 = some x) :
    x.requests = s.1.requests ++ [.attach spec.name, .start spec.name] ∧
      d.launch w spec s =
        (.ok (d.accompany w spec (x, s.2)).1, (d.accompany w spec (x, s.2)).2) := by
  unfold launched? at h
  have hattached := d.ask_requests (.attach spec.name) s.1
  rcases hattach : d.ask (.attach spec.name) s.1 with ⟨_ | _, x₁⟩ <;> rw [hattach] at hattached
  · -- Had one of the two requests failed, nothing would have been launched.
    simp [hattach] at h
  have hstarted := d.ask_requests (.start spec.name) x₁
  rcases hstart : d.ask (.start spec.name) x₁ with ⟨_ | _, x₂⟩ <;> rw [hstart] at hstarted
  · simp [hattach, hstart] at h
  simp only [hattach, hstart, Option.some.injEq] at h hattached hstarted
  subst h
  exact ⟨by simp [hstarted, hattached], by simp only [launch, hattach, hstart]⟩

/-- A container that was created but cannot be started is removed. -/
theorem launch_of_not_launched {s : Exchange δ × τ} (h : d.launched? spec.name s.1 = none) :
    ∃ failure x before, before <+: [.attach spec.name, .start spec.name] ∧
      x.requests = s.1.requests ++ before ∧
      d.launch w spec s = (.error failure, d.remove w spec.name (x, s.2)) := by
  unfold launched? at h
  have hattached := d.ask_requests (.attach spec.name) s.1
  rcases hattach : d.ask (.attach spec.name) s.1 with ⟨_ | _, x₁⟩ <;> rw [hattach] at hattached
  · -- The start is not asked for if the container could not be attached.
    exact ⟨_, x₁, [.attach spec.name], by simp, hattached, by simp only [launch, hattach]; rfl⟩
  have hstarted := d.ask_requests (.start spec.name) x₁
  rcases hstart : d.ask (.start spec.name) x₁ with ⟨_ | _, x₂⟩ <;> rw [hstart] at hstarted
  · dsimp only at hattached hstarted
    exact ⟨_, x₂, [.attach spec.name, .start spec.name], List.prefix_rfl,
      by simp [hstarted, hattached], by simp only [launch, hattach, hstart]; rfl⟩
  · simp [hattach, hstart] at h

theorem run_of_created {s : Exchange δ × τ} {image : String} {x : Exchange δ}
    (himage : spec.image = some image) (hcreate : d.create spec image s.1 = (.ok (), x)) :
    x.requests = s.1.requests ++ [.create spec image] ∧
      d.run spec w s = d.launch w spec (x, w.log (creationLine spec image) s.2) := by
  have hasked := d.create_requests spec image s.1
  rw [hcreate] at hasked
  rcases hasked with hasked | ⟨⟨_, herror⟩, -⟩
  · exact ⟨hasked, by simp only [run, himage, hcreate]⟩
  · cases herror

/-- A session whose container was started accompanies it. -/
theorem run_eq_accompany {s : Exchange δ × τ} {x : Exchange δ}
    (h : d.started? spec s.1 = some x) :
    d.Creates spec s.1 ∧ x.requests = s.1.requests ++ launchRequests spec ∧
      let r := d.accompany w spec (x, w.log (creationLine spec (spec.image.getD "")) s.2)
      d.run spec w s = (.ok r.1, r.2) := by
  unfold started? at h
  rcases himage : spec.image with _ | image
  · simp [himage] at h
  rcases hcreate : d.create spec image s.1 with ⟨_ | _, x₁⟩
  · simp [himage, hcreate] at h
  simp only [himage, hcreate] at h
  obtain ⟨hcreated, hrun⟩ := d.run_of_created w spec himage hcreate
  obtain ⟨hlaunched, hlaunch⟩ :=
    d.launch_of_launched w spec (s := (x₁, w.log (creationLine spec image) s.2)) h
  refine ⟨⟨image, himage, x₁, hcreate⟩, ?_, hrun.trans hlaunch⟩
  simp [hlaunched, hcreated, launchRequests, himage]

include hlog

theorem run_of_not_created {s : Exchange δ × τ} (h : ¬ d.Creates spec s.1) :
    ∃ failure x t calls, d.run spec w s = (.error failure, x, t) ∧ obs t = obs s.2 ∧
      x.requests = s.1.requests ++ calls ∧ calls <+: [.create spec (spec.image.getD "")] := by
  rcases himage : spec.image with _ | image
  · -- Without an image the daemon is not asked.
    exact ⟨_, s.1, s.2, [], by simp only [run, himage]; rfl, rfl, (List.append_nil _).symm,
      List.nil_prefix⟩
  have hasked := d.create_requests spec image s.1
  rcases hcreate : d.create spec image s.1 with ⟨failure | _, x⟩ <;> rw [hcreate] at hasked
  · -- Without a request there is nothing to be asked of the daemon at all.
    have hrun : d.run spec w s = (.error failure, x, w.log (creationLine spec image) s.2) := by
      simp only [run, himage, hcreate]
    rcases hasked with hasked | ⟨-, hasked⟩
    · exact ⟨failure, x, _, [.create spec image], hrun, hlog _ _, hasked, List.prefix_rfl⟩
    · exact ⟨failure, x, _, [], hrun, hlog _ _, by rw [List.append_nil]; exact hasked,
        List.nil_prefix⟩
  · exact absurd ⟨image, himage, x, hcreate⟩ h

/-- **A session whose container was not started fails**, and tells of nothing but log lines.  A
    container that was created is removed by the last request, and there is no other removal. -/
theorem run_of_not_started {s : Exchange δ × τ} (h : d.started? spec s.1 = none) :
    ∃ failure x t calls, d.run spec w s = (.error failure, x, t) ∧ obs t = obs s.2 ∧
      x.requests = s.1.requests ++ calls ∧
      (d.Creates spec s.1 ∧
          (∃ before, before <+: launchRequests spec ∧ calls = before ++ [.remove spec.name]) ∨
        ¬ d.Creates spec s.1 ∧ calls <+: launchRequests spec) := by
  -- What was created is removed again; where nothing was created there is nothing to be removed.
  by_cases hcreates : d.Creates spec s.1
  · obtain ⟨image, himage, x₁, hcreate⟩ := hcreates
    obtain ⟨hasked, hrun⟩ := d.run_of_created w spec himage hcreate
    simp only [started?, himage, hcreate] at h
    obtain ⟨failure, x₂, before, hbefore, hrequests, hlaunch⟩ :=
      d.launch_of_not_launched w spec (s := (x₁, w.log (creationLine spec image) s.2)) h
    let removed := d.remove w spec.name (x₂, w.log (creationLine spec image) s.2)
    have hobs : obs removed.2 = obs s.2 := (d.remove_eq hlog _ _).trans (hlog _ _)
    have hremoved : removed.1.requests = x₂.requests ++ [.remove spec.name] :=
      d.remove_requests w spec.name _
    refine ⟨failure, removed.1, removed.2, .create spec image :: before ++ [.remove spec.name],
      hrun.trans hlaunch, hobs, ?_,
      .inl ⟨⟨image, himage, x₁, hcreate⟩, .create spec image :: before, ?_, rfl⟩⟩
    · simp only [hremoved, hrequests, hasked, List.append_assoc, List.cons_append, List.nil_append]
    · rw [launchRequests, himage, Option.getD_some]
      exact List.prefix_cons_inj _ |>.2 hbefore
  · obtain ⟨failure, x, t, calls, hrun, hobs, hrequests, hcalls⟩ :=
      d.run_of_not_created w hlog spec hcreates
    refine ⟨failure, x, t, calls, hrun, hobs, hrequests, .inr ⟨hcreates, hcalls.trans ?_⟩⟩
    exact List.prefix_append [Request.create spec (spec.image.getD "")] _

/-- **A session whose container was started ends well.**  What it has handed over, how it tells
    the end and what it has asked follow from what the stream has brought by the deadline. -/
theorem run_of_started {s : Exchange δ × τ} {x : Exchange δ} (h : d.started? spec s.1 = some x) :
    let a := d.attachment x.daemon
    let t := atStart w spec s.2
    let v := w.handAll spec.identity (a.chunks spec) t
    let l := leave w spec a t
    ∃ outcome x' t' trouble,
      d.run spec w s = (.ok outcome, x', w.noticeOutcome spec.identity outcome t') ∧
      obs t' = obs v.2 ∧ outcome.stopped = decide (v.1 = .stop) ∧
      outcome.timedOut = decide (l = .deadline) ∧ outcome.error = l.error.or trouble ∧
      d.Creates spec s.1 ∧
      x'.requests = s.1.requests ++ (launchRequests spec ++ (l.requests spec.name ++
        .wait spec.name :: if spec.autoRemove then [.remove spec.name] else [])) := by
  intro a t v l
  obtain ⟨hcreates, hstart, hrun⟩ := d.run_eq_accompany w spec h
  obtain ⟨t', trouble, hobs, hend, hstopped, htimed, herror, hrequests⟩ :=
    d.accompany_course hlog spec (x, w.log (creationLine spec (spec.image.getD "")) s.2)
  refine ⟨_, _, t', trouble, hrun.trans ?_, hobs, hstopped, htimed, herror, hcreates,
    hrequests.trans ?_⟩
  · rw [← hend]
  · simp [hstart, l, a, t, atStart]

end sessions

end StackSurvey.Container.Daemon
