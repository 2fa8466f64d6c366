import StackSurvey.Proofs.Container.Course

/-! # What a session comes to

    A session that gets its container started follows the output of the container, and the rest
    depends on how that was left.  `run_of_followed` takes such a session apart. -/

namespace StackSurvey.Container.Daemon

variable {δ τ β : Type}

/-- What following the container of a specification comes to, if it can be started: the exchange
    at its start, how its output was left, and what was gathered. -/
def followed? (d : Daemon δ) (spec : Spec) (w : Watcher τ) (s : Exchange δ × τ) :
    Option (Exchange δ × Leave × Gathered τ) :=
  match spec.image with
  | none => none
  | some image =>
    match d.create spec image s.1 with
    | (.error _, _) => none
    | (.ok _, x) =>
      match d.ask (.attach spec.name) x with
      | (.error _, _) => none
      | (.ok _, x) =>
        match d.ask (.start spec.name) x with
        | (.error _, _) => none
        | (.ok _, x) =>
          some (x, follow w spec.identity spec.timeout (d.attachment x.daemon).ending
            (d.attachment x.daemon).frames
            { splitter := .ofDelimiter spec.delimiter
              stderr := .ofLimit spec.errorLimit
              watcher := w.notice (.started spec.identity) (w.log (creationLine spec image) s.2) })

section followed

variable {d : Daemon δ} {w : Watcher τ} {spec : Spec} {s : Exchange δ × τ} {x : Exchange δ}
  {leave : Leave} {g : Gathered τ}

/-- A container is followed once it has been started. -/
theorem followed?_eq_some (h : d.followed? spec w s = some (x, leave, g)) :
    d.started? spec s.1 = some x ∧
      follow w spec.identity spec.timeout (d.attachment x.daemon).ending
        (d.attachment x.daemon).frames
        { splitter := .ofDelimiter spec.delimiter
          stderr := .ofLimit spec.errorLimit
          watcher := atStart w spec s.2 } = (leave, g) := by
  unfold followed? at h
  -- Each step that fails leaves nothing to be followed.
  rcases himage : spec.image with _ | image
  · simp [himage] at h
  rcases hcreate : d.create spec image s.1 with ⟨_ | created, x₁⟩
  · simp [himage, hcreate] at h
  rcases hattach : d.ask (.attach spec.name) x₁ with ⟨_ | attached, x₂⟩
  · simp [himage, hcreate, hattach] at h
  rcases hstart : d.ask (.start spec.name) x₂ with ⟨_ | started, x₃⟩
  · simp [himage, hcreate, hattach, hstart] at h
  simp only [himage, hcreate, hattach, hstart, Option.some.injEq, Prod.mk.injEq] at h
  obtain ⟨rfl, hfollow⟩ := h
  refine ⟨by simp only [started?, himage, hcreate, launched?, hattach, hstart], ?_⟩
  simpa only [atStart, himage, Option.getD_some] using hfollow

/-- **A session whose container was started ends well**, with an outcome that tells how the
    output was left and what became of the container. -/
theorem run_of_followed (obs : τ → β) (hlog : ∀ line t, obs (w.log line t) = obs t)
    (h : d.followed? spec w s = some (x, leave, g)) :
    let settled := d.settle w spec leave g.splitter (x, g.watcher)
    let exit := (d.wait spec.name settled.2.2.1).1
    ∃ outcome x' t, d.run spec w s = (.ok outcome, x', w.noticeOutcome spec.identity outcome t) ∧
      obs t = obs settled.2.2.2 ∧ outcome.exitStatus = exit.toOption.join ∧
      outcome.stopped = decide (settled.1 = .stop) ∧
      outcome.timedOut = decide (leave = .deadline) ∧
      outcome.error = settled.2.1.or (match exit with | .ok _ => none | .error e => some e) := by
  obtain ⟨hstarted, hfollow⟩ := followed?_eq_some h
  obtain ⟨-, -, hrun⟩ := d.run_eq_accompany w spec hstarted
  obtain ⟨t, hobs, hend, hrest⟩ := d.accompany_spec hlog spec
    (x, w.log (creationLine spec (spec.image.getD "")) s.2) hfollow
  rcases hr : d.accompany w spec (x, w.log (creationLine spec (spec.image.getD "")) s.2)
    with ⟨outcome, x', t'⟩
  rw [hr] at hrun hend hrest
  exact ⟨outcome, x', t, by rw [hrun, ← hend], hobs, hrest⟩

/-- Following a container keeps what log lines, the start and every chunk keep. -/
theorem followed_keeps {P : τ → Prop} (hlog : ∀ line t, P t → P (w.log line t))
    (hstart : ∀ t, P t → P (w.notice (.started spec.identity) t))
    (hhand : ∀ chunk t, P t → P (w.hand spec.identity chunk t).2) (hs : P s.2)
    (h : d.followed? spec w s = some (x, leave, g)) : P g.watcher := by
  obtain ⟨-, hfollow⟩ := followed?_eq_some h
  have hkept := Watcher.follow_keeps hhand spec.timeout (d.attachment x.daemon).ending
    (d.attachment x.daemon).frames
    (g := { splitter := .ofDelimiter spec.delimiter
            stderr := .ofLimit spec.errorLimit
            watcher := atStart w spec s.2 })
    (hstart _ (hlog _ _ hs))
  rwa [hfollow] at hkept

end followed

end StackSurvey.Container.Daemon
