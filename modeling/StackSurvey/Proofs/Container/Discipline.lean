import StackSurvey.Proofs.Container.Course

/-! # What is told of a session

    A session that fails tells nothing and hands nothing over.  Any other one tells the start
    first and the end last, and in between every chunk that it hands over, in the order of the
    stream, until the first answer that wants no more.  What is handed over was completed before
    the deadline, and what is left at the end of the stream is handed over only if the stream
    was closed by itself. -/

namespace StackSurvey.Container

open Watcher (Act)

variable {δ τ : Type}

/-! ## Section 1: Recorded sessions -/

namespace Daemon

theorem leave_recorded (w : Watcher τ) (spec : Spec) (a : Attachment) (acts : List Act) (t : τ) :
    leave w.recorded spec a (acts, t) = leave w spec a t := by
  simp only [leave, Watcher.recorded_handAll]

section recorded

variable (d : Daemon δ) (w : Watcher τ) (spec : Spec) {s : Exchange δ × τ}

theorem recorded_run_of_not_started (h : d.started? spec s.1 = none) :
    ∃ failure x t, d.run spec w.recorded (s.1, [], s.2) = (.error failure, x, [], t) := by
  obtain ⟨failure, x, t, -, hrun, hacts, -⟩ :=
    d.run_of_not_started w.recorded w.recorded_log spec (s := (s.1, [], s.2)) h
  refine ⟨failure, x, t.2, hrun.trans ?_⟩
  rw [← show t.1 = [] from hacts]

/-- The record of a session whose container was started: the start, the chunks that are handed
    over with their answers, and the end. -/
theorem recorded_run_of_started {x : Exchange δ} (h : d.started? spec s.1 = some x) :
    let a := d.attachment x.daemon
    let t := atStart w spec s.2
    let given := w.answers spec.identity (a.chunks spec) t
    let l := leave w spec a t
    ∃ outcome x' t' trouble,
      d.run spec w.recorded (s.1, [], s.2) =
        (.ok outcome, x',
          .notice (.started spec.identity) :: given.flatMap (Watcher.handing spec.identity) ++
            [.notice (.ofOutcome spec.identity outcome)], t') ∧
      outcome.timedOut = decide (l = .deadline) ∧ outcome.error = l.error.or trouble ∧
      x'.requests = s.1.requests ++ (launchRequests spec ++ (l.requests spec.name ++
        .wait spec.name :: if spec.autoRemove then [.remove spec.name] else [])) := by
  intro a t given l
  obtain ⟨outcome, x', ⟨told, t'⟩, trouble, hrun, hacts, -, htimed, herror, -, hrequests⟩ :=
    d.run_of_started w.recorded w.recorded_log spec (s := (s.1, [], s.2)) h
  have hstart : atStart w.recorded spec ([], s.2) = ([.notice (.started spec.identity)], t) := rfl
  rw [hstart, leave_recorded] at htimed herror hrequests
  rw [hstart, Watcher.recorded_handAll] at hacts
  obtain rfl : told = _ := hacts
  exact ⟨outcome, x', w.noticeOutcome spec.identity outcome t', trouble, hrun, htimed, herror,
    hrequests⟩

end recorded
end Daemon

/-! ## Section 2: Order -/

/-- The record `acts` of a session with that stream is in order.  The chunks that were handed over
    are `given`, each with its answer. -/
structure Orderly (spec : Spec) (a : Attachment) (given : List (Bytes × Control))
    (outcome : Outcome) (acts : List Act) : Prop where
  /-- The start is told first and the end last, and each chunk is an event and then a question
      about the same bytes. -/
  told : acts = .notice (.started spec.identity) :: given.flatMap (Watcher.handing spec.identity) ++
    [.notice (.ofOutcome spec.identity outcome)]
  /-- Nothing is handed over after an answer that wants no more. -/
  last : ∀ before chunk after, given = before ++ (chunk, .stop) :: after → after = []
  /-- The chunks are those of the stream, from the first one on. -/
  source : given.map Prod.fst <+: a.completed spec ++ a.remainder spec
  /-- Neither after the deadline nor after a failure of the stream is anything handed over. -/
  cut : (a.OpenAt spec.timeout ∨ ∃ reason, a.Breaks spec.timeout reason) →
    given.map Prod.fst <+: a.completed spec
  /-- As long as more is wanted no chunk is left out. -/
  whole : (∀ chunk, (chunk, .stop) ∉ given) → given.map Prod.fst = a.chunks spec
  /-- The error of the stream is kept, whatever goes wrong later. -/
  error : ∀ reason, a.Breaks spec.timeout reason → (∀ chunk, (chunk, .stop) ∉ given) →
    outcome.error = some ("output stream failed: " ++ reason)

/-- A stream that is cut off leaves nothing behind. -/
theorem Attachment.chunks_of_cut {a : Attachment} {spec : Spec}
    (h : a.OpenAt spec.timeout ∨ ∃ reason, a.Breaks spec.timeout reason) :
    a.chunks spec = a.completed spec := by
  have hfate : a.fate spec.timeout ≠ .closed := by
    intro hclosed
    obtain ⟨hopen, hbreaks⟩ := Attachment.fate_eq_closed_iff.1 hclosed
    exact h.elim hopen fun ⟨reason, h⟩ => hbreaks reason h
  rw [Attachment.chunks, if_neg hfate, List.append_nil]

theorem Attachment.chunks_prefix (a : Attachment) (spec : Spec) :
    a.chunks spec <+: a.completed spec ++ a.remainder spec := by
  unfold Attachment.chunks
  split
  · exact List.prefix_rfl
  · exact List.prefix_append_right_inj _ |>.2 List.nil_prefix

/-- **Every session is in order**: one that fails tells nothing, and any other one tells the start
    of its container, each chunk that it hands over, and the end. -/
theorem Daemon.run_orderly (d : Daemon δ) (spec : Spec) (w : Watcher τ) (s : Exchange δ × τ) :
    match d.run spec w.recorded (s.1, [], s.2) with
    | (.error _, _, acts, _) => acts = []
    | (.ok outcome, _, acts, _) => ∃ x given, d.started? spec s.1 = some x ∧
        Orderly spec (d.attachment x.daemon) given outcome acts := by
  rcases hstarted : d.started? spec s.1 with _ | x
  · obtain ⟨failure, x, t, hrun⟩ := d.recorded_run_of_not_started w spec hstarted
    rw [hrun]
  -- All fields are read off one equation for what the recorder has seen.
  obtain ⟨outcome, x', t', trouble, hrun, -, herror, -⟩ := d.recorded_run_of_started w spec hstarted
  rw [hrun]
  refine ⟨x, _, rfl, rfl, fun before chunk after => w.answers_stop_last spec.identity,
    (w.answers_prefix _ _ _).trans (Attachment.chunks_prefix _ spec), fun hcut => ?_,
    w.map_fst_answers spec.identity, fun reason hbreaks hwelcome => ?_⟩
  · exact Attachment.chunks_of_cut hcut ▸ w.answers_prefix _ _ _
  · rw [herror, Daemon.leave_of_not_declines (Daemon.not_declines_of_welcome hwelcome),
      Attachment.fate_eq_broken_iff.2 hbreaks]
    rfl

end StackSurvey.Container
