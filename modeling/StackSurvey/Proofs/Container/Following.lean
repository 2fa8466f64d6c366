import StackSurvey.Container.Session
import StackSurvey.Proofs.Container.Record

/-! # Following an attached stream

    A session hears of its container through the attached stream alone.  What has arrived by the
    deadline, and how the stream ends for someone who waits no longer, decide which chunks are
    handed over (`follow_eq_handAll`) and how the output is left (`leave`). -/

namespace StackSurvey.Container

open Daemon (Leave leaveAt)

/-! ## Section 1: What arrives by the deadline -/

/-- The bytes of a frame of the output channel. -/
def Frame.output? : Frame → Option Bytes
  | .stdout bytes => some bytes
  | .stderr _ | .other _ => none

namespace Attachment

/-- What a stream carries on the output channel, frame by frame. -/
def output (frames : List (Duration × Frame)) : List Bytes := frames.filterMap (·.2.output?)

/-- The stream carries `frames` on the output channel, and is closed before the deadline. -/
structure Closes (a : Attachment) (deadline : Duration) (frames : List Bytes) : Prop where
  inTime : ∀ x ∈ a.frames, x.1.milliseconds ≤ deadline.milliseconds
  closed : ∃ time, a.ending = some (time, .closed) ∧ time.milliseconds ≤ deadline.milliseconds
  output_eq : output a.frames = frames

/-- The stream is still open at the deadline: a frame or its end comes later, or it has no end. -/
def OpenAt (a : Attachment) (deadline : Duration) : Prop :=
  (∃ x ∈ a.frames, deadline.milliseconds < x.1.milliseconds) ∨
    ∀ time ending, a.ending = some (time, ending) → deadline.milliseconds < time.milliseconds

/-- The stream fails for that reason, and does so by the deadline. -/
def Breaks (a : Attachment) (deadline : Duration) (reason : String) : Prop :=
  ¬ a.OpenAt deadline ∧ ∃ time, a.ending = some (time, .broken reason)

/-- The frames of the output channel up to the first frame that comes too late. -/
def received (a : Attachment) (deadline : Duration) : List Bytes :=
  output (a.frames.takeWhile fun x => x.1.milliseconds ≤ deadline.milliseconds)

/-- How the stream ends for someone who waits until the deadline and wants all of it. -/
def fate (a : Attachment) (deadline : Duration) : Leave :=
  if a.frames.all fun x => x.1.milliseconds ≤ deadline.milliseconds then leaveAt deadline a.ending
  else .deadline

/-- The chunks that frames complete by the deadline. -/
def completed (a : Attachment) (spec : Spec) : List Bytes :=
  (Splitter.feed (a.received spec.timeout) (.ofDelimiter spec.delimiter)).1

/-- The bytes after the last complete chunk, as a chunk. -/
def remainder (a : Attachment) (spec : Spec) : List Bytes :=
  Splitter.rest (Splitter.feed (a.received spec.timeout) (.ofDelimiter spec.delimiter)).2.buffer

/-- All chunks that a session may hand over.  What is left at the end is one of them only if the
    stream is closed in time. -/
def chunks (a : Attachment) (spec : Spec) : List Bytes :=
  a.completed spec ++ if a.fate spec.timeout = .closed then a.remainder spec else []

variable {a : Attachment} {deadline : Duration}

/-- A stream without an end is open at every deadline. -/
theorem openAt_of_endless (h : a.ending = none) : a.OpenAt deadline :=
  .inr fun _ _ hend => nomatch h.symm.trans hend

theorem fate_of_openAt (h : a.OpenAt deadline) : a.fate deadline = .deadline := by
  unfold fate
  -- Open at the deadline is a stream with a frame that comes late, or one whose end does.
  rcases h with ⟨x, hx, hlate⟩ | hend
  · rw [if_neg]
    intro hall
    have hin := of_decide_eq_true (List.all_eq_true.1 hall x hx)
    omega
  · split
    · unfold leaveAt
      split
      · rfl
      · next heq => rw [if_pos (hend _ _ heq)]
    · rfl

/-- A stream that is not open any more has ended, and its end is how it is left. -/
theorem fate_of_not_openAt (h : ¬ a.OpenAt deadline) :
    ∃ time ending, a.ending = some (time, ending) ∧
      a.fate deadline = match ending with
        | .closed => .closed
        | .broken reason => .broken reason := by
  simp only [OpenAt, not_or, not_exists, not_and, not_forall, Nat.not_lt] at h
  obtain ⟨hframes, time, ending, hend, htime⟩ := h
  refine ⟨time, ending, hend, ?_⟩
  have hall : (a.frames.all fun x => x.1.milliseconds ≤ deadline.milliseconds) = true :=
    List.all_eq_true.2 fun x hx => decide_eq_true (hframes x hx)
  cases ending <;> simp only [fate, hall, if_true, hend, leaveAt, if_neg (Nat.not_lt.2 htime)]

theorem fate_eq_deadline_iff : a.fate deadline = .deadline ↔ a.OpenAt deadline := by
  refine ⟨fun hfate => by_contra fun hopen => ?_, fate_of_openAt⟩
  obtain ⟨time, _ | reason, -, h⟩ := fate_of_not_openAt hopen <;> rw [h] at hfate <;> cases hfate

theorem fate_ne_declined : a.fate deadline ≠ .declined := by
  by_cases hopen : a.OpenAt deadline
  · rw [fate_of_openAt hopen]
    exact nofun
  · obtain ⟨time, _ | reason, -, h⟩ := fate_of_not_openAt hopen <;> rw [h] <;> exact nofun

theorem fate_eq_broken_iff {reason : String} :
    a.fate deadline = .broken reason ↔ a.Breaks deadline reason := by
  by_cases hopen : a.OpenAt deadline
  · rw [fate_of_openAt hopen]
    exact iff_of_false nofun fun h => h.1 hopen
  · obtain ⟨time, _ | reason', hend, h⟩ := fate_of_not_openAt hopen <;>
      simp [h, Breaks, hopen, hend]

theorem fate_eq_closed_iff :
    a.fate deadline = .closed ↔
      ¬ a.OpenAt deadline ∧ ∀ reason, ¬ a.Breaks deadline reason := by
  rw [← fate_eq_deadline_iff]
  simp only [← fate_eq_broken_iff]
  have hne : a.fate deadline ≠ .declined := fate_ne_declined
  cases hfate : a.fate deadline with
  | closed => simp
  | declined => exact absurd hfate hne
  | broken reason => simp
  | deadline => simp

theorem received_cons_late {x : Duration × Frame} (frames : List (Duration × Frame))
    (ending : Option (Duration × Ending)) (h : deadline.milliseconds < x.1.milliseconds) :
    (Attachment.mk (x :: frames) ending).received deadline = [] := by
  simp [received, output, Nat.not_le.2 h]

theorem received_cons {x : Duration × Frame} (frames : List (Duration × Frame))
    (ending : Option (Duration × Ending)) (h : ¬ deadline.milliseconds < x.1.milliseconds) :
    (Attachment.mk (x :: frames) ending).received deadline =
      x.2.output?.toList ++ (Attachment.mk frames ending).received deadline := by
  cases hx : x.2.output? <;> simp [received, output, Nat.not_lt.1 h, hx]

theorem fate_cons {x : Duration × Frame} (frames : List (Duration × Frame))
    (ending : Option (Duration × Ending)) (h : ¬ deadline.milliseconds < x.1.milliseconds) :
    (Attachment.mk (x :: frames) ending).fate deadline =
      (Attachment.mk frames ending).fate deadline := by
  simp only [fate, List.all_cons, decide_eq_true (Nat.not_lt.1 h), Bool.true_and]

section closing

variable {frames : List Bytes} (hclose : a.Closes deadline frames)
include hclose

theorem fate_of_closes : a.fate deadline = .closed := by
  obtain ⟨hin, ⟨time, hending, htime⟩, -⟩ := hclose
  have hopen : ¬ a.OpenAt deadline := by
    rintro (⟨x, hx, hlate⟩ | hend)
    · exact Nat.not_lt.2 (hin x hx) hlate
    · exact Nat.not_lt.2 htime (hend time _ hending)
  exact fate_eq_closed_iff.2 ⟨hopen, fun reason h => by simp [Breaks, hending] at h⟩

theorem received_of_closes : a.received deadline = frames := by
  rw [received, List.takeWhile_eq_self_iff.2 fun x hx => decide_eq_true (hclose.inTime x hx),
    hclose.output_eq]

end closing

/-- A stream that is closed in time brings its documents, as far as they fit. -/
theorem chunks_of_closes {spec : Spec} {frames : List Bytes} (hclose : a.Closes spec.timeout frames)
    (hfit : ∀ x ∈ Splitter.documents spec.delimiter frames.flatten,
      x.length ≤ defaultChunkLimit) :
    a.chunks spec = Splitter.documents spec.delimiter frames.flatten := by
  obtain ⟨hcomplete, htail⟩ := Splitter.feed_ofDelimiter hfit
  rw [chunks, if_pos (fate_of_closes hclose), completed, remainder, received_of_closes hclose,
    hcomplete, htail, Splitter.documents]

end Attachment

/-! ## Section 2: How the output is left -/

namespace Daemon

variable {τ : Type}

/-- Following a stream hands over the chunks that are completed by the deadline.  If all of them
    are welcome, the stream is left in the way in which it ends. -/
theorem follow_eq_handAll (w : Watcher τ) (who : Identity) (deadline : Duration) (a : Attachment)
    (g : Gathered τ) :
    let fed := Splitter.feed (a.received deadline) g.splitter
    let v := w.handAll who fed.1 g.watcher
    ∃ splitter stderr, follow w who deadline a.ending a.frames g =
        (match v.1 with | .stop => .declined | .continue => a.fate deadline,
          { splitter, stderr, watcher := v.2 }) ∧
      (v.1 = .continue → splitter = fed.2) := by
  obtain ⟨frames, ending⟩ := a
  induction frames generalizing g with
  | nil => exact ⟨g.splitter, g.stderr, rfl, fun _ => rfl⟩
  | cons x frames ih =>
    by_cases hlate : deadline.milliseconds < x.1.milliseconds
    · rw [Attachment.received_cons_late frames ending hlate,
        Attachment.fate_of_openAt (.inl ⟨x, List.mem_cons_self, hlate⟩)]
      exact ⟨g.splitter, g.stderr, by simp only [follow, if_pos hlate]; rfl, fun _ => rfl⟩
    · rw [Attachment.received_cons frames ending hlate, Attachment.fate_cons frames ending hlate]
      simp only [follow, if_neg hlate]
      -- Only a frame of output reaches the splitter and the watcher.
      rcases x.2 with bytes | bytes | bytes <;>
        simp only [Frame.output?, Option.toList, List.nil_append, List.singleton_append]
      · obtain ⟨s₁, hdeliver, hcont⟩ := w.deliver_eq who (g.splitter.push bytes) g.watcher
        simp only [Splitter.feed, Watcher.handAll_append]
        rcases hv : w.handAll who (g.splitter.push bytes).drain.1 g.watcher with ⟨_ | _, t⟩ <;>
          rw [hv] at hdeliver hcont <;> simp only [hdeliver]
        · obtain rfl := hcont rfl
          exact ih { g with splitter := (g.splitter.push bytes).drain.2, watcher := t }
        · exact ⟨s₁, g.stderr, rfl, fun hcontinue => by cases hcontinue⟩
      · exact ih { g with stderr := g.stderr.push bytes }
      · exact ih g

/-- How a session leaves the output of its container. -/
def leave (w : Watcher τ) (spec : Spec) (a : Attachment) (t : τ) : Leave :=
  match (w.handAll spec.identity (a.completed spec) t).1 with
  | .stop => .declined
  | .continue => a.fate spec.timeout

/-- A session follows its stream until it is left, and has then handed over what was completed. -/
theorem follow_leave (w : Watcher τ) (spec : Spec) (a : Attachment) (t : τ) :
    let v := w.handAll spec.identity (a.completed spec) t
    ∃ g : Gathered τ, follow w spec.identity spec.timeout a.ending a.frames
        { splitter := .ofDelimiter spec.delimiter
          stderr := .ofLimit spec.errorLimit
          watcher := t } = (leave w spec a t, g) ∧
      g.watcher = v.2 ∧
      (v.1 = .continue →
        g.splitter = (Splitter.feed (a.received spec.timeout) (.ofDelimiter spec.delimiter)).2) := by
  obtain ⟨splitter, stderr, hfollow, hsplitter⟩ := follow_eq_handAll w spec.identity spec.timeout a
    { splitter := .ofDelimiter spec.delimiter, stderr := .ofLimit spec.errorLimit, watcher := t }
  exact ⟨_, hfollow, rfl, hsplitter⟩

/-! ## Section 3: Whether more output is wanted -/

/-- More output is not wanted while the stream is open: a chunk that was completed by the
    deadline is answered so. -/
def Declines (w : Watcher τ) (spec : Spec) (a : Attachment) (t : τ) : Prop :=
  ∃ chunk, (chunk, .stop) ∈ w.answers spec.identity (a.completed spec) t

section leaving

variable {w : Watcher τ} {spec : Spec} {a : Attachment} {t : τ}

theorem leave_of_not_declines (h : ¬ Declines w spec a t) :
    leave w spec a t = a.fate spec.timeout := by
  unfold Declines at h
  rw [← Watcher.handAll_eq_stop_iff] at h
  unfold leave
  cases hv : (w.handAll spec.identity (a.completed spec) t).1 with
  | stop => exact absurd hv h
  | «continue» => rfl

/-- Who welcomes all chunks welcomes those that are completed while the stream is open. -/
theorem not_declines_of_welcome
    (h : ∀ chunk, (chunk, .stop) ∉ w.answers spec.identity (a.chunks spec) t) :
    ¬ Declines w spec a t := by
  unfold Declines
  rw [← not_exists, ← Watcher.handAll_eq_stop_iff, Attachment.chunks, Watcher.handAll_append] at h
  rw [← Watcher.handAll_eq_stop_iff]
  rcases hv : w.handAll spec.identity (a.completed spec) t with ⟨_ | _, t'⟩
  · exact nofun
  · rw [hv] at h
    exact absurd rfl h

theorem leave_of_declines (h : Declines w spec a t) : leave w spec a t = .declined := by
  simp only [leave, (Watcher.handAll_eq_stop_iff w spec.identity).2 h]

theorem leave_eq_declined_iff : leave w spec a t = .declined ↔ Declines w spec a t := by
  refine ⟨fun hleave => by_contra fun h => ?_, leave_of_declines⟩
  exact Attachment.fate_ne_declined ((leave_of_not_declines h).symm.trans hleave)

end leaving

end Daemon
end StackSurvey.Container
