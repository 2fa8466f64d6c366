import StackSurvey.Container.ScriptedDaemon
import StackSurvey.Proofs.Container.Discipline
import StackSurvey.Proofs.Stream.CappedBuffer

/-! # Interleaving of channels

    The frames of both channels of a container share one stream, in whatever order they come.  A
    session whose stream is closed in time, and that is not asked to stop before, cannot tell one
    order from another: what it hands over, what it tells and how it ends depend on the bytes of
    each channel alone (`interleaving_irrelevant`).

    * **Channels**: `Attachment.Carries` says which bytes a stream carries on each channel, and
      leaves open how they are cut and mixed.
    * **The error channel**: `follow_stderr` and `accompany_stderr` follow its bytes into the
      outcome.
    * **One session**: `recorded_run_of_carries` tells all of a session from the bytes, the
      consumer and the answer to the question for the exit status. -/

namespace StackSurvey.Container

/-! ## Section 1: What a stream carries -/

/-- The bytes of a frame of the error channel. -/
def Frame.error? : Frame → Option Bytes
  | .stderr bytes => some bytes
  | .stdout _ | .other _ => none

namespace Attachment

/-- What a stream carries on the error channel, frame by frame. -/
def errors (frames : List (Duration × Frame)) : List Bytes := frames.filterMap (·.2.error?)

/-- The stream is closed by the deadline, and until then it carries the bytes `out` on the output
    channel and the bytes `err` on the error channel. -/
structure Carries (a : Attachment) (deadline : Duration) (out err : Bytes) : Prop where
  inTime : ∀ x ∈ a.frames, x.1.milliseconds ≤ deadline.milliseconds
  closed : ∃ time, a.ending = some (time, .closed) ∧ time.milliseconds ≤ deadline.milliseconds
  out_eq : (output a.frames).flatten = out
  err_eq : (errors a.frames).flatten = err

variable {a : Attachment} {deadline : Duration} {out err : Bytes}

theorem Carries.closes (h : a.Carries deadline out err) : a.Closes deadline (output a.frames) :=
  ⟨h.inTime, h.closed, rfl⟩

/-- The chunks of a stream that carries documents are the documents. -/
theorem Carries.chunks_eq {spec : Spec} (h : a.Carries spec.timeout out err)
    (hfit : ∀ x ∈ Splitter.documents spec.delimiter out, x.length ≤ defaultChunkLimit) :
    a.chunks spec = Splitter.documents spec.delimiter out := by
  have hchunks := chunks_of_closes h.closes (by rw [h.out_eq]; exact hfit)
  rw [hchunks, h.out_eq]

/-- The documents that are complete while the stream is open depend on the bytes alone. -/
theorem Carries.completed_eq {spec : Spec} (h : a.Carries spec.timeout out err)
    (hfit : ∀ x ∈ Splitter.documents spec.delimiter out, x.length ≤ defaultChunkLimit) :
    a.completed spec = Splitter.complete spec.delimiter out := by
  have hframes : ∀ x ∈ Splitter.documents spec.delimiter (output a.frames).flatten,
      x.length ≤ defaultChunkLimit := by
    rw [h.out_eq]
    exact hfit
  obtain ⟨hcomplete, -⟩ := Splitter.feed_ofDelimiter hframes
  rw [completed, received_of_closes h.closes, hcomplete, h.out_eq]

end Attachment

/-! ## Section 2: The error channel -/

namespace Daemon

variable {δ δ' τ : Type}

/-- A stream that is followed to its end leaves the error channel in the buffer, frame by frame. -/
theorem follow_stderr (w : Watcher τ) (who : Identity) (deadline : Duration)
    (ending : Option (Duration × Ending)) {frames : List (Duration × Frame)}
    (hin : ∀ x ∈ frames, x.1.milliseconds ≤ deadline.milliseconds) (g : Gathered τ)
    (hleave : (follow w who deadline ending frames g).1 ≠ .declined) :
    (follow w who deadline ending frames g).2.stderr =
      (Attachment.errors frames).foldl CappedBuffer.push g.stderr := by
  induction frames generalizing g with
  | nil => rfl
  | cons x frames ih =>
    obtain ⟨time, frame⟩ := x
    have hnow : ¬ deadline.milliseconds < time.milliseconds :=
      Nat.not_lt.2 (hin (time, frame) List.mem_cons_self)
    have hrest : ∀ x ∈ frames, x.1.milliseconds ≤ deadline.milliseconds :=
      fun x hx => hin x (List.mem_cons_of_mem _ hx)
    cases frame with
    | stdout bytes =>
      simp only [follow, if_neg hnow] at hleave ⊢
      rcases hdeliver : w.deliver who (g.splitter.push bytes) g.watcher with ⟨_ | _, splitter, t⟩ <;>
        simp only [hdeliver] at hleave ⊢
      · exact ih hrest { g with splitter, watcher := t } hleave
      -- A stream that is declined was not followed to its end.
      · exact absurd rfl hleave
    | stderr bytes =>
      simp only [follow, if_neg hnow] at hleave ⊢
      exact ih hrest { g with stderr := g.stderr.push bytes } hleave
    | other bytes =>
      simp only [follow, if_neg hnow] at hleave ⊢
      exact ih hrest g hleave

/-- What is kept of the error channel is told with the outcome. -/
theorem accompany_stderr (d : Daemon δ) (w : Watcher τ) (spec : Spec) (s : Exchange δ × τ) :
    (d.accompany w spec s).1.stderr =
      (follow w spec.identity spec.timeout (d.attachment s.1.daemon).ending
        (d.attachment s.1.daemon).frames
        { splitter := .ofDelimiter spec.delimiter
          stderr := .ofLimit spec.errorLimit
          watcher := w.notice (.started spec.identity) s.2 }).2.stderr.text := rfl

end Daemon

/-! ## Section 3: One session -/

/-- The outcome but for the time that the container took. -/
def Outcome.untimed (o : Outcome) : Outcome := { o with duration := {} }

/-- The event but for the time that the container took. -/
def Event.untimed : Event → Event
  | .started who => .started who
  | .output who chunk => .output who chunk
  | .finished who o => .finished who o.untimed
  | .timedOut who o => .timedOut who o.untimed
  | .failed who o => .failed who o.untimed

/-- The act but for the time that the container took. -/
def Watcher.Act.untimed : Watcher.Act → Watcher.Act
  | .notice event => .notice event.untimed
  | .accept chunk answer => .accept chunk answer

/-- How the end of a container is told does not depend on the time that it took. -/
theorem Event.untimed_ofOutcome (who : Identity) (o : Outcome) :
    (Event.ofOutcome who o).untimed = Event.ofOutcome who o.untimed := by
  have htimed : o.untimed.timedOut = o.timedOut := rfl
  have hsuccess : o.untimed.isSuccess = o.isSuccess := rfl
  unfold Event.ofOutcome
  rw [htimed, hsuccess]
  split
  · rfl
  · split <;> rfl

/-- How a container has ended, but for the time that it took, whose stream was closed in time
    after it had carried `err` on the error channel: `control` was the last word on its output,
    and `exit` the answer to the question for its exit status. -/
def Outcome.ofClosed (spec : Spec) (err : Bytes) (control : Control)
    (exit : Except String (Option Int)) : Outcome :=
  { exitStatus := exit.toOption.join
    stderr := (CappedBuffer.holding spec.errorLimit err).text
    stopped := control = .stop
    error := match exit with | .ok _ => none | .error e => some e }

namespace Daemon

variable {δ δ' τ : Type}

section carrying

variable (d : Daemon δ) (w : Watcher τ) {spec : Spec} {out err : Bytes}

/-- **The outcome of a container whose stream is closed in time**, but for the time that it took. -/
theorem accompany_of_carries (s : Exchange δ × τ)
    (hcarries : (d.attachment s.1.daemon).Carries spec.timeout out err)
    (hfit : ∀ x ∈ Splitter.documents spec.delimiter out, x.length ≤ defaultChunkLimit)
    (hwelcome : ¬ Declines w spec (d.attachment s.1.daemon)
      (w.notice (.started spec.identity) s.2)) :
    let v := w.handAll spec.identity (Splitter.documents spec.delimiter out)
      (w.notice (.started spec.identity) s.2)
    (d.accompany w spec s).1.untimed =
      .ofClosed spec err v.1 (d.wait spec.name s.1).1 := by
  intro v
  let a := d.attachment s.1.daemon
  let t := w.notice (.started spec.identity) s.2
  have hclosed : leave w spec a t = .closed := by
    rw [leave_of_not_declines hwelcome]
    exact Attachment.fate_of_closes hcarries.closes
  obtain ⟨g, hfollow, hwatcher, hsplitter⟩ := follow_leave w spec a t
  rw [hclosed] at hfollow
  -- The error channel is kept as far as it fits, however it was cut.
  have hstderr : (d.accompany w spec s).1.stderr =
      (CappedBuffer.holding spec.errorLimit err).text := by
    rw [accompany_stderr, follow_stderr w spec.identity spec.timeout _ hcarries.inTime _
      (by rw [hfollow]; exact nofun), CappedBuffer.foldl_push_ofLimit, hcarries.err_eq]
  -- A stream that is closed by itself makes no request, so the exchange is that of the start.
  let obs : τ → Unit := fun _ => ()
  have hlog : ∀ line t, obs (w.log line t) = obs t := fun _ _ => rfl
  obtain ⟨hcontrol, -, -, -⟩ := d.settle_leave hlog spec a s.1 t hsplitter
  obtain ⟨-, -, -, hexit, hstopped, htimed, herror⟩ := d.accompany_spec hlog spec s hfollow
  rw [← hwatcher, hclosed, hcarries.chunks_eq hfit] at hcontrol
  have hexchange : (d.settle w spec .closed g.splitter (s.1, g.watcher)).2.2.1 = s.1 := rfl
  have hnone : (d.settle w spec .closed g.splitter (s.1, g.watcher)).2.1 = none := rfl
  rw [hexchange] at hexit herror
  rw [hnone, Option.none_or] at herror
  rw [hcontrol] at hstopped
  rcases ho : d.accompany w spec s with ⟨⟨exitStatus, stderr, duration, timedOut, stopped, error⟩, s'⟩
  rw [ho] at hstderr hexit hstopped htimed herror
  dsimp only at hstderr hexit hstopped htimed herror
  subst hstderr hexit hstopped htimed herror
  rfl

/-- A record does not change whether output is declined. -/
theorem declines_recorded (a : Attachment) (acts : List Watcher.Act) (t : τ) :
    Declines w.recorded spec a (acts, t) ↔ Declines w spec a t := by
  rw [← leave_eq_declined_iff, leave_recorded, leave_eq_declined_iff]

/-- **All that is told of a session whose stream is closed in time**: the start, the documents
    that are handed over with their answers, and the end of a container with that outcome. -/
theorem recorded_run_of_carries {s x : Exchange δ} {t : τ} (hstarted : d.started? spec s = some x)
    (hcarries : (d.attachment x.daemon).Carries spec.timeout out err)
    (hfit : ∀ x ∈ Splitter.documents spec.delimiter out, x.length ≤ defaultChunkLimit)
    (hwelcome : ¬ Declines w spec (d.attachment x.daemon) (atStart w spec t)) :
    let documents := Splitter.documents spec.delimiter out
    let given := w.answers spec.identity documents (atStart w spec t)
    let control := (w.handAll spec.identity documents (atStart w spec t)).1
    ∃ outcome x' t',
      d.run spec w.recorded (s, [], t) =
        (.ok outcome, x',
          .notice (.started spec.identity) :: given.flatMap (Watcher.handing spec.identity) ++
            [.notice (.ofOutcome spec.identity outcome)], t') ∧
      outcome.untimed = .ofClosed spec err control (d.wait spec.name x).1 := by
  intro documents given control
  obtain ⟨outcome, x', t', -, hrun, -, -, -⟩ :=
    d.recorded_run_of_started w spec (s := (s, t)) hstarted
  rw [hcarries.chunks_eq hfit] at hrun
  refine ⟨outcome, x', t', hrun, ?_⟩
  -- The same run, taken apart after the start of the container.
  obtain ⟨-, -, haccompany⟩ := d.run_eq_accompany w.recorded spec (s := (s, [], t)) hstarted
  have hstart : w.recorded.notice (.started spec.identity)
      (w.recorded.log (creationLine spec (spec.image.getD "")) ([], t)) =
      ([.notice (.started spec.identity)], atStart w spec t) := rfl
  have hended := d.accompany_of_carries w.recorded
    (x, w.recorded.log (creationLine spec (spec.image.getD "")) ([], t)) hcarries hfit
    (by rw [hstart, declines_recorded]; exact hwelcome)
  rw [hstart, Watcher.recorded_handAll] at hended
  have hsame : (d.accompany w.recorded spec
      (x, w.recorded.log (creationLine spec (spec.image.getD "")) ([], t))).1 = outcome :=
    Except.ok.inj (congrArg Prod.fst (haccompany.symm.trans hrun))
  rw [← hsame]
  exact hended

end carrying

/-! ## Section 4: Two sessions -/

/-- **Neither the order of the channels nor the cut into frames can be seen.**  Two sessions whose
    streams carry the same bytes on each channel and are closed in time, with the same consumer
    and the same answer about the exit status, make the same calls in the same order, tell the
    same events and end in the same way, the time that they take aside. -/
theorem interleaving_irrelevant (d : Daemon δ) (d' : Daemon δ') (spec : Spec) (w : Watcher τ)
    (t : τ) {s x : Exchange δ} {s' x' : Exchange δ'} (hstarted : d.started? spec s = some x)
    (hstarted' : d'.started? spec s' = some x') {out err : Bytes}
    (hcarries : (d.attachment x.daemon).Carries spec.timeout out err)
    (hcarries' : (d'.attachment x'.daemon).Carries spec.timeout out err)
    (hfit : ∀ document ∈ Splitter.documents spec.delimiter out,
      document.length ≤ defaultChunkLimit)
    (hwelcome : ¬ Declines w spec (d.attachment x.daemon) (atStart w spec t))
    (hexit : (d.wait spec.name x).1 = (d'.wait spec.name x').1) :
    let r := d.run spec w.recorded (s, [], t)
    let r' := d'.run spec w.recorded (s', [], t)
    ∃ outcome outcome', r.1 = .ok outcome ∧ r'.1 = .ok outcome' ∧
      outcome.untimed = outcome'.untimed ∧
      r.2.2.1.map Watcher.Act.untimed = r'.2.2.1.map Watcher.Act.untimed := by
  intro r r'
  -- Both streams complete the same documents while they are open, so neither is declined.
  have hwelcome' : ¬ Declines w spec (d'.attachment x'.daemon) (atStart w spec t) := by
    unfold Declines at hwelcome ⊢
    rwa [hcarries'.completed_eq hfit, ← hcarries.completed_eq hfit]
  obtain ⟨outcome, y, u, hrun, houtcome⟩ :=
    d.recorded_run_of_carries w hstarted hcarries hfit hwelcome
  obtain ⟨outcome', y', u', hrun', houtcome'⟩ :=
    d'.recorded_run_of_carries w hstarted' hcarries' hfit hwelcome'
  have hsame : outcome.untimed = outcome'.untimed := by rw [houtcome, houtcome', hexit]
  refine ⟨outcome, outcome', by rw [show r = _ from hrun], by rw [show r' = _ from hrun'], hsame, ?_⟩
  rw [show r = _ from hrun, show r' = _ from hrun']
  simp only [List.map_append, List.map_cons, List.map_nil, Watcher.Act.untimed,
    Event.untimed_ofOutcome, hsame]

/-- A consumer that has had enough after the second document. -/
def ofTwo : Watcher Nat where
  notice _ n := n
  log _ n := n
  accept _ n := (if n = 0 then .continue else .stop, n + 1)

/-- Two documents and a warning, once channel by channel, and once in pieces that alternate.  The
    second document is not delimited, so the consumer declines it after the end of the stream. -/
theorem interleaving_irrelevant_alternating :
    let spec : Spec := { name := "c1", image := some "img:1" }
    let text (s : String) : Bytes := Utf8.encode s
    let exchange (frames : List Frame) : Exchange ScriptedDaemon :=
      { daemon := { common := { stream := frames.flatMap Frame.encode, exitStatus := 3 } } }
    let s := exchange [.stdout (text "one\x00two"), .stderr (text "beware")]
    let s' := exchange [.stderr (text "be"), .stdout (text "on"), .other (text "?"),
      .stdout (text "e\x00t"), .stderr (text "ware"), .stdout (text "wo")]
    let r := ScriptedDaemon.daemon.run spec ofTwo.recorded (s, [], 0)
    let r' := ScriptedDaemon.daemon.run spec ofTwo.recorded (s', [], 0)
    ∃ outcome outcome', r.1 = .ok outcome ∧ r'.1 = .ok outcome' ∧
      outcome.untimed = outcome'.untimed ∧
      r.2.2.1.map Watcher.Act.untimed = r'.2.2.1.map Watcher.Act.untimed := by
  intro spec text exchange s s'
  -- Before the end of the stream only the first document is complete, and it is welcome.
  have hwelcome : ¬ Declines ofTwo spec (ScriptedDaemon.attachment s.daemon.common)
      (atStart ofTwo spec 0) := by
    unfold Declines
    rw [← Watcher.handAll_eq_stop_iff]
    decide +kernel
  have hcarries : (ScriptedDaemon.attachment s.daemon.common).Carries spec.timeout
      (text "one\x00two") (text "beware") :=
    ⟨by decide +kernel, ⟨{}, by decide +kernel, Nat.zero_le _⟩, by decide +kernel,
      by decide +kernel⟩
  have hcarries' : (ScriptedDaemon.attachment s'.daemon.common).Carries spec.timeout
      (text "one\x00two") (text "beware") :=
    ⟨by decide +kernel, ⟨{}, by decide +kernel, Nat.zero_le _⟩, by decide +kernel,
      by decide +kernel⟩
  have hstarted : ScriptedDaemon.daemon.started? spec s = some _ := rfl
  have hstarted' : ScriptedDaemon.daemon.started? spec s' = some _ := rfl
  exact interleaving_irrelevant ScriptedDaemon.daemon ScriptedDaemon.daemon spec ofTwo 0 hstarted
    hstarted' hcarries hcarries' (by decide +kernel) hwelcome (by decide +kernel)

end Daemon
end StackSurvey.Container
