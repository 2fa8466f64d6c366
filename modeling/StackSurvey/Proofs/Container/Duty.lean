import StackSurvey.Proofs.Container.Casting
import StackSurvey.Proofs.Container.Course

/-! # What runtimes owe to those who follow containers

    A runtime that cannot start a container may say so in the log, and does nothing else to who
    follows it.  If it does start the container it tells the start, hands over chunks as long as
    more is wanted, and tells the outcome at the end.

    * `Runtime.Dutiful` says this, and nothing about the chunks.
    * `Runtime.Streams` says moreover which chunks they are: the documents of what the container
      has written, as far as these fit.
    * `Runtime.Hands` says that the chunks are the same whoever follows the container.
    * Sessions with a daemon, castings and rehearsals keep to all three. -/

namespace StackSurvey

namespace Splitter

/-- Frames give a part of the documents of a longer stream, from the first one on. -/
theorem feed_prefix {delimiter : UInt8} {frames : List Bytes} {more : Bytes}
    (hfit : ∀ d ∈ documents delimiter (frames.flatten ++ more), d.length ≤ defaultChunkLimit) :
    (feed frames (.ofDelimiter delimiter)).1 <+: documents delimiter (frames.flatten ++ more) := by
  have hfits : Fits defaultChunkLimit delimiter frames.flatten := (fits_of_documents hfit).of_append
  have hcomplete : (feed frames (.ofDelimiter delimiter)).1 = complete delimiter frames.flatten :=
    (feed_eq frames (s := .ofDelimiter delimiter) (Nat.le_refl _) List.not_mem_nil hfits).1
  rw [hcomplete, documents, complete_append, List.append_assoc]
  exact List.prefix_append _ _

end Splitter

namespace Container

/-! ## Section 1: What a watcher is owed -/

namespace Watcher

variable {τ β : Type}

/-- From its state `t₀` on the watcher got log lines and nothing else. -/
inductive Logged (w : Watcher τ) (t₀ : τ) : τ → Prop where
  | nothing : Logged w t₀ t₀
  | log {t : τ} (h : Logged w t₀ t) (line : LogLine) : Logged w t₀ (w.log line t)

/-- What only looks past the log sees nothing of log lines. -/
theorem Logged.obs_eq {w : Watcher τ} {t₀ t : τ} (h : w.Logged t₀ t) (obs : τ → β)
    (hlog : ∀ line t, obs (w.log line t) = obs t) : obs t = obs t₀ := by
  induction h with
  | nothing => rfl
  | log _ line ih => exact (hlog line _).trans ih

/-- The watcher was told of a container from its start to its outcome, and was handed the chunks
    in between. -/
def Followed (w : Watcher τ) (who : Identity) (chunks : List Bytes) (outcome : Outcome)
    (t t' : τ) : Prop :=
  ∃ t₁, w.Logged (w.handAll who chunks (w.notice (.started who) t)).2 t₁ ∧
    t' = w.noticeOutcome who outcome t₁

/-- What the watcher is owed by a runtime that gives back that result. -/
def Served (w : Watcher τ) (t : τ) : Except RuntimeFailure Outcome → τ → Prop
  | .error _, t' => w.Logged t t'
  | .ok outcome, t' => ∃ who chunks t₁, w.Logged t t₁ ∧ w.Followed who chunks outcome t₁ t'

/-- What the watcher is owed by a runtime whose container has these documents.  A container that
    was stopped has met with an answer that wanted no more, and one that has ended by itself in
    time has handed over all of its documents. -/
def Streamed (w : Watcher τ) (t : τ) (documents : List Bytes) :
    Except RuntimeFailure Outcome → τ → Prop
  | .error _, t' => w.Logged t t'
  | .ok outcome, t' => ∃ who chunks t₁, w.Logged t t₁ ∧ w.Followed who chunks outcome t₁ t' ∧
    outcome.stopped = decide ((w.handAll who chunks (w.notice (.started who) t₁)).1 = .stop) ∧
    ((∀ d ∈ documents, d.length ≤ defaultChunkLimit) →
      chunks <+: documents ∧
        (outcome.timedOut = false → outcome.error = none → outcome.stopped = false →
          chunks = documents))

/-- What the watcher is owed by a runtime whose container hands over these chunks, none if it is
    not started. -/
def Handed (w : Watcher τ) (t : τ) (chunks : List Bytes) : Except RuntimeFailure Outcome → τ → Prop
  | .error _, t' => chunks = [] ∧ w.Logged t t'
  | .ok outcome, t' => ∃ who t₁, w.Logged t t₁ ∧ w.Followed who chunks outcome t₁ t'

theorem Streamed.served {w : Watcher τ} {t t' : τ} {documents : List Bytes}
    {result : Except RuntimeFailure Outcome} (h : w.Streamed t documents result t') :
    w.Served t result t' := by
  cases result with
  | error failure => exact h
  | ok outcome =>
    obtain ⟨who, chunks, t₁, hlogged, hfollowed, -⟩ := h
    exact ⟨who, chunks, t₁, hlogged, hfollowed⟩

end Watcher

/-- Whoever follows a container learns of its start, its output and its outcome, and only log
    lines of one that was not started. -/
def Runtime.Dutiful {ρ : Type} (rt : Runtime ρ) : Prop :=
  ∀ {τ : Type} (disk : Disk) (spec : Spec) (w : Watcher τ) (r : ρ) (t : τ),
    w.Served t (rt.run disk spec w (r, t)).1 (rt.run disk spec w (r, t)).2.2

/-- Containers write `stream`, and whoever follows one is handed the documents of it. -/
def Runtime.Streams {ρ : Type} (rt : Runtime ρ) (stream : Disk → Spec → ρ → Bytes) : Prop :=
  ∀ {τ : Type} (disk : Disk) (spec : Spec) (w : Watcher τ) (r : ρ) (t : τ),
    w.Streamed t (Splitter.documents spec.delimiter (stream disk spec r))
      (rt.run disk spec w (r, t)).1 (rt.run disk spec w (r, t)).2.2

/-- Whoever follows a container is handed `chunks`, as long as more are wanted. -/
def Runtime.Hands {ρ : Type} (rt : Runtime ρ) (chunks : Disk → Spec → ρ → List Bytes) : Prop :=
  ∀ {τ : Type} (disk : Disk) (spec : Spec) (w : Watcher τ) (r : ρ) (t : τ),
    w.Handed t (chunks disk spec r) (rt.run disk spec w (r, t)).1 (rt.run disk spec w (r, t)).2.2

theorem Runtime.Streams.dutiful {ρ : Type} {rt : Runtime ρ} {stream : Disk → Spec → ρ → Bytes}
    (h : rt.Streams stream) : rt.Dutiful :=
  fun disk spec w r t => (h disk spec w r t).served

/-! ## Section 2: The chunks of a stream -/

section scripts

variable {ρ τ : Type}

/-- The chunks that a script hands over. -/
def Script.chunks (delimiter : UInt8) (script : Script) : List Bytes :=
  let fed := Splitter.feed script.frames (.ofDelimiter delimiter)
  fed.1 ++ if script.timedOut || script.error.isSome then [] else Splitter.rest fed.2.buffer

def Script.stream (script : Script) : Bytes := script.frames.flatten

/-- A rehearsal hands over the chunks of its script and tells how it ended. -/
theorem Rehearsal.perform_eq_chunks (spec : Spec) (script : Script) (w : Watcher τ) (t : τ) :
    perform spec script w t =
      let v := w.handAll spec.identity (script.chunks spec.delimiter)
        (w.notice (.started spec.identity) t)
      (script.outcome spec v.1, w.noticeOutcome spec.identity (script.outcome spec v.1) v.2) := by
  simp only [perform]
  -- What the watcher makes of the start does not matter for the chunks.
  generalize w.notice (.started spec.identity) t = t₀
  obtain ⟨s', hplay, hcont⟩ := w.play_eq spec.identity script.frames (.ofDelimiter spec.delimiter) t₀
  rw [Script.chunks, Watcher.handAll_append]
  by_cases hcut : (script.timedOut || script.error.isSome) = true
  · rcases hv : w.handAll spec.identity
      (Splitter.feed script.frames (.ofDelimiter spec.delimiter)).1 t₀ with ⟨_ | _, t₁⟩ <;>
      rw [hv] at hplay <;>
      simp [hplay, hcut, Script.outcome, Watcher.handAll]
  · rcases hv : w.handAll spec.identity
      (Splitter.feed script.frames (.ofDelimiter spec.delimiter)).1 t₀ with ⟨_ | _, t₁⟩ <;>
      rw [hv] at hplay hcont
    · -- Only a consumer that still wants more gets the remainder.
      obtain rfl := hcont rfl
      simp [hplay, hcut, Watcher.deliverRest_eq, Script.outcome]
    · simp [hplay, Script.outcome]

/-- A script hands over its documents from the first one on, and all of them if it is not cut
    off. -/
theorem Script.chunks_prefix_documents (script : Script) {delimiter : UInt8}
    (hfit : script.Fits delimiter) :
    script.chunks delimiter <+: Splitter.documents delimiter script.stream ∧
      (script.timedOut = false → script.error = none →
        script.chunks delimiter = Splitter.documents delimiter script.stream) := by
  obtain ⟨hcomplete, htail⟩ := Splitter.feed_ofDelimiter hfit
  -- The documents of a stream are what splitting it completes and what is left in the end.
  have hall : Splitter.documents delimiter script.stream =
      (Splitter.feed script.frames (.ofDelimiter delimiter)).1 ++
        Splitter.rest (Splitter.feed script.frames (.ofDelimiter delimiter)).2.buffer := by
    rw [hcomplete, htail]
    rfl
  unfold Script.chunks
  refine ⟨?_, ?_⟩
  · -- A script that runs out of time or breaks off keeps what is left to itself.
    rw [hall]
    split
    · rw [List.append_nil]
      exact List.prefix_append _ _
    · exact List.prefix_rfl
  · intro htime herror
    rw [hall, htime, herror]
    rfl

theorem Rehearsal.perform_streamed (spec : Spec) (script : Script) (w : Watcher τ) (t : τ) :
    w.Streamed t (Splitter.documents spec.delimiter script.stream)
      (.ok (perform spec script w t).1) (perform spec script w t).2 := by
  have hperform := perform_eq_chunks spec script w t
  -- A script writes nothing to the log, so the watcher is as it was before the start.
  refine ⟨spec.identity, script.chunks spec.delimiter, t, .nothing, ⟨_, .nothing, ?_⟩, ?_, ?_⟩
  · rw [hperform]
  · rw [hperform]
    rfl
  · intro hfit
    obtain ⟨hfront, hall⟩ := script.chunks_prefix_documents hfit
    refine ⟨hfront, fun htime herror _ => hall ?_ ?_⟩
    · rw [hperform] at htime
      exact htime
    · rw [hperform] at herror
      exact herror

theorem Rehearsal.perform_handed (spec : Spec) (script : Script) (w : Watcher τ) (t : τ) :
    w.Handed t (script.chunks spec.delimiter) (.ok (perform spec script w t).1)
      (perform spec script w t).2 := by
  have hperform := perform_eq_chunks spec script w t
  refine ⟨spec.identity, t, .nothing, _, .nothing, ?_⟩
  rw [hperform]

/-- What a casting lets the container of a specification write. -/
def Casting.stream (c : Casting ρ) (disk : Disk) (spec : Spec) (r : ρ) : Bytes :=
  match (c.cast (setting (c.directory r) disk spec) r).1 with
  | .error _ => []
  | .ok script => script.stream

theorem Casting.streams (c : Casting ρ) : c.runtime.Streams c.stream := by
  intro τ disk spec w r t
  simp only [runtime, Casting.stream]
  rcases c.cast (setting (c.directory r) disk spec) r with ⟨failure | script, r'⟩
  · exact .nothing
  · exact Rehearsal.perform_streamed spec script w t

theorem Rehearsal.streams : Rehearsal.runtime.Streams Rehearsal.casting.stream := by
  rw [Rehearsal.runtime_eq]
  exact Rehearsal.casting.streams

/-- The chunks that the container of a specification hands over by a casting. -/
def Casting.chunks (c : Casting ρ) (disk : Disk) (spec : Spec) (r : ρ) : List Bytes :=
  match (c.cast (setting (c.directory r) disk spec) r).1 with
  | .error _ => []
  | .ok script => script.chunks spec.delimiter

/-- **What a casting lets a container hand over does not depend on who follows it.** -/
theorem Casting.hands (c : Casting ρ) : c.runtime.Hands c.chunks := by
  intro τ disk spec w r t
  simp only [runtime, Casting.chunks]
  rcases c.cast (setting (c.directory r) disk spec) r with ⟨failure | script, r'⟩
  · exact ⟨rfl, .nothing⟩
  · exact Rehearsal.perform_handed spec script w t

theorem Rehearsal.hands : Rehearsal.runtime.Hands Rehearsal.casting.chunks := by
  rw [Rehearsal.runtime_eq]
  exact Rehearsal.casting.hands

end scripts

/-! ## Section 3: Sessions with a daemon -/

namespace Attachment

variable {a : Attachment} {spec : Spec}

/-- What arrives by a deadline is what the stream carries, from its start on. -/
theorem received_prefix (a : Attachment) (deadline : Duration) :
    a.received deadline <+: output a.frames :=
  (List.takeWhile_prefix _).filterMap _

/-- Of a stream that is closed in time all has arrived. -/
theorem received_of_closed {deadline : Duration} (h : a.fate deadline = .closed) :
    a.received deadline = output a.frames := by
  unfold fate at h
  split at h
  · next hall =>
    have htaken : a.frames.takeWhile (fun x => x.1.milliseconds ≤ deadline.milliseconds) =
        a.frames := List.takeWhile_eq_self_iff.2 (List.all_eq_true.1 hall)
    rw [received, htaken]
  · cases h

/-- A session hands over the documents of its stream from the first one on, and all of them if
    the stream is closed in time. -/
theorem chunks_prefix_documents
    (hfit : ∀ d ∈ Splitter.documents spec.delimiter (output a.frames).flatten,
      d.length ≤ defaultChunkLimit) :
    a.chunks spec <+: Splitter.documents spec.delimiter (output a.frames).flatten ∧
      (a.fate spec.timeout = .closed →
        a.chunks spec = Splitter.documents spec.delimiter (output a.frames).flatten) := by
  have hall : a.fate spec.timeout = .closed →
      a.chunks spec = Splitter.documents spec.delimiter (output a.frames).flatten := by
    intro hclosed
    obtain ⟨hcomplete, htail⟩ := Splitter.feed_ofDelimiter hfit
    rw [chunks, if_pos hclosed, completed, remainder, received_of_closed hclosed, hcomplete, htail,
      Splitter.documents]
  refine ⟨?_, hall⟩
  by_cases hclosed : a.fate spec.timeout = .closed
  · exact ⟨[], (List.append_nil _).trans (hall hclosed)⟩
  · -- What came in too late was not split, but it does not change the documents before it.
    obtain ⟨late, hlate⟩ := a.received_prefix spec.timeout
    rw [← hlate, List.flatten_append] at hfit ⊢
    rw [chunks, if_neg hclosed, List.append_nil]
    exact Splitter.feed_prefix hfit

end Attachment

namespace Daemon

variable {δ τ : Type} (d : Daemon δ) (w : Watcher τ) (spec : Spec)

/-- What is done about a container whose output was left is at most logged, apart from the chunk
    that may be left at the end. -/
theorem settle_logged (a : Attachment) (x : Exchange δ) (t : τ) {splitter : Splitter}
    (hsplitter : (w.handAll spec.identity (a.completed spec) t).1 = .continue →
      splitter = (Splitter.feed (a.received spec.timeout) (.ofDelimiter spec.delimiter)).2) :
    w.Logged (w.handAll spec.identity (a.chunks spec) t).2
      (d.settle w spec (leave w spec a t) splitter
        (x, (w.handAll spec.identity (a.completed spec) t).2)).2.2.2 := by
  have hlog : ∀ {t₀ : τ} (line : LogLine) (t : τ), w.Logged t₀ t → w.Logged t₀ (w.log line t) :=
    fun line _ h => h.log line
  unfold leave Attachment.chunks
  rw [Watcher.handAll_append]
  rcases hv : w.handAll spec.identity (a.completed spec) t with ⟨_ | _, t'⟩ <;> rw [hv] at hsplitter
  · -- With more wanted it depends on the fate of the stream what is done about the container.
    obtain rfl := hsplitter rfl
    cases hfate : a.fate spec.timeout with
    | closed =>
      simp only [settle, Watcher.deliverRest_eq, if_true]
      exact .nothing
    | declined => exact absurd hfate Attachment.fate_ne_declined
    | broken reason => exact d.attempt_keeps hlog _ _ _ (s := (x, t')) .nothing
    | deadline => exact d.attempt_keeps hlog _ _ _ (s := (x, t')) .nothing
  · exact d.attempt_keeps hlog _ _ _ (s := (x, t')) .nothing

/-- A session follows its container with the chunks that its stream brings by the deadline. -/
theorem accompany_followed (s : Exchange δ × τ) :
    w.Followed spec.identity ((d.attachment s.1.daemon).chunks spec) (d.accompany w spec s).1 s.2
      (d.accompany w spec s).2.2 := by
  obtain ⟨x, t⟩ := s
  obtain ⟨g, hfollow, hwatcher, hsplitter⟩ :=
    follow_leave w spec (d.attachment x.daemon) (w.notice (.started spec.identity) t)
  have hsettled := d.settle_logged w spec (d.attachment x.daemon) x _ hsplitter
  rw [← hwatcher] at hsettled
  rcases hs : d.settle w spec (leave w spec (d.attachment x.daemon)
    (w.notice (.started spec.identity) t)) g.splitter (x, g.watcher) with ⟨control, error, x₁, t₁⟩
  rw [hs] at hsettled
  rcases hw : d.wait spec.name x₁ with ⟨exit, x₂⟩
  -- Removing the container comes after the last chunk and reaches the log alone.
  by_cases hremove : spec.autoRemove = true <;>
    simp only [accompany, hfollow, hs, hw, hremove, if_true, if_false, Bool.false_eq_true]
  · exact ⟨_, d.remove_keeps (fun line _ h => h.log line) spec.name (s := (x₂, t₁)) hsettled, rfl⟩
  · exact ⟨t₁, hsettled, rfl⟩

/-- A session whose container was not started tells of nothing but log lines. -/
theorem run_logged {s : Exchange δ × τ} (h : d.started? spec s.1 = none) :
    ∃ failure, (d.run spec w s).1 = .error failure ∧ w.Logged s.2 (d.run spec w s).2.2 := by
  rcases himage : spec.image with _ | image
  · -- Without an image not even the log is told.
    simp only [run, himage]
    exact ⟨_, rfl, .nothing⟩
  rcases hcreate : d.create spec image s.1 with ⟨failure | _, x⟩
  · simp only [run, himage, hcreate]
    exact ⟨failure, rfl, .log .nothing _⟩
  · obtain ⟨-, hrun⟩ := d.run_of_created w spec himage hcreate
    simp only [started?, himage, hcreate] at h
    obtain ⟨failure, x₂, before, -, -, hlaunch⟩ :=
      d.launch_of_not_launched w spec (s := (x, w.log (creationLine spec image) s.2)) h
    rw [hrun, hlaunch]
    exact ⟨failure, rfl, d.remove_keeps (fun line _ h => h.log line) spec.name (s := (x₂, _))
      (.log .nothing _)⟩

/-- The chunks that a session with the container of a specification may hand over. -/
def chunks (_ : Disk) (spec : Spec) (x : Exchange δ) : List Bytes :=
  match d.started? spec x with
  | none => []
  | some x => (d.attachment x.daemon).chunks spec

/-- **What a session hands over does not depend on who follows it.** -/
theorem hands : d.runtime.Hands d.chunks := by
  intro τ disk spec w x t
  show w.Handed t (d.chunks disk spec x) (d.run spec w (x, t)).1 (d.run spec w (x, t)).2.2
  -- A container that was not started hands over nothing.
  rcases hstarted : d.started? spec x with _ | x₁
  · obtain ⟨failure, hfailure, hlogged⟩ := d.run_logged w spec (s := (x, t)) hstarted
    rw [hfailure]
    exact ⟨by simp only [chunks, hstarted], hlogged⟩
  · obtain ⟨-, -, hrun⟩ := d.run_eq_accompany w spec (s := (x, t)) hstarted
    have hchunks : d.chunks disk spec x = (d.attachment x₁.daemon).chunks spec := by
      simp only [chunks, hstarted]
    rw [hrun, hchunks]
    exact ⟨spec.identity, _, .log .nothing _, d.accompany_followed w spec (x₁, _)⟩

/-- What the container of a specification writes on the output channel, if it is started. -/
def stream (_ : Disk) (spec : Spec) (x : Exchange δ) : Bytes :=
  match d.started? spec x with
  | none => []
  | some x => (Attachment.output (d.attachment x.daemon).frames).flatten

/-- **Sessions hand over the documents of the output channel.** -/
theorem streams : d.runtime.Streams d.stream := by
  intro τ disk spec w x t
  show w.Streamed t (Splitter.documents spec.delimiter (d.stream disk spec x))
    (d.run spec w (x, t)).1 (d.run spec w (x, t)).2.2
  rcases hstarted : d.started? spec x with _ | x₁
  · obtain ⟨failure, hfailure, hlogged⟩ := d.run_logged w spec (s := (x, t)) hstarted
    rw [hfailure]
    exact hlogged
  obtain ⟨-, -, hrun⟩ := d.run_eq_accompany w spec (s := (x, t)) hstarted
  have hstream : d.stream disk spec x =
      (Attachment.output (d.attachment x₁.daemon).frames).flatten := by
    simp only [stream, hstarted]
  rw [hrun, hstream]
  let a := d.attachment x₁.daemon
  let t₁ := w.log (creationLine spec (spec.image.getD "")) t
  -- The log does not matter here, nor does anything else that the watcher remembers.
  let blind : τ → Unit := fun _ => ()
  have hunseen : ∀ (line : LogLine) (t : τ), blind (w.log line t) = blind t := fun _ _ => rfl
  obtain ⟨-, trouble, -, -, hstopped, htimed, herror, -⟩ :=
    d.accompany_course hunseen spec (x₁, t₁)
  refine ⟨spec.identity, a.chunks spec, t₁, .log .nothing _, d.accompany_followed w spec (x₁, t₁),
    hstopped, ?_⟩
  intro hfit
  obtain ⟨hfront, hall⟩ := Attachment.chunks_prefix_documents hfit
  refine ⟨hfront, fun hintime hclean hwanted => hall ?_⟩
  -- Nothing was declined, so the output was left in the way in which the stream ends.
  have hcontinue : leave w spec a (w.notice (.started spec.identity) t₁) = a.fate spec.timeout := by
    rw [hstopped, decide_eq_false_iff_not] at hwanted
    unfold leave
    rcases hv : w.handAll spec.identity (a.completed spec) (w.notice (.started spec.identity) t₁)
      with ⟨_ | _, t₂⟩
    · rfl
    · refine absurd ?_ hwanted
      show (w.handAll spec.identity (a.chunks spec) _).1 = .stop
      rw [Attachment.chunks, Watcher.handAll_append, hv]
  show a.fate spec.timeout = .closed
  rw [hcontinue] at htimed herror
  cases hfate : a.fate spec.timeout with
  | closed => rfl
  | declined => exact absurd hfate Attachment.fate_ne_declined
  | broken reason =>
    rw [herror, hfate] at hclean
    cases hclean
  | deadline =>
    rw [htimed, hfate] at hintime
    cases hintime

end Daemon
end Container
end StackSurvey
