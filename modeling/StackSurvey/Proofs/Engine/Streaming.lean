import StackSurvey.Proofs.Container.Course
import StackSurvey.Proofs.Engine.Digest
import StackSurvey.Proofs.Engine.Staging
import StackSurvey.Proofs.Journal

/-! # Streaming is digesting

    Who follows the container of an engine judges each document as it comes.  The answers and
    the calls that the sink gets on the way are those of the digest of all documents, so neither
    the frames of the stream nor what else arrives between them can be seen by a sink. -/

namespace StackSurvey

open Container (Control Identity Watcher)

namespace Engine

variable {σ : Type}

/-! ## Section 1: One document -/

theorem judge_eq_verdict (e : Engine) (document : Bytes) :
    (Filter.ofConfig e.config).judge e.name document = e.verdict document := by
  unfold Filter.judge verdict Finding.ofBytes?
  by_cases hblank : document.all Text.isBlankByte = true
  · rw [if_pos hblank, if_pos hblank]
  · rw [if_neg hblank, if_neg hblank]
    rcases hf : Finding.featureOf document with r | f
    · simp [Finding.message?]
    · simp [Finding.message?, Filter.excludes, Finding.feature?, Except.toOption, Filter.ofConfig,
        Finding.attributeTo, Except.map, excludedFeatures]

/-- What a sink answers to a document, and what becomes of it. -/
def answer (e : Engine) (sink : Sink σ) (document : Bytes) (s : σ) : Control × σ :=
  match e.verdict document with
  | .blank | .excluded => (.continue, s)
  | .invalid message => (.stop, (sink.fail (e.complaint message) s).2)
  | .reported x =>
    match sink.write x s with
    | (true, s) => (.continue, s)
    | (false, s) => (.stop, s)

/-- What becomes of a sink that gets a finding does not depend on what it answers. -/
theorem answer_of_reported {e : Engine} {document : Bytes} {x : Finding}
    (h : e.verdict document = .reported x) (sink : Sink σ) (s : σ) :
    (e.answer sink document s).2 = (sink.write x s).2 := by
  rw [answer, h]
  dsimp only
  split <;> next hw => rw [hw]

/-- Accepting a document asks the sink.  It neither is an event nor raises a failure. -/
theorem accept_eq (e : Engine) (sink : Sink σ) (document : Bytes) (t : Watch σ) :
    let v := e.accept (.ofConfig e.config) sink document t
    (v.1, v.2.sink) = e.answer sink document t.sink ∧ v.2.raised = t.raised ∧
      v.2.journal.events = t.journal.events := by
  unfold accept answer
  rw [judge_eq_verdict]
  rcases hv : e.verdict document with _ | message | _ | x
  · exact ⟨rfl, rfl, rfl⟩
  · exact ⟨rfl, rfl, by simp⟩
  · exact ⟨rfl, rfl, rfl⟩
  · rcases hw : sink.write x t.sink with ⟨_ | _, s'⟩ <;> simp [hw]

/-- Handing over a document is an event, and asks the sink.  It raises no failure. -/
theorem hand_eq (e : Engine) (o : EngineOptions) (sink : Sink σ) (who : Identity)
    (document : Bytes) (t : Watch σ) :
    let v := (e.watcher o sink).hand who document t
    (v.1, v.2.sink) = e.answer sink document t.sink ∧ v.2.raised = t.raised ∧
      v.2.journal.events = t.journal.events ++ [.output who document] := by
  obtain ⟨hanswer, hraised, hevents⟩ :=
    e.accept_eq sink document ((e.watcher o sink).notice (.output who document) t)
  refine ⟨hanswer, hraised.trans ?_, hevents⟩
  simp [watcher, EngineFailure.ofEvent?]

/-- The bytes left at the end of a stream are answered like a document, none like a blank one. -/
theorem deliverRest_answer (e : Engine) (o : EngineOptions) (sink : Sink σ) (who : Identity)
    (splitter : Splitter) (t : Watch σ) :
    let v := (e.watcher o sink).deliverRest who splitter t
    (v.1, v.2.2.sink) = e.answer sink splitter.buffer t.sink ∧ v.2.2.raised = t.raised := by
  rw [Watcher.deliverRest_eq]
  unfold Splitter.rest
  -- No bytes are no document, which is answered like a blank one.
  by_cases hempty : splitter.buffer = []
  · rw [if_pos hempty, hempty]
    exact ⟨rfl, rfl⟩
  · obtain ⟨hanswer, hraised, -⟩ := e.hand_eq o sink who splitter.buffer t
    rw [if_neg hempty]
    rcases hv : (e.watcher o sink).hand who splitter.buffer t with ⟨_ | _, t'⟩ <;>
      rw [hv] at hanswer hraised
    · rw [Watcher.handAll_cons_continue _ _ hv]
      exact ⟨hanswer, hraised⟩
    · rw [Watcher.handAll_cons_stop _ _ hv]
      exact ⟨hanswer, hraised⟩

/-! ## Section 2: All documents -/

/-- **Handing over documents one after the other is digesting them.** -/
theorem handAll_digest (e : Engine) (o : EngineOptions) (sink : Sink σ) (who : Identity)
    (documents : List Bytes) (t : Watch σ) :
    let v := (e.watcher o sink).handAll who documents t
    let d := e.digest sink documents t.sink
    v.1 = (if d.stopped then .stop else .continue) ∧ v.2.sink = d.sink ∧ v.2.raised = t.raised := by
  induction documents generalizing t with
  | nil => exact ⟨rfl, rfl, rfl⟩
  | cons document rest ih =>
    obtain ⟨hanswer, hraised, -⟩ := e.hand_eq o sink who document t
    rcases hv : (e.watcher o sink).hand who document t with ⟨control, t'⟩
    rw [hv] at hanswer hraised
    unfold answer at hanswer
    -- One case for each verdict; only a declined finding and an invalid document stop.
    rcases h : e.verdict document with _ | message | _ | x
    · rw [h] at hanswer
      obtain ⟨rfl, hsink⟩ := Prod.mk.inj hanswer
      rw [Watcher.handAll_cons_continue _ _ hv, digest_cons_blank h, ← hsink, ← hraised]
      exact ih t'
    · rw [h] at hanswer
      obtain ⟨rfl, hsink⟩ := Prod.mk.inj hanswer
      rw [Watcher.handAll_cons_stop _ _ hv, digest_cons_invalid h]
      exact ⟨rfl, hsink, hraised⟩
    · rw [h] at hanswer
      obtain ⟨rfl, hsink⟩ := Prod.mk.inj hanswer
      rw [Watcher.handAll_cons_continue _ _ hv, digest_cons_excluded h, ← hsink, ← hraised]
      exact ih t'
    · rcases hw : sink.write x t.sink with ⟨_ | _, s'⟩
      · simp only [h, hw] at hanswer
        obtain ⟨rfl, hsink⟩ := Prod.mk.inj hanswer
        rw [Watcher.handAll_cons_stop _ _ hv, digest_cons_declined h hw]
        exact ⟨rfl, hsink, hraised⟩
      · simp only [h, hw] at hanswer
        obtain ⟨rfl, hsink⟩ := Prod.mk.inj hanswer
        rw [Watcher.handAll_cons_continue _ _ hv, digest_cons_taken h hw, ← hraised]
        have hrest := ih t'
        rw [hsink] at hrest
        exact hrest

/-- A sink that keeps a record has the calls of the digest in it, if the record was empty when
    the container was started. -/
theorem handAll_recorded (e : Engine) (o : EngineOptions) (sink : Sink σ) (who : Identity)
    (documents : List Bytes) {t : Watch (List SinkCall × σ)} {s : σ} (ht : t.sink = ([], s)) :
    let w := e.watcher o sink.recorded
    let v := w.handAll who documents (w.notice (.started who) t)
    let d := e.digest sink documents s
    v.2.sink = (d.calls, d.sink) ∧ decide (v.1 = .stop) = d.stopped := by
  intro w v d
  obtain ⟨hcontrol, hsink, -⟩ :=
    e.handAll_digest o sink.recorded who documents (w.notice (.started who) t)
  have hstart : (w.notice (.started who) t).sink = ([], s) := ht
  rw [hstart, digest_recorded] at hcontrol hsink
  refine ⟨hsink, ?_⟩
  rw [hcontrol]
  cases d.stopped <;> simp

/-! ## Section 3: Whole streams -/

/-- **A sink is told the digest of the stream, and of nothing else.**  In every session with a
    daemon whose stream is closed in time, and in every rehearsal of a stream that ends by
    itself, the sink gets the calls of the digest of the documents of the stream, whatever frames
    the stream comes in, and the container counts as stopped just if the digest was.  A failure
    is told at most once and last, and no call follows a declined finding. -/
theorem sink_told_digest (e : Engine) (o : EngineOptions) (sink : Sink σ)
    (spec : Container.Spec) (frames : List Bytes) (s : σ)
    (hfit : ∀ document ∈ Splitter.documents spec.delimiter frames.flatten,
      document.length ≤ defaultChunkLimit) :
    let d := e.digest sink (Splitter.documents spec.delimiter frames.flatten) s
    let w := e.watcher o sink.recorded
    (∀ (δ : Type) (daemon : Container.Daemon δ) (x : Container.Exchange δ)
        (t : Watch (List SinkCall × σ)), t.sink = ([], s) →
      (daemon.attachment x.daemon).Closes spec.timeout frames →
      (daemon.accompany w spec (x, t)).2.2.sink = (d.calls, d.sink) ∧
        (daemon.accompany w spec (x, t)).1.stopped = d.stopped) ∧
    (∀ (script : Container.Script) (t : Watch (List SinkCall × σ)), t.sink = ([], s) →
      script.frames = frames → script.timedOut = false → script.error = none →
      (Container.Rehearsal.perform spec script w t).2.sink = (d.calls, d.sink) ∧
        (Container.Rehearsal.perform spec script w t).1.stopped = d.stopped) ∧
    (∃ xs : List Finding, d.calls = xs.map .write ∨
      ∃ message, d.calls = xs.map .write ++ [.fail message]) ∧
    (∀ before x after, d.calls = before ++ .write x :: after → after ≠ [] →
      (sink.write x (sink.replay before s)).1 = true) ∧
    (d.stopped = true ↔ ∃ before call, d.calls = before ++ [call] ∧
      match call with
      | .fail _ => True
      | .write x => (sink.write x (sink.replay before s)).1 = false) := by
  intro d w
  -- The first two parts are about the two ways of running a container, the others about the digest
  -- alone.
  refine ⟨?_, ?_, ?_, ?_, ?_⟩
  · intro δ daemon x t ht hclose
    obtain ⟨hsink, hstop⟩ := e.handAll_recorded o sink spec.identity
      (Splitter.documents spec.delimiter frames.flatten) ht
    obtain ⟨t', hobs, hend, hstopped⟩ := daemon.accompany_eq w Watch.sink
      (fun _ _ => rfl) spec (x, t) hclose hfit
    exact ⟨by rw [hend, ← hsink, ← hobs]; rfl, hstopped.trans hstop⟩
  · intro script t ht hframes htime herror
    obtain ⟨hsink, hstop⟩ := e.handAll_recorded o sink spec.identity
      (Splitter.documents spec.delimiter frames.flatten) ht
    -- A script that ends in time has all of its documents delivered.
    have hdocs : script.documents spec.delimiter =
        Splitter.documents spec.delimiter frames.flatten := by
      simp [Container.Script.documents, htime, herror, hframes]
    have hscript : script.Fits spec.delimiter := by rwa [Container.Script.Fits, hframes]
    rw [Container.Rehearsal.perform_eq hscript, hdocs]
    exact ⟨hsink, hstop⟩
  · obtain ⟨xs, h | ⟨message, h, -⟩⟩ := e.digest_calls_shape sink _ s
    · exact ⟨xs, .inl h⟩
    · exact ⟨xs, .inr ⟨message, h⟩⟩
  · intro before x after h hne
    exact e.digest_calls_welcome sink _ s h hne
  · exact e.digest_stopped_iff sink _ s

/-- Three frames carry a finding and an invalid document.  The first cut is in the middle of a
    character, and the last document is ended by the stream alone. -/
theorem sink_told_digest_three_frames :
    let spec : Container.Spec := { name := "lint", image := none }
    let frames : List Bytes :=
      [Utf8.encode "\x7b\"type\":\"feature\",\"name\":\"Caf" ++ [0xC3],
        0xA9 :: Utf8.encode "\"\x7d\x00", Utf8.encode "\x7b"]
    (∀ document ∈ Splitter.documents spec.delimiter frames.flatten,
      document.length ≤ defaultChunkLimit) ∧
    let r := Container.Rehearsal.perform spec { frames }
      (Sample.lint.watcher Sample.options Collection.sink.recorded)
      { journal := {}, sink := ([], {}) }
    r.1.stopped = true ∧ r.2.sink.1.length = 2 := by
  intro spec frames
  have hfit : ∀ document ∈ Splitter.documents spec.delimiter frames.flatten,
      document.length ≤ defaultChunkLimit := by decide +kernel
  obtain ⟨-, hperform, -⟩ := sink_told_digest Sample.lint Sample.options Collection.sink spec
    frames {} hfit
  obtain ⟨hsink, hstopped⟩ := hperform { frames } { journal := {}, sink := ([], {}) } rfl rfl rfl rfl
  refine ⟨hfit, hstopped.trans (by decide +kernel), ?_⟩
  rw [hsink]
  decide +kernel

end Engine
end StackSurvey
