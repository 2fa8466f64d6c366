import StackSurvey.Proofs.Container.Duty
import StackSurvey.Proofs.Engine.Scripted

/-! # What is heard of an engine

    Of the documents of an engine those are heard that come before the first one after which no
    more are wanted, and that one.  All that a run of the engine tells the outside world about
    its container follows from the documents that are heard and from the outcome:

    * `heard` and `digest_calls`: the documents that are heard, and the calls of the sink that
      they make;
    * `Tells`: what a run adds to the measurements, to the events and to the sink;
    * `run_of_not_started`, `run_of_started` and `run_of_streams`: a run tells nothing of a
      container that was not started, and the documents heard of any other one. -/

namespace StackSurvey

open Container (Control Event Identity Outcome RuntimeFailure Watcher)

/-! ## Section 1: Records -/

namespace Journal

/-- What a journal holds besides log lines. -/
def record (j : Journal) : List Measurement × List Event := (j.measurements, j.events)

@[simp] theorem log_record (j : Journal) (line : LogLine) : (j.log line).record = j.record := rfl

@[simp] theorem foldl_log_record (lines : List LogLine) (j : Journal) :
    (lines.foldl log j).record = j.record := by
  induction lines generalizing j with
  | nil => rfl
  | cons line rest ih => rw [List.foldl_cons, ih, log_record]

theorem foldl_log_measurements (lines : List LogLine) (j : Journal) :
    (lines.foldl log j).measurements = j.measurements :=
  congrArg Prod.fst (foldl_log_record lines j)

end Journal

namespace World

variable {ρ : Type}

theorem writeArtifact_record (w : World ρ) (directory : MountedPath) (text : String) :
    (w.writeArtifact directory text).2.journal.record = w.journal.record := by
  simp [writeArtifact, freshName, logAll_eq]

theorem discardArtifact_record (w : World ρ) (target : MountedPath) :
    (w.discardArtifact target).journal.record = w.journal.record := by
  simp [discardArtifact, logAll_eq]

@[simp] theorem strike_record (w : World ρ) (st : Stage) :
    (w.strike st).journal.record = w.journal.record := by
  rw [strike, discardArtifact_record, discardArtifact_record]

end World

/-- The result under which a container is counted that has ended so. -/
def RunResult.ofOutcome (o : Outcome) : RunResult :=
  if o.timedOut then .timeout else if o.isSuccess then .success else .error

theorem Measurement.ofEvent_ofOutcome (engine : String) (who : Identity) (o : Outcome) :
    ofEvent engine (Event.ofOutcome who o) = ofEnd engine o (.ofOutcome o) := by
  unfold Event.ofOutcome RunResult.ofOutcome
  split
  · rfl
  · split <;> rfl

/-- What a call complains of. -/
def SinkCall.complaint? : SinkCall → Option String
  | .write _ => none
  | .fail message => some message

namespace Engine

variable {ρ σ : Type}

theorem stage_record (e : Engine) (o : EngineOptions) (previous : String) (w : World ρ) :
    (e.stage o previous w).2.journal.record = w.journal.record :=
  e.stage_keeps (fun w => w.journal.record) World.writeArtifact_record World.discardArtifact_record
    (fun _ _ => rfl) o previous w

/-! ## Section 2: One document -/

/-- The label under which the engine is measured. -/
def metricLabel (e : Engine) : String := Metric.engineLabel e.qualifiedName

/-- The call of the sink that a document makes. -/
def call? (e : Engine) (document : Bytes) : Option SinkCall :=
  match e.verdict document with
  | .blank | .excluded => none
  | .invalid message => some (.fail (e.complaint message))
  | .reported x => some (.write x)

/-- What the sink is told of a document if it is invalid. -/
def complaint? (e : Engine) (document : Bytes) : Option String :=
  match e.verdict document with
  | .invalid message => some (e.complaint message)
  | .blank | .excluded | .reported _ => none

/-- The complaints among the calls that documents make are those about the documents. -/
theorem complaint?_call? (e : Engine) (document : Bytes) :
    (e.call? document).bind SinkCall.complaint? = e.complaint? document := by
  unfold call? complaint?
  rcases e.verdict document with _ | message | _ | x <;> rfl

/-- What is measured at a document. -/
def measured (e : Engine) (document : Bytes) : List Measurement :=
  .outputChunk e.metricLabel ::
    match e.verdict document with
    | .invalid _ => [.invalidOutput e.metricLabel]
    | .excluded => [.filteredOutput e.metricLabel]
    | .blank | .reported _ => []

/-- After an invalid document no more are wanted. -/
theorem complaint?_of_continue {e : Engine} {sink : Sink σ} {document : Bytes} {s s' : σ}
    (h : e.answer sink document s = (.continue, s')) : e.complaint? document = none := by
  unfold answer at h
  unfold complaint?
  rcases hv : e.verdict document with _ | message | _ | x
  · rfl
  · rw [hv] at h
    cases h
  · rfl
  · rfl

theorem hand_measurements (e : Engine) (o : EngineOptions) (sink : Sink σ) (who : Identity)
    (document : Bytes) (t : Watch σ) :
    ((e.watcher o sink).hand who document t).2.journal.measurements =
      t.journal.measurements ++ e.measured document := by
  show (e.accept _ sink document
    ((e.watcher o sink).notice (.output who document) t)).2.journal.measurements = _
  unfold accept measured
  rw [judge_eq_verdict]
  -- A document is counted once as a chunk, and once more if it is invalid or left out.
  rcases hv : e.verdict document with _ | message | _ | x
  · rfl
  · simp only [Journal.foldl_log_measurements]
    show (t.journal.measurements ++ [_]) ++ [_] = _
    rw [List.append_assoc]
    rfl
  · show (t.journal.measurements ++ [_]) ++ [_] = _
    rw [List.append_assoc]
    rfl
  · rcases hw : sink.write x ((e.watcher o sink).notice (.output who document) t).sink
      with ⟨_ | _, s'⟩ <;> simp only [hw] <;> rfl

/-! ## Section 3: The documents that are heard -/

/-- The documents that are heard, up to the first one after which no more are wanted. -/
def heard (e : Engine) (sink : Sink σ) : List Bytes → σ → List Bytes
  | [], _ => []
  | document :: rest, s =>
    match e.answer sink document s with
    | (.stop, _) => [document]
    | (.continue, s) => document :: e.heard sink rest s

section hearing

variable {e : Engine} {sink : Sink σ} {document : Bytes} {rest : List Bytes} {s s' : σ}

theorem heard_cons_stop (h : e.answer sink document s = (.stop, s')) :
    e.heard sink (document :: rest) s = [document] := by
  simp only [heard, h]

theorem heard_cons_continue (h : e.answer sink document s = (.continue, s')) :
    e.heard sink (document :: rest) s = document :: e.heard sink rest s' := by
  simp only [heard, h]

end hearing

theorem heard_prefix (e : Engine) (sink : Sink σ) (documents : List Bytes) (s : σ) :
    e.heard sink documents s <+: documents := by
  induction documents generalizing s with
  | nil => exact List.prefix_rfl
  | cons document rest ih =>
    rcases h : e.answer sink document s with ⟨_ | _, s'⟩
    · rw [heard_cons_continue h]
      exact (List.prefix_cons_inj document).2 (ih s')
    · rw [heard_cons_stop h]
      exact (List.prefix_cons_inj document).2 List.nil_prefix

/-- Only the last document that is heard can be invalid. -/
theorem heard_complaints (e : Engine) (sink : Sink σ) (documents : List Bytes) (s : σ) :
    (e.heard sink documents s).filterMap e.complaint? =
      ((e.heard sink documents s).getLast?.bind e.complaint?).toList := by
  -- A document that is complained of is the last one heard, since the engine is stopped there.
  induction documents generalizing s with
  | nil => rfl
  | cons document rest ih =>
    rcases h : e.answer sink document s with ⟨_ | _, s'⟩
    · have hvalid := complaint?_of_continue h
      rw [heard_cons_continue h, List.filterMap_cons_none hvalid, ih s']
      rcases hrest : e.heard sink rest s' with _ | ⟨next, more⟩
      · simp [hvalid]
      · rw [List.getLast?_cons_cons]
    · rw [heard_cons_stop h]
      cases hc : e.complaint? document <;> simp [hc]

/-- The documents that are heard make the calls of the digest. -/
theorem digest_calls (e : Engine) (sink : Sink σ) (documents : List Bytes) (s : σ) :
    (e.digest sink documents s).calls = (e.heard sink documents s).filterMap e.call? := by
  -- Both sides stop at the same document: a digest by its verdict, hearing by the answer to it.
  induction documents generalizing s with
  | nil => rfl
  | cons document rest ih =>
    rcases h : e.verdict document with _ | message | _ | x
    · have hanswer : e.answer sink document s = (.continue, s) := by simp only [answer, h]
      rw [digest_cons_blank h, heard_cons_continue hanswer, ih]
      simp [call?, h]
    · have hanswer : e.answer sink document s =
          (.stop, (sink.fail (e.complaint message) s).2) := by simp only [answer, h]
      rw [digest_cons_invalid h, heard_cons_stop hanswer]
      simp [call?, h]
    · have hanswer : e.answer sink document s = (.continue, s) := by simp only [answer, h]
      rw [digest_cons_excluded h, heard_cons_continue hanswer, ih]
      simp [call?, h]
    · rcases hw : sink.write x s with ⟨_ | _, s'⟩
      · have hanswer : e.answer sink document s = (.stop, s') := by simp only [answer, h, hw]
        rw [digest_cons_declined h hw, heard_cons_stop hanswer]
        simp [call?, h]
      · have hanswer : e.answer sink document s = (.continue, s') := by simp only [answer, h, hw]
        rw [digest_cons_taken h hw, heard_cons_continue hanswer, ih]
        simp [call?, h]

/-- **Handing over documents tells those that are heard**, and measures each of them. -/
theorem handAll_heard (e : Engine) (o : EngineOptions) (sink : Sink σ) (who : Identity)
    (documents : List Bytes) (t : Watch σ) :
    let t' := ((e.watcher o sink).handAll who documents t).2
    let heard := e.heard sink documents t.sink
    t'.journal.measurements = t.journal.measurements ++ heard.flatMap e.measured ∧
      t'.journal.events = t.journal.events ++ heard.map (.output who) := by
  -- By induction on the documents, the watch having taken up those before.
  induction documents generalizing t with
  | nil => exact ⟨(List.append_nil _).symm, (List.append_nil _).symm⟩
  | cons document rest ih =>
    obtain ⟨hanswer, -, hevents⟩ := e.hand_eq o sink who document t
    have hmeasured := e.hand_measurements o sink who document t
    rcases hv : (e.watcher o sink).hand who document t with ⟨_ | _, t'⟩ <;>
      rw [hv] at hanswer hevents hmeasured
    · obtain ⟨hrestMeasured, hrestEvents⟩ := ih t'
      rw [Watcher.handAll_cons_continue _ _ hv, heard_cons_continue hanswer.symm]
      dsimp only at hevents hmeasured hrestMeasured hrestEvents ⊢
      rw [hrestMeasured, hrestEvents, hmeasured, hevents]
      simp
    · rw [Watcher.handAll_cons_stop _ _ hv, heard_cons_stop hanswer.symm]
      dsimp only at hevents hmeasured ⊢
      rw [hmeasured, hevents]
      simp

/-! ## Section 4: Runs -/

/-- What a run of the engine tells of its container: that it was started, each document that was
    heard, and the outcome. -/
structure Tells (e : Engine) (sink : Sink σ) (outcome : Outcome) (documents : List Bytes)
    (j j' : Journal) (s s' : σ) : Prop where
  measurements : j'.measurements = j.measurements ++
    (.runStarted e.metricLabel :: (documents.flatMap e.measured ++
      Measurement.ofEnd e.metricLabel outcome (.ofOutcome outcome)))
  events : ∃ who, j'.events = j.events ++
    (.started who :: (documents.map (.output who) ++ [.ofOutcome who outcome]))
  sink : s' = sink.replay (documents.filterMap e.call?) s

/-- An engine ends well just if its container did well, and then with the same outcome. -/
theorem ending_eq_ok_iff {e : Engine} {o : EngineOptions} {outcome outcome' : Outcome} :
    e.ending o outcome = .ok outcome' ↔ outcome.isSuccess = true ∧ outcome' = outcome := by
  unfold ending
  split
  · -- Time is looked at first, and what ran out of time is no success either.
    next htime =>
    have hfailed : outcome.isSuccess = false := by simp [Outcome.isSuccess, htime]
    simp [hfailed]
  · split
    · next hsuccess =>
      simp only [hsuccess, true_and, Except.ok.injEq]
      exact eq_comm
    · next hfailed => simp [hfailed]

/-- What is told of a container to who follows it, is told of it in the run of its engine. -/
theorem tells_of_followed {e : Engine} {o : EngineOptions} {sink : Sink σ} {who : Identity}
    {chunks : List Bytes} {outcome : Outcome} {t t₁ t' : Watch σ}
    (hlogged : (e.watcher o sink).Logged t t₁)
    (hfollowed : (e.watcher o sink).Followed who chunks outcome t₁ t') (hraised : t.raised = none) :
    e.Tells sink outcome (e.heard sink chunks t.sink) t.journal t'.journal t.sink t'.sink ∧
      e.conclude (.ok outcome) t'.raised = e.ending o outcome ∧
      decide (((e.watcher o sink).handAll who chunks
          ((e.watcher o sink).notice (.started who) t₁)).1 = .stop) =
        (e.digest sink chunks t.sink).stopped := by
  obtain ⟨t₂, hlate, rfl⟩ := hfollowed
  let t₀ := (e.watcher o sink).notice (.started who) t₁
  -- All that matters of the state looks past the log.
  let obs : Watch σ → (List Measurement × List Event) × Option EngineFailure × σ :=
    fun t => (t.journal.record, t.raised, t.sink)
  have hstart : obs t₁ = obs t := hlogged.obs_eq obs fun _ _ => rfl
  have hend : obs t₂ = obs ((e.watcher o sink).handAll who chunks t₀).2 :=
    hlate.obs_eq obs fun _ _ => rfl
  simp only [obs, Journal.record, Prod.mk.injEq] at hstart hend
  obtain ⟨⟨hmeasured₁, hevents₁⟩, hraised₁, hsink₁⟩ := hstart
  obtain ⟨⟨hmeasured₂, hevents₂⟩, hraised₂, hsink₂⟩ := hend
  have hsink₀ : t₀.sink = t.sink := hsink₁
  obtain ⟨hmeasured, hevents⟩ := e.handAll_heard o sink who chunks t₀
  obtain ⟨hcontrol, hsink, hnone⟩ := e.handAll_digest o sink who chunks t₀
  rw [hsink₀] at hmeasured hevents hcontrol hsink
  have hraised₀ : t₀.raised = none := by
    show t₁.raised.or (EngineFailure.ofEvent? _ _ (.started who)) = none
    rw [hraised₁, hraised]
    rfl
  refine ⟨⟨?_, ⟨who, ?_⟩, ?_⟩, ?_, ?_⟩
  · show t₂.journal.measurements ++ Measurement.ofEvent e.metricLabel (.ofOutcome who outcome) = _
    rw [hmeasured₂, hmeasured, Measurement.ofEvent_ofOutcome]
    show ((t₁.journal.measurements ++ [.runStarted e.metricLabel]) ++ _) ++ _ = _
    rw [hmeasured₁]
    simp
  · show t₂.journal.events ++ [.ofOutcome who outcome] = _
    rw [hevents₂, hevents]
    show ((t₁.journal.events ++ [.started who]) ++ _) ++ _ = _
    rw [hevents₁]
    simp
  · show t₂.sink = _
    rw [hsink₂, hsink, ← replay_digest, digest_calls]
  · show e.conclude (.ok outcome) (t₂.raised.or _) = _
    rw [hraised₂, hnone, hraised₀]
    exact e.conclude_ofOutcome o who outcome
  · rw [hcontrol]
    cases (e.digest sink chunks t.sink).stopped <;> rfl

end Engine

/-- What a runtime was asked to run for an engine, and what it has answered. -/
structure Attempt (ρ : Type) where
  disk : Disk
  spec : Container.Spec
  /-- The state of the runtime when it was asked. -/
  runtime : ρ
  answer : Except RuntimeFailure Outcome

namespace Engine

variable {ρ σ : Type}

/-- What the runtime is asked to run for the engine, if its stage is set. -/
def attempt? (rt : Container.Runtime ρ) (sink : Sink σ) (e : Engine) (o : EngineOptions)
    (features : FeatureSet) (w : World ρ) (s : σ) : Option (Attempt ρ) :=
  match e.stage o features.toJson.compact w with
  | (.error _, _) => none
  | (.ok st, w) =>
    some {
      disk := w.disk
      spec := e.stagedSpec o st
      runtime := w.runtime
      answer := (rt.run w.disk (e.stagedSpec o st) (e.watcher o sink)
        (w.runtime, { journal := w.journal, sink := s })).1 }

section runs

variable {rt : Container.Runtime ρ} {sink : Sink σ} {e : Engine} {o : EngineOptions}
  {features : FeatureSet} {w : World ρ} {s : σ}

/-- The specification of an attempt separates documents as all engines do. -/
theorem attempt?_delimiter {a : Attempt ρ} (h : e.attempt? rt sink o features w s = some a) :
    a.spec.delimiter = Container.documentDelimiter := by
  unfold attempt? at h
  split at h
  · cases h
  · cases h
    rfl

/-- A container that was not started is not told of, and the run of its engine fails. -/
theorem run_of_not_started (hrt : rt.Dutiful)
    (h : ∀ a outcome, e.attempt? rt sink o features w s = some a → a.answer ≠ .ok outcome) :
    let r := e.run rt sink o features w s
    (∃ failure, r.1 = .error failure) ∧ r.2.1.journal.record = w.journal.record ∧ r.2.2 = s := by
  have hrecord := e.stage_record o features.toJson.compact w
  unfold attempt? at h
  rw [run_eq]
  rcases hst : e.stage o features.toJson.compact w with ⟨cause | st, w₁⟩ <;> rw [hst] at hrecord h
  · -- No stage: the container was not attempted at all.
    exact ⟨⟨_, rfl⟩, hrecord, rfl⟩
  · have hserved := hrt w₁.disk (e.stagedSpec o st) (e.watcher o sink) w₁.runtime
      { journal := w₁.journal, sink := s }
    have hfailed := fun outcome => h _ outcome rfl
    rcases hrun : rt.run w₁.disk (e.stagedSpec o st) (e.watcher o sink)
      (w₁.runtime, { journal := w₁.journal, sink := s }) with ⟨failure | outcome, runtime, t⟩ <;>
      rw [hrun] at hserved hfailed
    · -- An attempt that was refused has told the log alone.
      have hjournal : t.journal.record = w₁.journal.record :=
        hserved.obs_eq (fun t : Watch σ => t.journal.record) fun _ _ => rfl
      have hsink : t.sink = s := hserved.obs_eq Watch.sink fun _ _ => rfl
      simp only [hrun, World.strike_record]
      exact ⟨⟨_, rfl⟩, hjournal.trans hrecord, hsink⟩
    · exact absurd rfl (hfailed outcome)

/-- The run of an engine whose container was followed tells of what was heard. -/
theorem run_of_followed {st : Stage} {w₁ : World ρ}
    (hst : e.stage o features.toJson.compact w = (.ok st, w₁)) {who : Identity}
    {chunks : List Bytes} {outcome : Outcome} {runtime : ρ} {t₁ t' : Watch σ}
    (hrun : rt.run w₁.disk (e.stagedSpec o st) (e.watcher o sink)
      (w₁.runtime, { journal := w₁.journal, sink := s }) = (.ok outcome, runtime, t'))
    (hlogged : (e.watcher o sink).Logged { journal := w₁.journal, sink := s } t₁)
    (hfollowed : (e.watcher o sink).Followed who chunks outcome t₁ t') :
    let r := e.run rt sink o features w s
    r.1 = e.ending o outcome ∧
      e.Tells sink outcome (e.heard sink chunks s) w.journal r.2.1.journal s r.2.2 ∧
      decide (((e.watcher o sink).handAll who chunks
          ((e.watcher o sink).notice (.started who) t₁)).1 = .stop) =
        (e.digest sink chunks s).stopped := by
  have hrecord := e.stage_record o features.toJson.compact w
  rw [hst] at hrecord
  obtain ⟨hmeasured, hevents⟩ := Prod.mk.inj hrecord
  obtain ⟨htells, hending, hstopped⟩ := tells_of_followed hlogged hfollowed rfl
  simp only [run_eq, hst, hrun]
  -- Removing the artifacts may log a warning and measures nothing.
  have hstrike : ∀ w₂ : World ρ, (w₂.strike st).journal.measurements = w₂.journal.measurements :=
    fun w₂ => congrArg Prod.fst (w₂.strike_record st)
  refine ⟨hending, ⟨?_, ?_, htells.sink⟩, hstopped⟩
  · rw [hstrike]
    exact htells.measurements.trans (by rw [hmeasured])
  · rw [World.strike_events]
    obtain ⟨who', htold⟩ := htells.events
    exact ⟨who', htold.trans (by rw [hevents])⟩

/-- **The run of an engine whose container was started** ends as its outcome does, and tells of
    the documents that were heard. -/
theorem run_of_started (hrt : rt.Dutiful) {a : Attempt ρ} {outcome : Outcome}
    (h : e.attempt? rt sink o features w s = some a) (ha : a.answer = .ok outcome) :
    let r := e.run rt sink o features w s
    ∃ chunks, r.1 = e.ending o outcome ∧
      e.Tells sink outcome (e.heard sink chunks s) w.journal r.2.1.journal s r.2.2 := by
  unfold attempt? at h
  rcases hst : e.stage o features.toJson.compact w with ⟨cause | st, w₁⟩ <;> rw [hst] at h
  · cases h
  cases h
  have hserved := hrt w₁.disk (e.stagedSpec o st) (e.watcher o sink) w₁.runtime
    { journal := w₁.journal, sink := s }
  rcases hrun : rt.run w₁.disk (e.stagedSpec o st) (e.watcher o sink)
    (w₁.runtime, { journal := w₁.journal, sink := s }) with ⟨result, runtime, t⟩
  dsimp only at ha
  rw [hrun] at hserved ha
  obtain rfl : result = .ok outcome := ha
  -- A runtime that is dutiful has followed the container to its end.
  obtain ⟨who, chunks, t₁, hlogged, hfollowed⟩ := hserved
  obtain ⟨hending, htells, -⟩ := run_of_followed hst hrun hlogged hfollowed
  exact ⟨chunks, hending, htells⟩

/-- **The run of an engine whose container writes a stream** tells of the documents of the stream,
    as far as they fit, and its container was stopped just if their digest was. -/
theorem run_of_streams {stream : Disk → Container.Spec → ρ → Bytes} (hrt : rt.Streams stream)
    {a : Attempt ρ} {outcome : Outcome} (h : e.attempt? rt sink o features w s = some a)
    (ha : a.answer = .ok outcome) :
    let r := e.run rt sink o features w s
    let documents := Splitter.documents Container.documentDelimiter (stream a.disk a.spec a.runtime)
    ∃ chunks, r.1 = e.ending o outcome ∧
      e.Tells sink outcome (e.heard sink chunks s) w.journal r.2.1.journal s r.2.2 ∧
      outcome.stopped = (e.digest sink chunks s).stopped ∧
      ((∀ d ∈ documents, d.length ≤ defaultChunkLimit) → chunks <+: documents ∧
        (outcome.timedOut = false → outcome.error = none → outcome.stopped = false →
          chunks = documents)) := by
  have hdelimiter := attempt?_delimiter h
  unfold attempt? at h
  rcases hst : e.stage o features.toJson.compact w with ⟨cause | st, w₁⟩ <;> rw [hst] at h
  · cases h
  cases h
  have hstreamed := hrt w₁.disk (e.stagedSpec o st) (e.watcher o sink) w₁.runtime
    { journal := w₁.journal, sink := s }
  rcases hrun : rt.run w₁.disk (e.stagedSpec o st) (e.watcher o sink)
    (w₁.runtime, { journal := w₁.journal, sink := s }) with ⟨result, runtime, t⟩
  dsimp only at ha hdelimiter ⊢
  rw [hrun] at ha
  rw [hrun, hdelimiter] at hstreamed
  obtain rfl : result = .ok outcome := ha
  -- The chunks are those of the stream, as far as they were handed over.
  obtain ⟨who, chunks, t₁, hlogged, hfollowed, hstopped, hchunks⟩ := hstreamed
  obtain ⟨hending, htells, hdigest⟩ := run_of_followed hst hrun hlogged hfollowed
  exact ⟨chunks, hending, htells, hstopped.trans hdigest, hchunks⟩

end runs

end Engine
end StackSurvey
