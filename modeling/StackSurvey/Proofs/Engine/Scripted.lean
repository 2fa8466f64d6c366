import StackSurvey.Proofs.Engine.Handover
import StackSurvey.Proofs.Engine.Streaming
import StackSurvey.Survey.Run

/-! # Engines whose containers follow a script

    `attend` says what a run of an engine comes to where a casting decides what its container
    does: the stage is set, the script is cast for what the engine is handed, its documents are
    digested, and the outcome is judged.  Frames, splitters and watchers do not occur in it.  A
    run of the engine comes to just that (`run_eq_attend`). -/

namespace StackSurvey

open Container (Casting Event Identity Outcome)

variable {ρ σ φ : Type}

/-! ## Section 1: The sink of a survey -/

/-- A reporter as a sink. -/
def Report.Reporter.sink (reporter : Report.Reporter φ) : Sink φ where
  write := reporter.write
  fail := reporter.fail

theorem gathering_write (reporter : Report.Reporter φ) (x : Finding) (g : Gathering φ) :
    (Gathering.sink reporter).write x g = ((reporter.sink.write x g.report).1,
      { report := (reporter.sink.write x g.report).2,
        features := g.features ++ x.feature?.toList }) := rfl

def SinkCall.feature? : SinkCall → Option Feature
  | .write x => x.feature?
  | .fail _ => none

/-- The features that calls pass on, in the order of the calls. -/
def passed (calls : List SinkCall) : List Feature := calls.filterMap SinkCall.feature?

namespace Engine

/-- A survey gathers what is passed on, the last finding included, whatever the reporter answers.
    Apart from that the digest is that of the reporter. -/
theorem digest_gathering (e : Engine) (reporter : Report.Reporter φ) (documents : List Bytes)
    (g : Gathering φ) :
    e.digest (Gathering.sink reporter) documents g =
      let d := e.digest reporter.sink documents g.report
      { calls := d.calls, stopped := d.stopped,
        sink := { report := d.sink, features := g.features ++ passed d.calls } } := by
  -- The gathering answers as its reporter does, so the documents are cut at the same place and only
  -- the features are added.
  induction documents generalizing g with
  | nil => simp [digest, passed]
  | cons document rest ih =>
    rcases h : e.verdict document with _ | message | _ | x
    · rw [digest_cons_blank h, digest_cons_blank h, ih]
    · rw [digest_cons_invalid h, digest_cons_invalid h]
      simp [passed, SinkCall.feature?, Gathering.sink, Report.Reporter.sink]
    · rw [digest_cons_excluded h, digest_cons_excluded h, ih]
    · have hg := gathering_write reporter x g
      rcases hw : reporter.sink.write x g.report with ⟨_ | _, report⟩ <;> rw [hw] at hg
      · rw [digest_cons_declined h hw, digest_cons_declined h hg]
        rcases hx : x.feature? with _ | f <;> simp [passed, SinkCall.feature?, hx]
      · rw [digest_cons_taken h hw, digest_cons_taken h hg, ih]
        rcases hx : x.feature? with _ | f <;> simp [passed, SinkCall.feature?, hx]

/-! ## Section 2: Attending -/

/-- How an engine ends with an outcome. -/
def ending (e : Engine) (o : EngineOptions) (outcome : Outcome) : Except EngineFailure Outcome :=
  if outcome.timedOut then .error (.timedOut e.qualifiedName o.timeout.seconds)
  else if outcome.isSuccess then .ok outcome
  else .error (.failed e.qualifiedName (EngineFailure.reasonOf outcome))

/-- Judging an outcome is judging the event that tells of it. -/
theorem conclude_ofOutcome (e : Engine) (o : EngineOptions) (who : Identity) (outcome : Outcome) :
    e.conclude (.ok outcome)
        (EngineFailure.ofEvent? e.qualifiedName (some o.timeout) (Event.ofOutcome who outcome)) =
      e.ending o outcome := by
  unfold ending Event.ofOutcome
  split
  · rfl
  · split <;> rfl

/-- A script that is played back to an engine is digested, and then the outcome is judged. -/
theorem perform_digest (e : Engine) (o : EngineOptions) (sink : Sink σ) {spec : Container.Spec}
    {script : Container.Script} (hfit : script.Fits spec.delimiter) (t : Watch σ) :
    let d := e.digest sink (script.documents spec.delimiter) t.sink
    let outcome := script.outcome spec (if d.stopped then .stop else .continue)
    let r := Container.Rehearsal.perform spec script (e.watcher o sink) t
    r.1 = outcome ∧ r.2.sink = d.sink ∧
      r.2.raised = t.raised.or (EngineFailure.ofEvent? e.qualifiedName (some o.timeout)
        (Event.ofOutcome spec.identity outcome)) := by
  obtain ⟨hcontrol, hsink, hraised⟩ := e.handAll_digest o sink spec.identity
    (script.documents spec.delimiter) ((e.watcher o sink).notice (.started spec.identity) t)
  -- The start of a container is no failure.
  have hstart : ((e.watcher o sink).notice (.started spec.identity) t).raised = t.raised := by
    simp [watcher, EngineFailure.ofEvent?]
  rw [show ((e.watcher o sink).notice (.started spec.identity) t).sink = t.sink from rfl]
    at hcontrol hsink
  rw [hstart] at hraised
  rw [Container.Rehearsal.perform_eq hfit]
  dsimp only
  rw [hcontrol]
  refine ⟨rfl, hsink, ?_⟩
  rw [← hraised]
  rfl

/-- What a run of an engine comes to. -/
structure Attendance (ρ σ : Type) where
  result : Except EngineFailure Outcome
  calls : List SinkCall := []
  world : World ρ
  sink : σ

/-- Runs an engine by the book. -/
def attend (c : Casting ρ) (sink : Sink σ) (e : Engine) (o : EngineOptions) (previous : String)
    (w : World ρ) (s : σ) : Attendance ρ σ :=
  match e.stage o previous w with
  | (.error cause, w) => { result := .error (.artifact cause), world := w, sink := s }
  | (.ok st, w) =>
    match c.cast (e.setting o st previous) w.runtime with
    | (.error failure, runtime) =>
      { result := .error (e.failureOf failure), world := { w with runtime }.strike st, sink := s }
    | (.ok script, runtime) =>
      let d := e.digest sink (script.documents Container.documentDelimiter) s
      let control := if d.stopped then .stop else .continue
      { result := e.ending o (script.outcome (e.stagedSpec o st) control)
        calls := d.calls
        world := { w with runtime }.strike st
        sink := d.sink }

/-- **A run of an engine whose container follows a script goes by the book.** -/
theorem run_eq_attend {c : Casting ρ} {P : ρ → Prop} (hfits : c.Fits P) (sink : Sink σ) (e : Engine)
    {o : EngineOptions} (features : FeatureSet) {w w' : World ρ} (hw : w.quiet = w'.quiet)
    (hnames : w.names.Proper) (hdir : c.directory w.runtime = o.artifacts.inside)
    (hP : P w.runtime) (s : σ) :
    let r := e.run c.runtime sink o features w s
    let a := e.attend c sink o features.toJson.compact w' s
    r.1 = a.result ∧ r.2.1.quiet = a.world.quiet ∧ r.2.2 = a.sink := by
  obtain ⟨hstage, hquiet⟩ := stage_congr hw e o features.toJson.compact
  have hruntime := e.stage_runtime o features.toJson.compact w
  rw [run_eq]
  unfold attend
  rcases hst : e.stage o features.toJson.compact w with ⟨result, w₁⟩
  rcases hst' : e.stage o features.toJson.compact w' with ⟨result', w₁'⟩
  rw [hst, hst'] at hstage hquiet
  rw [hst] at hruntime
  obtain rfl : result = result' := hstage
  cases result with
  | error cause => exact ⟨rfl, hquiet, rfl⟩
  | ok st =>
    obtain ⟨hdisk, hnamed, hsame⟩ := World.quiet_eq_iff.1 hquiet
    dsimp only at hdisk hnamed hsame hruntime
    have hsetting : Casting.setting (c.directory w₁.runtime) w₁.disk (e.stagedSpec o st) =
        e.setting o st features.toJson.compact := by
      rw [hruntime, hdir, setting_of_stage hnames hst]
    -- From here on only the script matters, and both sides cast the same one.
    rcases hcast : c.cast (e.setting o st features.toJson.compact) w₁.runtime with
      ⟨script, runtime⟩
    have hstrike : ∀ journal, ({ w₁ with runtime, journal }.strike st).quiet =
        ({ w₁' with runtime }.strike st).quiet := by
      intro journal
      apply World.strike_congr
      exact World.quiet_eq_iff.2 ⟨hdisk, hnamed, rfl⟩
    cases script with
    | error failure =>
      simp only [Casting.runtime, hsetting, hcast, ← hsame, conclude]
      exact ⟨trivial, hstrike w₁.journal, trivial⟩
    | ok script =>
      have hfit : script.Fits (e.stagedSpec o st).delimiter :=
        hfits.fits _ _ _ (hruntime ▸ hP) (congrArg Prod.fst hcast)
      obtain ⟨hout, hsink, hraised⟩ := e.perform_digest o sink hfit
        { journal := w₁.journal, sink := s }
      simp only [Casting.runtime, hsetting, hcast, ← hsame]
      refine ⟨?_, hstrike _, hsink⟩
      rw [hraised, hout]
      exact e.conclude_ofOutcome o _ _

/-- A survey gathers what is passed on, and attends to the rest like its reporter. -/
theorem attend_gathering (c : Casting ρ) (reporter : Report.Reporter φ) (e : Engine)
    (o : EngineOptions) (previous : String) (w : World ρ) (report : φ) :
    let a := e.attend c reporter.sink o previous w report
    let b := e.attend c (Gathering.sink reporter) o previous w { report }
    b.result = a.result ∧ b.world = a.world ∧ b.sink = ⟨a.sink, passed a.calls⟩ := by
  unfold attend
  rcases e.stage o previous w with ⟨_ | st, w₁⟩
  · exact ⟨rfl, rfl, rfl⟩
  · dsimp only
    rcases c.cast (e.setting o st previous) w₁.runtime with ⟨_ | script, runtime⟩
    · exact ⟨rfl, rfl, rfl⟩
    -- Both digests make the same calls and stop alike.
    · simp only [digest_gathering, List.nil_append, and_self]

/-- A run of an engine in a survey goes by the book of its reporter, and what is passed on is
    gathered. -/
theorem run_gathering_eq_attend {c : Casting ρ} {P : ρ → Prop} (hfits : c.Fits P)
    (reporter : Report.Reporter φ) (e : Engine) {o : EngineOptions} (features : FeatureSet)
    {w w' : World ρ} (hw : w.quiet = w'.quiet) (hnames : w.names.Proper)
    (hdir : c.directory w.runtime = o.artifacts.inside) (hP : P w.runtime) (report : φ) :
    let r := e.run c.runtime (Gathering.sink reporter) o features w { report }
    let a := e.attend c reporter.sink o features.toJson.compact w' report
    r.1 = a.result ∧ r.2.1.quiet = a.world.quiet ∧ r.2.2 = ⟨a.sink, passed a.calls⟩ := by
  dsimp only
  obtain ⟨hended, hquiet, hsink⟩ :=
    e.run_eq_attend hfits (Gathering.sink reporter) features hw hnames hdir hP { report }
  obtain ⟨hresult, hworld, hgathered⟩ :=
    e.attend_gathering c reporter o features.toJson.compact w' report
  exact ⟨hended.trans hresult, hquiet.trans (congrArg World.quiet hworld), hsink.trans hgathered⟩

/-! ## Section 3: What a run leaves alone -/

/-- A run takes names from the supply and leaves the supply as it is. -/
theorem run_name (rt : Container.Runtime ρ) (sink : Sink σ) (e : Engine) (o : EngineOptions)
    (features : FeatureSet) (w : World ρ) (s : σ) :
    (e.run rt sink o features w s).2.1.names.name = w.names.name := by
  have hstage := e.stage_name o features.toJson.compact w
  rw [run_eq]
  rcases hst : e.stage o features.toJson.compact w with ⟨_ | st, w₁⟩ <;> rw [hst] at hstage
  · exact hstage
  · simp only [World.strike_names]
    exact hstage

/-- What casting keeps, a run keeps. -/
theorem run_keeps_cast {c : Casting ρ} {P : ρ → Prop}
    (hP : ∀ setting r, P r → P (c.cast setting r).2) (sink : Sink σ) (e : Engine)
    (o : EngineOptions) (features : FeatureSet) {w : World ρ} (hw : P w.runtime) (s : σ) :
    P (e.run c.runtime sink o features w s).2.1.runtime := by
  have hstage := e.stage_runtime o features.toJson.compact w
  rw [run_eq]
  rcases hst : e.stage o features.toJson.compact w with ⟨_ | st, w₁⟩ <;> rw [hst] at hstage
  · exact hstage ▸ hw
  · simp only [World.strike_runtime]
    exact c.run_keeps hP _ _ _ (hstage ▸ hw) _

end Engine
end StackSurvey
