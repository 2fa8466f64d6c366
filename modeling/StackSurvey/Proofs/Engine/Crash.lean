import StackSurvey.Container.ScriptedDaemon
import StackSurvey.Proofs.Container.Session
import StackSurvey.Proofs.Engine.Staging
import StackSurvey.Proofs.Engine.Streaming

/-! # Crashes in the middle of a document

    A container that closes its output and exits with a status other than 0 has crashed.  It is
    told as a failure only if the bytes it leaves behind are put up with: an answer that wants no
    more counts as a stop on purpose, although there was nothing left to stop, and then the
    status does not matter. -/

namespace StackSurvey

open Container (Daemon Exchange)

namespace Engine

variable {δ σ : Type}

/-- The bytes left at the end of a stream do not put an end to anything: they are blank or
    excluded, or a finding after which the sink wants more. -/
def PutsUpWith (e : Engine) (sink : Sink σ) (bytes : Bytes) (s : σ) : Prop :=
  match e.verdict bytes with
  | .blank | .excluded => True
  | .invalid _ => False
  | .reported x => (sink.write x s).1 = true

theorem answer_stop_iff {e : Engine} {sink : Sink σ} {bytes : Bytes} {s : σ} :
    (e.answer sink bytes s).1 = .stop ↔ ¬ e.PutsUpWith sink bytes s := by
  unfold answer PutsUpWith
  rcases e.verdict bytes with _ | message | _ | x
  · simp
  · simp
  · simp
  · rcases h : sink.write x s with ⟨_ | _, s'⟩ <;> simp [h]

instance (e : Engine) (sink : Sink σ) (bytes : Bytes) (s : σ) :
    Decidable (e.PutsUpWith sink bytes s) :=
  decidable_of_iff (¬ (e.answer sink bytes s).1 = .stop) (by rw [answer_stop_iff, not_not])

/-- Nothing is raised before the container has ended. -/
theorem raised_of_followed {e : Engine} {o : EngineOptions} {sink : Sink σ} {d : Daemon δ}
    {spec : Container.Spec} {s : Exchange δ × Watch σ} (hs : s.2.raised = none) {x : Exchange δ}
    {leave : Daemon.Leave} {g : Daemon.Gathered (Watch σ)}
    (h : d.followed? spec (e.watcher o sink) s = some (x, leave, g)) : g.watcher.raised = none := by
  -- A log line raises nothing, and neither does a start nor a chunk of output.
  refine Daemon.followed_keeps (P := fun t => t.raised = none) ?_ ?_ ?_ hs h
  · exact fun _ _ ht => ht
  · intro t ht
    simp [watcher, EngineFailure.ofEvent?, ht]
  · intro chunk t ht
    rw [(e.hand_eq o sink spec.identity chunk t).2.1, ht]

/-- A container that has closed its output by itself and tells its status ends without any other
    trouble, and counts as stopped just if the bytes it has left behind are not put up with. -/
theorem run_of_closed {e : Engine} {o : EngineOptions} {sink : Sink σ} {daemon : Daemon δ}
    {spec : Container.Spec} {s : Exchange δ × Watch σ} (hs : s.2.raised = none) {x : Exchange δ}
    {g : Daemon.Gathered (Watch σ)}
    (hfollowed : daemon.followed? spec (e.watcher o sink) s = some (x, .closed, g))
    {status : Int} (hexit : (daemon.wait spec.name x).1 = .ok (some status)) :
    ∃ outcome x' t, daemon.run spec (e.watcher o sink) s =
        (.ok outcome, x', (e.watcher o sink).noticeOutcome spec.identity outcome t) ∧
      t.raised = none ∧ outcome.exitStatus = some status ∧ outcome.timedOut = false ∧
      outcome.error = none ∧
      (outcome.stopped = true ↔ ¬ e.PutsUpWith sink g.splitter.buffer g.watcher.sink) := by
  -- The bytes left behind are the only thing that the end of the stream depends on.
  obtain ⟨hanswer, hraised⟩ := e.deliverRest_answer o sink spec.identity g.splitter g.watcher
  obtain ⟨outcome, x', t, hrun, hobs, hstatus, hstopped, htimed, herror⟩ :=
    Daemon.run_of_followed Watch.raised (fun _ _ => rfl) hfollowed
  have hsettle : daemon.settle (e.watcher o sink) spec .closed g.splitter (x, g.watcher) =
      (((e.watcher o sink).deliverRest spec.identity g.splitter g.watcher).1, none, x,
        ((e.watcher o sink).deliverRest spec.identity g.splitter g.watcher).2.2) := rfl
  rw [hsettle] at hobs hstatus hstopped herror
  refine ⟨outcome, x', t, hrun, hobs.trans (hraised.trans (raised_of_followed hs hfollowed)), ?_,
    htimed, ?_, ?_⟩
  · rw [hstatus, hexit]
    rfl
  · rw [herror, hexit]
    rfl
  · rw [hstopped, decide_eq_true_iff, ← answer_stop_iff (e := e), ← hanswer]

/-- What an outcome with a status other than 0, and without any other trouble, comes to. -/
theorem ofOutcome_crash (who : Container.Identity) {r : Container.Outcome} {status : Int}
    (hstatus : r.exitStatus = some status) (hcrash : status ≠ 0) (htimed : r.timedOut = false)
    (herror : r.error = none) :
    Container.Event.ofOutcome who r = if r.stopped then .finished who r else .failed who r := by
  simp [Container.Event.ofOutcome, Container.Outcome.isSuccess, htimed, herror, hstatus, hcrash]

/-- **A crash is told as a failure just if the bytes left behind are put up with.**  The
    container has closed its output by itself and then exits with a status other than 0.  If its
    last bytes are answered by a stop, it counts as done. -/
theorem crash_failed_iff (daemon : Daemon δ) (sink : Sink σ) (e : Engine) (o : EngineOptions)
    (features : FeatureSet) (w : World (Exchange δ)) (s : σ) {st : Stage}
    (hstage : (e.stage o features.toJson.compact w).1 = .ok st) {x : Exchange δ}
    {g : Daemon.Gathered (Watch σ)}
    (hfollowed : daemon.followed? (e.stagedSpec o st) (e.watcher o sink)
      ((e.stage o features.toJson.compact w).2.runtime,
        { journal := (e.stage o features.toJson.compact w).2.journal, sink := s }) =
      some (x, .closed, g))
    {status : Int} (hexit : (daemon.wait (e.stagedSpec o st).name x).1 = .ok (some status))
    (hcrash : status ≠ 0) :
    let who := (e.stagedSpec o st).identity
    let r := e.run daemon.runtime sink o features w s
    ∃ outcome : Container.Outcome, outcome.exitStatus = some status ∧
      (r.1 = .error (.failed e.qualifiedName (EngineFailure.reasonOf outcome)) ∧
          r.2.1.journal.events.getLast? = some (.failed who outcome) ↔
        e.PutsUpWith sink g.splitter.buffer g.watcher.sink) ∧
      (r.1 = .ok outcome ∧ outcome.stopped = true ∧
          r.2.1.journal.events.getLast? = some (.finished who outcome) ↔
        ¬ e.PutsUpWith sink g.splitter.buffer g.watcher.sink) := by
  intro who r
  rcases hst : e.stage o features.toJson.compact w with ⟨_ | st', w₁⟩
  · rw [hst] at hstage
    exact nomatch hstage
  rw [hst] at hstage hfollowed
  obtain rfl : st' = st := Except.ok.inj hstage
  obtain ⟨outcome, x', t, hrun, hnone, hexited, htimed, herror, hstops⟩ :=
    run_of_closed rfl hfollowed hexit
  -- Nothing has been raised on the way, so the event of this outcome decides.
  have hevent := ofOutcome_crash who hexited hcrash htimed herror
  have hr : r = (e.conclude (.ok outcome) ((e.watcher o sink).noticeOutcome who outcome t).raised,
      { w₁ with
        runtime := x'
        journal := ((e.watcher o sink).noticeOutcome who outcome t).journal }.strike st',
      ((e.watcher o sink).noticeOutcome who outcome t).sink) := by
    simp only [r, run_eq, hst, Daemon.runtime, hrun]
    rfl
  refine ⟨outcome, hexited, ?_⟩
  rw [← hstops, ← not_iff_comm.1 hstops.symm]
  cases hstop : outcome.stopped with
  | true =>
    rw [hstop, if_pos rfl] at hevent
    simp [hr, watcher, Container.Watcher.noticeOutcome, hevent, hnone, EngineFailure.ofEvent?,
      conclude]
  | false =>
    rw [hstop, if_neg Bool.false_ne_true] at hevent
    simp [hr, watcher, Container.Watcher.noticeOutcome, hevent, hnone, EngineFailure.ofEvent?,
      conclude]

/-- A container that leaves a whole finding behind and exits with status 1 is told as a failure. -/
theorem crash_failed_iff_whole_document :
    let scene : Container.Scene :=
      { stream := Container.Frame.encode (.stdout (Utf8.encode (Sample.document "Git")))
        exitStatus := 1 }
    let w : World (Exchange Container.ScriptedDaemon) :=
      Sample.world { daemon := { common := scene } }
    ∃ reason, (Sample.lint.run Container.ScriptedDaemon.daemon.runtime Collection.sink
      Sample.options .empty w {}).1 = .error (.failed "lint:stable" reason) := by
  intro scene w
  let e := Sample.lint
  let o := Sample.options
  let st := Sample.stage
  have hstage : (e.stage o FeatureSet.empty.toJson.compact w).1 = .ok st := by decide +kernel
  let daemon := Container.ScriptedDaemon.daemon
  -- The stream closes by itself with status 1, and the remainder is put up with.
  have hplay : (daemon.followed? (e.stagedSpec o st) (e.watcher o Collection.sink)
      ((e.stage o FeatureSet.empty.toJson.compact w).2.runtime,
        { journal := (e.stage o FeatureSet.empty.toJson.compact w).2.journal, sink := {} })).map
      (fun v => (v.2.1, (daemon.wait (e.stagedSpec o st).name v.1).1,
        decide (e.PutsUpWith Collection.sink v.2.2.splitter.buffer v.2.2.watcher.sink))) =
      some (.closed, .ok (some 1), true) := by decide +kernel
  obtain ⟨⟨x, leave, g⟩, hfollowed, hv⟩ := Option.map_eq_some_iff.1 hplay
  simp only [Prod.mk.injEq, decide_eq_true_eq] at hv
  obtain ⟨rfl, hexit, hputs⟩ := hv
  obtain ⟨outcome, -, hfailed, -⟩ := crash_failed_iff daemon Collection.sink e o .empty w {} hstage
    hfollowed hexit (by decide)
  exact ⟨_, (hfailed.2 hputs).1⟩

/-- A container that breaks off in the middle of a document and exits with status 1 is told to
    have finished. -/
theorem crash_in_document_finishes :
    let e := Sample.lint
    let o := Sample.options
    let st := Sample.stage
    let scene : Container.Scene :=
      { stream := Container.Frame.encode (.stdout (Utf8.encode "\x7b")), exitStatus := 1 }
    let w : World (Exchange Container.ScriptedDaemon) :=
      Sample.world { daemon := { common := scene } }
    let staged := e.stage o FeatureSet.empty.toJson.compact w
    let daemon := Container.ScriptedDaemon.daemon
    let followed := daemon.followed? (e.stagedSpec o st) (e.watcher o Collection.sink)
      (staged.2.runtime, { journal := staged.2.journal, sink := {} })
    let r := e.run daemon.runtime Collection.sink o .empty w {}
    staged.1 = .ok st ∧
      followed.map (fun v => (v.2.1, (daemon.wait (e.stagedSpec o st).name v.1).1)) =
        some (.closed, .ok (some 1)) ∧
      r.1.toOption.map (fun outcome => (outcome.exitStatus, outcome.stopped)) =
        some (some 1, true) ∧
      r.2.1.journal.events.any (fun event => event matches .failed _ _) = false := by
  decide +kernel

end Engine
end StackSurvey
