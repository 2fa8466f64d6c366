import StackSurvey.Proofs.Container.Honest
import StackSurvey.Proofs.Engine.Staging
import StackSurvey.Proofs.Engine.Streaming
import StackSurvey.Proofs.Feature
import StackSurvey.Survey.Run

/-! # Launches and reports

    Which containers are launched is seen by taking notes of all that a runtime is asked to run.
    Taking notes changes nothing else.  A run of an engine launches one container just if its
    stage is set, and what it passes on to a survey are features that the engine has reported:
    those in valid documents that are not left out. -/

namespace StackSurvey

open Container (Runtime Spec)

variable {ρ ρ' σ φ : Type}

/-! ## Section 1: Taking notes -/

namespace Container.Runtime

/-- The runtime with a list of all that it was asked to run. -/
def noted (rt : Runtime ρ) : Runtime (List Spec × ρ) where
  run disk spec w := fun ((launches, r), t) =>
    let (result, r, t) := rt.run disk spec w (r, t)
    (result, (launches ++ [spec], r), t)

theorem Honest.noted {rt : Runtime ρ} (hrt : rt.Honest) : rt.noted.Honest := by
  intro τ P disk spec w hw r t ht
  exact hrt disk spec w hw r.2 t ht

end Container.Runtime

namespace World

/-- The world in which something else runs containers. -/
def mapRuntime (f : ρ → ρ') (w : World ρ) : World ρ' :=
  { disk := w.disk, names := w.names, journal := w.journal, runtime := f w.runtime }

def launches (w : World (List Spec × ρ)) : List Spec := w.runtime.1

@[simp] theorem launches_log (w : World (List Spec × ρ)) (line : LogLine) :
    (w.log line).launches = w.launches := rfl

@[simp] theorem launches_measure (w : World (List Spec × ρ)) (m : Measurement) :
    (w.measure m).launches = w.launches := rfl

def unnoted (w : World (List Spec × ρ)) : World ρ := w.mapRuntime Prod.snd

theorem writeArtifact_mapRuntime (f : ρ → ρ') (w : World ρ) (directory : MountedPath)
    (text : String) :
    (w.mapRuntime f).writeArtifact directory text =
      ((w.writeArtifact directory text).1, (w.writeArtifact directory text).2.mapRuntime f) := by
  simp only [writeArtifact, logAll_eq]
  rfl

theorem discardArtifact_mapRuntime (f : ρ → ρ') (w : World ρ) (target : MountedPath) :
    (w.mapRuntime f).discardArtifact target = (w.discardArtifact target).mapRuntime f := by
  simp only [discardArtifact, logAll_eq]
  rfl

theorem strike_mapRuntime (f : ρ → ρ') (w : World ρ) (st : Stage) :
    (w.mapRuntime f).strike st = (w.strike st).mapRuntime f := by
  rw [strike, discardArtifact_mapRuntime, discardArtifact_mapRuntime, ← strike]

end World

namespace Engine

theorem stage_mapRuntime (f : ρ → ρ') (e : Engine) (o : EngineOptions) (previous : String)
    (w : World ρ) :
    e.stage o previous (w.mapRuntime f) =
      ((e.stage o previous w).1, (e.stage o previous w).2.mapRuntime f) := by
  unfold stage
  rw [World.writeArtifact_mapRuntime]
  rcases w.writeArtifact o.artifacts e.config.compact with ⟨_ | configFile, w₁⟩
  · rfl
  · simp only [World.writeArtifact_mapRuntime]
    rcases w₁.writeArtifact o.artifacts previous with ⟨_ | featuresFile, w₂⟩
    · simp only [World.discardArtifact_mapRuntime]
    · rfl

/-- What one runtime does in the part `f` of its state and another one does in all of its state,
    a run of an engine does too. -/
theorem run_mapRuntime {rt : Runtime ρ} {rt' : Runtime ρ'} (f : ρ' → ρ)
    (hrt : ∀ {τ : Type} (disk : Disk) (spec : Spec) (w : Container.Watcher τ) (r : ρ') (t : τ),
      let v := rt'.run disk spec w (r, t)
      rt.run disk spec w (f r, t) = (v.1, f v.2.1, v.2.2))
    (sink : Sink σ) (e : Engine) (o : EngineOptions) (features : FeatureSet) (w : World ρ') (s : σ) :
    let r := e.run rt' sink o features w s
    e.run rt sink o features (w.mapRuntime f) s = (r.1, r.2.1.mapRuntime f, r.2.2) := by
  rw [run_eq, run_eq, stage_mapRuntime]
  rcases e.stage o features.toJson.compact w with ⟨_ | st, w₁⟩
  · rfl
  · -- Apart from the stage the runtime is used once, for the container.
    have hrun := hrt w₁.disk (e.stagedSpec o st) (e.watcher o sink) w₁.runtime
      { journal := w₁.journal, sink := s }
    change
      (let v := rt.run w₁.disk (e.stagedSpec o st) (e.watcher o sink)
        (f w₁.runtime, { journal := w₁.journal, sink := s })
      (e.conclude v.1 v.2.2.raised,
        ({ w₁.mapRuntime f with runtime := v.2.1, journal := v.2.2.journal } : World ρ).strike st,
        v.2.2.sink)) = _
    rw [hrun, ← World.strike_mapRuntime]
    rfl

/-- **Taking notes changes nothing**: without the notes the run is the same. -/
theorem run_noted (rt : Runtime ρ) (sink : Sink σ) (e : Engine) (o : EngineOptions)
    (features : FeatureSet) (w : World (List Spec × ρ)) (s : σ) :
    let r := e.run rt.noted sink o features w s
    e.run rt sink o features w.unnoted s = (r.1, r.2.1.unnoted, r.2.2) :=
  e.run_mapRuntime Prod.snd (fun _ _ _ _ _ => rfl) sink o features w s

/-- **A run of an engine launches its container just if its stage is set.** -/
theorem run_launches (rt : Runtime ρ) (sink : Sink σ) (e : Engine) (o : EngineOptions)
    (features : FeatureSet) (w : World (List Spec × ρ)) (s : σ) :
    let r := e.run rt.noted sink o features w s
    (∃ st, (e.stage o features.toJson.compact w).1 = .ok st ∧
        r.2.1.launches = w.launches ++ [e.stagedSpec o st]) ∨
      ∃ cause, (e.stage o features.toJson.compact w).1 = .error cause ∧
        r.1 = .error (.artifact cause) ∧ r.2.1.launches = w.launches := by
  simp only [run_eq]
  have hruntime := e.stage_runtime o features.toJson.compact w
  rcases hst : e.stage o features.toJson.compact w with ⟨cause | st, w₁⟩ <;>
    rw [hst] at hruntime
  · exact .inr ⟨cause, rfl, rfl, congrArg Prod.fst hruntime⟩
  · refine .inl ⟨st, rfl, ?_⟩
    simp only [World.launches, World.strike_runtime, Runtime.noted, ← hruntime]

/-! ## Section 2: What is passed on -/

/-- The engine has reported the feature: a valid document describes it, and the configuration
    does not leave it out. -/
def Reports (e : Engine) (f : Feature) : Prop :=
  ∃ document, e.verdict document = .reported { raw := document, content := .ok f }

theorem verdict_reported {e : Engine} {document : Bytes} {x : Finding}
    (h : e.verdict document = .reported x) :
    ∃ f, x = { raw := document, content := .ok (f.withEngine e.name) } ∧
      Finding.featureOf document = .ok f ∧ f.name ∉ e.excludedFeatures := by
  unfold verdict at h
  -- Three of the four verdicts are others, and what is left of the last one is the finding.
  split at h
  · exact nomatch h
  · rcases hf : Finding.featureOf document with r | f <;> simp only [hf] at h
    · exact nomatch h
    · split at h
      · exact nomatch h
      · next hname =>
        obtain rfl := Verdict.reported.inj h
        exact ⟨f, rfl, rfl, hname⟩

/-- A feature names the engine that has reported it, and no other. -/
theorem Reports.engines {e : Engine} {f : Feature} (h : e.Reports f) : f.engines = [e.name] := by
  obtain ⟨document, hv⟩ := h
  obtain ⟨g, hx, hg, -⟩ := verdict_reported hv
  obtain rfl := Except.ok.inj (congrArg Finding.content hx)
  simp [Feature.withEngine, Finding.engines_of_featureOf hg, pushUnique]

/-- **What the answers of a sink keep, a run of the engine keeps.** -/
theorem run_keeps {rt : Runtime ρ} (hrt : rt.Honest) {sink : Sink σ} {e : Engine} {P : σ → Prop}
    (hanswer : ∀ document s, P s → P (e.answer sink document s).2) (o : EngineOptions)
    (features : FeatureSet) (w : World ρ) {s : σ} (hs : P s) :
    P (e.run rt sink o features w s).2.2 := by
  rw [run_eq]
  rcases e.stage o features.toJson.compact w with ⟨_ | st, w₁⟩
  · exact hs
  -- The runtime is honest, so all that reaches the sink are answers to documents.
  · refine hrt (P := fun t : Watch σ => P t.sink) w₁.disk _ _ ⟨?_, ?_, ?_⟩ w₁.runtime _ hs
    · exact fun _ _ ht => ht
    · exact fun _ _ ht => ht
    · intro document t ht
      have hsink := congrArg Prod.snd (e.accept_eq sink document t).1
      rw [show ((e.watcher o sink).accept document t).2.sink = _ from hsink]
      exact hanswer document t.sink ht

/-- All that an engine passes on to a survey is reported by the engine. -/
theorem run_gathering {rt : Runtime ρ} (hrt : rt.Honest) (reporter : Report.Reporter φ)
    (e : Engine) (o : EngineOptions) (features : FeatureSet) (w : World ρ) (report : φ) :
    ∀ f ∈ (e.run rt (Gathering.sink reporter) o features w { report }).2.2.features,
      e.Reports f := by
  refine run_keeps (P := fun g : Gathering φ => ∀ f ∈ g.features, e.Reports f) hrt ?_ o features w ?_
  · intro document g hg
    rcases hv : e.verdict document with _ | message | _ | x
    · simpa only [answer, hv] using hg
    · simp only [answer, hv]
      exact hg
    · simpa only [answer, hv] using hg
    -- Only the finding that is written now is new, and its document is what reports it.
    · rw [answer_of_reported hv]
      intro f hf
      rcases List.mem_append.1 hf with hf | hf
      · exact hg f hf
      · obtain ⟨k, rfl, -⟩ := verdict_reported hv
        obtain rfl := List.mem_singleton.1 hf
        exact ⟨document, hv⟩
  · intro f hf
    cases hf

end Engine
end StackSurvey
