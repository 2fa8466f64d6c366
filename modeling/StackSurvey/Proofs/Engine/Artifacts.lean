import StackSurvey.Proofs.Engine.Handover
import StackSurvey.Proofs.Engine.Launch
import StackSurvey.Proofs.Files.Temporary

/-! # Artifacts do not stay

    An engine leaves the files of the disk as it has found them, however its run ends: with an
    outcome, with a failure of its container, or because one of its two artifacts could not be
    written.  While its container runs, both artifacts are in place and mounted.

    * `World.Fit`: file names are fresh and files can be removed.
    * `stage_restores` and `strike_restores`: the two ways in which a stage ends.
    * `artifacts_never_stay`: what holds before, while and after an engine runs. -/

namespace StackSurvey

open Container (Runtime Spec)

variable {ρ σ : Type}

/-! ## Section 1: A fit world -/

/-- The names that are yet to be taken are names of no file. -/
def Names.Fresh (s : Names) (d : Disk) : Prop := ∀ n, s.used ≤ n → d.Free (s.name n)

namespace World

/-- The names that are yet to be taken can be names of files and are fresh, and files can be
    removed. -/
structure Fit (w : World ρ) : Prop where
  proper : w.names.Proper
  fresh : w.names.Fresh w.disk
  removes : w.disk.Removes

theorem discardArtifact_disk (w : World ρ) (target : MountedPath) :
    (w.discardArtifact target).disk = (Artifact.discard target w.disk).2 := by
  simp only [discardArtifact, logAll_eq]

/-- What an artifact could not be written for is what its file could not be written for. -/
theorem writeArtifact_error {w w' : World ρ} {directory : MountedPath} {text : String}
    {cause : ArtifactFailure} (h : w.writeArtifact directory text = (.error cause, w')) :
    ∃ lines, Artifact.write (directory.join (w.names.name w.names.used)) (Utf8.encode text) w.disk =
      (.error cause, lines, w'.disk) := by
  simp only [writeArtifact, freshName, Names.take, logAll_eq, Prod.mk.injEq] at h
  rcases hwrite : Artifact.write (directory.join (w.names.name w.names.used)) (Utf8.encode text)
    w.disk with ⟨failure | _, lines, disk⟩ <;> rw [hwrite] at h
  · obtain ⟨hresult, rfl⟩ := h
    cases hresult
    exact ⟨lines, rfl⟩
  · cases h.1

variable {w w' : World ρ} {directory target : MountedPath} {text : String}

/-- An artifact that could not be written leaves the files as they were. -/
theorem Fit.restores_of_error (hw : w.Fit) {cause : ArtifactFailure}
    (h : w.writeArtifact directory text = (.error cause, w')) : w.disk.Restores w'.disk := by
  obtain ⟨lines, hwrite⟩ := writeArtifact_error h
  exact Disk.restores_of_write_error hw.removes (hw.proper _) (hw.fresh _ (Nat.le_refl _)) rfl hwrite

/-- An artifact that was written is one file more, and it can be found. -/
theorem Fit.adds (hw : w.Fit) (h : w.writeArtifact directory text = (.ok target, w')) :
    ∃ above, let l := above ++ [w.names.name w.names.used]
      w.disk.Adds w'.disk l (Utf8.encode text) ∧ w'.disk.locate target.inside = .ok l := by
  obtain ⟨rfl, lines, hwrite⟩ := writeArtifact_ok h
  exact Disk.Adds.of_write (hw.proper _) (hw.fresh _ (Nat.le_refl _)) rfl hwrite

/-- The world is fit for a further artifact. -/
theorem Fit.writeArtifact (hw : w.Fit) (h : w.writeArtifact directory text = (.ok target, w')) :
    w'.Fit := by
  obtain ⟨above, hadds, -⟩ := hw.adds h
  have hname := w.writeArtifact_name directory text
  have hused := w.writeArtifact_used directory text
  rw [h] at hname hused
  dsimp only at hname hused
  refine ⟨hw.proper.congr hname, fun n hn => ?_, fun l => ?_⟩
  · -- The name of the artifact is taken now, and no later one is the same.
    rw [hused] at hn
    rw [hname]
    have hne : w.names.name n ≠ w.names.name w.names.used := by
      intro hsame
      have := w.names.distinct _ _ hsame
      omega
    exact hadds.free rfl hne (hw.fresh n (by omega))
  · rw [hadds.refuses]
    exact hw.removes l

end World

/-- Discarding the one file more restores the files, also after others have come and gone. -/
theorem Disk.Adds.discard_later {d d₁ d₂ : Disk} {l : Location} {bytes : Bytes}
    {target : MountedPath} (h : d.Adds d₁ l bytes) (hl : d₁.locate target.inside = .ok l)
    (hlater : d₁.Restores d₂) (hremove : d.Removes) :
    d.Restores (Artifact.discard target d₂).2 := by
  have hadds := h.trans_restores hlater
  refine hadds.discard (fun m => ?_) (hlater.ways.locate hl)
  rw [hadds.refuses]
  exact hremove m

namespace Engine

variable {e : Engine} {o : EngineOptions} {previous : String} {w w' : World ρ}

/-! ## Section 2: Before and after the container -/

/-- **A stage that could not be set leaves the files as they were**, whichever of the artifacts
    could not be written. -/
theorem stage_restores (hw : w.Fit) {cause : ArtifactFailure}
    (h : e.stage o previous w = (.error cause, w')) : w.disk.Restores w'.disk := by
  unfold stage at h
  rcases hc : w.writeArtifact o.artifacts e.config.compact with ⟨_ | configFile, w₁⟩
  · simp only [hc, Prod.mk.injEq] at h
    obtain ⟨-, rfl⟩ := h
    exact hw.restores_of_error hc
  rcases hf : w₁.writeArtifact o.artifacts previous with ⟨_ | featuresFile, w₂⟩
  -- The configuration was in place already.
  · simp only [hc, hf, Prod.mk.injEq] at h
    obtain ⟨-, rfl⟩ := h
    obtain ⟨above, hconfig, hl⟩ := hw.adds hc
    have hfeatures := (hw.writeArtifact hc).restores_of_error hf
    rw [World.discardArtifact_disk]
    exact hconfig.discard_later hl hfeatures hw.removes
  · simp [hc, hf] at h

/-- **The end of a stage restores the files.** -/
theorem strike_restores (hw : w.Fit) {st : Stage} (h : e.stage o previous w = (.ok st, w'))
    {w'' : World ρ} (hdisk : w''.disk = w'.disk) : w.disk.Restores (w''.strike st).disk := by
  unfold stage at h
  rcases hc : w.writeArtifact o.artifacts e.config.compact with ⟨_ | configFile, w₁⟩
  · simp [hc] at h
  rcases hf : w₁.writeArtifact o.artifacts previous with ⟨_ | featuresFile, w₂⟩
  · simp [hc, hf] at h
  simp only [hc, hf, World.freshName, World.log, Prod.mk.injEq, Except.ok.injEq] at h
  obtain ⟨rfl, rfl⟩ := h
  have hw₁ := hw.writeArtifact hc
  obtain ⟨above, hconfig, hl⟩ := hw.adds hc
  obtain ⟨above', hfeatures, hl'⟩ := hw₁.adds hf
  rw [World.strike, World.discardArtifact_disk, World.discardArtifact_disk, hdisk]
  -- The features go first, so the configuration is the one file more that is left.
  have hgone := hfeatures.discard (hw₁.writeArtifact hf).removes hl'
  exact hconfig.discard_later hl hgone hw.removes

/-- **Whatever becomes of the run of an engine, the files are as they were.** -/
theorem run_restores (rt : Runtime ρ) (sink : Sink σ) (e : Engine) (o : EngineOptions)
    (features : FeatureSet) (hw : w.Fit) (s : σ) :
    w.disk.Restores (e.run rt sink o features w s).2.1.disk := by
  rw [run_eq]
  rcases hst : e.stage o features.toJson.compact w with ⟨_ | st, w₁⟩
  · exact stage_restores hw hst
  · exact strike_restores hw hst rfl

end Engine

/-! ## Section 3: While the container runs -/

/-- What a runtime was asked to run, and the disk on which it was asked to. -/
structure Invocation where
  disk : Disk
  spec : Spec

/-- A file with those bytes is in place, and it is what the container finds at a path. -/
def Invocation.Provides (i : Invocation) (target : MountedPath) (mount : String) (bytes : Bytes) :
    Prop :=
  i.disk.read target.inside = .ok bytes ∧
    (i.spec.mounts.filter fun m => m.inside = mount) = [{ host := target.host, inside := mount }]

namespace Container.Runtime

/-- The runtime with a list of all invocations. -/
def observed (rt : Runtime ρ) : Runtime (List Invocation × ρ) where
  run disk spec w := fun ((made, r), t) =>
    let (result, r, t) := rt.run disk spec w (r, t)
    (result, (made ++ [{ disk, spec }], r), t)

end Container.Runtime

namespace Engine

variable {e : Engine} {o : EngineOptions}

/-- Watching the invocations changes nothing else. -/
theorem run_observed (rt : Runtime ρ) (sink : Sink σ) (e : Engine) (o : EngineOptions)
    (features : FeatureSet) (w : World (List Invocation × ρ)) (s : σ) :
    let r := e.run rt.observed sink o features w s
    e.run rt sink o features (w.mapRuntime Prod.snd) s =
      (r.1, r.2.1.mapRuntime Prod.snd, r.2.2) :=
  e.run_mapRuntime Prod.snd (fun _ _ _ _ _ => rfl) sink o features w s

/-- Whoever runs the container finds both artifacts in place. -/
theorem provides_of_stage {previous : String} {w w' : World ρ} {st : Stage}
    (hnames : w.names.Proper) (h : e.stage o previous w = (.ok st, w')) :
    let i : Invocation := { disk := w'.disk, spec := e.stagedSpec o st }
    ∃ n n',
      i.Provides (o.artifacts.join n) configMount (Utf8.encode e.config.compact) ∧
        i.Provides (o.artifacts.join n') featuresMount (Utf8.encode previous) := by
  intro i
  obtain ⟨n, n', -, -, hconfig, hfeatures, hread, hread'⟩ := stage_found hnames h
  rw [hconfig] at hread
  rw [hfeatures] at hread'
  -- The three mounts have different paths inside the container.
  have hcode : codeMount ≠ configMount ∧ codeMount ≠ featuresMount := by decide
  have hmounts : configMount ≠ featuresMount := by decide
  refine ⟨n, n', ⟨hread, ?_⟩, hread', ?_⟩
  · simp [i, stagedSpec, spec, hconfig, hcode.1, hmounts.symm]
  · simp [i, stagedSpec, spec, hfeatures, hcode.2, hmounts]

/-- **Artifacts are there while an engine's container runs, and only then.**  If file names are
    fresh and files can be removed, then the files of the disk after a run are those before it,
    whatever the runtime does and whatever fails.  The runtime is invoked at most once, and then
    the configuration and the features found so far are in place and mounted; it is not invoked
    only if an artifact could not be written. -/
theorem artifacts_never_stay (rt : Runtime ρ) (sink : Sink σ) (e : Engine) (o : EngineOptions)
    (features : FeatureSet) (w : World (List Invocation × ρ)) (s : σ) (hw : w.Fit) :
    let r := e.run rt.observed sink o features w s
    e.run rt sink o features (w.mapRuntime Prod.snd) s =
        (r.1, r.2.1.mapRuntime Prod.snd, r.2.2) ∧
      (∀ l bytes, r.2.1.disk.at? l = some (.file bytes) ↔ w.disk.at? l = some (.file bytes)) ∧
      ∃ made, r.2.1.runtime.1 = w.runtime.1 ++ made ∧ made.length ≤ 1 ∧
        (made = [] → ∃ cause, r.1 = .error (.artifact cause)) ∧
        ∀ i ∈ made, ∃ n n',
          i.Provides (o.artifacts.join n) "/config.json" (Utf8.encode e.config.compact) ∧
            i.Provides (o.artifacts.join n') "/previous-engine-results.json"
              (Utf8.encode features.toJson.compact) := by
  have hplain := run_observed rt sink e o features w s
  have hfiles := (run_restores rt.observed sink e o features hw s).file
  dsimp only at hplain ⊢
  refine ⟨hplain, hfiles, ?_⟩
  have hruntime := e.stage_runtime o features.toJson.compact w
  rcases hst : e.stage o features.toJson.compact w with ⟨cause | st, w₁⟩ <;> rw [hst] at hruntime
  -- Without a stage the runtime is not invoked.
  · refine ⟨[], ?_, by simp, fun _ => ⟨cause, ?_⟩, by simp⟩
    · simp only [run_eq, hst, List.append_nil]
      rw [← hruntime]
    · simp only [run_eq, hst]
  · refine ⟨[{ disk := w₁.disk, spec := e.stagedSpec o st }], ?_, by simp, by simp, ?_⟩
    · simp only [run_eq, hst, World.strike_runtime, Runtime.observed]
      rw [← hruntime]
    · intro i hi
      obtain rfl := List.mem_singleton.1 hi
      exact provides_of_stage hw.proper hst

/-- A device that is full when the second artifact is written, and one that is not: either way
    only the file that was there before is there afterwards. -/
theorem artifacts_never_stay_full_device :
    let old : Disk := { entries := [(["tmp"], .directory), (["tmp", "old"], .file [1])] }
    let second : Location := ["tmp", Names.identifier 0 1]
    let full : Disk :=
      { old with refuses := fun a l => if a = .fill ∧ l = second then some .noSpace else none }
    ∀ disk ∈ [old, full],
      let w : World (List Invocation × Container.Rehearsal) :=
        { Sample.world ([], Sample.rehearsal []) with disk }
      let r := Sample.lint.run Container.Rehearsal.runtime.observed Collection.sink Sample.options
        .empty w {}
      (r.2.1.runtime.1.length = if disk.refuses .fill second = none then 1 else 0) ∧
        ∀ l bytes, r.2.1.disk.at? l = some (.file bytes) → l = ["tmp", "old"] := by
  intro old second full disk hdisk w r
  have hcases : disk = old ∨ disk = full := (List.mem_cons.1 hdisk).imp_right List.mem_singleton.1
  have hold : ∀ l bytes, disk.at? l = some (.file bytes) → l = ["tmp", "old"] := by
    intro l bytes h
    have hentries : disk.entries = old.entries := by rcases hcases with rfl | rfl <;> rfl
    simp only [Disk.at?, hentries, old] at h
    grind
  have hfree : ∀ n, disk.Free (Names.identifier 0 n) := by
    intro n above bytes h
    -- The one file that is there has no dash in its name.
    have hl : above ++ [Names.identifier 0 n] = ["tmp"] ++ ["old"] := hold _ bytes h
    have hname : Names.identifier 0 n = "old" :=
      (List.cons.inj (List.append_inj_right' hl rfl)).1
    have hdash := Names.dash_mem_identifier 0 n
    rw [hname] at hdash
    simp at hdash
  have hremoves : disk.Removes := by
    intro l
    rcases hcases with rfl | rfl <;> rfl
  have hw : w.Fit :=
    { proper := Names.ofSeed_proper 0, fresh := fun n _ => hfree n, removes := hremoves }
  obtain ⟨-, hkept, -⟩ := artifacts_never_stay Container.Rehearsal.runtime Collection.sink
    Sample.lint Sample.options .empty w {} hw
  have hr : r = Sample.lint.run Container.Rehearsal.runtime.observed Collection.sink Sample.options
    .empty w {} := rfl
  constructor
  · rcases hcases with rfl | rfl <;> decide +kernel
  · intro l bytes h
    rw [hr, hkept] at h
    exact hold l bytes h

end Engine
end StackSurvey
