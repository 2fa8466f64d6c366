import StackSurvey.Proofs.Container.Casting
import StackSurvey.Proofs.Engine.Staging

/-! # What an engine is handed

    The artifacts of an engine are written under fresh names.  Once the stage is set, each of
    them is found under its name with the text that was written: the configuration of the
    engine, and the features found before it. -/

namespace StackSurvey

open Container (Casting Setting)

variable {ρ : Type}

namespace World

/-! ## Section 1: Names -/

@[simp] theorem writeArtifact_name (w : World ρ) (directory : MountedPath) (text : String) :
    (w.writeArtifact directory text).2.names.name = w.names.name := by
  simp only [writeArtifact, freshName, logAll_eq, Names.take]

@[simp] theorem writeArtifact_used (w : World ρ) (directory : MountedPath) (text : String) :
    (w.writeArtifact directory text).2.names.used = w.names.used + 1 := by
  simp only [writeArtifact, freshName, logAll_eq, Names.take]

@[simp] theorem discardArtifact_names (w : World ρ) (target : MountedPath) :
    (w.discardArtifact target).names = w.names := by
  simp only [discardArtifact, logAll_eq]

@[simp] theorem strike_names (w : World ρ) (st : Stage) : (w.strike st).names = w.names := by
  simp [strike]

/-- An artifact that was written has the next name. -/
theorem writeArtifact_ok {w w' : World ρ} {directory target : MountedPath} {text : String}
    (h : w.writeArtifact directory text = (.ok target, w')) :
    target = directory.join (w.names.name w.names.used) ∧
      ∃ lines, Artifact.write target (Utf8.encode text) w.disk = (.ok (), lines, w'.disk) := by
  simp only [writeArtifact, freshName, Names.take, logAll_eq, Prod.mk.injEq] at h
  rcases hwrite : Artifact.write (directory.join (w.names.name w.names.used)) (Utf8.encode text)
    w.disk with ⟨_ | _, lines, disk⟩
  · rw [hwrite] at h
    cases h.1
  · rw [hwrite] at h
    obtain ⟨hresult, rfl⟩ := h
    cases hresult
    exact ⟨rfl, lines, hwrite⟩

end World

namespace Engine

variable {e : Engine} {o : EngineOptions} {previous : String} {w w' : World ρ} {st : Stage}

theorem stage_name (e : Engine) (o : EngineOptions) (previous : String) (w : World ρ) :
    (e.stage o previous w).2.names.name = w.names.name :=
  e.stage_keeps (fun w => w.names.name) World.writeArtifact_name
    (fun w target => by rw [World.discardArtifact_names]) (fun _ _ => rfl) o previous w

/-! ## Section 2: Files -/

/-- Both artifacts are found with what was written. -/
theorem stage_found (hnames : w.names.Proper) (h : e.stage o previous w = (.ok st, w')) :
    ∃ n n', Path.IsName n ∧ Path.IsName n' ∧
      st.configFile = o.artifacts.join n ∧ st.featuresFile = o.artifacts.join n' ∧
      w'.disk.read st.configFile.inside = .ok (Utf8.encode e.config.compact) ∧
      w'.disk.read st.featuresFile.inside = .ok (Utf8.encode previous) := by
  unfold stage at h
  rcases hc : w.writeArtifact o.artifacts e.config.compact with ⟨_ | configFile, w₁⟩
  · simp [hc] at h
  rcases hf : w₁.writeArtifact o.artifacts previous with ⟨_ | featuresFile, w₂⟩
  · simp [hc, hf] at h
  have hname := w.writeArtifact_name o.artifacts e.config.compact
  have hused := w.writeArtifact_used o.artifacts e.config.compact
  rw [hc] at hname hused
  obtain ⟨hfile, lines, hconfig⟩ := World.writeArtifact_ok hc
  obtain ⟨hfile', lines', hfeatures⟩ := World.writeArtifact_ok hf
  simp only [hc, hf, World.freshName, World.log, Prod.mk.injEq, Except.ok.injEq] at h
  obtain ⟨rfl, rfl⟩ := h
  dsimp only at hname hused
  rw [hname, hused] at hfile'
  -- The second name is another one than the first, so the configuration is still there.
  have hne : w.names.name w.names.used ≠ w.names.name (w.names.used + 1) := fun hsame =>
    absurd (w.names.distinct _ _ hsame) (Nat.ne_of_lt (Nat.lt_succ_self _))
  have hread := Disk.read_artifact hconfig
  have hread' := Disk.read_artifact hfeatures
  refine ⟨_, _, hnames w.names.used, hnames (w.names.used + 1), hfile, hfile', ?_, hread'⟩
  rw [hfile] at hread
  have hkept := Disk.read_of_artifact hfeatures (congrArg MountedPath.inside hfile')
    (hnames w.names.used) (hnames (w.names.used + 1)) hne hread
  rw [← hkept, hfile]
  rfl

/-- What an engine is handed: its configuration and the text of the features before it. -/
def setting (e : Engine) (o : EngineOptions) (st : Stage) (previous : String) : Setting :=
  { spec := e.stagedSpec o st
    files := [
      (configMount, some (Utf8.encode e.config.compact)),
      (featuresMount, some (Utf8.encode previous))] }

/-- **An engine finds what it is handed.** -/
theorem setting_of_stage (hnames : w.names.Proper) (h : e.stage o previous w = (.ok st, w')) :
    Casting.setting o.artifacts.inside w'.disk (e.stagedSpec o st) = e.setting o st previous := by
  obtain ⟨n, n', hn, hn', hconfig, hfeatures, hread, hread'⟩ := stage_found hnames h
  -- The container finds each file by the last part of its path on the host, which is its name.
  rw [hconfig] at hread
  rw [hfeatures] at hread'
  simp only [Casting.setting, setting, stagedSpec, spec, List.drop_succ_cons, List.drop_zero,
    List.map_cons, List.map_nil, hconfig, hfeatures, MountedPath.join]
  rw [Casting.file?_join configMount hn hread, Casting.file?_join featuresMount hn' hread']

end Engine
end StackSurvey
