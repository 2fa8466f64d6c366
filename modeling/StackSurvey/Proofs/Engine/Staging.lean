import StackSurvey.Container.Rehearsal
import StackSurvey.Engine.Run
import StackSurvey.Proofs.Journal

/-! # Staging an engine

    The run of an engine has three parts: its artifacts are written, its container is run, and
    the artifacts are removed.  `run_eq` takes the run apart, so that what is said of a
    container can be said of an engine.  The samples at the end are the engines, documents and
    worlds on which results about runs are tried out. -/

namespace StackSurvey

/-- What an engine finds in place when its container is run. -/
structure Stage where
  configFile : MountedPath
  featuresFile : MountedPath
  /-- What makes the name of the container unique. -/
  id : String
deriving DecidableEq

namespace Engine

variable {ρ σ : Type}

/-- Writes the artifacts of an engine, `previous` being the text of the features found so far. -/
def stage (e : Engine) (o : EngineOptions) (previous : String) (w : World ρ) :
    Except ArtifactFailure Stage × World ρ :=
  match w.writeArtifact o.artifacts e.config.compact with
  | (.error cause, w) => (.error cause, w)
  | (.ok configFile, w) =>
    match w.writeArtifact o.artifacts previous with
    | (.error cause, w) => (.error cause, w.discardArtifact configFile)
    | (.ok featuresFile, w) =>
      let (id, w) := (w.log e.configLine).freshName
      (.ok { configFile, featuresFile, id }, w)

def stagedSpec (e : Engine) (o : EngineOptions) (st : Stage) : Container.Spec :=
  e.spec o st.configFile st.featuresFile st.id

end Engine

namespace World

variable {ρ : Type}

/-- Removes the artifacts of an engine. -/
def strike (w : World ρ) (st : Stage) : World ρ :=
  (w.discardArtifact st.featuresFile).discardArtifact st.configFile

theorem logAll_eq (w : World ρ) (lines : List LogLine) :
    w.logAll lines = { w with journal := lines.foldl Journal.log w.journal } := by
  unfold logAll
  induction lines generalizing w with
  | nil => rfl
  | cons line rest ih => rw [List.foldl_cons, ih]; rfl

@[simp] theorem writeArtifact_events (w : World ρ) (directory : MountedPath) (text : String) :
    (w.writeArtifact directory text).2.journal.events = w.journal.events := by
  simp [writeArtifact, freshName, logAll_eq]

@[simp] theorem discardArtifact_events (w : World ρ) (target : MountedPath) :
    (w.discardArtifact target).journal.events = w.journal.events := by
  simp [discardArtifact, logAll_eq]

@[simp] theorem strike_events (w : World ρ) (st : Stage) :
    (w.strike st).journal.events = w.journal.events := by simp [strike]

@[simp] theorem writeArtifact_runtime (w : World ρ) (directory : MountedPath) (text : String) :
    (w.writeArtifact directory text).2.runtime = w.runtime := by
  simp only [writeArtifact, logAll_eq]
  rfl

@[simp] theorem discardArtifact_runtime (w : World ρ) (target : MountedPath) :
    (w.discardArtifact target).runtime = w.runtime := by
  simp only [discardArtifact, logAll_eq]

@[simp] theorem strike_runtime (w : World ρ) (st : Stage) : (w.strike st).runtime = w.runtime := by
  simp [strike]

/-- The world without what was told of it. -/
def quiet (w : World ρ) : World ρ := { w with journal := {} }

section quiet

variable {w w' : World ρ}

theorem quiet_eq_iff :
    w.quiet = w'.quiet ↔ w.disk = w'.disk ∧ w.names = w'.names ∧ w.runtime = w'.runtime := by
  simp [quiet]

/-- What was told before does not matter for an artifact. -/
theorem writeArtifact_congr (h : w.quiet = w'.quiet) (directory : MountedPath) (text : String) :
    (w.writeArtifact directory text).1 = (w'.writeArtifact directory text).1 ∧
      (w.writeArtifact directory text).2.quiet = (w'.writeArtifact directory text).2.quiet := by
  obtain ⟨hdisk, hnames, hruntime⟩ := quiet_eq_iff.1 h
  simp only [writeArtifact, freshName, logAll_eq, quiet, hdisk, hnames, hruntime, and_self]

theorem discardArtifact_congr (h : w.quiet = w'.quiet) (target : MountedPath) :
    (w.discardArtifact target).quiet = (w'.discardArtifact target).quiet := by
  obtain ⟨hdisk, hnames, hruntime⟩ := quiet_eq_iff.1 h
  simp only [discardArtifact, logAll_eq, quiet, hdisk, hnames, hruntime]

theorem strike_congr (h : w.quiet = w'.quiet) (st : Stage) :
    (w.strike st).quiet = (w'.strike st).quiet :=
  discardArtifact_congr (discardArtifact_congr h _) _

end quiet
end World

namespace Engine

variable {ρ σ : Type}

/-- What neither an artifact nor a name nor a log line changes, a stage does not change. -/
theorem stage_keeps {β : Type} (obs : World ρ → β)
    (hwrite : ∀ (w : World ρ) directory text, obs (w.writeArtifact directory text).2 = obs w)
    (hdiscard : ∀ (w : World ρ) target, obs (w.discardArtifact target) = obs w)
    (hname : ∀ (w : World ρ) line, obs (w.log line).freshName.2 = obs w) (e : Engine)
    (o : EngineOptions) (previous : String) (w : World ρ) :
    obs (e.stage o previous w).2 = obs w := by
  have hconfig := hwrite w o.artifacts e.config.compact
  unfold stage
  rcases hc : w.writeArtifact o.artifacts e.config.compact with ⟨_ | configFile, w₁⟩ <;>
    rw [hc] at hconfig
  · exact hconfig
  · have hfeatures := hwrite w₁ o.artifacts previous
    rcases hf : w₁.writeArtifact o.artifacts previous with ⟨_ | featuresFile, w₂⟩ <;>
      rw [hf] at hfeatures <;> simp only [hf]
    · -- The configuration is removed again if the features cannot be written.
      exact (hdiscard w₂ configFile).trans (hfeatures.trans hconfig)
    · exact (hname w₂ e.configLine).trans (hfeatures.trans hconfig)

@[simp] theorem stage_runtime (e : Engine) (o : EngineOptions) (previous : String) (w : World ρ) :
    (e.stage o previous w).2.runtime = w.runtime :=
  e.stage_keeps World.runtime World.writeArtifact_runtime World.discardArtifact_runtime
    (fun _ _ => rfl) o previous w

@[simp] theorem stage_events (e : Engine) (o : EngineOptions) (previous : String) (w : World ρ) :
    (e.stage o previous w).2.journal.events = w.journal.events :=
  e.stage_keeps (fun w => w.journal.events) World.writeArtifact_events World.discardArtifact_events
    (fun _ _ => rfl) o previous w

/-- What was told before does not matter for a stage. -/
theorem stage_congr {w w' : World ρ} (h : w.quiet = w'.quiet) (e : Engine) (o : EngineOptions)
    (previous : String) :
    (e.stage o previous w).1 = (e.stage o previous w').1 ∧
      (e.stage o previous w).2.quiet = (e.stage o previous w').2.quiet := by
  obtain ⟨hresult, hquiet⟩ := World.writeArtifact_congr h o.artifacts e.config.compact
  unfold stage
  -- Both worlds are the same but for what was told, before and after each write.
  rcases hw : w.writeArtifact o.artifacts e.config.compact with ⟨result, w₁⟩
  rcases hw' : w'.writeArtifact o.artifacts e.config.compact with ⟨result', w₁'⟩
  rw [hw, hw'] at hresult hquiet
  obtain rfl : result = result' := hresult
  cases result with
  | error cause => exact ⟨rfl, hquiet⟩
  | ok configFile =>
    obtain ⟨hresult₂, hquiet₂⟩ := World.writeArtifact_congr hquiet o.artifacts previous
    dsimp only at hresult₂ hquiet₂ ⊢
    rcases hv : w₁.writeArtifact o.artifacts previous with ⟨result, w₂⟩
    rcases hv' : w₁'.writeArtifact o.artifacts previous with ⟨result', w₂'⟩
    rw [hv, hv'] at hresult₂ hquiet₂
    obtain rfl : result = result' := hresult₂
    cases result with
    | error cause => exact ⟨rfl, World.discardArtifact_congr hquiet₂ configFile⟩
    | ok featuresFile =>
      obtain ⟨hdisk, hnames, hruntime⟩ := World.quiet_eq_iff.1 hquiet₂
      dsimp only at hdisk hnames hruntime
      simp only [World.freshName, World.log, World.quiet, hdisk, hnames, hruntime, and_self]

/-- **The run of an engine is its stage, its container and the end of the stage.** -/
theorem run_eq (rt : Container.Runtime ρ) (sink : Sink σ) (e : Engine) (o : EngineOptions)
    (features : FeatureSet) (w : World ρ) (s : σ) :
    e.run rt sink o features w s =
      match e.stage o features.toJson.compact w with
      | (.error cause, w) => (.error (.artifact cause), w, s)
      | (.ok st, w) =>
        let (result, runtime, t) := rt.run w.disk (e.stagedSpec o st) (e.watcher o sink)
          (w.runtime, { journal := w.journal, sink := s })
        (e.conclude result t.raised, { w with runtime, journal := t.journal }.strike st, t.sink) := by
  unfold run stage
  rcases w.writeArtifact o.artifacts e.config.compact with ⟨_ | configFile, w₁⟩
  · rfl
  · dsimp only
    rcases w₁.writeArtifact o.artifacts features.toJson.compact with ⟨_ | featuresFile, w₂⟩ <;> rfl

end Engine

/-! ## Samples -/

namespace Sample

def options : EngineOptions := { artifacts := .ofLocal "/tmp" }

def engine (name image : String) : Engine :=
  { name, images := { image := some image }, codePath := "/src" }

def scan : Engine := engine "scan" "a"

def lint : Engine := engine "lint" "b"

/-- The document that reports a feature of that name and says no more. -/
def document (feature : String) : String :=
  "\x7b\"type\":\"feature\",\"name\":\"" ++ feature ++ "\"\x7d"

def rehearsal (scripts : Dictionary Container.Script) : Container.Rehearsal :=
  { scripts, artifactDirectory := "/tmp" }

/-- A world without files, whose names are counted from zero. -/
def world {ρ : Type} (runtime : ρ) : World ρ := { disk := {}, names := .ofSeed 0, runtime }

/-- What the first engine to be run in such a world finds in place. -/
def stage : Stage where
  configFile := options.artifacts.join (Names.identifier 0 0)
  featuresFile := options.artifacts.join (Names.identifier 0 1)
  id := Names.identifier 0 2

end Sample
end StackSurvey
