import StackSurvey.Proofs.Files.Path
import StackSurvey.Proofs.Registry.Requests
import StackSurvey.Settings.Checks

/-! # How mounts are read

    The daemon is told of a mount by one text, and takes it apart at the colons.  The paths inside
    a container are fixed and have none, so all depends on the path on the host: with a colon in
    it the text falls into more than three parts (`Mount.three_parts_iff`).

    What stands in the paths on the host is up to the user.  A project may be anywhere, and the
    checks of the settings want a directory for artifacts, but do not look at what it is called.

    * `binds_read_one_way_iff`: the texts for the mounts of an engine have three parts each just if
      neither path has a colon; then nothing else is written in the same way. -/

namespace StackSurvey

/-! ## Section 1: Texts taken apart at colons -/

namespace Text

/-- The parts of a text that colons separate. -/
def atColons (text : String) : List String := (text.toList.splitOn ':').map String.ofList

variable {text : String}

theorem atColons_ne_nil (text : String) : atColons text ≠ [] := by
  simp [atColons, List.splitOn_ne_nil]

/-- A colon separates the parts before it from the parts after it. -/
theorem atColons_append_colon (before after : String) :
    atColons (before ++ ":" ++ after) = atColons before ++ atColons after := by
  have hlist : (before ++ ":" ++ after).toList = before.toList ++ ':' :: after.toList := by simp
  rw [atColons, hlist, List.splitOn_append_cons_self, List.map_append, ← atColons, ← atColons]

theorem atColons_of_not_mem (h : ':' ∉ text.toList) : atColons text = [text] := by
  simp [atColons, List.splitOn_eq_singleton h]

theorem length_atColons_eq_one_iff : (atColons text).length = 1 ↔ ':' ∉ text.toList := by
  constructor
  · intro hone
    rcases colon_cases text with hcolon | ⟨before, after, -, rfl⟩
    · exact hcolon
    · -- On either side of a colon there is a part at least.
      have hbefore := List.length_pos_iff.2 (atColons_ne_nil before)
      have hafter := List.length_pos_iff.2 (atColons_ne_nil after)
      rw [atColons_append_colon, List.length_append] at hone
      omega
  · intro hcolon
    rw [atColons_of_not_mem hcolon, List.length_singleton]

end Text

/-! ## Section 2: One mount -/

namespace Container.Mount

variable {m m' : Mount}

/-- A mount is plain if neither path has a colon. -/
structure Plain (m : Mount) : Prop where
  host : ':' ∉ m.host.toList
  inside : ':' ∉ m.inside.toList

/-- What follows the paths of a mount. -/
def flags (m : Mount) : List String := if m.readOnly then ["ro"] else []

theorem atColons_bind (m : Mount) :
    Text.atColons m.bind = Text.atColons m.host ++ (Text.atColons m.inside ++ m.flags) := by
  unfold bind flags
  cases m.readOnly with
  | false => simp [Text.atColons_append_colon]
  | true =>
    have hflag : m.host ++ ":" ++ m.inside ++ ":ro" = m.host ++ ":" ++ m.inside ++ ":" ++ "ro" :=
      String.toList_inj.1 (by simp)
    have hro : Text.atColons "ro" = ["ro"] := Text.atColons_of_not_mem (by decide)
    simp only [if_true, hflag, Text.atColons_append_colon, hro, List.append_assoc]

theorem Plain.atColons_bind (hm : m.Plain) :
    Text.atColons m.bind = m.host :: m.inside :: m.flags := by
  rw [Mount.atColons_bind, Text.atColons_of_not_mem hm.host, Text.atColons_of_not_mem hm.inside]
  rfl

/-- **Plain mounts are written in different ways.** -/
theorem Plain.bind_inj (hm : m.Plain) (hm' : m'.Plain) : m.bind = m'.bind ↔ m = m' := by
  constructor
  · intro heq
    -- The text can be taken apart again, which gives the two paths and the flags.
    have hparts := congrArg Text.atColons heq
    rw [hm.atColons_bind, hm'.atColons_bind, List.cons.injEq, List.cons.injEq] at hparts
    obtain ⟨hhost, hinside, hflags⟩ := hparts
    obtain ⟨host, inside, readOnly⟩ := m
    obtain ⟨host', inside', readOnly'⟩ := m'
    have hreadOnly : readOnly = readOnly' := by
      revert hflags
      cases readOnly <;> cases readOnly' <;> simp [flags]
    rw [show host = host' from hhost, show inside = inside' from hinside, hreadOnly]
  · rintro rfl
    rfl

/-- A mount for reading has three parts just if no colon stands in the path on the host. -/
theorem three_parts_iff (hinside : ':' ∉ m.inside.toList) (hread : m.readOnly = true) :
    (Text.atColons m.bind).length = 3 ↔ ':' ∉ m.host.toList := by
  rw [← Text.length_atColons_eq_one_iff, atColons_bind, Text.atColons_of_not_mem hinside, flags,
    if_pos hread]
  simp

end Container.Mount

/-! ## Section 3: The mounts of an engine -/

namespace Container.Spec

variable {spec : Spec}

/-- All mounts are for reading, at places whose paths have no colon. -/
def ReadsFixed (spec : Spec) : Prop :=
  ∀ m ∈ spec.mounts, m.readOnly = true ∧ ':' ∉ m.inside.toList

theorem ReadsFixed.three_parts_iff (h : spec.ReadsFixed) :
    (∀ bind ∈ spec.binds, (Text.atColons bind).length = 3) ↔ ∀ m ∈ spec.mounts, m.Plain := by
  rw [binds, List.forall_mem_map]
  refine forall₂_congr fun m hm => ?_
  obtain ⟨hread, hinside⟩ := h m hm
  rw [Mount.three_parts_iff hinside hread]
  exact ⟨fun hhost => ⟨hhost, hinside⟩, Mount.Plain.host⟩

/-- Where all mounts are plain, no other plain mount is written like one of them. -/
theorem mem_mounts_of_bind (h : ∀ m ∈ spec.mounts, m.Plain) {m : Mount} (hm : m.Plain)
    (hbind : m.bind ∈ spec.binds) : m ∈ spec.mounts := by
  obtain ⟨m', hm', heq⟩ := List.mem_map.1 hbind
  exact (hm.bind_inj (h m' hm')).1 heq.symm ▸ hm'

end Container.Spec

theorem Engine.spec_readsFixed (e : Engine) (o : EngineOptions)
    (configFile featuresFile : MountedPath) (id : String) :
    (e.spec o configFile featuresFile id).ReadsFixed := by
  have hcode : ':' ∉ codeMount.toList := by decide
  have hconfig : ':' ∉ configMount.toList := by decide
  have hfeatures : ':' ∉ featuresMount.toList := by decide
  intro m hm
  simp only [spec, List.mem_cons, List.not_mem_nil, or_false] at hm
  obtain rfl | rfl | rfl := hm
  · exact ⟨rfl, hcode⟩
  · exact ⟨rfl, hconfig⟩
  · exact ⟨rfl, hfeatures⟩

theorem Engine.spec_plain_iff (e : Engine) (o : EngineOptions)
    (configFile featuresFile : MountedPath) (id : String) :
    (∀ m ∈ (e.spec o configFile featuresFile id).mounts, m.Plain) ↔
      ':' ∉ e.codePath.toList ∧ ':' ∉ configFile.host.toList ∧ ':' ∉ featuresFile.host.toList := by
  have hfixed := e.spec_readsFixed o configFile featuresFile id
  constructor
  · intro h
    simp only [spec, List.forall_mem_cons] at h
    exact ⟨h.1.host, h.2.1.host, h.2.2.1.host⟩
  · intro h m hm
    -- The paths in the container are fixed ones without colons, so only those on the host matter.
    refine ⟨?_, (hfixed m hm).2⟩
    simp only [spec, List.mem_cons, List.not_mem_nil, or_false] at hm
    obtain rfl | rfl | rfl := hm
    · exact h.1
    · exact h.2.1
    · exact h.2.2

namespace Settings

/-- **The mounts of an engine can be read in one way only, and as mounts for reading, just if no
    path on the host has a colon**: that of the project, that of the directory in the settings, and
    the names of the artifacts in it. -/
theorem binds_read_one_way_iff (s : Settings) (e : Engine) (configName featuresName id : String)
    (hconfig : Path.isAbsolute configName = false)
    (hfeatures : Path.isAbsolute featuresName = false) :
    let o := s.engineOptions
    let configFile := o.artifacts.join configName
    let featuresFile := o.artifacts.join featuresName
    let spec := e.spec o configFile featuresFile id
    let clear : Prop := ':' ∉ e.codePath.toList ∧ ':' ∉ s.container.hostDirectory.toList ∧
      ':' ∉ configName.toList ∧ ':' ∉ featuresName.toList
    ((∀ bind ∈ spec.binds, (Text.atColons bind).length = 3) ↔ clear) ∧
      (clear →
        spec.binds.map Text.atColons =
            [[e.codePath, "/code", "ro"], [configFile.host, "/config.json", "ro"],
              [featuresFile.host, "/previous-engine-results.json", "ro"]] ∧
          ∀ m : Container.Mount, m.Plain → m.bind ∈ spec.binds → m ∈ spec.mounts) := by
  intro o configFile featuresFile spec clear
  have hjoin : ∀ {name : String}, Path.isAbsolute name = false →
      (':' ∉ (o.artifacts.join name).host.toList ↔
        ':' ∉ s.container.hostDirectory.toList ∧ ':' ∉ name.toList) := by
    intro name hname
    rw [← not_or]
    exact not_congr (Path.mem_join_iff (by decide) _ hname)
  -- Both artifacts are in one directory, which is named once.
  have hclear : (∀ m ∈ spec.mounts, m.Plain) ↔ clear := by
    rw [e.spec_plain_iff, hjoin hconfig, hjoin hfeatures]
    constructor
    · rintro ⟨hcode, ⟨hdirectory, hc⟩, -, hf⟩
      exact ⟨hcode, hdirectory, hc, hf⟩
    · rintro ⟨hcode, hdirectory, hc, hf⟩
      exact ⟨hcode, ⟨hdirectory, hc⟩, hdirectory, hf⟩
  refine ⟨?_, fun h => ?_⟩
  · rw [(e.spec_readsFixed o configFile featuresFile id).three_parts_iff, hclear]
  · have hplain : ∀ m ∈ spec.mounts, m.Plain := hclear.2 h
    refine ⟨?_, fun m hm => Container.Spec.mem_mounts_of_bind hplain hm⟩
    -- Of plain mounts only the colons that were put between their parts are found.
    have hparts : spec.binds.map Text.atColons =
        spec.mounts.map fun m => m.host :: m.inside :: m.flags := by
      rw [Container.Spec.binds, List.map_map]
      exact List.map_congr_left fun m hm => (hplain m hm).atColons_bind
    rw [hparts]
    rfl

/-- The usual settings and a project without a colon in its path. -/
theorem binds_read_one_way_iff_usual :
    let e : Engine := { name := "lint", images := {}, codePath := "/src" }
    let artifacts := ({} : Settings).engineOptions.artifacts
    let spec := e.spec ({} : Settings).engineOptions (artifacts.join "0") (artifacts.join "1") "2"
    spec.binds.map Text.atColons =
      [["/src", "/code", "ro"], ["/tmp/belugas/0", "/config.json", "ro"],
        ["/tmp/belugas/1", "/previous-engine-results.json", "ro"]] := by
  intro e artifacts spec
  have hparts := ((binds_read_one_way_iff {} e "0" "1" "2" (by decide) (by decide)).2 (by decide)).1
  rw [hparts]
  decide

/-- Settings that have passed all checks may name a directory with a colon, and a project may be in
    one.  The texts have four parts then. -/
theorem colon_in_checked_directory :
    let s : Settings := { container := { hostDirectory := "/srv/a:b" } }
    let e : Engine := { name := "lint", images := {}, codePath := "/home/x:y" }
    let artifacts := s.engineOptions.artifacts
    let spec := e.spec s.engineOptions (artifacts.join "0") (artifacts.join "1") "2"
    s.validate = .ok () ∧ Path.isAbsolute e.codePath = true ∧
      spec.binds.map Text.atColons =
        [["/home/x", "y", "/code", "ro"], ["/srv/a", "b/0", "/config.json", "ro"],
          ["/srv/a", "b/1", "/previous-engine-results.json", "ro"]] ∧
      ∀ bind ∈ spec.binds, (Text.atColons bind).length ≠ 3 := by
  intro s e artifacts spec
  refine ⟨validate_eq_ok_iff.2 (by decide +kernel), ?_, ?_, ?_⟩ <;> decide +kernel

end Settings
end StackSurvey
