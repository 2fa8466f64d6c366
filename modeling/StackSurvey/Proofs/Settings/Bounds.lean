import Mathlib.Algebra.GroupWithZero.Nat
import StackSurvey.Container.Session
import StackSurvey.Proofs.Files.Path
import StackSurvey.Proofs.Number.Word
import StackSurvey.Settings.Checks

/-! # What settings let containers have

    Settings reach a container by way of the options of a run and the specification of the
    container.  They are checked last, after the environment has had its say, so whatever stands
    in the file and in the environment, a container is bounded and has an ordinary user.

    * `Container.Spec.Bounded` says what a specification may ask for.
    * `create_bounded`: the daemon is asked for such a container, since no bound on its memory
      is out of range.
    * `load_bounded`: settings that have been loaded give every engine such a container. -/

namespace StackSurvey

/-! ## Section 1: Bounded containers -/

/-- A text gives the number of a user or group, as a word of 32 bits other than 0. -/
def Word.SpellsOrdinary (text : String) : Prop :=
  ∃ n, Word.Spells text n ∧ 0 < n ∧ n < 2 ^ 32

namespace Container

/-- A container has bounds on all that it uses, and a user and group that are not the first. -/
structure Spec.Bounded (spec : Spec) : Prop where
  /-- There is nothing to swap. -/
  swap : spec.memorySwap = spec.memory
  /-- At least 4 MiB, and a number that can be counted with a sign in 64 bits. -/
  memory : 4 * 1024 * 1024 ≤ spec.memory ∧ spec.memory ≤ 2 ^ 63 - 1
  /-- Between a second and a day. -/
  timeout : ∃ seconds, 1 ≤ seconds ∧ seconds ≤ 24 * 3600 ∧ spec.timeout = .ofSeconds seconds
  /-- At most 16 MiB. -/
  errorLimit : spec.errorLimit ≤ 16 * 1024 * 1024
  /-- A user and a group, with a colon between them. -/
  user : ∃ uid gid, spec.user = uid ++ ":" ++ gid ∧
    Word.SpellsOrdinary uid ∧ Word.SpellsOrdinary gid

/-- The daemon is asked for a bounded container, whatever it answers. -/
theorem create_bounded {δ : Type} (d : Daemon δ) {spec : Spec} (h : spec.Bounded) (image : String)
    (x : Exchange δ) :
    (d.create spec image x).2.requests = x.requests ++ [.create spec image] := by
  have hlimit : Daemon.memoryLimit = 2 ^ 63 := rfl
  have hmemory : ¬ Daemon.memoryLimit ≤ spec.memory := by
    have hcount := h.memory.2
    omega
  have hswap : ¬ Daemon.memoryLimit ≤ spec.memorySwap := by
    rw [h.swap]
    exact hmemory
  unfold Daemon.create
  rw [if_neg hmemory, if_neg hswap]
  -- The answer decides about the result only.
  rcases hask : d.ask (.create spec image) x with ⟨_ | _, x'⟩ <;>
    have hx : x' = (d.ask (.create spec image) x).2 := by rw [hask]
  · simp only []
    split <;> rw [hx] <;> rfl
  · simp only []
    rw [hx]
    rfl

end Container

/-! ## Section 2: Checked settings -/

namespace Settings

variable {s : Settings}

/-- **The defaults pass their own checks**, wherever the environment puts temporary files. -/
theorem validate_usual (env : Environment) : (usual env).validate = .ok () := by
  have hdirectory : env.artifactDirectory ≠ "" := Path.join_ne_empty _ (by decide)
  have huser : isOrdinaryUser Container.defaultUser = true := by decide +kernel
  rw [validate_eq_ok_iff]
  simp only [checks, List.forall_mem_cons, List.not_mem_nil, false_implies, implies_true, and_true]
  -- Of the defaults only the directories depend on the environment.
  refine ⟨rfl, rfl, rfl, rfl, rfl, rfl, ?_, huser, rfl, rfl⟩
  simpa [usual, ContainerSettings.usual] using hdirectory

/-- Settings have been checked last when they are loaded. -/
theorem validate_of_settle {s₀ : Settings} {env : Environment}
    (h : (s₀.settle env).1 = .ok s) : s.validate = .ok () := by
  unfold settle at h
  simp only [] at h
  rcases hv : (s₀.withEnvironment env).1.validate with _ | _
  · rw [hv] at h
    cases h
  · rw [hv] at h
    cases h
    exact hv

theorem validate_of_load {disk : Disk} {path : String} {env : Environment}
    (h : (load disk path env).1 = .ok s) : s.validate = .ok () := by
  unfold load at h
  split at h
  · exact validate_of_settle h
  · cases h

theorem validate_of_loadOrDefault {disk : Disk} {path : String} {env : Environment}
    (h : (loadOrDefault disk path env).1 = .ok s) : s.validate = .ok () := by
  unfold loadOrDefault at h
  split at h
  · exact validate_of_settle h
  · exact validate_of_settle h
  · cases h

/-- What a text is made of that has a colon. -/
theorem eq_of_splitAtColon {text before after : String}
    (h : splitAtColon text = some (before, after)) : text = before ++ ":" ++ after := by
  have hjoin : text.toList.takeWhile (· ≠ ':') ++ text.toList.dropWhile (· ≠ ':') = text.toList :=
    List.takeWhile_append_dropWhile
  unfold splitAtColon at h
  simp only [] at h
  split at h
  · cases h
  · next c rest hrest =>
    -- The dropping stops at the first character that is a colon.
    have hc : c = ':' := by
      have hhead := List.head?_dropWhile_not (· ≠ ':') text.toList
      rw [hrest] at hhead
      simpa using hhead
    subst hc
    cases h
    apply String.toList_inj.1
    calc text.toList
        = text.toList.takeWhile (· ≠ ':') ++ ':' :: rest := by rw [← hrest, hjoin]
      _ = _ := by simp

/-- The number of an ordinary user or group is spelt as one. -/
theorem spells_of_isOrdinaryId {text : String} (h : isOrdinaryId text = true) :
    Word.SpellsOrdinary text := by
  unfold isOrdinaryId at h
  split at h
  · next n hread =>
    obtain ⟨hspells, hlt⟩ := Word.read?_eq_some_iff.1 hread
    have hne : n ≠ 0 := by simpa using h
    exact ⟨n, hspells, by omega, hlt⟩
  · cases h

/-- An ordinary user is a pair of ordinary numbers. -/
theorem spells_of_isOrdinaryUser {user : String} (h : isOrdinaryUser user = true) :
    ∃ uid gid, user = uid ++ ":" ++ gid ∧
      Word.SpellsOrdinary uid ∧ Word.SpellsOrdinary gid := by
  unfold isOrdinaryUser at h
  split at h
  · next uid gid hsplit =>
    obtain ⟨huid, hgid⟩ := Bool.and_eq_true_iff.1 h
    exact ⟨uid, gid, eq_of_splitAtColon hsplit, spells_of_isOrdinaryId huid,
      spells_of_isOrdinaryId hgid⟩
  · cases h

/-- **Checked settings give every engine a bounded container**, whatever its artifacts are
    called. -/
theorem spec_bounded (h : s.validate = .ok ()) (e : Engine) (configFile featuresFile : MountedPath)
    (id : String) : (e.spec s.engineOptions configFile featuresFile id).Bounded := by
  have hchecks : ∀ c ∈ checks, c.holds s = true := validate_eq_ok_iff.1 h
  simp only [checks, List.forall_mem_cons, List.not_mem_nil, false_implies, implies_true,
    decide_eq_true_eq, Bool.and_eq_true, and_true] at hchecks
  -- Of the ten checks five are about what a container may have.
  obtain ⟨-, -, hleast, hgreatest, ⟨hpositive, htimeout⟩, herror, -, huser, -⟩ := hchecks
  have hmemory : s.container.memory < 2 ^ 63 := hgreatest
  exact {
    swap := rfl
    memory := ⟨hleast, Nat.le_sub_one_of_lt hmemory⟩
    timeout := ⟨s.container.timeout, hpositive, htimeout, rfl⟩
    errorLimit := herror
    user := spells_of_isOrdinaryUser huser }

/-- **Settings that have been loaded let no container have more than it may**, whatever the file
    and the environment say, and no daemon is kept from being asked for it. -/
theorem load_bounded {disk : Disk} {path : String} {env : Environment}
    (h : (load disk path env).1 = .ok s ∨ (loadOrDefault disk path env).1 = .ok s)
    (e : Engine) (configFile featuresFile : MountedPath) (id : String) :
    let spec := e.spec s.engineOptions configFile featuresFile id
    spec.Bounded ∧
      ∀ (δ : Type) (d : Container.Daemon δ) (image : String) (x : Container.Exchange δ),
        (d.create spec image x).2.requests = x.requests ++ [.create spec image] := by
  intro spec
  have hvalid : s.validate = .ok () := h.elim validate_of_load validate_of_loadOrDefault
  have hbounded : spec.Bounded := spec_bounded hvalid e configFile featuresFile id
  exact ⟨hbounded, fun δ d image x => Container.create_bounded d hbounded image x⟩

/-- Variables that stay just within the bounds are followed: the least memory, a whole day, and a
    user with a plus and zeros in front. -/
theorem load_bounded_at_bounds :
    let env : Environment := [
      ("BELUGAS_RUNTIME_USER", Utf8.encode "+007:0012"),
      ("ENGINE_MEMORY_LIMIT_BYTES", Utf8.encode "4194304"),
      ("CONTAINER_TIMEOUT_SECONDS", Utf8.encode "86400")]
    let e : Engine := { name := "lint", images := { image := some "img" }, codePath := "/src" }
    ∃ s : Settings, (loadOrDefault {} "belugas.toml" env).1 = .ok s ∧
      s.container =
        { memory := 4 * 1024 * 1024, timeout := 24 * 3600, user := "+007:0012" } ∧
      (e.spec s.engineOptions (.ofLocal "/tmp/a") (.ofLocal "/tmp/b") "0").Bounded := by
  intro env e
  let s : Settings := { container :=
    { memory := 4 * 1024 * 1024, timeout := 24 * 3600, user := "+007:0012" } }
  have hloaded : (loadOrDefault {} "belugas.toml" env).1 = .ok s := by
    have hsome : (loadOrDefault {} "belugas.toml" env).1.toOption = some s := by decide +kernel
    rcases hr : (loadOrDefault {} "belugas.toml" env).1 with failure | s'
    · rw [hr] at hsome
      cases hsome
    · rw [hr] at hsome
      exact congrArg _ (Option.some.inj hsome)
  exact ⟨s, hloaded, rfl, (load_bounded (.inr hloaded) e _ _ _).1⟩

end Settings
end StackSurvey
