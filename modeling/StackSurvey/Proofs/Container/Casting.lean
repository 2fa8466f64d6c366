import StackSurvey.Proofs.Container.Honest
import StackSurvey.Proofs.Dictionary
import StackSurvey.Proofs.Files.Disk

/-! # Castings

    A casting decides what a container does once it is known how it is to be run and what it
    finds in the files that are mounted.  Any behaviour of containers can be assigned to engines
    in this way, and it may depend on all that an engine is handed.  A rehearsal is a casting
    that goes by the image. -/

namespace StackSurvey

namespace Container

/-- How a container is run, and what it finds. -/
structure Setting where
  spec : Spec
  /-- The bytes of each mounted artifact, by the path inside the container. -/
  files : List (String × Option Bytes)

/-- Assigns scripts to containers. -/
structure Casting (ρ : Type) where
  /-- The directory in which artifacts are found by the last part of their path. -/
  directory : ρ → String
  /-- The script of a container, unless it cannot be started. -/
  cast : Setting → ρ → Except RuntimeFailure Script × ρ
  directory_cast : ∀ setting r, directory (cast setting r).2 = directory r

namespace Casting

variable {ρ : Type}

/-- The bytes of a mounted artifact. -/
def file? (directory : String) (disk : Disk) (m : Mount) : Option Bytes :=
  (Path.parts m.host).getLast?.bind fun name => (disk.read (Path.join directory name)).toOption

/-- What a container finds on a disk.  The first mount is the project itself. -/
def setting (directory : String) (disk : Disk) (spec : Spec) : Setting :=
  { spec, files := (spec.mounts.drop 1).map fun m => (m.inside, file? directory disk m) }

/-- The runtime that plays back what is cast. -/
def runtime (c : Casting ρ) : Runtime ρ where
  run disk spec w := fun (r, t) =>
    match c.cast (setting (c.directory r) disk spec) r with
    | (.error failure, r) => (.error failure, (r, t))
    | (.ok script, r) =>
      let (outcome, t) := Rehearsal.perform spec script w t
      (.ok outcome, (r, t))

/-- In states with the property, which casting keeps, no document of a script exceeds the usual
    limit of a chunk. -/
structure Fits (c : Casting ρ) (P : ρ → Prop) : Prop where
  fits : ∀ setting r script, P r → (c.cast setting r).1 = .ok script →
    script.Fits documentDelimiter
  keeps : ∀ setting r, P r → P (c.cast setting r).2

theorem honest (c : Casting ρ) : c.runtime.Honest := by
  intro τ P disk spec w hw r t ht
  simp only [runtime]
  split
  · exact ht
  · exact Rehearsal.perform_keeps hw spec _ ht

/-- What casting keeps, running a container keeps. -/
theorem run_keeps {c : Casting ρ} {P : ρ → Prop} (hP : ∀ setting r, P r → P (c.cast setting r).2)
    {τ : Type} (disk : Disk) (spec : Spec) (w : Watcher τ) {r : ρ} (hr : P r) (t : τ) :
    P (c.runtime.run disk spec w (r, t)).2.1 := by
  have hkept := hP (setting (c.directory r) disk spec) r hr
  simp only [runtime]
  rcases hcast : c.cast (setting (c.directory r) disk spec) r with ⟨_ | _, r'⟩ <;>
    rw [hcast] at hkept <;> exact hkept

/-- An artifact is found if it is read under the name that the host mounts. -/
theorem file?_join {directory base name : String} {disk : Disk} {bytes : Bytes} (inside : String)
    (hname : Path.IsName name) (hread : disk.read (Path.join directory name) = .ok bytes) :
    file? directory disk { host := Path.join base name, inside } = some bytes := by
  simp [file?, Path.getLast?_parts_join base hname.noSlash, hread, Except.toOption]

end Casting

namespace Rehearsal

/-- What a rehearsal notes of a file. -/
def noted (file : String × Option Bytes) : String × Option String :=
  (file.1, file.2.bind fun bytes => (Utf8.decode bytes).toOption)

def casting : Casting Rehearsal where
  directory r := r.artifactDirectory
  cast setting r :=
    let artifacts := setting.files.map noted
    let r := { r with launches := r.launches ++ [{ spec := setting.spec, artifacts }] }
    (r.failure? setting.spec, r)
  directory_cast _ _ := rfl

theorem artifactText_eq (r : Rehearsal) (disk : Disk) (m : Mount) :
    (m.inside, r.artifactText disk m) =
      noted (m.inside, Casting.file? r.artifactDirectory disk m) := by
  unfold artifactText noted Casting.file?
  rcases (Path.parts m.host).getLast? with _ | name
  · rfl
  · rcases hread : disk.read (Path.join r.artifactDirectory name) with _ | bytes
    · simp [Disk.readText, hread, bind, Except.bind, Except.toOption]
    · rcases hdecode : Utf8.decode bytes with _ | text <;>
        simp [Disk.readText, hread, hdecode, bind, Except.bind, Except.toOption, pure, Except.pure,
          throw, throwThe, MonadExceptOf.throw]

theorem note_eq (r : Rehearsal) (disk : Disk) (spec : Spec) :
    r.note disk spec = (casting.cast (Casting.setting r.artifactDirectory disk spec) r).2 := by
  simp only [note, casting, Casting.setting, List.map_map, Function.comp_def, ← artifactText_eq]

/-- **A rehearsal plays back its casting.** -/
theorem runtime_eq : runtime = casting.runtime := by
  unfold runtime Casting.runtime
  congr 1
  funext τ disk spec w ⟨r, t⟩
  have hcast : casting.cast (Casting.setting (casting.directory r) disk spec) r =
      ((r.note disk spec).failure? spec, r.note disk spec) := by
    rw [note_eq]
    rfl
  simp only [hcast]
  rcases (r.note disk spec).failure? spec with _ | _ <;> rfl

/-- A script that is played back is one of those given, or the usual one. -/
theorem script_of_failure? {r : Rehearsal} {spec : Spec} {script : Script}
    (h : r.failure? spec = .ok script) : (∃ entry ∈ r.scripts, entry.2 = script) ∨ script = {} := by
  unfold failure? at h
  split at h
  · exact nomatch h
  next image _ =>
  dsimp only at h
  split at h
  · obtain rfl := Except.ok.inj h
    -- An image without a script is played the empty one.
    rcases hscript : Dictionary.get? image r.scripts with _ | found
    · exact .inr rfl
    · exact .inl ⟨(image, found), Dictionary.mem_of_get? hscript, rfl⟩
  all_goals exact nomatch h

/-- The scripts of a rehearsal do not change, so it is enough that each of them fits. -/
theorem casting_fits :
    casting.Fits fun r => ∀ entry ∈ r.scripts, entry.2.Fits documentDelimiter where
  fits setting r script hr hcast := by
    rcases script_of_failure? hcast with ⟨entry, hentry, rfl⟩ | rfl
    · exact hr entry hentry
    · intro document hdocument
      exact absurd hdocument (by simp [Splitter.documents, Splitter.complete_of_not_mem,
        Splitter.tail_of_not_mem, Splitter.rest])
  keeps _ _ hr := hr

end Rehearsal
end Container
end StackSurvey
