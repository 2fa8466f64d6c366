import StackSurvey.Proofs.Files.Disk

/-! # Files that do not stay

    Whatever an artifact does to a disk is undone when it is discarded: directories may have been
    made, but the files are those that were there before.  That takes a name that no file has
    yet, and a device that lets files be removed.

    * `Restores` relates a disk to one with the same files, and `Adds` to one with one file more.
    * `restores_of_write_error`: an artifact that cannot be written leaves no file.
    * `Adds.of_write` and `Adds.discard`: one that can be written is one file more, and none
      after it is discarded. -/

namespace StackSurvey

namespace Disk

variable {d d' d'' : Disk} {l : Location} {target : MountedPath} {bytes : Bytes}
  {lines : List LogLine}

/-! ## Section 1: Removing a file -/

theorem at?_erase (d : Disk) (l m : Location) :
    (d.erase l).at? m =
      if m = [] then some .directory else if m = l then none else d.at? m := by
  unfold at? erase
  by_cases hnil : m = []
  · rw [if_pos hnil, if_pos hnil]
  rw [if_neg hnil, if_neg hnil, find?_filter_ne]
  by_cases hl : m = l
  · simp [hl]
  · simp [hl, hnil]

/-- The device lets every file be removed. -/
def Removes (d : Disk) : Prop := ∀ l, d.refuses .remove l = none

/-- No file of the disk has that name. -/
def Free (d : Disk) (name : String) : Prop :=
  ∀ above bytes, d.at? (above ++ [name]) ≠ some (.file bytes)

/-- A file that can be found can be removed. -/
theorem remove_of_file (hremove : d.Removes) {path : String} (hl : d.locate path = .ok l)
    (hat : d.at? l = some (.file bytes)) : (d.remove path).2 = d.erase l := by
  simp only [remove, hl, hat, hremove l]

/-- Where no file can be found nothing is removed. -/
theorem remove_of_no_file {path : String}
    (h : ∀ l bytes, d.locate path = .ok l → d.at? l ≠ some (.file bytes)) :
    (d.remove path).2 = d := by
  unfold remove
  rcases hl : d.locate path with _ | l
  · rfl
  rcases hat : d.at? l with _ | bytes | _
  · simp only [hat]
  · exact absurd hat (h l bytes hl)
  · simp only [hat]

theorem discard_disk (target : MountedPath) (d : Disk) :
    (Artifact.discard target d).2 = (d.remove target.inside).2 := by
  unfold Artifact.discard
  rcases d.remove target.inside with ⟨_ | _, d'⟩
  · next fault => cases fault <;> rfl
  · rfl

/-! ## Section 2: The same files -/

/-- The second disk has the files of the first one and no others.  It has the directories of the
    first one too, and may have more. -/
structure Restores (d d' : Disk) : Prop where
  ways : d.SameWays d'
  refuses : d'.refuses = d.refuses
  file : ∀ l bytes, d'.at? l = some (.file bytes) ↔ d.at? l = some (.file bytes)

theorem SameWays.trans (h : d.SameWays d') (h' : d'.SameWays d'') : d.SameWays d'' :=
  ⟨h'.here.trans h.here, fun l hl => h'.directory l (h.directory l hl)⟩

theorem Restores.trans (h : d.Restores d') (h' : d'.Restores d'') : d.Restores d'' :=
  ⟨h.ways.trans h'.ways, h'.refuses.trans h.refuses,
    fun l bytes => (h'.file l bytes).trans (h.file l bytes)⟩

theorem Extends.restores (h : d.Extends d') : d.Restores d' :=
  ⟨h.sameWays, h.refuses, fun l bytes => ⟨h.file l bytes, h.entry l (.file bytes)⟩⟩

/-- A name that is free stays free as long as no file is added. -/
theorem Restores.free (h : d.Restores d') {name : String} (hfree : d.Free name) : d'.Free name :=
  fun above bytes hat => hfree above bytes ((h.file _ bytes).1 hat)

/-- The second disk has the files of the first one, and one more at a location where no file was. -/
structure Adds (d d' : Disk) (l : Location) (bytes : Bytes) : Prop where
  ways : d.SameWays d'
  refuses : d'.refuses = d.refuses
  vacant : ∀ bytes, d.at? l ≠ some (.file bytes)
  file : ∀ m b, d'.at? m = some (.file b) ↔ m = l ∧ b = bytes ∨ d.at? m = some (.file b)

namespace Adds

/-- A file that is put where no entry was is one file more. -/
theorem set (hnil : l ≠ []) (hdir : d.at? l ≠ some .directory)
    (hvacant : ∀ bytes, d.at? l ≠ some (.file bytes)) (bytes : Bytes) :
    d.Adds (d.set l (.file bytes)) l bytes := by
  refine ⟨sameWays_set hdir, rfl, hvacant, fun m b => ?_⟩
  rw [at?_set]
  -- At `l` there is the new file, elsewhere what was there.
  by_cases hm : m = l
  · subst hm
    rw [if_neg hnil, if_pos rfl]
    have hnot := hvacant b
    constructor
    · intro h
      cases h
      exact .inl ⟨rfl, rfl⟩
    · rintro (⟨-, rfl⟩ | h)
      · rfl
      · exact absurd h hnot
  · rw [if_neg hm]
    split
    · next hroot => simp [hroot, hnil.symm]
    · simp [hm]

/-- What has the same files on either side has one file more too. -/
theorem trans_restores (h : d.Adds d' l bytes) (h' : d'.Restores d'') : d.Adds d'' l bytes :=
  ⟨h.ways.trans h'.ways, h'.refuses.trans h.refuses, h.vacant,
    fun m b => (h'.file m b).trans (h.file m b)⟩

theorem of_restores (h : d.Restores d') (h' : d'.Adds d'' l bytes) : d.Adds d'' l bytes :=
  ⟨h.ways.trans h'.ways, h'.refuses.trans h.refuses,
    fun b hat => h'.vacant b ((h.file l b).2 hat),
    fun m b => (h'.file m b).trans (or_congr_right (h.file m b))⟩

/-- The name of another file stays free. -/
theorem free (h : d.Adds d' l bytes) {above : Location} {name name' : String}
    (hl : l = above ++ [name]) (hne : name' ≠ name) (hfree : d.Free name') : d'.Free name' := by
  intro above' b hat
  rcases (h.file _ b).1 hat with ⟨hm, -⟩ | hold
  · rw [hl] at hm
    exact hne (List.cons.inj (List.append_inj_right' hm rfl)).1
  · exact hfree above' b hold

/-- **Discarding the one file more restores the files.** -/
theorem discard (h : d.Adds d' l bytes) (hremove : d'.Removes)
    (hl : d'.locate target.inside = .ok l) : d.Restores (Artifact.discard target d').2 := by
  have hat : d'.at? l = some (.file bytes) := (h.file l bytes).2 (.inl ⟨rfl, rfl⟩)
  rw [discard_disk, remove_of_file hremove hl hat]
  refine ⟨⟨h.ways.here, fun m hm => ?_⟩, h.refuses, fun m b => ?_⟩
  · -- A directory is no file, so it is not what was removed.
    have hdir := h.ways.directory m hm
    have hne : m ≠ l := by
      rintro rfl
      rw [hat] at hdir
      cases hdir
    rw [at?_erase, if_neg hne, hdir, ite_self]
  · rw [at?_erase]
    -- At the root there is a directory, so the file was not there.
    by_cases hroot : m = []
    · simp [hroot]
    rw [if_neg hroot]
    by_cases hm : m = l
    · rw [if_pos hm, hm]
      simp [h.vacant b]
    · rw [if_neg hm, h.file m b]
      simp [hm]

end Adds

/-! ## Section 3: Artifacts -/

/-- Where a path with a free name leads there is no file. -/
theorem vacant_of_free {base name : String} (hname : Path.IsName name) (hfree : d.Free name)
    (htarget : target.inside = Path.join base name) (hl : d.locate target.inside = .ok l) :
    ∀ bytes, d.at? l ≠ some (.file bytes) := by
  obtain ⟨above, rfl⟩ := locate_join hname (htarget ▸ hl)
  exact hfree above

/-- **An artifact that was written is one file more**, at the end of its path. -/
theorem Adds.of_write {base name : String} (hname : Path.IsName name) (hfree : d.Free name)
    (htarget : target.inside = Path.join base name)
    (h : Artifact.write target bytes d = (.ok (), lines, d')) :
    ∃ above, d.Adds d' (above ++ [name]) bytes ∧
      d'.locate target.inside = .ok (above ++ [name]) := by
  obtain ⟨d₁, l, hext, hl, hdir, rfl⟩ := artifact_ok h
  have hvacant := vacant_of_free hname (hext.restores.free hfree) htarget hl
  obtain ⟨above, rfl⟩ := locate_join hname (htarget ▸ hl)
  have hadds : d₁.Adds (d₁.set (above ++ [name]) (.file bytes)) (above ++ [name]) bytes :=
    .set (by simp) hdir hvacant bytes
  exact ⟨above, .of_restores hext.restores hadds, hadds.ways.locate hl⟩

/-- A write that fails leaves the disk alone, or an empty file. -/
theorem write_error {path : String} {fault : FileFault}
    (h : d.write path bytes = (.error fault, d')) :
    d' = d ∨ ∃ l, d.locate path = .ok l ∧ d.at? l ≠ some .directory ∧ d' = d.set l (.file []) := by
  unfold write at h
  rcases hfile : d.locateFile path with _ | l
  · simp only [hfile, Prod.mk.injEq] at h
    exact .inl h.2.symm
  rcases hmake : d.refuses .makeFile l with _ | fault
  · rcases hfill : d.refuses .fill l with _ | fault
    · simp [hfile, hmake, hfill] at h
    · simp only [hfile, hmake, hfill, Prod.mk.injEq] at h
      obtain ⟨hl, hat⟩ := locateFile_ok hfile
      exact .inr ⟨l, hl, hat, h.2.symm⟩
  · -- Not even an empty file was made.
    simp only [hfile, hmake, Prod.mk.injEq] at h
    exact .inl h.2.symm

/-- **An artifact that could not be written leaves no file**: neither if its directory could not
    be made, nor if the file could not be made, nor if it could not be filled. -/
theorem restores_of_write_error (hremove : d.Removes) {base name : String}
    (hname : Path.IsName name) (hfree : d.Free name)
    (htarget : target.inside = Path.join base name) {failure : ArtifactFailure}
    (h : Artifact.write target bytes d = (.error failure, lines, d')) : d.Restores d' := by
  have hext := Extends.of_makeParent target d
  unfold Artifact.write at h
  rcases hparent : Artifact.makeParent target d with ⟨_ | _, d₁⟩ <;>
    rw [hparent] at hext h <;> dsimp only at hext h
  · cases h
    exact hext.restores
  have hremove₁ : d₁.Removes := fun l => by rw [hext.refuses, hremove]
  have hfree₁ := hext.restores.free hfree
  rcases hwrite : d₁.write target.inside bytes with ⟨fault | _, d₂⟩ <;> rw [hwrite] at h
  · have hdisk : (Artifact.discard target d₂).2 = d' := congrArg (fun r => r.2.2) h
    rw [← hdisk]
    rcases write_error hwrite with rfl | ⟨l, hl, hdir, rfl⟩
    -- Without a file there is nothing to discard; an empty one is discarded.
    · rw [discard_disk, remove_of_no_file fun l bytes hl =>
        vacant_of_free hname hfree₁ htarget hl bytes]
      exact hext.restores
    · have hvacant := vacant_of_free hname hfree₁ htarget hl
      have hadds : d₁.Adds (d₁.set l (.file [])) l [] := by
        refine .set ?_ hdir hvacant []
        rintro rfl
        exact hdir (at?_nil d₁)
      exact hext.restores.trans (hadds.discard hremove₁ (hadds.ways.locate hl))
  · cases h

end Disk
end StackSurvey
