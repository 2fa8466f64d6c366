import StackSurvey.Files.Artifact
import StackSurvey.Proofs.Files.Path
import StackSurvey.Proofs.Success

/-! # Files that stay

    Making directories adds to a disk and changes nothing that is there, and writing a file
    changes no other.  Neither of them changes where a path leads that led somewhere, so an
    artifact is found under the path under which it was written, with what was written, also
    after further artifacts of other names. -/

namespace StackSurvey

namespace Disk

variable {d d' d'' : Disk} {l m : Location} {path : String}

/-! ## Section 1: Entries -/

@[simp] theorem at?_nil (d : Disk) : d.at? [] = some .directory := by simp [at?]

/-- Leaving out what is at one location does not change what is found at another one. -/
theorem find?_filter_ne (entries : List (Location × Entry)) (l m : Location) :
    (entries.filter fun x => x.1 ≠ l).find? (fun x => x.1 = m) =
      if m = l then none else entries.find? fun x => x.1 = m := by
  induction entries with
  | nil => simp
  | cons x entries ih =>
    -- An entry at `l` is dropped, so it can be found only if it is not looked for.
    by_cases hx : x.1 = l
    · rw [List.filter_cons_of_neg (by simp [hx]), ih]
      by_cases hm : m = l
      · rw [if_pos hm, if_pos hm]
      · rw [if_neg hm, if_neg hm, List.find?_cons_of_neg (by simpa [hx] using Ne.symm hm)]
    · rw [List.filter_cons_of_pos (by simp [hx])]
      by_cases hxm : x.1 = m
      · rw [List.find?_cons_of_pos (by simp [hxm]), List.find?_cons_of_pos (by simp [hxm]),
          if_neg (hxm ▸ hx)]
      · rw [List.find?_cons_of_neg (by simp [hxm]), List.find?_cons_of_neg (by simp [hxm]), ih]

theorem at?_set (d : Disk) (l m : Location) (e : Entry) :
    (d.set l e).at? m = if m = [] then some .directory else if m = l then some e else d.at? m := by
  unfold at? set
  by_cases hnil : m = []
  · rw [if_pos hnil, if_pos hnil]
  rw [if_neg hnil, if_neg hnil, List.find?_append, find?_filter_ne]
  by_cases hl : m = l
  · simp [hl]
  · simp [hl, Ne.symm hl, hnil]

/-! ## Section 2: Ways -/

/-- The directories of the first disk are directories of the second one. -/
structure SameWays (d d' : Disk) : Prop where
  here : d'.here = d.here
  directory : ∀ l, d.at? l = some .directory → d'.at? l = some .directory

/-- Following parts is following the first one and then the others. -/
theorem walk_cons (d : Disk) (l : Location) (part : String) (rest : List String) :
    d.walk l (part :: rest) = (d.walk l [part]).bind fun m => d.walk m rest := by
  simp only [walk]
  rcases d.at? l with _ | _ | _
  · rfl
  · rfl
  · dsimp only
    split
    · rfl
    · split
      · rfl
      · split <;> rfl

theorem walk_append (d : Disk) (l : Location) (xs ys : List String) :
    d.walk l (xs ++ ys) = (d.walk l xs).bind fun m => d.walk m ys := by
  induction xs generalizing l with
  | nil => rfl
  | cons part xs ih =>
    rw [List.cons_append, walk_cons d l part, walk_cons d l part xs]
    rcases d.walk l [part] with _ | m
    · rfl
    · exact ih m

theorem SameWays.walk (h : d.SameWays d') {parts : List String} (hw : d.walk l parts = .ok m) :
    d'.walk l parts = .ok m := by
  induction parts generalizing l with
  | nil => exact hw
  | cons part rest ih =>
    rw [walk_cons] at hw ⊢
    rcases hone : d.walk l [part] with _ | m'
    · rw [hone] at hw
      exact nomatch hw
    -- Only a directory lets a step through, and it is a directory on the second disk too.
    have hone' : d'.walk l [part] = .ok m' := by
      rw [← hone]
      rcases hat : d.at? l with _ | _ | _
      · simp [Disk.walk, hat] at hone
      · simp [Disk.walk, hat] at hone
      · simp only [Disk.walk, hat, h.directory l hat]
    rw [hone] at hw
    rw [hone']
    exact ih hw

/-- A path that leads somewhere goes on to lead there. -/
theorem SameWays.locate (h : d.SameWays d') (hl : d.locate path = .ok l) :
    d'.locate path = .ok l := by
  unfold Disk.locate at hl ⊢
  rw [h.here]
  -- The three checks before the walk are of the path alone.
  split at hl
  · exact nomatch hl
  next hnul =>
  split at hl
  · exact nomatch hl
  next hempty =>
  split at hl
  · exact nomatch hl
  next hlong =>
  rw [if_neg hnul, if_neg hempty, if_neg hlong]
  exact h.walk hl

/-- The location of a file ends with the name of the file. -/
theorem locate_join {base name : String} (hname : Path.IsName name)
    (h : d.locate (Path.join base name) = .ok l) : ∃ above, l = above ++ [name] := by
  obtain ⟨above, hparts⟩ := Path.parts_join base hname.noSlash
  unfold locate at h
  split at h
  · exact nomatch h
  split at h
  · exact nomatch h
  split at h
  · exact nomatch h
  rw [hparts, walk_append] at h
  rcases hw : d.walk (if Path.isAbsolute (Path.join base name) = true then [] else d.here) above
    with _ | m <;> rw [hw] at h
  · exact nomatch h
  -- The last step goes down to the name, which is neither empty nor made of points.
  simp only [Except.bind, walk, hname.notEmpty, hname.notHere, hname.notAbove, decide_false,
    Bool.or_self, Bool.false_eq_true, if_false] at h
  split at h
  · exact nomatch h
  · exact nomatch h
  · split at h
    · exact nomatch h
    · exact ⟨m, (Except.ok.inj h).symm⟩

/-! ## Section 3: Making directories -/

/-- All that is on the first disk is on the second one, and what else is there is no file. -/
structure Extends (d d' : Disk) : Prop where
  here : d'.here = d.here
  refuses : d'.refuses = d.refuses
  entry : ∀ l e, d.at? l = some e → d'.at? l = some e
  file : ∀ l bytes, d'.at? l = some (.file bytes) → d.at? l = some (.file bytes)

namespace Extends

theorem refl (d : Disk) : d.Extends d := ⟨rfl, rfl, fun _ _ h => h, fun _ _ h => h⟩

theorem trans (h : d.Extends d') (h' : d'.Extends d'') : d.Extends d'' :=
  ⟨h'.here.trans h.here, h'.refuses.trans h.refuses, fun l e he => h'.entry l e (h.entry l e he),
    fun l bytes hf => h.file l bytes (h'.file l bytes hf)⟩

theorem sameWays (h : d.Extends d') : d.SameWays d' := ⟨h.here, fun l => h.entry l .directory⟩

/-- A directory that is put where nothing is takes the place of nothing. -/
theorem set_directory (hat : d.at? l = none) : d.Extends (d.set l .directory) := by
  refine ⟨rfl, rfl, fun m e hm => ?_, fun m bytes hm => ?_⟩
  · -- Nothing was at `l`, so `m` is another location.
    have hml : m ≠ l := by
      rintro rfl
      rw [hat] at hm
      cases hm
    rw [at?_set, if_neg hml]
    by_cases hnil : m = []
    · rwa [if_pos hnil, ← at?_nil d, ← hnil]
    · rwa [if_neg hnil]
  · rw [at?_set] at hm
    split at hm
    · cases hm
    · split at hm
      · cases hm
      · exact hm

/-- A directory is only made where nothing is. -/
theorem of_makeDirectory (h : d.makeDirectory path = .ok d') : d.Extends d' := by
  unfold makeDirectory at h
  obtain ⟨l, -, h⟩ := Except.bind_eq_ok.1 h
  rcases hat : d.at? l with _ | e
  · simp only [hat, Option.isSome_none, Bool.false_eq_true, if_false] at h
    split at h
    · cases h
    · cases h
      exact set_directory hat
  · simp only [hat, Option.isSome_some, if_true] at h
    cases h

/-- Directories are only made where nothing is, whether all of them can be made or not. -/
theorem of_makeDirectories (d : Disk) (fuel : Nat) (path : String) :
    d.Extends (d.makeDirectories fuel path).2 := by
  induction fuel generalizing d path with
  | zero => exact refl d
  | succ fuel ih =>
    unfold makeDirectories
    split
    · exact refl d
    split
    · next hmake => exact of_makeDirectory hmake
    · -- Only where a directory on the way is missing, those on the way are made first.
      split
      · exact refl d
      · next parent _ =>
        have hup := ih d parent
        rcases hmade : d.makeDirectories fuel parent with ⟨_ | _, d₁⟩ <;> rw [hmade] at hup
        · -- Those that could be made stay, although others on the way could not.
          exact hup
        · dsimp only
          split
          · next hagain => exact hup.trans (of_makeDirectory hagain)
          · exact hup
    · exact refl d

theorem of_makeParent (target : MountedPath) (d : Disk) :
    d.Extends (Artifact.makeParent target d).2 := by
  unfold Artifact.makeParent
  split
  · exact refl d
  · exact of_makeDirectories d _ _

end Extends

/-! ## Section 4: Writing and reading -/

theorem locateFile_ok (h : d.locateFile path = .ok l) :
    d.locate path = .ok l ∧ d.at? l ≠ some .directory := by
  unfold locateFile at h
  dsimp only at h
  split at h
  · -- A path with a slash at its end is refused, whether it leads somewhere or not.
    obtain ⟨_, -, h⟩ := Except.bind_eq_ok.1 h
    cases h
  · obtain ⟨m, hl, h⟩ := Except.bind_eq_ok.1 h
    split at h
    · cases h
    · next hat =>
      cases h
      exact ⟨hl, hat⟩

/-- Writing a file that is written puts it where its path leads, which is no directory. -/
theorem write_ok {bytes : Bytes} (h : d.write path bytes = (.ok (), d')) :
    ∃ l, d.locate path = .ok l ∧ d.at? l ≠ some .directory ∧ d' = d.set l (.file bytes) := by
  unfold write at h
  rcases hfile : d.locateFile path with _ | l
  · simp [hfile] at h
  rcases hmake : d.refuses .makeFile l with _ | fault
  · rcases hfill : d.refuses .fill l with _ | fault
    · simp only [hfile, hmake, hfill, Prod.mk.injEq, true_and] at h
      obtain ⟨hl, hat⟩ := locateFile_ok hfile
      exact ⟨l, hl, hat, h.symm⟩
    · simp [hfile, hmake, hfill] at h
  · simp [hfile, hmake] at h

/-- What is read is the file to which the path leads. -/
theorem read_eq_ok {bytes : Bytes} :
    d.read path = .ok bytes ↔ ∃ l, d.locate path = .ok l ∧ d.at? l = some (.file bytes) := by
  unfold read
  rcases hl : d.locate path with _ | l
  · simp [bind, Except.bind]
  · rcases hat : d.at? l with _ | _ | _ <;> simp [bind, Except.bind, hat, pure, Except.pure]

/-- Writing a file changes no way. -/
theorem sameWays_set {bytes : Bytes} (hat : d.at? l ≠ some .directory) :
    d.SameWays (d.set l (.file bytes)) := by
  refine ⟨rfl, fun m hm => ?_⟩
  rw [at?_set]
  split
  · rfl
  · rw [if_neg (by rintro rfl; exact hat hm)]
    exact hm

/-! ## Section 5: Artifacts -/

section artifact

variable {target : MountedPath} {bytes : Bytes} {lines : List LogLine}

/-- An artifact that is written is put where its path leads, once its directory is there. -/
theorem artifact_ok (h : Artifact.write target bytes d = (.ok (), lines, d')) :
    ∃ d₁ l, d.Extends d₁ ∧ d₁.locate target.inside = .ok l ∧ d₁.at? l ≠ some .directory ∧
      d' = d₁.set l (.file bytes) := by
  have hext := Extends.of_makeParent target d
  unfold Artifact.write at h
  rcases hparent : Artifact.makeParent target d with ⟨_ | _, d₁⟩ <;> rw [hparent] at hext
  · simp [hparent] at h
  rcases hwrite : d₁.write target.inside bytes with ⟨_ | _, d₂⟩
  · simp [hparent, hwrite] at h
  · simp only [hparent, hwrite, Prod.mk.injEq, true_and] at h
    obtain ⟨l, hl, hat, rfl⟩ := write_ok hwrite
    exact ⟨d₁, l, hext, hl, hat, h.2.symm⟩

/-- **An artifact is found with what was written.** -/
theorem read_artifact (h : Artifact.write target bytes d = (.ok (), lines, d')) :
    d'.read target.inside = .ok bytes := by
  obtain ⟨d₁, l, -, hl, hat, rfl⟩ := artifact_ok h
  refine read_eq_ok.2 ⟨l, (sameWays_set hat).locate hl, ?_⟩
  rw [at?_set, if_pos rfl, if_neg]
  rintro rfl
  exact hat (at?_nil d₁)

/-- **An artifact changes no file of another name.** -/
theorem read_of_artifact (h : Artifact.write target bytes d = (.ok (), lines, d'))
    {base base' name name' : String} (htarget : target.inside = Path.join base' name')
    (hname : Path.IsName name) (hname' : Path.IsName name') (hne : name ≠ name') {old : Bytes}
    (hread : d.read (Path.join base name) = .ok old) :
    d'.read (Path.join base name) = .ok old := by
  obtain ⟨d₁, l, hext, hl, hat, rfl⟩ := artifact_ok h
  obtain ⟨m, hm, hold⟩ := read_eq_ok.1 hread
  have hm₁ := hext.sameWays.locate hm
  refine read_eq_ok.2 ⟨m, (sameWays_set hat).locate hm₁, ?_⟩
  -- The two locations end with different names.
  obtain ⟨above, rfl⟩ := locate_join hname hm
  obtain ⟨above', rfl⟩ := locate_join hname' (htarget ▸ hl)
  rw [at?_set, if_neg (by simp), if_neg (by simp [hne])]
  exact hext.entry _ _ hold

end artifact
end Disk
end StackSurvey
