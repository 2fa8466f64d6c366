import StackSurvey.Files.Path
import StackSurvey.Names
import Mathlib.Tactic.Common

/-! # Parts of paths

    A path that was joined from a base and a name has the name as its last part, so whoever gets
    the path can tell the name, and distinct names give distinct files.  Unique identifiers are
    such names. -/

namespace StackSurvey

namespace Path

/-! ## Section 1: Splitting -/

theorem split_ne_nil (cs : List Char) : split cs ≠ [] := by
  cases cs with
  | nil => simp [split]
  | cons c cs =>
    unfold split
    split
    · simp
    · split <;> simp

theorem split_of_not_mem {cs : List Char} (h : '/' ∉ cs) : split cs = [cs] := by
  induction cs with
  | nil => rfl
  | cons c cs ih =>
    rw [split, if_neg (Ne.symm (List.ne_of_not_mem_cons h)), ih (List.not_mem_of_not_mem_cons h)]

/-- A slash separates the parts before it from the parts after it. -/
theorem split_append_slash (xs ys : List Char) :
    split (xs ++ '/' :: ys) = split xs ++ split ys := by
  induction xs with
  | nil => simp [split]
  | cons c xs ih =>
    by_cases hc : c = '/'
    · simp [split, hc, ih]
    · rcases h : split xs with _ | ⟨part, parts⟩
      · exact absurd h (split_ne_nil xs)
      · simp [split, hc, ih, h]

/-! ## Section 2: Names -/

/-- The text is the name of one entry of a directory. -/
structure IsName (name : String) : Prop where
  noSlash : '/' ∉ name.toList
  notEmpty : name ≠ ""
  notHere : name ≠ "."
  notAbove : name ≠ ".."

theorem not_isAbsolute_of_not_mem {name : String} (h : '/' ∉ name.toList) :
    isAbsolute name = false := by
  unfold isAbsolute
  rcases hname : name.toList with _ | ⟨c, cs⟩
  · rfl
  · rw [hname] at h
    simp [Ne.symm (List.ne_of_not_mem_cons h)]

/-- A name that was joined to a path is its last part. -/
theorem parts_join (base : String) {name : String} (h : '/' ∉ name.toList) :
    ∃ above, parts (join base name) = above ++ [name] := by
  unfold join parts
  rw [not_isAbsolute_of_not_mem h, Bool.false_or]
  split
  -- The base is empty, or it ends in a slash, or a slash is put between.
  · exact ⟨[], by simp [split_of_not_mem h]⟩
  · split
    · next hslash =>
      obtain ⟨cs, hcs⟩ := List.getLast?_eq_some_iff.1 hslash
      refine ⟨(split cs).map String.ofList, ?_⟩
      simp [String.toList_append, hcs, split_append_slash, split_of_not_mem h]
    · refine ⟨(split base.toList).map String.ofList, ?_⟩
      simp [String.toList_append, split_append_slash, split_of_not_mem h]

theorem getLast?_parts_join (base : String) {name : String} (h : '/' ∉ name.toList) :
    (parts (join base name)).getLast? = some name := by
  obtain ⟨above, hparts⟩ := parts_join base h
  rw [hparts, List.getLast?_concat]

/-- A path and one below it are joined with nothing but a slash. -/
theorem mem_join_iff {c : Char} (hc : c ≠ '/') (base : String) {rest : String}
    (h : isAbsolute rest = false) :
    c ∈ (join base rest).toList ↔ c ∈ base.toList ∨ c ∈ rest.toList := by
  unfold join
  rw [h, Bool.false_or]
  split
  · next hempty =>
    rw [String.isEmpty_iff.1 hempty]
    simp
  · split <;> simp [hc]

theorem join_ne_empty (base : String) {rest : String} (h : rest ≠ "") : join base rest ≠ "" := by
  unfold join
  split
  · exact h
  · split <;> simp [h]

end Path

/-! ## Section 3: Unique names -/

namespace Names

/-- Every name of the supply can be the name of a file. -/
def Proper (s : Names) : Prop := ∀ n, Path.IsName (s.name n)

theorem Proper.congr {s s' : Names} (hs : s.Proper) (h : s'.name = s.name) : s'.Proper := by
  intro n
  rw [h]
  exact hs n

theorem slash_not_mem_digits (n : Nat) : '/' ∉ digits n := by
  induction n using Nat.strongRecOn with
  | ind n ih =>
    unfold digits
    split
    · simp
    · next h =>
      rw [List.mem_append, not_or]
      exact ⟨ih _ (by omega), by simp⟩

theorem slash_not_mem_padded (width n : Nat) : '/' ∉ padded width n := by
  unfold padded
  rw [List.mem_append, not_or]
  exact ⟨fun h => absurd (List.eq_of_mem_replicate h) (by decide), slash_not_mem_digits n⟩

theorem dash_mem_identifier (seed n : Nat) : '-' ∈ (identifier seed n).toList := by
  simp [identifier, groups]

theorem ofSeed_proper (seed : Nat) : (ofSeed seed).Proper := by
  intro n
  have hslash : '/' ∉ (identifier seed n).toList := by
    simp [identifier, groups, slash_not_mem_padded]
  have hdash := dash_mem_identifier seed n
  -- The empty name and the points have no dash.
  refine ⟨hslash, ?_, ?_, ?_⟩ <;>
    · intro h
      rw [show (ofSeed seed).name n = identifier seed n from rfl] at h
      rw [h] at hdash
      simp at hdash

end Names
end StackSurvey
