import StackSurvey.Feature.Set
import StackSurvey.Finding.Basic
import StackSurvey.Proofs.Success

/-! # Names of features and of engines

    Merging reports into a set adds the names that are reported and nothing else, and a report
    goes into the feature of its name.  A feature that comes from a document names no engine by
    itself. -/

namespace StackSurvey

theorem mem_foldl_pushUnique {x : String} {xs acc : List String} :
    x ∈ xs.foldl pushUnique acc ↔ x ∈ acc ∨ x ∈ xs := by
  induction xs generalizing acc with
  | nil => simp
  | cons y xs ih => rw [List.foldl_cons, ih, mem_pushUnique, List.mem_cons, or_assoc]

/-- Appending what is new leaves out what has come before. -/
theorem foldl_pushUnique (xs acc : List String) :
    xs.foldl pushUnique acc = acc ++ (xs.filter fun x => x ∉ acc).eraseDups := by
  induction xs generalizing acc with
  | nil => simp
  | cons x xs ih =>
    rw [List.foldl_cons, ih]
    unfold pushUnique
    by_cases hx : x ∈ acc
    · rw [if_pos hx, List.filter_cons_of_neg (by simpa using hx)]
    · rw [if_neg hx, List.filter_cons_of_pos (by simpa using hx), List.eraseDups_cons,
        List.append_assoc, List.singleton_append, List.filter_filter]
      -- What is left out behind `x` is what has come before or is `x` again.
      congr 4
      funext y
      rw [Bool.eq_iff_iff]
      simp [and_comm]

theorem foldl_pushUnique_nil (xs : List String) : xs.foldl pushUnique [] = xs.eraseDups := by
  rw [foldl_pushUnique, List.nil_append, List.filter_eq_self.2 (by simp)]

namespace Feature

variable {g : Feature} {fs : List Feature}

/-- A report is absorbed by the feature of its name, and by no other. -/
theorem find?_absorb (f : Feature) (fs : List Feature) (n : String) :
    (absorb f fs).find? (·.name = n) =
      if f.name = n then some (((fs.find? (·.name = n)).map (·.merge f)).getD f)
      else fs.find? (·.name = n) := by
  induction fs with
  | nil => by_cases hf : f.name = n <;> simp [absorb, hf]
  | cons g fs ih =>
    unfold absorb
    -- Absorbing stops at the first feature of the name, as the search does.
    by_cases hg : g.name = f.name
    · rw [if_pos hg]
      by_cases hf : f.name = n
      · simp [hf, hg.trans hf]
      · simp [hf, hg]
    · rw [if_neg hg, List.find?_cons, ih, List.find?_cons]
      by_cases hf : f.name = n
      · have hgn : g.name ≠ n := fun h => hg (h.trans hf.symm)
        simp [hgn, hf]
      · simp [hf]

/-- Among features with distinct names the name tells which one is meant. -/
theorem find?_name_of_mem (hdistinct : (fs.map name).Nodup) (hg : g ∈ fs) :
    fs.find? (·.name = g.name) = some g := by
  induction fs with
  | nil => cases hg
  | cons k fs ih =>
    rw [List.map_cons, List.nodup_cons] at hdistinct
    obtain ⟨hnew, hdistinct⟩ := hdistinct
    rcases List.mem_cons.1 hg with rfl | hg
    · simp
    · have hne : k.name ≠ g.name := fun h => hnew (h ▸ List.mem_map_of_mem hg)
      rw [List.find?_cons_of_neg (by simpa using hne), ih hdistinct hg]

/-- Only the name must be there. -/
theorem name_of_required : ∀ field ∈ fields, field.required = true → field.name = "name" := by
  have hall : ∀ p ∈ fields.map (fun field => (field.name, field.required)),
      p.2 = true → p.1 = "name" := by
    decide
  exact fun field hfield => hall (field.name, field.required) (List.mem_map_of_mem hfield)

end Feature

namespace FeatureSet

variable {s : FeatureSet} {fs : List Feature} {n : String}

theorem names_merge (s : FeatureSet) (fs : List Feature) :
    (s.merge fs).names = (fs.map Feature.name).foldl pushUnique s.names := by
  induction fs generalizing s with
  | nil => rfl
  | cons f fs ih => rw [merge_cons, ih, names_insert, List.map_cons, List.foldl_cons]

theorem names_ofFeatures (fs : List Feature) :
    (ofFeatures fs).names = (fs.map Feature.name).eraseDups := by
  rw [ofFeatures, names_merge, names_empty, foldl_pushUnique_nil]

theorem mem_names_merge : n ∈ (s.merge fs).names ↔ n ∈ s.names ∨ ∃ f ∈ fs, f.name = n := by
  rw [names_merge, mem_foldl_pushUnique, List.mem_map]

end FeatureSet

namespace Finding

theorem engines_of_featureOfMembers {members : Dictionary Json} {f : Feature}
    (h : featureOfMembers members = .ok f) : f.engines = [] := by
  unfold featureOfMembers at h
  obtain ⟨rest, -, h⟩ := Except.bind_eq_ok.1 h
  obtain ⟨_, -, h⟩ := Except.bind_eq_ok.1 h
  split at h
  · cases h
    rfl
  · cases h

/-- A document cannot say which engines have reported its feature. -/
theorem engines_of_featureOf {raw : Bytes} {f : Feature} (h : featureOf raw = .ok f) :
    f.engines = [] := by
  unfold featureOf at h
  split at h
  · cases h
  split at h
  · cases h
  · exact engines_of_featureOfMembers h
  · cases h

end Finding
end StackSurvey
