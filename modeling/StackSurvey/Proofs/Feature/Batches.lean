import StackSurvey.Proofs.Feature.Merged

/-! # Reports in batches, and reports that come again

    Reports may be merged into a set one by one, or be made a set of their own first that is then
    merged: the result is the same (`merge_ofFeatures`), so merging sets is associative.

    A report that has been merged is contained in the set.  Merging it again changes nothing,
    whatever has been merged in between and in whatever order (`merge_of_reported`). -/

namespace StackSurvey

namespace Feature

variable {f : Feature} {reports gs : List Feature}

theorem ofReports?_eq_none_iff : ofReports? reports = none ↔ reports = [] := by
  cases reports <;> simp [ofReports?]

/-- No number of reports that a feature is made up of changes it. -/
theorem MadeUpOf.foldl_merge (hf : f.MadeUpOf reports)
    (hgs : ∀ g ∈ gs, g ∈ reports ∧ f.name = g.name) : gs.foldl Feature.merge f = f := by
  induction gs with
  | nil => rfl
  | cons g gs ih =>
    obtain ⟨hg, hname⟩ := hgs g List.mem_cons_self
    rw [List.foldl_cons, hf.merge_of_mem hg hname, ih fun h hh => hgs h (List.mem_cons_of_mem g hh)]

end Feature

namespace FeatureSet

variable {s : FeatureSet} {fs gs : List Feature} {g : Feature} {n : String}

theorem name_of_get? (h : s.get? n = some g) : g.name = n := by
  simpa using List.find?_some h

/-! ## Section 1: Batches -/

/-- Merging the set that reports make up comes to merging the reports. -/
theorem merge_ofFeatures (s : FeatureSet) (fs : List Feature) :
    s.merge (ofFeatures fs).features = s.merge fs := by
  apply ext_get?
  · -- The names of a set are those of its reports with repetitions left out.
    have hbatch : (ofFeatures fs).features.map Feature.name =
        unionBy id [] (fs.map Feature.name) := by
      rw [← foldl_pushUnique_eq_unionBy]
      exact names_merge empty fs
    rw [names_merge, names_merge, hbatch, foldl_pushUnique_eq_unionBy,
      foldl_pushUnique_eq_unionBy, unionBy_assoc, unionBy_nil]
  · -- The feature of a name depends on the reports of that name alone, and the batch has one report
    -- for it.
    intro n
    have hset : ∀ f ∈ (s.get? n).toList, f.name = n := fun f hf =>
      name_of_get? (Option.mem_toList.1 hf)
    have hreports : ∀ f ∈ Feature.reportsOf n fs, f.name = n := fun f hf =>
      (Feature.mem_reportsOf.1 hf).2
    rw [get?_merge, get?_merge, reportsOf_features, get?_ofFeatures,
      Feature.ofReports?_append_toList hset hreports]

/-- A set is made up of its own features. -/
theorem ofFeatures_features (s : FeatureSet) : ofFeatures s.features = s := by
  apply ext_get?
  · exact (names_ofFeatures s.features).trans (eraseDups_of_nodup s.distinct)
  · intro n
    rw [get?_ofFeatures, reportsOf_features]
    cases s.get? n <;> rfl

/-- **Batching does not matter**: reports may be put together before they are merged, and so may
    sets. -/
theorem merge_in_batches (s t u : FeatureSet) (fs : List Feature) :
    s.merge (ofFeatures fs).features = s.merge fs ∧
    (s.merge t.features).merge u.features = s.merge (t.merge u.features).features := by
  refine ⟨merge_ofFeatures s fs, ?_⟩
  have htogether : t.merge u.features = ofFeatures (t.features ++ u.features) := by
    calc t.merge u.features
        = (ofFeatures t.features).merge u.features := by rw [ofFeatures_features]
      _ = ofFeatures (t.features ++ u.features) := (merge_append empty t.features u.features).symm
  calc (s.merge t.features).merge u.features
      = s.merge (t.features ++ u.features) := (merge_append s t.features u.features).symm
    _ = s.merge (ofFeatures (t.features ++ u.features)).features := (merge_ofFeatures s _).symm
    _ = s.merge (t.merge u.features).features := by rw [htogether]

/-! ## Section 2: Repetitions -/

/-- What has been reported is absorbed: it can be reported again without effect. -/
theorem merge_of_reported (hgs : ∀ g ∈ gs, g ∈ fs) : (s.merge fs).merge gs = s.merge fs := by
  apply ext_get?
  · rw [names_merge (s.merge fs), foldl_pushUnique_eq_unionBy]
    refine unionBy_of_subset fun n hn => ?_
    obtain ⟨g, hg, rfl⟩ := List.mem_map.1 hn
    rw [List.map_id]
    exact mem_names_merge.2 (.inr ⟨g, hgs g hg, rfl⟩)
  · intro n
    have hsubset : Feature.reportsOf n gs ⊆ Feature.reportsOf n fs :=
      List.filter_subset _ fun g hg => hgs g hg
    rw [get?_merge (s.merge fs)]
    rcases hget : (s.merge fs).get? n with _ | f
    -- No report has this name, so none that comes again has it.
    · rw [get?_merge, Feature.ofReports?_eq_none_iff, List.append_eq_nil_iff] at hget
      rw [hget.2] at hsubset
      exact Feature.ofReports?_eq_none_iff.2 (List.subset_nil.1 hsubset)
    -- The feature is made up of reports among which are all that come again.
    · have hmade : f.MadeUpOf (Feature.reportsOf n (s.features ++ fs)) :=
        madeUpOf_of_get?_merge hget
      have hagain : (Feature.reportsOf n gs).foldl Feature.merge f = f := by
        refine hmade.foldl_merge fun g hg => ⟨?_, ?_⟩
        · rw [Feature.reportsOf_append]
          exact List.mem_append_right _ (hsubset hg)
        · rw [name_of_get? hget, (Feature.mem_reportsOf.1 hg).2]
      exact congrArg some hagain

/-- **Re-reporting changes nothing.**  Once reports have been merged, any of them may come again,
    in any order and any number of times; in particular all of them once more, and a set may be
    merged into itself. -/
theorem merge_again (s : FeatureSet) (fs gs : List Feature) (hgs : ∀ g ∈ gs, g ∈ fs) :
    (s.merge fs).merge gs = s.merge fs ∧ (s.merge fs).merge fs = s.merge fs ∧
    s.merge s.features = s := by
  refine ⟨merge_of_reported hgs, merge_of_reported fun g hg => hg, ?_⟩
  calc s.merge s.features
      = (ofFeatures s.features).merge s.features := by rw [ofFeatures_features]
    _ = ofFeatures s.features := merge_of_reported fun g hg => hg
    _ = s := ofFeatures_features s

/-- The report that came first comes again, twice, after others have filled what it left open and
    blocked what it says now. -/
theorem merge_again_after_others :
    let first : Feature :=
      { name := "Ruby", version := some "3.3", categories := ["Language", "Language"] }
    let second : Feature :=
      { name := "Ruby", cpe := some "cpe:ruby", detail := .ofMembers [("patch", .null)] }
    let other : Feature := { name := "Go", engines := ["lang"] }
    let s := ofFeatures [{ name := "Ruby", version := some "3.2" }]
    (∀ g ∈ [first, other, first], g ∈ [first, second, other]) ∧
    (s.merge [first, second, other]).merge [first, other, first] =
      s.merge [first, second, other] := by
  intro first second other s
  have hagain : ∀ g ∈ [first, other, first], g ∈ [first, second, other] := by simp
  exact ⟨hagain, (merge_again s [first, second, other] [first, other, first] hagain).1⟩

end FeatureSet
end StackSurvey
