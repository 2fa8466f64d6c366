import StackSurvey.Proofs.Feature.Reports

/-! # What merging makes of a set

    A set is told by its names in order and by the feature of each name (`ext_get?`).  Merging
    appends the names that are new (`names_merge`), and the feature of a name is what its reports
    make up, the one of the set first (`get?_merge`).

    So every field of a merged set can be read off the set before and the reports
    (`merge_made_of_reports`), and whatever was in the set is still there, in its place. -/

namespace StackSurvey

namespace Feature

variable {f g : Feature} {fs : List Feature}

/-! ## Section 1: Names and reports -/

def reportsOf (n : String) (fs : List Feature) : List Feature := fs.filter (·.name = n)

theorem mem_reportsOf {n : String} : f ∈ reportsOf n fs ↔ f ∈ fs ∧ f.name = n := by
  simp [reportsOf]

theorem reportsOf_append (n : String) (fs gs : List Feature) :
    reportsOf n (fs ++ gs) = reportsOf n fs ++ reportsOf n gs :=
  List.filter_append fs gs

/-- Of features with distinct names at most one has a given name. -/
theorem reportsOf_of_distinct (hdistinct : (fs.map name).Nodup) (n : String) :
    reportsOf n fs = (fs.find? (·.name = n)).toList := by
  unfold reportsOf
  induction fs with
  | nil => rfl
  | cons f fs ih =>
    rw [List.map_cons, List.nodup_cons] at hdistinct
    obtain ⟨hnew, hdistinct⟩ := hdistinct
    by_cases hf : f.name = n
    · -- No other report has the name of the first one.
      have hrest : fs.filter (·.name = n) = [] := List.filter_eq_nil_iff.2 fun g hg => by
        have hne : g.name ≠ f.name := fun h => hnew (h ▸ List.mem_map_of_mem hg)
        simpa [hf] using hne
      rw [List.filter_cons_of_pos (by simpa using hf), hrest,
        List.find?_cons_of_pos (by simpa using hf)]
      rfl
    · rw [List.filter_cons_of_neg (by simpa using hf), List.find?_cons_of_neg (by simpa using hf),
        ih hdistinct]

/-- A report that is absorbed leaves every feature in its place, with all that it says. -/
theorem kept_absorb {i : Nat} (f : Feature) (h : fs[i]? = some g) :
    ∃ g', (absorb f fs)[i]? = some g' ∧ g.KeptIn g' := by
  -- By induction on the features: the place at which the report is absorbed moves along with `i`.
  induction fs generalizing i with
  | nil => simp at h
  | cons k fs ih =>
    unfold absorb
    split
    · cases i with
      | zero =>
        obtain rfl : k = g := by simpa using h
        exact ⟨k.merge f, rfl, keptIn_merge k f⟩
      | succ i => exact ⟨g, h, KeptIn.refl g⟩
    · cases i with
      | zero =>
        obtain rfl : k = g := by simpa using h
        exact ⟨k, rfl, KeptIn.refl k⟩
      | succ i => exact ih h

end Feature

namespace FeatureSet

variable {s t : FeatureSet} {fs : List Feature} {f g : Feature} {n : String}

/-! ## Section 2: A set by its names -/

theorem get?_of_mem (hg : g ∈ s.features) : s.get? g.name = some g :=
  Feature.find?_name_of_mem s.distinct hg

theorem reportsOf_features (s : FeatureSet) (n : String) :
    Feature.reportsOf n s.features = (s.get? n).toList :=
  Feature.reportsOf_of_distinct s.distinct n

theorem features_eq (s : FeatureSet) : s.features = s.names.filterMap s.get? := by
  have hget : s.features.filterMap (s.get? ∘ Feature.name) = s.features.filterMap some :=
    List.filterMap_congr fun g hg => get?_of_mem hg
  rw [names, List.filterMap_map, hget, List.filterMap_some]

/-- Two sets are the same if they have the same names in order and the same feature of each. -/
theorem ext_get? (hnames : s.names = t.names) (hget : ∀ n, s.get? n = t.get? n) : s = t := by
  have hfeatures : s.features = t.features := by
    rw [features_eq s, features_eq t, hnames, funext hget]
  cases s
  cases t
  cases hfeatures
  rfl

/-! ## Section 3: Merging -/

theorem get?_insert (s : FeatureSet) (f : Feature) (n : String) :
    (s.insert f).get? n =
      if f.name = n then Feature.ofReports? ((s.get? n).toList ++ [f]) else s.get? n := by
  unfold get? insert
  rw [Feature.find?_absorb]
  cases s.features.find? (·.name = n) <;> rfl

/-- **The feature of a name is what its reports make up**, the one in the set before all
    others. -/
theorem get?_merge (s : FeatureSet) (fs : List Feature) (n : String) :
    (s.merge fs).get? n = Feature.ofReports? ((s.get? n).toList ++ Feature.reportsOf n fs) := by
  induction fs generalizing s with
  | nil =>
    show s.get? n = Feature.ofReports? ((s.get? n).toList ++ [])
    cases s.get? n <;> rfl
  | cons f fs ih =>
    rw [merge_cons, ih, get?_insert, Feature.reportsOf, Feature.reportsOf]
    by_cases hf : f.name = n
    · rw [if_pos hf, List.filter_cons_of_pos (by simpa using hf),
        Feature.ofReports?_toList_append, List.append_assoc, List.singleton_append]
    · rw [if_neg hf, List.filter_cons_of_neg (by simpa using hf)]

theorem get?_ofFeatures (fs : List Feature) (n : String) :
    (ofFeatures fs).get? n = Feature.ofReports? (Feature.reportsOf n fs) :=
  get?_merge empty fs n

theorem madeUpOf_of_get?_merge (hg : (s.merge fs).get? n = some g) :
    g.MadeUpOf (Feature.reportsOf n (s.features ++ fs)) := by
  have hreports : (s.get? n).toList ++ Feature.reportsOf n fs =
      Feature.reportsOf n (s.features ++ fs) := by
    rw [Feature.reportsOf_append, reportsOf_features]
  rw [get?_merge, hreports] at hg
  exact Feature.madeUpOf_of_ofReports? hg fun f hf => (Feature.mem_reportsOf.1 hf).2

theorem madeUpOf_of_mem_ofFeatures (hg : g ∈ (ofFeatures fs).features) :
    g.MadeUpOf (Feature.reportsOf g.name fs) :=
  madeUpOf_of_get?_merge (s := empty) (get?_of_mem hg)

theorem kept_merge {i : Nat} (fs : List Feature) (h : s.features[i]? = some f) :
    ∃ g, (s.merge fs).features[i]? = some g ∧ f.KeptIn g := by
  induction fs generalizing s f with
  | nil => exact ⟨f, h, Feature.KeptIn.refl f⟩
  | cons k fs ih =>
    obtain ⟨f', hf', hkept⟩ := Feature.kept_absorb k h
    obtain ⟨g, hg, hkept'⟩ := ih (s := s.insert k) hf'
    exact ⟨g, hg, hkept.trans hkept'⟩

/-- **Merging by the reports of each name.**  The names of the set come first, then the new ones
    in the order of their first reports, each of them once.  The feature of a name says what its
    reports say, the one of the set first and then the others in order: in a field with one value
    the first value that is there; in a list what the first report lists and then what the later
    ones add, in order and each once; of the further details each name, in the order of first
    appearance, with the value that it had first.  Nothing in the set is removed, changed or
    moved. -/
theorem merge_made_of_reports (s : FeatureSet) (fs : List Feature) :
    (s.merge fs).names = orderedUnion s.names (fs.map Feature.name) ∧
    (s.merge fs).names.Nodup ∧
    (∀ g ∈ (s.merge fs).features,
      g.MadeUpOf (Feature.reportsOf g.name (s.features ++ fs))) ∧
    (∀ g ∈ (s.merge fs).features, g.keys =
      ((Feature.reportsOf g.name (s.features ++ fs)).flatMap Feature.keys).eraseDups) ∧
    ∀ (i : Nat) (f : Feature), s.features[i]? = some f →
      ∃ g, (s.merge fs).features[i]? = some g ∧ f.KeptIn g := by
  have hmade : ∀ g ∈ (s.merge fs).features,
      g.MadeUpOf (Feature.reportsOf g.name (s.features ++ fs)) :=
    fun g hg => madeUpOf_of_get?_merge (get?_of_mem hg)
  refine ⟨?_, (s.merge fs).distinct, hmade, ?_, fun i f h => kept_merge fs h⟩
  · rw [names_merge, foldl_pushUnique_eq_unionBy, unionBy_id]
  · intro g hg
    exact (hmade g hg).keys.trans (Feature.listed_eq_eraseDups fun r _ => r.nodup_keys)

/-- Ruby is in the set when two more reports of it come in, with a report of Go before them. -/
theorem merge_made_of_reports_ruby :
    let ruby : Feature :=
      { name := "Ruby", categories := ["Language"], engines := ["lang"],
        detail := .ofMembers [("source", .text "Gemfile")] }
    let reports : List Feature := [
      { name := "Go" },
      { name := "Ruby", version := some "3.2", categories := ["Script", "Language", "Script"],
        detail := .ofMembers [("source", .text ".ruby-version"), ("patch", .null)] },
      { name := "Ruby", version := some "3.3", cpe := some "cpe:ruby", engines := ["bundler"] }]
    let s := (ofFeatures [ruby]).merge reports
    s.names = ["Ruby", "Go"] ∧ ∃ g ∈ s.features, g.name = "Ruby" ∧
      g.version = some "3.2" ∧ g.cpe = some "cpe:ruby" ∧
      g.categories = ["Language", "Script"] ∧ g.engines = ["lang", "bundler"] ∧
      g.keys = ["source", "patch"] ∧ g.value? "source" = some (.text "Gemfile") := by
  intro ruby reports s
  obtain ⟨hnames, -, hmade, hkeys, hkept⟩ := merge_made_of_reports (ofFeatures [ruby]) reports
  -- The feature that was first is still the first one.
  obtain ⟨g, hg, hruby⟩ := hkept 0 ruby rfl
  have hmem : g ∈ s.features := List.mem_of_getElem? hg
  have hname : g.name = "Ruby" := hruby.name
  have hmade := hmade g hmem
  have hkeys := hkeys g hmem
  rw [hname] at hmade hkeys
  refine ⟨hnames.trans (by decide), g, hmem, hname, hmade.version.trans (by decide),
    hmade.cpe.trans (by decide), hmade.categories.trans (by decide),
    hmade.engines.trans (by decide), hkeys.trans (by decide),
    (hmade.values "source").trans (by rfl)⟩

/-! ## Section 4: Repetitions -/

/-- **A feature lists something twice just if the first report of its name does**, since later
    reports only add what is not there. -/
theorem exists_first_report (hg : g ∈ (ofFeatures fs).features) :
    ∃ first, fs.find? (·.name = g.name) = some first ∧
      (g.categories.Nodup ↔ first.categories.Nodup) ∧
      (g.engines.Nodup ↔ first.engines.Nodup) := by
  have hmade := madeUpOf_of_mem_ofFeatures hg
  rcases hreports : Feature.reportsOf g.name fs with _ | ⟨first, later⟩
  -- A name without reports has no feature.
  · have hnone := get?_of_mem hg
    rw [get?_ofFeatures, hreports] at hnone
    cases hnone
  · rw [hreports] at hmade
    refine ⟨first, ?_, ?_, ?_⟩
    · rw [← List.head?_filter]
      exact congrArg List.head? hreports
    · rw [hmade.categories]
      exact Feature.nodup_listed_cons_iff
    · rw [hmade.engines]
      exact Feature.nodup_listed_cons_iff

/-! ## Section 5: Engines -/

/-- A feature of a merged set names an engine only if one of the set did or if a report does. -/
theorem mem_engines_merge (hg : g ∈ (s.merge fs).features) (hn : n ∈ g.engines) :
    (∃ g ∈ s.features, n ∈ g.engines) ∨ ∃ f ∈ fs, n ∈ f.engines := by
  have hmade := madeUpOf_of_get?_merge (get?_of_mem hg)
  rw [hmade.engines, Feature.mem_listed] at hn
  obtain ⟨f, hf, hn⟩ := hn
  obtain ⟨hf, -⟩ := Feature.mem_reportsOf.1 hf
  rcases List.mem_append.1 hf with hs | hfs
  · exact .inl ⟨f, hs, hn⟩
  · exact .inr ⟨f, hfs, hn⟩

/-- **A feature names the engines of its reports**, each of them once and in the order of the
    first reports, if each report names one engine. -/
theorem engines_ofFeatures (hfs : ∀ f ∈ fs, ∃ owner, f.engines = [owner])
    (hg : g ∈ (ofFeatures fs).features) :
    g.engines = ((fs.filter (·.name = g.name)).flatMap Feature.engines).eraseDups := by
  have hdistinct : ∀ f ∈ Feature.reportsOf g.name fs, f.engines.Nodup := fun f hf => by
    obtain ⟨owner, howner⟩ := hfs f (Feature.mem_reportsOf.1 hf).1
    simp [howner]
  have hmade := madeUpOf_of_mem_ofFeatures hg
  exact hmade.engines.trans (Feature.listed_eq_eraseDups hdistinct)

end FeatureSet
end StackSurvey
