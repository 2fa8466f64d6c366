import StackSurvey.Proofs.Feature.Merged

/-! # The order of reporters

    Whoever reports first takes precedence.  If two lists of reports change places, the features
    of the set are the same and so are their categories, engines and further details, but for
    their order.  A field with one value has one in both cases or in neither, and it has another
    one only where either list has a value of its own for it (`Tied`, `precedence_breaks_ties`). -/

namespace StackSurvey

namespace Feature

variable {α : Type} {field : Feature → Option α} {as bs : List Feature} {f g : Feature}
  {n : String}

/-! ## Section 1: Two lists that change places -/

/-- What two lists of reports say of a field in either order: nothing in both cases or something
    in both, and something else only if either list has a value of its own. -/
structure Tied (field : Feature → Option α) (as bs : List Feature) (f g : Feature) : Prop where
  isSome : (field f).isSome = (field g).isSome
  tie : field f ≠ field g → ∃ v w, v ≠ w ∧ field f = some v ∧ field g = some w ∧
    (∃ a ∈ as, a.name = f.name ∧ field a = some v) ∧ ∃ b ∈ bs, b.name = f.name ∧ field b = some w

theorem exists_of_findSome?_reportsOf {v : α} (h : (reportsOf n as).findSome? field = some v) :
    ∃ a ∈ as, a.name = n ∧ field a = some v := by
  obtain ⟨a, ha, hv⟩ := List.exists_of_findSome?_eq_some h
  obtain ⟨ha, hname⟩ := mem_reportsOf.1 ha
  exact ⟨a, ha, hname, hv⟩

theorem tied_of_findSome? (hname : f.name = n)
    (hf : field f = (reportsOf n (as ++ bs)).findSome? field)
    (hg : field g = (reportsOf n (bs ++ as)).findSome? field) : Tied field as bs f g := by
  rw [reportsOf_append, List.findSome?_append] at hf hg
  rcases has : (reportsOf n as).findSome? field with _ | v <;>
    rcases hbs : (reportsOf n bs).findSome? field with _ | w <;>
    rw [has, hbs] at hf hg
  -- A field that at most one of the lists has a value for has the same value in both orders.
  · exact ⟨by rw [hf, hg], fun hne => absurd (hf.trans hg.symm) hne⟩
  · exact ⟨by rw [hf, hg]; rfl, fun hne => absurd (hf.trans hg.symm) hne⟩
  · exact ⟨by rw [hf, hg]; rfl, fun hne => absurd (hf.trans hg.symm) hne⟩
  · refine ⟨by rw [hf, hg]; rfl, fun hne => ⟨v, w, ?_, hf, hg, ?_, ?_⟩⟩
    · rintro rfl
      exact hne (hf.trans hg.symm)
    · rw [hname]
      exact exists_of_findSome?_reportsOf has
    · rw [hname]
      exact exists_of_findSome?_reportsOf hbs

theorem mem_listed_append_comm {field : Feature → List String} {x : String} :
    x ∈ listed field (reportsOf n (as ++ bs)) ↔ x ∈ listed field (reportsOf n (bs ++ as)) := by
  rw [mem_listed, mem_listed, reportsOf_append, reportsOf_append]
  simp only [List.mem_append, or_comm]

/-- Two features that differ in the order of what they list, and where the lists of reports that
    they come from compete for a field with one value. -/
structure UpToTies (as bs : List Feature) (f g : Feature) : Prop where
  name : f.name = g.name
  categories : ∀ c, c ∈ f.categories ↔ c ∈ g.categories
  engines : ∀ e, e ∈ f.engines ↔ e ∈ g.engines
  keys : ∀ k, k ∈ f.keys ↔ k ∈ g.keys
  version : Tied Feature.version as bs f g
  description : Tied Feature.description as bs f g
  cpe : Tied Feature.cpe as bs f g
  values : ∀ key, Tied (value? key) as bs f g

theorem MadeUpOf.upToTies (hfname : f.name = n) (hgname : g.name = n)
    (hf : f.MadeUpOf (reportsOf n (as ++ bs))) (hg : g.MadeUpOf (reportsOf n (bs ++ as))) :
    UpToTies as bs f g where
  name := hfname.trans hgname.symm
  categories c := by rw [hf.categories, hg.categories, mem_listed_append_comm]
  engines e := by rw [hf.engines, hg.engines, mem_listed_append_comm]
  keys k := by rw [hf.keys, hg.keys, mem_listed_append_comm]
  version := tied_of_findSome? hfname hf.version hg.version
  description := tied_of_findSome? hfname hf.description hg.description
  cpe := tied_of_findSome? hfname hf.cpe hg.cpe
  values key := tied_of_findSome? hfname (hf.values key) (hg.values key)

end Feature

namespace FeatureSet

/-! ## Section 2: Sets -/

theorem mem_names_ofFeatures {fs : List Feature} {n : String} :
    n ∈ (ofFeatures fs).names ↔ ∃ f ∈ fs, f.name = n := by
  rw [ofFeatures, mem_names_merge]
  simp

/-- **The order of reporters only affects order and ties.**  Whichever of two lists of reports
    comes first, the same names are found, and the two features of a name are the same up to the
    order of what they list and to values for which the lists compete. -/
theorem precedence_breaks_ties (as bs : List Feature) :
    (∀ n, n ∈ (ofFeatures (as ++ bs)).names ↔ n ∈ (ofFeatures (bs ++ as)).names) ∧
    ∀ f ∈ (ofFeatures (as ++ bs)).features, ∀ g ∈ (ofFeatures (bs ++ as)).features,
      f.name = g.name → f.UpToTies as bs g := by
  refine ⟨fun n => ?_, fun f hf g hg hname => ?_⟩
  · rw [mem_names_ofFeatures, mem_names_ofFeatures]
    simp only [List.mem_append, or_comm]
  · have hfmade : f.MadeUpOf (Feature.reportsOf f.name (as ++ bs)) :=
      madeUpOf_of_mem_ofFeatures hf
    have hgmade : g.MadeUpOf (Feature.reportsOf f.name (bs ++ as)) := by
      rw [hname]
      exact madeUpOf_of_mem_ofFeatures hg
    exact hfmade.upToTies rfl hname.symm hgmade

/-- Two engines disagree on the version of Ruby, and one of them knows more about it. -/
theorem precedence_breaks_ties_of_versions :
    let as : List Feature := [
      { name := "Ruby", version := some "3.2", categories := ["Language"], engines := ["lang"] }]
    let bs : List Feature := [
      { name := "Go" },
      { name := "Ruby", version := some "3.3", cpe := some "cpe:ruby", categories := ["Script"] }]
    ∃ f ∈ (ofFeatures (as ++ bs)).features, ∃ g ∈ (ofFeatures (bs ++ as)).features,
      f.name = g.name ∧ f.version = some "3.2" ∧ g.version = some "3.3" ∧ f.UpToTies as bs g := by
  intro as bs
  have hf : (ofFeatures (as ++ bs)).features[0]?.map (fun f => (f.name, f.version)) =
      some ("Ruby", some "3.2") := by decide
  have hg : (ofFeatures (bs ++ as)).features[1]?.map (fun g => (g.name, g.version)) =
      some ("Ruby", some "3.3") := by decide
  -- Either order leads to one feature of that name, at another place.
  obtain ⟨f, hf, hfruby⟩ := Option.map_eq_some_iff.1 hf
  obtain ⟨g, hg, hgruby⟩ := Option.map_eq_some_iff.1 hg
  obtain ⟨hfname, hfversion⟩ := Prod.mk.inj hfruby
  obtain ⟨hgname, hgversion⟩ := Prod.mk.inj hgruby
  have hname : f.name = g.name := hfname.trans hgname.symm
  have hfmem := List.mem_of_getElem? hf
  have hgmem := List.mem_of_getElem? hg
  exact ⟨f, hfmem, g, hgmem, hname, hfversion, hgversion,
    (precedence_breaks_ties as bs).2 f hfmem g hgmem hname⟩

end FeatureSet
end StackSurvey
