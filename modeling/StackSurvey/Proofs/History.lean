import StackSurvey.History
import StackSurvey.Proofs.Feature.Merged

/-! # What a history knows

    Ascending lists of names are used as sets, so all that matters about them is what they
    contain.  The engines known to have run are those recorded and those that features name, and
    the rules of an engine are fulfilled if everything they ask for is there. -/

namespace StackSurvey

theorem mem_foldl_insertName {name : String} {names acc : List String} :
    name ∈ names.foldl (fun acc n => insertName n acc) acc ↔ name ∈ names ∨ name ∈ acc := by
  induction names generalizing acc with
  | nil => simp
  | cons n rest ih =>
    rw [List.foldl_cons, ih, mem_insertName, List.mem_cons]
    constructor
    · rintro (h | h | h)
      · exact .inl (.inr h)
      · exact .inl (.inl h)
      · exact .inr h
    · rintro ((h | h) | h)
      · exact .inr (.inl h)
      · exact .inl h
      · exact .inr (.inr h)

@[simp] theorem mem_sortedNames {name : String} {names : List String} :
    name ∈ sortedNames names ↔ name ∈ names := by
  unfold sortedNames
  rw [mem_foldl_insertName]
  simp

namespace RunHistory

theorem mem_enginesRun {h : RunHistory} {name : String} :
    name ∈ h.enginesRun ↔
      (∃ f ∈ h.features.features, name ∈ f.engines) ∨ name ∈ h.executed := by
  unfold enginesRun
  rw [mem_foldl_insertName, List.mem_flatMap]

/-- Features name only engines that are recorded too. -/
def Attributed (h : RunHistory) : Prop :=
  ∀ f ∈ h.features.features, ∀ n ∈ f.engines, n ∈ h.executed

/-- Names in features then add nothing to the engines known to have run. -/
theorem Attributed.mem_enginesRun {h : RunHistory} (ha : h.Attributed) {name : String} :
    name ∈ h.enginesRun ↔ name ∈ h.executed := by
  rw [RunHistory.mem_enginesRun]
  constructor
  · rintro (⟨f, hf, hn⟩ | hn)
    · exact ha f hf name hn
    · exact hn
  · exact .inr

/-- Recording an engine together with features that name no other engine keeps it so. -/
theorem Attributed.finish {h : RunHistory} (ha : h.Attributed) {name : String} {fs : List Feature}
    (hfs : ∀ f ∈ fs, f.engines = [name]) : ((h.record name).merge fs).Attributed := by
  intro f hf n hn
  simp only [merge, record, mem_insertName] at hf ⊢
  -- A name that a feature carries was there before, or is the one that is recorded now.
  rcases FeatureSet.mem_engines_merge hf hn with ⟨g, hg, hng⟩ | ⟨g, hg, hng⟩
  · exact .inr (ha g hg n hng)
  · rw [hfs g hg] at hng
    exact .inl (List.mem_singleton.1 hng)

end RunHistory

/-- The rules are fulfilled if all engines and features they ask for are there. -/
theorem RunRules.satisfiedBy_iff {r : RunRules} {h : RunHistory} :
    r.satisfiedBy h = true ↔
      (∀ n ∈ r.engines, n ∈ h.enginesRun) ∧ ∀ n ∈ r.features, n ∈ h.features.names := by
  unfold satisfiedBy isEmpty
  simp only [Bool.or_eq_true, Bool.and_eq_true, List.isEmpty_iff, List.all_eq_true,
    List.contains_iff_mem]
  -- Without rules all that they ask for is there.
  constructor
  · rintro (⟨he, hf⟩ | h)
    · simp [he, hf]
    · exact h
  · exact .inr

end StackSurvey
