import StackSurvey.Proofs.Finding.Format
import StackSurvey.Proofs.Survey.Protocol

/-! # Repetitions in what features list

    A feature lists its categories and the engines that have reported it.  Later reports of a
    feature add to both lists only what is not there, and the engine of a document is named by
    the survey, so no engine comes twice.  But the first report of a name is taken as it is: a
    category that its document lists twice comes twice in the result.

    * `Protocol.wrote`: whatever is written to a reporter is a valid document of an engine.
    * `run_written`: these documents make up the features of a survey that ends well.
    * `lists_are_sets_iff`: all lists are without repetitions just if, for each name, the first
      document that reports it lists no category twice. -/

namespace StackSurvey

open Container (Runtime)
open Report (Call Reporter)

variable {ρ φ : Type}

/-! ## Section 1: Documents and their categories -/

namespace Finding

variable {x : Finding} {cs ds : List String}

/-- Does the document report a feature of that name? -/
def isOf (n : String) (x : Finding) : Bool := x.feature?.any (·.name = n)

theorem isOf_iff {n : String} : x.isOf n = true ↔ ∃ f, x.feature? = some f ∧ f.name = n := by
  unfold isOf
  cases x.feature? <;> simp

def ListsCategories (x : Finding) (cs : List String) : Prop :=
  ∃ members, Holds x.raw members ∧ Form.Texts (Dictionary.get? "categories" members) cs

theorem ListsCategories.unique (h : x.ListsCategories cs) (h' : x.ListsCategories ds) :
    cs = ds := by
  obtain ⟨members, hholds, hcs⟩ := h
  obtain ⟨members', hholds', hds⟩ := h'
  obtain rfl := hholds.unique hholds'
  exact (Form.given_texts.2 hcs).unique (Form.given_texts.2 hds)

/-- A feature has the categories that its document lists, with their repetitions. -/
theorem listsCategories_of_featureOf {f : Feature} (h : featureOf x.raw = .ok f) :
    x.ListsCategories f.categories := by
  obtain ⟨members, hholds, hdescribes⟩ := featureOf_eq_ok.1 h
  obtain ⟨engines, hread⟩ := hdescribes.readFrom
  exact ⟨members, hholds, hread.categories⟩

end Finding

/-- A valid document of an engine reports a feature of the engine with the categories that the
    document lists. -/
theorem Engine.feature_of_verdict {e : Engine} {x : Finding} (h : e.verdict x.raw = .reported x) :
    ∃ f, x.feature? = some f ∧ x.ListsCategories f.categories ∧ f.engines = [e.name] := by
  obtain ⟨f, hx, hf, -⟩ := verdict_reported h
  have hlists : x.ListsCategories f.categories := Finding.listsCategories_of_featureOf hf
  have hfeature : x.feature? = some (f.withEngine e.name) := by rw [hx]; rfl
  have hreports : e.Reports (f.withEngine e.name) := ⟨x.raw, hx ▸ h⟩
  exact ⟨f.withEngine e.name, hfeature, hlists, hreports.engines⟩

/-! ## Section 2: What is written -/

def Report.Call.finding? : Call → Option Finding
  | .wrote x _ => some x
  | .told _ _ | .failed _ | .closed => none

namespace Survey

/-- The documents written in the course of calls, in order. -/
def written (calls : List Call) : List Finding := calls.filterMap Call.finding?

theorem mem_written {x : Finding} {cs : List Call} (hx : x ∈ written cs) :
    ∃ more, .wrote x more ∈ cs := by
  obtain ⟨c, hc, hfinding⟩ := List.mem_filterMap.1 hx
  cases c with
  | wrote y more =>
    obtain rfl := Option.some.inj hfinding
    exact ⟨more, hc⟩
  | _ => cases hfinding

/-- The features that steps pass on are those of the documents written. -/
theorem passedOn_eq (steps : List Step) :
    passedOn steps = (written (calls steps)).filterMap Finding.feature? := by
  rw [passedOn, written, List.filterMap_filterMap]
  refine List.filterMap_congr fun c _ => ?_
  cases c <;> rfl

section grammar

variable {o : EngineOptions} {e : Engine} {engines : List Engine} {steps : List Step}
  {x : Finding} {more : Bool}

theorem Turn.wrote {result : Except SurveyFailure Unit} (h : Turn o e result steps)
    (hx : .wrote x more ∈ calls steps) : e.verdict x.raw = .reported x := by
  have hsaid : e.Utters (.wrote x more) := by
    -- Only a turn in which the engine was run can have passed anything on.
    cases h with
    | skipped reply => simp at hx
    | refused reason => simp at hx
    | unstaged cause => simp at hx
    | failed failure st hsaid => exact hsaid _ (by simpa using hx)
    | ended outcome reply st hsaid => exact hsaid _ (by simpa using hx)
  obtain ⟨document, hverdict⟩ := hsaid
  obtain ⟨f, rfl, -⟩ := Engine.verdict_reported hverdict
  exact hverdict

theorem Turns.wrote {result : Except SurveyFailure Unit} (h : Turns o engines result steps)
    (hx : .wrote x more ∈ calls steps) : ∃ e ∈ engines, e.verdict x.raw = .reported x := by
  induction h with
  | done => simp at hx
  | @cut e _ _ rest hturn => exact ⟨e, List.mem_cons_self, hturn.wrote hx⟩
  | @next e _ _ _ _ hturn _ ih =>
    rw [calls_append, List.mem_append] at hx
    rcases hx with hx | hx
    · exact ⟨e, List.mem_cons_self, hturn.wrote hx⟩
    · obtain ⟨e', he', hverdict⟩ := ih hx
      exact ⟨e', List.mem_cons_of_mem e he', hverdict⟩

/-- **Whatever is written is a valid document of an engine of the survey.** -/
theorem Protocol.wrote {result : Except SurveyFailure FeatureSet}
    (h : Protocol o engines result steps) (hx : .wrote x more ∈ calls steps) :
    ∃ e ∈ engines, e.verdict x.raw = .reported x := by
  cases h with
  | empty => simp at hx
  | refused _ _ => simp at hx
  | cut hturns => exact hturns.wrote (by simpa using hx)
  | whole _ hturns features reply => exact hturns.wrote (by simpa using hx)

end grammar

/-- The documents written in a survey that ends well come from its engines and make up its
    features. -/
theorem run_written {rt : Runtime ρ} (hrt : rt.Honest) (reporter : Reporter φ) (o : EngineOptions)
    (p : Plan) (w : World ρ) (report : φ) {features : FeatureSet} {w' : World ρ}
    {calls : List Call} {report' : φ}
    (hrun : run rt reporter.recorded o p w ([], report) = (.ok features, w', calls, report')) :
    features = .ofFeatures ((written calls).filterMap Finding.feature?) ∧
      ∀ x ∈ written calls, ∃ e ∈ p.engines, e.verdict x.raw = .reported x := by
  -- The grammar is about runs whose launches are noted, which makes no other difference.
  have hplain := run_noted rt reporter.recorded o p (w.mapRuntime fun r => ([], r)) ([], report)
  obtain ⟨steps, hprotocol, hshows, hfeatures⟩ :=
    run_steps hrt reporter o p (w.mapRuntime fun r => ([], r)) [] report
  have hsame := hplain.symm.trans hrun
  simp only [Prod.mk.injEq] at hsame
  obtain ⟨hresult, -, htold⟩ := hsame
  have hsteps : calls = Survey.calls steps := (congrArg Prod.fst htold).symm.trans hshows.calls
  refine ⟨?_, ?_⟩
  · rw [hsteps, ← passedOn_eq]
    exact hfeatures features hresult
  · intro x hx
    obtain ⟨more, hmore⟩ := mem_written hx
    exact hprotocol.wrote (hsteps ▸ hmore)

/-! ## Section 3: Repetitions -/

section repetitions

variable {xs : List Finding} {engines : List Engine}
  (hxs : ∀ x ∈ xs, ∃ e ∈ engines, e.verdict x.raw = .reported x)
include hxs

/-- A feature that documents make up names each engine once, and it has a category twice just if
    the first document of its name lists one twice. -/
theorem exists_first_document {f : Feature}
    (hf : f ∈ (FeatureSet.ofFeatures (xs.filterMap Finding.feature?)).features) :
    f.engines.Nodup ∧ ∃ x cs, xs.find? (·.isOf f.name) = some x ∧ x.ListsCategories cs ∧
      (f.categories.Nodup ↔ cs.Nodup) := by
  -- The first report of the name came with a document, and that is the first document of it.
  obtain ⟨first, hfirst, hcategories, hengines⟩ := FeatureSet.exists_first_report hf
  rw [List.find?_filterMap, Option.bind_eq_some_iff] at hfirst
  obtain ⟨x, hx, hfeature⟩ := hfirst
  obtain ⟨e, -, hverdict⟩ := hxs x (List.mem_of_find?_eq_some hx)
  obtain ⟨g, hg, hlists, howner⟩ := Engine.feature_of_verdict hverdict
  obtain rfl : g = first := Option.some.inj (hg.symm.trans hfeature)
  refine ⟨?_, x, g.categories, hx, hlists, hcategories⟩
  rw [hengines, howner]
  exact List.nodup_singleton e.name

/-- All lists of the features are without repetitions just if the first documents of the names
    list no category twice. -/
theorem forall_nodup_iff :
    (∀ f ∈ (FeatureSet.ofFeatures (xs.filterMap Finding.feature?)).features,
        f.categories.Nodup ∧ f.engines.Nodup) ↔
      ∀ n x cs, xs.find? (·.isOf n) = some x → x.ListsCategories cs → cs.Nodup := by
  constructor
  · intro hall n x cs hx hcs
    -- The name that the document reports has a feature, whose first document it is.
    obtain ⟨g, hg, rfl⟩ := Finding.isOf_iff.1 (List.find?_some hx)
    have hmem : g ∈ xs.filterMap Finding.feature? :=
      List.mem_filterMap.2 ⟨x, List.mem_of_find?_eq_some hx, hg⟩
    have hname := FeatureSet.mem_names_merge (s := .empty).2 (.inr ⟨g, hmem, rfl⟩)
    obtain ⟨f, hf, hfname⟩ := List.mem_map.1 hname
    obtain ⟨-, y, ds, hy, hds, hiff⟩ := exists_first_document hxs hf
    rw [hfname, hx] at hy
    obtain rfl := Option.some.inj hy
    obtain rfl := hcs.unique hds
    exact hiff.1 (hall f hf).1
  · intro hfirst f hf
    obtain ⟨hengines, x, cs, hx, hcs, hiff⟩ := exists_first_document hxs hf
    exact ⟨hiff.2 (hfirst f.name x cs hx hcs), hengines⟩

end repetitions

/-- **When the lists of the result are sets.**  In a survey that ends well, the documents written
    are valid documents of its engines.  No feature names an engine twice, and a feature has a
    category twice just if the first document that reports its name lists one twice, whatever the
    documents after it list.  So all lists are without repetitions just if no first document of a
    name lists a category twice. -/
theorem lists_are_sets_iff {rt : Runtime ρ} (hrt : rt.Honest) (reporter : Reporter φ)
    (o : EngineOptions) (p : Plan) (w : World ρ) (report : φ) {features : FeatureSet}
    {w' : World ρ} {calls : List Call} {report' : φ}
    (hrun : run rt reporter.recorded o p w ([], report) = (.ok features, w', calls, report')) :
    let xs := written calls
    (∀ x ∈ xs, ∃ e ∈ p.engines, e.verdict x.raw = .reported x) ∧
      (∀ f ∈ features.features, f.engines.Nodup ∧
        ∃ x cs, xs.find? (·.isOf f.name) = some x ∧ x.ListsCategories cs ∧
          (f.categories.Nodup ↔ cs.Nodup)) ∧
      ((∀ f ∈ features.features, f.categories.Nodup ∧ f.engines.Nodup) ↔
        ∀ n x cs, xs.find? (·.isOf n) = some x → x.ListsCategories cs → cs.Nodup) := by
  intro xs
  obtain ⟨rfl, hxs⟩ := run_written hrt reporter o p w report hrun
  exact ⟨hxs, fun f hf => exists_first_document hxs hf, forall_nodup_iff hxs⟩

/-- The first document of a feature lists no category, and the second one lists one twice: the
    feature has it once. -/
theorem lists_are_sets_iff_second_document_repeats :
    let o := Sample.options
    let scan := Sample.scan
    let script : Container.Script :=
      { frames := [Utf8.encode (Sample.document "Go" ++ "\x00" ++
          "\x7b\"type\":\"feature\",\"name\":\"Go\",\"categories\":[\"cli\",\"cli\"]\x7d")] }
    let w := Sample.world (Sample.rehearsal [("a", script)])
    ∃ (p : Plan) (features : FeatureSet) (w' : World Container.Rehearsal) (calls : List Call),
      p.engines = [scan] ∧
      run Container.Rehearsal.runtime Reporter.silent.recorded o p w ([], ()) =
        (.ok features, w', calls, ()) ∧
      features.features.map Feature.categories = [["cli"]] ∧
      (∀ f ∈ features.features, f.engines.Nodup) ∧
      ∀ n x cs, (written calls).find? (·.isOf n) = some x → x.ListsCategories cs → cs.Nodup := by
  intro o scan script w
  let p : Plan := ⟨[scan], by decide +kernel⟩
  have hcategories :
      (run Container.Rehearsal.runtime Reporter.silent.recorded o p w ([], ())).1.toOption.map
        (fun features => features.features.map Feature.categories) = some [["cli"]] := by
    decide +kernel
  rcases hrun : run Container.Rehearsal.runtime Reporter.silent.recorded o p w ([], ()) with
    ⟨failure | features, w', calls, report'⟩ <;> rw [hrun] at hcategories
  · exact nomatch hcategories
  have hlisted : features.features.map Feature.categories = [["cli"]] :=
    Option.some.inj hcategories
  obtain ⟨-, hlists, hiff⟩ :=
    lists_are_sets_iff Container.Rehearsal.honest Reporter.silent o p w () hrun
  have hengines : ∀ f ∈ features.features, f.engines.Nodup := fun f hf => (hlists f hf).1
  refine ⟨p, features, w', calls, rfl, hrun, hlisted, hengines,
    hiff.1 fun f hf => ⟨?_, hengines f hf⟩⟩
  -- There is one feature, and its categories have been computed.
  have hmem : f.categories ∈ features.features.map Feature.categories := List.mem_map_of_mem hf
  rw [hlisted, List.mem_singleton] at hmem
  rw [hmem]
  exact List.nodup_singleton "cli"

/-- The same documents in the other order: the first one lists a category twice, and so does the
    result. -/
theorem first_document_repeats :
    let o := Sample.options
    let scan := Sample.scan
    let script : Container.Script :=
      { frames := [Utf8.encode
          ("\x7b\"type\":\"feature\",\"name\":\"Go\",\"categories\":[\"cli\",\"cli\"]\x7d\x00" ++
            Sample.document "Go")] }
    let w := Sample.world (Sample.rehearsal [("a", script)])
    ∃ (p : Plan) (features : FeatureSet), p.engines = [scan] ∧
      (run Container.Rehearsal.runtime Reporter.silent o p w ()).1 = .ok features ∧
      ∃ f ∈ features.features, f.categories = ["cli", "cli"] ∧ ¬ f.categories.Nodup := by
  intro o scan script w
  let p : Plan := ⟨[scan], by decide +kernel⟩
  have hcategories :
      (run Container.Rehearsal.runtime Reporter.silent o p w ()).1.toOption.map
        (fun features => features.features.map Feature.categories) = some [["cli", "cli"]] := by
    decide +kernel
  rcases hresult : (run Container.Rehearsal.runtime Reporter.silent o p w ()).1 with
    failure | features <;> rw [hresult] at hcategories
  · exact nomatch hcategories
  have hlisted : features.features.map Feature.categories = [["cli", "cli"]] :=
    Option.some.inj hcategories
  have hmem : ["cli", "cli"] ∈ features.features.map Feature.categories := by simp [hlisted]
  obtain ⟨f, hf, hcs⟩ := List.mem_map.1 hmem
  exact ⟨p, features, rfl, hresult, f, hf, hcs, by rw [hcs]; decide⟩

end Survey
end StackSurvey
