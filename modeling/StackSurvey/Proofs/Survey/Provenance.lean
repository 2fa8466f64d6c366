import StackSurvey.Proofs.Survey.Protocol

/-! # Where features come from

    Every finding that reaches a reporter was passed on by the engine that was run last.  So the
    calls of a reporter tell who has passed on what (`passes`), and the features of a survey name
    exactly the engines that have done so, whatever their documents say of engines
    (`provenance`). -/

namespace StackSurvey

open Container (Runtime Spec)
open Report (Call Notice Reporter)

variable {ρ φ : Type}

namespace Survey

/-! ## Section 1: Passing on -/

/-- A feature together with the engine that has passed it on. -/
structure Pass where
  engine : Engine
  feature : Feature

/-- What is passed on in the course of calls, while `running` has been run last. -/
def passes (running : Option Engine) : List Call → List Pass
  | [] => []
  | .told (.running e) _ :: rest => passes (some e) rest
  | .wrote x _ :: rest =>
    (running.toList.flatMap fun e => x.feature?.toList.map fun f => ⟨e, f⟩) ++ passes running rest
  | _ :: rest => passes running rest

variable {o : EngineOptions} {e : Engine} {engines : List Engine} {steps : List Step}

/-- What an engine utters is passed on by the engine. -/
theorem passes_said {said : List Call} (hsaid : ∀ c ∈ said, e.Utters c) (rest : List Call) :
    passes (some e) (said ++ rest) =
      (said.filterMap Call.feature?).map (⟨e, ·⟩) ++ passes (some e) rest := by
  -- By induction on the calls; as long as none of them is a notice the same engine is running.
  induction said with
  | nil => rfl
  | cons c said ih =>
    have hrest := ih fun c hc => hsaid c (List.mem_cons_of_mem _ hc)
    have hc := hsaid c List.mem_cons_self
    cases c with
    | told _ _ => exact hc.elim
    | closed => exact hc.elim
    | failed message => exact hrest
    | wrote x more =>
      rw [List.cons_append, passes, hrest, ← List.append_assoc]
      cases hx : x.feature? <;> simp [Call.feature?, hx]

/-- A feature that an engine utters is one that it reports. -/
theorem reports_of_utters {c : Call} (hc : e.Utters c) {f : Feature} (hf : c.feature? = some f) :
    e.Reports f := by
  cases c with
  | told _ _ => exact hc.elim
  | closed => exact hc.elim
  | failed _ => exact nomatch hf
  | wrote x more =>
    obtain ⟨document, hv⟩ := hc
    obtain ⟨k, rfl, -⟩ := Engine.verdict_reported hv
    obtain rfl := Option.some.inj hf
    exact ⟨document, hv⟩

/-! ## Section 2: Along the grammar -/

/-- The passes are those of steps: each feature that the steps pass on comes from one of the
    engines, which has reported it. -/
structure Passing (engines : List Engine) (steps : List Step) (ps : List Pass) : Prop where
  features : ps.map Pass.feature = passedOn steps
  owner : ∀ p ∈ ps, p.engine ∈ engines ∧ p.engine.Reports p.feature

theorem Passing.append {xs ys : List Step} {ps qs : List Pass} (hps : Passing [e] xs ps)
    (hqs : Passing engines ys qs) : Passing (e :: engines) (xs ++ ys) (ps ++ qs) where
  features := by rw [List.map_append, hps.features, hqs.features, passedOn_append]
  owner := by
    intro p hp
    rcases List.mem_append.1 hp with hp | hp
    · obtain ⟨hengine, hreports⟩ := hps.owner p hp
      exact ⟨List.mem_singleton.1 hengine ▸ List.mem_cons_self, hreports⟩
    · obtain ⟨hengine, hreports⟩ := hqs.owner p hp
      exact ⟨List.mem_cons_of_mem e hengine, hreports⟩

/-- A turn that ends well passes on what its engine has reported. -/
theorem Turn.passes {result : Except SurveyFailure Unit} (h : Turn o e result steps)
    (hok : result = .ok ()) (running : Option Engine) (rest : List Call) :
    ∃ ps running', Survey.passes running (calls steps ++ rest) = ps ++ Survey.passes running' rest ∧
      Passing [e] steps ps := by
  cases h with
  | skipped reply => exact ⟨[], running, rfl, rfl, nofun⟩
  | refused _ => exact nomatch hok
  | unstaged _ => exact nomatch hok
  | failed _ _ _ => exact nomatch hok
  | @ended outcome reply st said hsaid =>
    refine ⟨(said.filterMap Call.feature?).map (⟨e, ·⟩), some e, ?_, ?_, ?_⟩
    · -- The notice at the start names the engine, and that at the end passes nothing on.
      simp only [calls_cons_call, calls_cons_launch, calls_append, calls_map_call, calls_nil,
        List.cons_append, List.append_assoc]
      exact passes_said hsaid _
    · simp [passedOn, List.filterMap_cons, Function.comp_def]
    · intro p hp
      obtain ⟨f, hf, rfl⟩ := List.mem_map.1 hp
      obtain ⟨c, hc, hcf⟩ := List.mem_filterMap.1 hf
      exact ⟨List.mem_singleton_self e, reports_of_utters (hsaid c hc) hcf⟩

/-- Turns that end well pass on what the engines have reported. -/
theorem Turns.passes {result : Except SurveyFailure Unit} (h : Turns o engines result steps)
    (hok : result = .ok ()) (running : Option Engine) (rest : List Call) :
    ∃ ps running', Survey.passes running (calls steps ++ rest) = ps ++ Survey.passes running' rest ∧
      Passing engines steps ps := by
  induction h generalizing running with
  | done => exact ⟨[], running, rfl, rfl, nofun⟩
  | cut _ _ => exact nomatch hok
  | @next e engines result steps more hturn _ ih =>
    -- The first turn starts with what was run before it, the others with what it leaves.
    obtain ⟨ps, running₁, hps, hfirst⟩ := hturn.passes rfl running (calls more ++ rest)
    obtain ⟨qs, running₂, hqs, hothers⟩ := ih hok running₁
    refine ⟨ps ++ qs, running₂, ?_, hfirst.append hothers⟩
    rw [calls_append, List.append_assoc, hps, hqs, List.append_assoc]

/-- **A survey that ends well passes on what its engines have reported.** -/
theorem Protocol.passes {result : Except SurveyFailure FeatureSet}
    (h : Protocol o engines result steps) {features : FeatureSet} (hok : result = .ok features) :
    Passing engines steps (Survey.passes none (calls steps)) := by
  cases h with
  | empty => exact nomatch hok
  | refused _ _ => exact nomatch hok
  | cut _ => exact nomatch hok
  | @whole _ turns _ hturns all reply =>
    obtain ⟨ps, running, hps, hfeatures, howner⟩ :=
      hturns.passes rfl none [.told (.finished all) reply, .closed]
    -- What is told before the first engine and after the last one passes nothing on.
    have hall : Survey.passes none (calls (.call (.told .started (.ok ())) ::
        (turns ++ [.call (.told (.finished all) reply), .call .closed]))) = ps := by
      rw [calls_cons_call, calls_append]
      exact hps.trans (List.append_nil ps)
    rw [hall]
    refine ⟨?_, howner⟩
    rw [hfeatures]
    simp [passedOn, List.filterMap_cons]

/-! ## Section 3: Provenance -/

/-- The owners of reports of one name, each report naming its owner. -/
theorem flatMap_engines_filter {ps : List Pass} (hps : ∀ p ∈ ps, p.engine.Reports p.feature)
    (n : String) :
    ((ps.map Pass.feature).filter (·.name = n)).flatMap Feature.engines =
      (ps.filter (·.feature.name = n)).map (·.engine.name) := by
  -- By induction on the passes, each of which names one engine.
  induction ps with
  | nil => rfl
  | cons p ps ih =>
    have hp := (hps p List.mem_cons_self).engines
    have hrest := ih fun p hp => hps p (List.mem_cons_of_mem _ hp)
    rw [List.map_cons]
    by_cases hn : p.feature.name = n
    · rw [List.filter_cons_of_pos (by simpa using hn), List.filter_cons_of_pos (by simpa using hn),
        List.flatMap_cons, List.map_cons, hrest, hp]
      rfl
    · rw [List.filter_cons_of_neg (by simpa using hn), List.filter_cons_of_neg (by simpa using hn),
        hrest]

/-- **Provenance.**  The features of a survey that ends well are those that engines have passed
    on, in the order of the first passes.  Each of them names exactly the engines that have passed
    on a feature of its name, once each and in the order in which they first did so, whatever the
    documents of the engines say. -/
theorem provenance {rt : Runtime ρ} (hrt : rt.Honest) (reporter : Reporter φ) (o : EngineOptions)
    (p : Plan) (w : World ρ) (report : φ) {features : FeatureSet} {w' : World ρ}
    {calls : List Call} {report' : φ}
    (hrun : run rt reporter.recorded o p w ([], report) = (.ok features, w', calls, report')) :
    let ps := passes none calls
    (∀ p' ∈ ps, p'.engine ∈ p.engines ∧ p'.engine.Reports p'.feature) ∧
      features.names = (ps.map (·.feature.name)).eraseDups ∧
      ∀ f ∈ features.features,
        f.engines = ((ps.filter (·.feature.name = f.name)).map (·.engine.name)).eraseDups := by
  intro ps
  -- Notes of the launches are taken along, starting with none.
  let noting : World (List Spec × ρ) := w.mapRuntime fun r => ([], r)
  have hplain := run_noted rt reporter.recorded o p noting ([], report)
  obtain ⟨steps, hprotocol, hshows, hfeatures⟩ := run_steps hrt reporter o p noting [] report
  rcases hnoted : run rt.noted reporter.recorded o p noting ([], report) with
    ⟨result, w₁, calls₁, report₁⟩
  rw [hnoted] at hplain hprotocol hshows hfeatures
  have hw : noting.unnoted = w := rfl
  rw [hw, hrun] at hplain
  simp only [Prod.mk.injEq] at hplain
  obtain ⟨rfl, -, rfl, -⟩ := hplain
  obtain rfl : calls = Survey.calls steps := hshows.calls
  obtain rfl : features = .ofFeatures (passedOn steps) := hfeatures features rfl
  obtain ⟨hpassed, howner⟩ := hprotocol.passes rfl
  have hreports : ∀ p' ∈ ps, p'.engine.Reports p'.feature := fun p' hp' => (howner p' hp').2
  refine ⟨howner, ?_, ?_⟩
  · rw [FeatureSet.names_ofFeatures, ← hpassed, List.map_map]
    rfl
  · intro f hf
    have hone : ∀ f ∈ passedOn steps, ∃ owner, f.engines = [owner] := by
      intro f hf
      rw [← hpassed] at hf
      obtain ⟨p', hp', rfl⟩ := List.mem_map.1 hf
      exact ⟨p'.engine.name, (hreports p' hp').engines⟩
    rw [FeatureSet.engines_ofFeatures hone hf, ← hpassed, flatMap_engines_filter hreports]

/-- Two engines report one feature and say that a third one has: the feature names the two. -/
theorem provenance_forged :
    let o := Sample.options
    let scan := Sample.scan
    let lint := Sample.lint
    let script : Container.Script :=
      { frames :=
          [Utf8.encode "\x7b\"type\":\"feature\",\"name\":\"Git\",\"engines\":[\"none\"]\x7d"] }
    let w := Sample.world (Sample.rehearsal [("a", script), ("b", script)])
    ∃ (p : Plan) (features : FeatureSet), p.engines = [scan, lint] ∧
      (run Container.Rehearsal.runtime Reporter.silent.recorded o p w ([], ())).1 = .ok features ∧
      features.names = ["Git"] ∧ ∀ f ∈ features.features, f.engines = ["scan", "lint"] := by
  intro o scan lint script w
  let p : Plan := ⟨[scan, lint], by decide +kernel⟩
  have hpasses :
      let r := run Container.Rehearsal.runtime Reporter.silent.recorded o p w ([], ())
      r.1.toOption.isSome = true ∧
        (passes none r.2.2.1).map (fun p => (p.feature.name, p.engine.name)) =
          [("Git", "scan"), ("Git", "lint")] := by
    decide +kernel
  rcases hrun : run Container.Rehearsal.runtime Reporter.silent.recorded o p w ([], ()) with
    ⟨failure | features, w', calls, report'⟩ <;> rw [hrun] at hpasses
  · exact nomatch hpasses.1
  obtain ⟨-, hnames, hengines⟩ :=
    provenance Container.Rehearsal.honest Reporter.silent o p w () hrun
  obtain ⟨-, hpasses⟩ := hpasses
  have hgit : features.names = ["Git"] := by
    have hall : (passes none calls).map (·.feature.name) = ["Git", "Git"] := by
      simpa [Function.comp_def] using congrArg (List.map Prod.fst) hpasses
    rw [hnames, hall]
    decide
  refine ⟨p, features, rfl, congrArg Prod.fst hrun, hgit, fun f hf => ?_⟩
  have hname : f.name = "Git" := by
    have hmem : f.name ∈ features.names := List.mem_map_of_mem hf
    rw [hgit] at hmem
    exact List.mem_singleton.1 hmem
  -- The name that the documents claim is nowhere among the owners.
  have howners : ((passes none calls).filter (·.feature.name = "Git")).map (·.engine.name) =
      ["scan", "lint"] := by
    have hboth := congrArg (fun l => (l.filter (·.1 = "Git")).map Prod.snd) hpasses
    simpa [List.filter_map, Function.comp_def] using hboth
  rw [hengines f hf, hname, howners]
  decide

end Survey
end StackSurvey
