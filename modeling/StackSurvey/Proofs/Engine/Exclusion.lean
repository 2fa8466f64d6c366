import StackSurvey.Proofs.Engine.Hearing
import StackSurvey.Proofs.Finding.Surroundings

/-! # What a configuration leaves out

    The configuration of an engine is data of any shape.  It names features to leave out in two
    places, and what has another shape there neither names a feature nor hides a name
    (`excludes_ofConfig_iff`).  One more name in the list of excluded features (`ExcludesToo`)
    takes the findings of that name, and no others, from what is written
    (`written?_of_excludesToo`), so that two runs whose containers hand over the same chunks
    differ in nothing else for a sink that accepts all findings. -/

namespace StackSurvey

open Container (Runtime)

/-! ## Section 1: Names that are left out -/

namespace Filter

/-- The configuration has a check of that name, and the check is an object that says that it is
    not enabled. -/
def SwitchesOff (config : Json) (name : String) : Prop :=
  ∃ members checks check, config = .object members ∧
    Dictionary.get? "checks" members = some (.object checks) ∧ (name, .object check) ∈ checks ∧
    Dictionary.get? "enabled" check = some (.flag false)

/-- The name is in the configuration's list of excluded features. -/
def Lists (config : Json) (name : String) : Prop :=
  ∃ members names, config = .object members ∧
    Dictionary.get? "exclude_features" members = some (.list names) ∧ .text name ∈ names

theorem member?_eq_some_iff {key : String} {config value : Json} :
    config.member? key = some value ↔
      ∃ members, config = .object members ∧ Dictionary.get? key members = some value := by
  cases config <;> simp [Json.member?]

theorem mem_disabledChecks {config : Json} {name : String} :
    name ∈ disabledChecks config ↔ SwitchesOff config name := by
  unfold disabledChecks
  constructor
  · intro h
    -- A configuration without the member switches nothing off.
    split at h
    · next checks hchecks =>
      obtain ⟨members, rfl, hmembers⟩ := member?_eq_some_iff.1 hchecks
      obtain ⟨⟨key, check⟩, hentry, hname⟩ := List.mem_filterMap.1 h
      dsimp only at hname
      split at hname
      · next hdisabled =>
        obtain rfl := Option.some.inj hname
        obtain ⟨inner, rfl, hinner⟩ := member?_eq_some_iff.1 hdisabled
        exact ⟨members, checks, inner, rfl, hmembers, hentry, hinner⟩
      · cases hname
    · cases h
  · rintro ⟨members, checks, check, rfl, hmembers, hentry, hdisabled⟩
    simp only [Json.member?, hmembers]
    refine List.mem_filterMap.2 ⟨_, hentry, ?_⟩
    simp only [hdisabled]

theorem mem_excludedNames {config : Json} {name : String} :
    name ∈ excludedNames config ↔ Lists config name := by
  unfold excludedNames
  constructor
  · intro h
    split at h
    · next names hnames =>
      obtain ⟨members, rfl, hmembers⟩ := member?_eq_some_iff.1 hnames
      obtain ⟨item, hitem, hname⟩ := List.mem_filterMap.1 h
      -- Only texts are read off the list, the other items do not matter.
      cases item <;> cases hname
      exact ⟨members, names, rfl, hmembers, hitem⟩
    · cases h
  · rintro ⟨members, names, rfl, hmembers, hname⟩
    simp only [Json.member?, hmembers]
    exact List.mem_filterMap.2 ⟨.text name, hname, rfl⟩

/-- **A finding is left out just if it reports a feature whose check is switched off or whose name
    is listed.** -/
theorem excludes_ofConfig_iff {config : Json} {x : Finding} :
    (ofConfig config).excludes x = true ↔
      ∃ f, x.feature? = some f ∧ (SwitchesOff config f.name ∨ Lists config f.name) := by
  unfold excludes
  rcases x.feature? with _ | f
  · simp
  · simp [ofConfig, mem_disabledChecks, mem_excludedNames]

end Filter

/-! ## Section 2: One more name -/

/-- The second configuration is the first one with that name put somewhere in its list of excluded
    features, which may have been missing. -/
def ExcludesToo (name : String) (config config' : Json) : Prop :=
  ∃ members members' before after, config = .object members ∧ config' = .object members' ∧
    (Dictionary.get? "exclude_features" members = some (.list (before ++ after)) ∨
      Dictionary.get? "exclude_features" members = none ∧ before = [] ∧ after = []) ∧
    Dictionary.get? "exclude_features" members' = some (.list (before ++ .text name :: after)) ∧
    ∀ key ≠ "exclude_features", Dictionary.get? key members' = Dictionary.get? key members

namespace ExcludesToo

variable {name : String} {config config' : Json}

/-- There is such a configuration for every name and every place in the list. -/
theorem of_put {members : List (String × Json)} {before after : List Json}
    (h : Dictionary.get? "exclude_features" members = some (.list (before ++ after)) ∨
      Dictionary.get? "exclude_features" members = none ∧ before = [] ∧ after = [])
    (name : String) :
    ExcludesToo name (.object members) (.object
      (Dictionary.put "exclude_features" (.list (before ++ .text name :: after)) members)) :=
  ⟨members, _, before, after, rfl, rfl, h, Dictionary.get?_put_self _ _ _,
    fun _ hkey => Dictionary.get?_put_ne hkey _ _⟩

theorem disabledChecks_eq (h : ExcludesToo name config config') :
    Filter.disabledChecks config' = Filter.disabledChecks config := by
  obtain ⟨members, members', before, after, rfl, rfl, -, -, hothers⟩ := h
  simp only [Filter.disabledChecks, Json.member?, hothers "checks" (by decide)]

theorem mem_excludedNames_iff (h : ExcludesToo name config config') {other : String} :
    other ∈ Filter.excludedNames config' ↔
      other ∈ Filter.excludedNames config ∨ other = name := by
  obtain ⟨members, members', before, after, rfl, rfl, hold, hnew, -⟩ := h
  have hnames : Filter.excludedNames (.object members) =
      before.filterMap Json.asText? ++ after.filterMap Json.asText? := by
    -- The name is added to a list that is there, or is the first one of a new list.
    rcases hold with hlist | ⟨hnone, rfl, rfl⟩
    · simp only [Filter.excludedNames, Json.member?, hlist, List.filterMap_append]
    · simp only [Filter.excludedNames, Json.member?, hnone]
      rfl
  have hnames' : Filter.excludedNames (.object members') =
      before.filterMap Json.asText? ++ name :: after.filterMap Json.asText? := by
    simp only [Filter.excludedNames, Json.member?, hnew, List.filterMap_append]
    rfl
  rw [hnames, hnames']
  simp only [List.mem_append, List.mem_cons]
  tauto

end ExcludesToo

def Finding.isNamed (name : String) (x : Finding) : Bool := x.feature?.any fun f => f.name = name

namespace Engine

/-- The finding that is written for a document. -/
def written? (e : Engine) (document : Bytes) : Option Finding :=
  match e.verdict document with
  | .reported x => some x
  | .blank | .invalid _ | .excluded => none

/-- A document is written with its feature unless the name of that is left out. -/
theorem written?_eq (e : Engine) (document : Bytes) :
    e.written? document = (Finding.featureOf document).toOption.bind fun f =>
      if f.name ∈ e.excludedFeatures then none
      else some { raw := document, content := .ok (f.withEngine e.name) } := by
  unfold written? verdict
  rcases hf : Finding.featureOf document with r | f
  · -- A document without a feature is not written, whether it is blank or invalid.
    by_cases hblank : document.all Text.isBlankByte = true
    · rw [if_pos hblank]
      rfl
    · rw [if_neg hblank]
      rfl
  · rw [Finding.not_blank_of_featureOf hf, if_neg Bool.false_ne_true]
    by_cases hname : f.name ∈ e.excludedFeatures
    · simp only [if_pos hname, Except.toOption, Option.bind_some]
    · simp only [if_neg hname, Except.toOption, Option.bind_some]

/-- One more excluded name takes the findings of that name away. -/
theorem written?_of_excludesToo {e : Engine} {name : String} {config' : Json}
    (h : ExcludesToo name e.config config') (document : Bytes) :
    { e with config := config' }.written? document =
      (e.written? document).filter fun x => !x.isNamed name := by
  rw [written?_eq, written?_eq]
  rcases Finding.featureOf document with r | f
  · rfl
  -- The two lists that an engine looks at have grown by the one name.
  have hexcluded : f.name ∈ { e with config := config' }.excludedFeatures ↔
      f.name ∈ e.excludedFeatures ∨ f.name = name := by
    simp only [excludedFeatures, List.mem_append, h.disabledChecks_eq, h.mem_excludedNames_iff,
      or_assoc]
  have hnamed : Finding.isNamed name
      { raw := document, content := .ok (f.withEngine e.name) } = decide (f.name = name) := rfl
  simp only [Except.toOption, Option.bind_some, hexcluded]
  by_cases hold : f.name ∈ e.excludedFeatures
  · simp only [hold, true_or, if_true, Option.filter_none]
  · simp only [hold, false_or, if_false, Option.filter_some, hnamed]
    by_cases hname : f.name = name <;> simp [hname]

end Engine

/-! ## Section 3: Sinks that accept all findings -/

/-- From this state on the sink wants more after every finding, whatever calls it has got. -/
def Sink.Accepts {σ : Type} (sink : Sink σ) (s : σ) : Prop :=
  ∀ calls x, (sink.write x (sink.replay calls s)).1 = true

theorem Sink.Accepts.apply {σ : Type} {sink : Sink σ} {s : σ} (h : sink.Accepts s)
    (call : SinkCall) : sink.Accepts (sink.apply call s) :=
  fun calls => h (call :: calls)

/-- A collection without a limit accepts all findings. -/
theorem Collection.accepts {c : Collection} (h : c.limit = none) : sink.Accepts c := by
  intro calls x
  induction calls generalizing c with
  | nil => simp only [Sink.replay, List.foldl_nil, sink, add, h]
  | cons call rest ih =>
    refine ih (c := sink.apply call c) ?_
    cases call <;> exact h

namespace Engine

variable {ρ σ : Type}

/-- A document that is no invalid finding is not judged invalid. -/
theorem verdict_ne_invalid {document : Bytes}
    (h : ∀ x, Finding.ofBytes? document = some x → x.isValid = true) (e : Engine)
    (message : String) : e.verdict document ≠ .invalid message := by
  unfold verdict
  by_cases hblank : document.all Text.isBlankByte = true
  · rw [if_pos hblank]
    exact nofun
  · have hvalid := h _ (if_neg hblank)
    rw [if_neg hblank]
    -- An invalid document is one that describes no feature, which contradicts its validity.
    rcases hf : Finding.featureOf document with r | f
    · rw [hf] at hvalid
      cases hvalid
    · dsimp only
      split <;> exact nofun

/-- A sink that accepts all findings gets all that there are, if no document is invalid. -/
theorem digest_calls_of_accepts (e : Engine) {sink : Sink σ} {documents : List Bytes}
    (hvalid : ∀ d ∈ documents, ∀ message, e.verdict d ≠ .invalid message) {s : σ}
    (hsink : sink.Accepts s) :
    (e.digest sink documents s).calls = (documents.filterMap e.written?).map .write := by
  -- By induction on the documents: the sink goes on accepting whatever it is given.
  induction documents generalizing s with
  | nil => rfl
  | cons document rest ih =>
    obtain ⟨hdocument, hrest⟩ := List.forall_mem_cons.1 hvalid
    rcases h : e.verdict document with _ | message | _ | x
    · rw [digest_cons_blank h, ih hrest hsink, List.filterMap_cons_none (by rw [written?, h])]
    · exact absurd h (hdocument message)
    · rw [digest_cons_excluded h, ih hrest hsink, List.filterMap_cons_none (by rw [written?, h])]
    · have hw : sink.write x s = (true, (sink.write x s).2) := Prod.ext (hsink [] x) rfl
      have hmore : sink.Accepts (sink.write x s).2 := hsink.apply (.write x)
      rw [digest_cons_taken h hw, ih hrest hmore, List.filterMap_cons_some (by rw [written?, h]),
        List.map_cons]

/-! ## Section 4: Runs -/

/-- The chunks that the container of an engine hands over, none if its stage cannot be set. -/
def handed (chunks : Disk → Container.Spec → ρ → List Bytes) (e : Engine) (o : EngineOptions)
    (features : FeatureSet) (w : World ρ) : List Bytes :=
  match e.stage o features.toJson.compact w with
  | (.error _, _) => []
  | (.ok st, w) => chunks w.disk (e.stagedSpec o st) w.runtime

/-- **A run leaves the sink as the digest of the chunks does** that the container hands over. -/
theorem run_of_hands {rt : Runtime ρ} {chunks : Disk → Container.Spec → ρ → List Bytes}
    (hrt : rt.Hands chunks) (sink : Sink σ) (e : Engine) (o : EngineOptions)
    (features : FeatureSet) (w : World ρ) (s : σ) :
    (e.run rt sink o features w s).2.2 =
      (e.digest sink (e.handed chunks o features w) s).sink := by
  rw [run_eq]
  unfold handed
  rcases e.stage o features.toJson.compact w with ⟨cause | st, w₁⟩
  · rfl
  have hhanded := hrt w₁.disk (e.stagedSpec o st) (e.watcher o sink) w₁.runtime
    { journal := w₁.journal, sink := s }
  rcases hrun : rt.run w₁.disk (e.stagedSpec o st) (e.watcher o sink)
    (w₁.runtime, { journal := w₁.journal, sink := s }) with ⟨failure | outcome, runtime, t⟩ <;>
    rw [hrun] at hhanded <;> simp only [hrun]
  · -- A container that was not started has handed over nothing, and the sink is as it was.
    obtain ⟨hnone, hlogged⟩ := hhanded
    rw [hnone]
    exact hlogged.obs_eq Watch.sink fun _ _ => rfl
  · obtain ⟨who, t₁, hlogged, hfollowed⟩ := hhanded
    obtain ⟨htells, -, -⟩ := tells_of_followed hlogged hfollowed rfl
    have hsink := htells.sink
    rwa [← digest_calls, replay_digest] at hsink

/-- The calls that a sink gets in a run of the engine. -/
def calls (rt : Runtime ρ) (sink : Sink σ) (e : Engine) (o : EngineOptions)
    (features : FeatureSet) (w : World ρ) (s : σ) : List SinkCall :=
  (e.run rt sink.recorded o features w ([], s)).2.2.1

/-- The calls in a run are those of the digest. -/
theorem calls_of_hands {rt : Runtime ρ} {chunks : Disk → Container.Spec → ρ → List Bytes}
    (hrt : rt.Hands chunks) (sink : Sink σ) (e : Engine) (o : EngineOptions)
    (features : FeatureSet) (w : World ρ) (s : σ) :
    e.calls rt sink o features w s = (e.digest sink (e.handed chunks o features w) s).calls := by
  rw [calls, run_of_hands hrt, digest_recorded]
  simp only [List.nil_append]

/-- **Just the features that a configuration names are left out.**  A document is kept back by the
    filter of a configuration just if it describes a feature whose check is switched off or whose
    name is listed; entries of any other shape do not count, and invalid findings are never kept
    back.  Whoever accepts all findings of a container without invalid documents therefore gets,
    with one more name in the list, the same findings but those of that name. -/
theorem leaves_out_the_named :
    (∀ (config : Json) (document : Bytes),
      (∃ x, Finding.ofBytes? document = some x ∧ (Filter.ofConfig config).excludes x = true) ↔
        ∃ f, Finding.featureOf document = .ok f ∧
          (Filter.SwitchesOff config f.name ∨ Filter.Lists config f.name)) ∧
    (∀ (config : Json) (x : Finding), x.isValid = false →
      (Filter.ofConfig config).excludes x = false) ∧
    ∀ {ρ σ : Type} {rt : Runtime ρ} {chunks : Disk → Container.Spec → ρ → List Bytes},
      rt.Hands chunks → ∀ {sink : Sink σ} {s : σ}, sink.Accepts s →
      ∀ (e : Engine) {name : String} {config' : Json}, ExcludesToo name e.config config' →
      ∀ (o : EngineOptions) (features : FeatureSet) (w : World ρ),
        let e' := { e with config := config' }
        e'.handed chunks o features w = e.handed chunks o features w →
        (∀ d ∈ e.handed chunks o features w, ∀ x, Finding.ofBytes? d = some x →
          x.isValid = true) →
        ∃ xs : List Finding,
          e.calls rt sink o features w s = xs.map .write ∧
          e'.calls rt sink o features w s = (xs.filter fun x => !x.isNamed name).map .write := by
  refine ⟨?_, ?_, ?_⟩
  · intro config document
    simp only [Filter.excludes_ofConfig_iff, Finding.featureOf_eq_ok_iff]
    exact ⟨fun ⟨x, hx, f, hf, hnamed⟩ => ⟨f, ⟨x, hx, hf⟩, hnamed⟩,
      fun ⟨f, ⟨x, hx, hf⟩, hnamed⟩ => ⟨x, hx, f, hf, hnamed⟩⟩
  · intro config x hx
    rw [Bool.eq_false_iff]
    intro hexcludes
    obtain ⟨f, hf, -⟩ := Filter.excludes_ofConfig_iff.1 hexcludes
    rw [Finding.isValid, hf] at hx
    cases hx
  · intro ρ σ rt chunks hrt sink s hsink e name config' htoo o features w e' hsame hvalid
    have hcalls : ∀ e₁ : Engine, e₁.handed chunks o features w = e.handed chunks o features w →
        e₁.calls rt sink o features w s =
          ((e.handed chunks o features w).filterMap e₁.written?).map .write := by
      intro e₁ h₁
      rw [calls_of_hands hrt, h₁]
      exact e₁.digest_calls_of_accepts (fun d hd => verdict_ne_invalid (hvalid d hd) e₁) hsink
    refine ⟨_, hcalls e rfl, ?_⟩
    -- Document by document, what is written now is what was written before and has another name.
    rw [hcalls e' hsame, List.filter_filterMap]
    exact congrArg (fun written => (List.filterMap written _).map SinkCall.write)
      (funext (written?_of_excludesToo htoo))

/-- A rehearsal reports two features, and the name of the second one is added to a list that has
    held no name so far. -/
theorem leaves_out_the_named_draft :
    let config : List (String × Json) :=
      [("checks", .object [("final", .flag false)]), ("exclude_features", .list [.null])]
    let config' : Json := .object
      (Dictionary.put "exclude_features" (.list ([.null] ++ .text "draft" :: [])) config)
    let final : Bytes := Utf8.encode (Sample.document "final")
    let draft : Bytes := Utf8.encode (Sample.document "draft")
    let e : Engine := { Sample.lint with config := .object config }
    let o := Sample.options
    let w := Sample.world (Sample.rehearsal [("b", { frames := [final, 0 :: draft] })])
    ∃ xs : List Finding, xs.map (Finding.isNamed "draft") = [false, true] ∧
      e.calls Container.Rehearsal.runtime Collection.sink o .empty w {} = xs.map .write ∧
      { e with config := config' }.calls Container.Rehearsal.runtime Collection.sink o .empty w {} =
        (xs.filter fun x => !x.isNamed "draft").map .write := by
  intro config config' final draft e o w
  have hhanded : e.handed Container.Rehearsal.casting.chunks o .empty w = [final, draft] ∧
      { e with config := config' }.handed Container.Rehearsal.casting.chunks o .empty w =
        [final, draft] := by
    decide +kernel
  have hvalid : [final, draft].all (fun d => (Finding.ofBytes? d).all Finding.isValid) = true := by
    decide +kernel
  obtain ⟨xs, hcalls, hcalls'⟩ := leaves_out_the_named.2.2 Container.Rehearsal.hands
    (Collection.accepts (c := {}) rfl) e
    (ExcludesToo.of_put (.inl rfl) "draft" : ExcludesToo "draft" (.object config) config')
    o .empty w (hhanded.2.trans hhanded.1.symm) (fun d hd x hx => by
      have hall := List.all_eq_true.1 hvalid d (hhanded.1 ▸ hd)
      rw [hx] at hall
      exact hall)
  refine ⟨xs, ?_, hcalls, hcalls'⟩
  -- What is written without the name is seen from the two documents.
  have hnames : (e.digest Collection.sink [final, draft] {}).calls.map
      (fun call => call.feature?.any fun f => f.name = "draft") = [false, true] := by
    decide +kernel
  rw [← hhanded.1, ← calls_of_hands Container.Rehearsal.hands, hcalls, List.map_map] at hnames
  exact hnames

end Engine
end StackSurvey
