import StackSurvey.Proofs.Survey.Gates

/-! # The protocol of a survey

    A survey calls its reporter in a fixed order, and it launches a container only where an
    engine has its turn.  The order is a grammar: `Turn` for one engine, `Turns` for engines in
    order, and `Protocol` for a whole survey.  A turn that fails cuts all that would follow it,
    but for the call that closes the reporter.

    * `turn_steps`, `turns_steps`, `run_steps`: what a survey does is what the grammar allows.
    * `Turns.midway` and `Protocol.orderly`: what holds of all that the grammar allows.
    * `calls_in_order`: both of them together. -/

namespace StackSurvey

open Container (Runtime Spec)
open Report (Notice Reporter)

variable {ρ φ : Type}

/-! ## Section 1: Calls and launches -/

namespace Report

/-- A call of a reporter together with its answer. -/
inductive Call where
  | told (notice : Notice) (reply : Except String Unit)
  | wrote (x : Finding) (more : Bool)
  | failed (message : String)
  | closed

def Call.feature? : Call → Option Feature
  | .wrote x _ => x.feature?
  | _ => none

@[simp] theorem Call.feature?_told (notice : Notice) (reply : Except String Unit) :
    (Call.told notice reply).feature? = none := rfl

@[simp] theorem Call.feature?_closed : Call.closed.feature? = none := rfl

/-- The reporter with a list of all its calls. -/
def Reporter.recorded (reporter : Reporter φ) : Reporter (List Call × φ) where
  tell notice := fun (calls, report) =>
    let (reply, report) := reporter.tell notice report
    (reply, calls ++ [.told notice reply], report)
  write x := fun (calls, report) =>
    let (more, report) := reporter.write x report
    (more, calls ++ [.wrote x more], report)
  fail message := fun (calls, report) =>
    let (lines, report) := reporter.fail message report
    (lines, calls ++ [.failed message], report)
  close := fun (calls, report) => (calls ++ [.closed], reporter.close report)

end Report

open Report (Call)

namespace Survey

/-- What can be seen of a survey from outside. -/
inductive Step where
  | call (c : Call)
  | launch (spec : Spec)

namespace Step

def call? : Step → Option Call
  | .call c => some c
  | .launch _ => none

def launch? : Step → Option Spec
  | .call _ => none
  | .launch spec => some spec

/-- Is the reporter told that all is done? -/
def isFinish : Step → Bool
  | .call (.told (.finished _) _) => true
  | _ => false

/-- Does the reporter fail when it is told of a stage? -/
def Refused : Step → Prop
  | .call (.told _ (.error _)) => True
  | _ => False

end Step

def calls (steps : List Step) : List Call := steps.filterMap Step.call?

def launched (steps : List Step) : List Spec := steps.filterMap Step.launch?

def passedOn (steps : List Step) : List Feature := (calls steps).filterMap Call.feature?

section steps

variable (c : Call) (spec : Spec) (xs ys : List Step) (said : List Call)

@[simp] theorem calls_nil : calls [] = [] := rfl

@[simp] theorem calls_cons_call : calls (.call c :: xs) = c :: calls xs := rfl

@[simp] theorem calls_cons_launch : calls (.launch spec :: xs) = calls xs := rfl

@[simp] theorem calls_append : calls (xs ++ ys) = calls xs ++ calls ys := by simp [calls]

@[simp] theorem calls_map_call : calls (said.map .call) = said := by
  simp [calls, List.filterMap_map, Function.comp_def, Step.call?]

@[simp] theorem launched_nil : launched [] = [] := rfl

@[simp] theorem launched_cons_call : launched (.call c :: xs) = launched xs := rfl

@[simp] theorem launched_cons_launch : launched (.launch spec :: xs) = spec :: launched xs := rfl

@[simp] theorem launched_append : launched (xs ++ ys) = launched xs ++ launched ys := by
  simp [launched]

@[simp] theorem launched_map_call : launched (said.map .call) = [] := by
  simp [launched, List.filterMap_map, Function.comp_def, Step.launch?]

theorem passedOn_append : passedOn (xs ++ ys) = passedOn xs ++ passedOn ys := by simp [passedOn]

end steps

/-- The steps are what has been recorded between two moments. -/
structure Shows (steps : List Step) (w w' : World (List Spec × ρ)) (before after : List Call) :
    Prop where
  calls : after = before ++ Survey.calls steps
  launches : w'.launches = w.launches ++ launched steps

theorem Shows.append {xs ys : List Step} {w w' w'' : World (List Spec × ρ)}
    {calls calls' calls'' : List Call} (hxs : Shows xs w w' calls calls')
    (hys : Shows ys w' w'' calls' calls'') : Shows (xs ++ ys) w w'' calls calls'' where
  calls := by rw [hys.calls, hxs.calls, calls_append, List.append_assoc]
  launches := by rw [hys.launches, hxs.launches, launched_append, List.append_assoc]

end Survey

/-! ## Section 2: The grammar -/

/-- The engine is behind a call: one of its valid documents is written, or the reporter learns of
    an invalid one. -/
def Engine.Utters (e : Engine) : Call → Prop
  | .wrote x _ => ∃ document, e.verdict document = .reported x
  | .failed message =>
    ∃ document reason, e.verdict document = .invalid reason ∧ message = e.complaint reason
  | .told _ _ | .closed => False

namespace Survey

/-- What can be seen of the turn of an engine, and how the turn ends. -/
inductive Turn (o : EngineOptions) (e : Engine) : Except SurveyFailure Unit → List Step → Prop
  | skipped (reply : Except String Unit) :
      Turn o e (reply.mapError .io) [.call (.told (.skipped e) reply)]
  | refused (reason : String) :
      Turn o e (.error (.io reason)) [.call (.told (.running e) (.error reason))]
  | unstaged (cause : ArtifactFailure) :
      Turn o e (.error (.engine (EngineFailure.artifact cause).fault))
        [.call (.told (.running e) (.ok ()))]
  | failed (failure : EngineFailure) (st : Stage) {said : List Call}
      (hsaid : ∀ c ∈ said, e.Utters c) :
      Turn o e (.error (.engine failure.fault))
        (.call (.told (.running e) (.ok ())) :: .launch (e.stagedSpec o st) :: said.map .call)
  | ended (outcome : Container.Outcome) (reply : Except String Unit) (st : Stage)
      {said : List Call} (hsaid : ∀ c ∈ said, e.Utters c) :
      Turn o e (reply.mapError .io)
        (.call (.told (.running e) (.ok ())) :: .launch (e.stagedSpec o st) ::
          (said.map .call ++ [.call (.told (.ended e outcome) reply)]))

/-- What can be seen of the turns of engines in order: a turn that fails is the last one. -/
inductive Turns (o : EngineOptions) : List Engine → Except SurveyFailure Unit → List Step → Prop
  | done : Turns o [] (.ok ()) []
  | cut {e : Engine} {failure : SurveyFailure} {steps : List Step} (rest : List Engine)
      (hturn : Turn o e (.error failure) steps) : Turns o (e :: rest) (.error failure) steps
  | next {e : Engine} {rest : List Engine} {result : Except SurveyFailure Unit}
      {steps more : List Step} (hturn : Turn o e (.ok ()) steps) (hrest : Turns o rest result more) :
      Turns o (e :: rest) result (steps ++ more)

/-- What can be seen of a survey. -/
inductive Protocol (o : EngineOptions) :
    List Engine → Except SurveyFailure FeatureSet → List Step → Prop
  | empty : Protocol o [] (.error (.plan .noEngines)) [.call .closed]
  | refused {engines : List Engine} (hsome : engines ≠ []) (reason : String) :
      Protocol o engines (.error (.io reason))
        [.call (.told .started (.error reason)), .call .closed]
  | cut {engines : List Engine} {failure : SurveyFailure} {steps : List Step}
      (hturns : Turns o engines (.error failure) steps) :
      Protocol o engines (.error failure)
        (.call (.told .started (.ok ())) :: (steps ++ [.call .closed]))
  | whole {engines : List Engine} {steps : List Step} (hsome : engines ≠ [])
      (hturns : Turns o engines (.ok ()) steps) (features : FeatureSet)
      (reply : Except String Unit) :
      Protocol o engines ((reply.mapError .io).map fun _ => features)
        (.call (.told .started (.ok ())) ::
          (steps ++ [.call (.told (.finished features) reply), .call .closed]))

end Survey

/-! ## Section 3: What a survey does -/

namespace Engine

/-- Without a stage the sink of an engine learns nothing. -/
theorem run_unstaged {σ : Type} (rt : Runtime ρ) (sink : Sink σ) {e : Engine} {o : EngineOptions}
    {features : FeatureSet} {w : World ρ} {cause : ArtifactFailure}
    (h : (e.stage o features.toJson.compact w).1 = .error cause) (s : σ) :
    (e.run rt sink o features w s).2.2 = s := by
  rw [run_eq]
  rcases hst : e.stage o features.toJson.compact w with ⟨_ | st, w₁⟩
  · rfl
  · rw [hst] at h
    cases h

/-- What was gathered after the calls `before`: calls that the engine is behind, and the features
    that they pass on. -/
def Fills (e : Engine) (before : List Call) (g : Gathering (List Call × φ)) : Prop :=
  ∃ said, g.report.1 = before ++ said ∧ (∀ c ∈ said, e.Utters c) ∧
    g.features = said.filterMap Call.feature?

/-- One more call that the engine is behind. -/
theorem Fills.concat {e : Engine} {before : List Call} {g g' : Gathering (List Call × φ)}
    (hg : e.Fills before g) {c : Call} (hc : e.Utters c) (hreport : g'.report.1 = g.report.1 ++ [c])
    (hmore : g'.features = g.features ++ c.feature?.toList) : e.Fills before g' := by
  obtain ⟨said, hcalls, hsaid, hfeatures⟩ := hg
  refine ⟨said ++ [c], ?_, ?_, ?_⟩
  · rw [hreport, hcalls, List.append_assoc]
  · intro c' hc'
    rcases List.mem_append.1 hc' with hc' | hc'
    · exact hsaid c' hc'
    · exact List.mem_singleton.1 hc' ▸ hc
  · rw [hmore, hfeatures, List.filterMap_append]
    cases hfeature : c.feature? <;> simp [hfeature]

/-- All that a reporter learns while an engine runs comes from the engine. -/
theorem run_fills {rt : Runtime ρ} (hrt : rt.Honest) (reporter : Reporter φ) (e : Engine)
    (o : EngineOptions) (features : FeatureSet) (w : World ρ) (before : List Call) (report : φ) :
    e.Fills before (e.run rt (Gathering.sink reporter.recorded) o features w
      { report := (before, report) }).2.2 := by
  have hstart : e.Fills before ({ report := (before, report) } : Gathering (List Call × φ)) :=
    ⟨[], (List.append_nil before).symm, by simp, rfl⟩
  refine run_keeps (P := e.Fills before) hrt ?_ o features w hstart
  -- Document by document: only a finding and an invalid one are passed on to the reporter.
  intro document g hg
  rcases hv : e.verdict document with _ | reason | _ | x
  · simp only [answer, hv, hg]
  · have hc : e.Utters (.failed (e.complaint reason)) := ⟨document, reason, hv, rfl⟩
    simp only [answer, hv]
    exact hg.concat hc rfl (List.append_nil g.features).symm
  · simp only [answer, hv, hg]
  · have hc : e.Utters (.wrote x (reporter.write x g.report.2).1) := ⟨document, hv⟩
    rw [answer_of_reported hv]
    exact hg.concat hc rfl rfl

end Engine

namespace Survey

variable {rt : Runtime ρ} (hrt : rt.Honest) (reporter : Reporter φ) (o : EngineOptions)

theorem tell_recorded (notice : Notice) (calls : List Call) (report : φ) :
    let r := reporter.tell notice report
    tell reporter.recorded notice (calls, report) =
      (r.1.mapError .io, calls ++ [.told notice r.1], r.2) := rfl

/-- The end of a turn is the answer to the last notice. -/
theorem map_mapError_unit {α : Type} (reply : Except String Unit) (a : α) :
    ((reply.mapError SurveyFailure.io).map fun _ => a).map (fun _ => ()) = reply.mapError .io := by
  cases reply <;> rfl

theorem map_mapError_eq_ok {α : Type} {reply : Except String Unit} {a a' : α}
    (h : ((reply.mapError SurveyFailure.io).map fun _ => a) = .ok a') : a = a' := by
  cases reply with
  | error reason => exact nomatch h
  | ok _ => exact Except.ok.inj h

include hrt in
/-- An engine that is run does what the grammar allows. -/
theorem runEngine_steps (e : Engine) (h : RunHistory) (w : World (List Spec × ρ))
    (before : List Call) (report : φ) :
    let r := runEngine rt.noted reporter.recorded o e h w (before, report)
    ∃ steps, Turn o e (r.1.map fun _ => ()) steps ∧ Shows steps w r.2.1 before r.2.2.1 ∧
      ∀ h', r.1 = .ok h' → h'.features = h.features.merge (passedOn steps) := by
  unfold runEngine
  rw [tell_recorded]
  rcases reporter.tell (.running e) report with ⟨reason | _, report₁⟩
  · refine ⟨_, .refused reason, ⟨?_, ?_⟩, fun _ hok => nomatch hok⟩ <;> simp [Except.mapError]
  simp only [Except.mapError]
  -- The engine is run: what it launches, and what the reporter learns from it.
  have hlaunch := e.run_launches rt (Gathering.sink reporter.recorded) o h.features w
    { report := (before ++ [.told (.running e) (.ok ())], report₁) }
  obtain ⟨said, hcalls, hsaid, hfeatures⟩ := e.run_fills hrt.noted reporter o h.features w
    (before ++ [.told (.running e) (.ok ())]) report₁
  rcases hrun : e.run rt.noted (Gathering.sink reporter.recorded) o h.features w
    { report := (before ++ [.told (.running e) (.ok ())], report₁) } with
    ⟨failure | outcome, w₁, ⟨calls₁, report₂⟩, features₁⟩ <;>
    rw [hrun] at hlaunch hcalls hfeatures <;> dsimp only at hlaunch hcalls hfeatures
  · rcases hlaunch with ⟨st, -, hmore⟩ | ⟨cause, hst, hfailure, hsame⟩
    · refine ⟨_, .failed failure st hsaid, ⟨?_, ?_⟩, fun _ hok => nomatch hok⟩
      · simp [hcalls]
      · simp [hmore]
    · -- Without a stage the reporter learns nothing.
      cases hfailure
      have hquiet := e.run_unstaged rt.noted (Gathering.sink reporter.recorded) hst
        { report := (before ++ [.told (.running e) (.ok ())], report₁) }
      rw [hrun] at hquiet
      cases hquiet
      exact ⟨_, .unstaged cause, ⟨by simp, by simp [hsame]⟩, fun _ hok => nomatch hok⟩
  · rcases hlaunch with ⟨st, -, hmore⟩ | ⟨cause, -, hfailure, -⟩
    · dsimp only
      rw [tell_recorded]
      rcases reporter.tell (.ended e outcome) report₂ with ⟨reply, report₃⟩
      dsimp only
      have hturn := Turn.ended outcome reply st hsaid (o := o)
      refine ⟨_, (map_mapError_unit reply _).symm ▸ hturn, ⟨?_, ?_⟩, ?_⟩
      · simp [hcalls]
      · simpa using hmore
      · intro h' hh'
        rw [← map_mapError_eq_ok hh', hfeatures]
        simp [passedOn, RunHistory.merge, RunHistory.record, List.filterMap_cons]
    · cases hfailure

include hrt in
/-- **A turn does what the grammar allows**, and if it ends well the history gets all features
    that were passed on. -/
theorem turn_steps (e : Engine) (h : RunHistory) (w : World (List Spec × ρ)) (before : List Call)
    (report : φ) :
    let r := turn rt.noted reporter.recorded o e h w (before, report)
    ∃ steps, Turn o e (r.1.map fun _ => ()) steps ∧ Shows steps w r.2.1 before r.2.2.1 ∧
      ∀ h', r.1 = .ok h' → h'.features = h.features.merge (passedOn steps) := by
  unfold turn
  split
  · exact runEngine_steps hrt reporter o e h w before report
  · -- A skipped engine shows one step, the notice of it.
    unfold skip
    rw [tell_recorded]
    rcases reporter.tell (.skipped e) report with ⟨reply, report₁⟩
    dsimp only
    refine ⟨[.call (.told (.skipped e) reply)], ?_, ⟨by simp, by simp⟩, ?_⟩
    · rw [map_mapError_unit]
      exact .skipped reply
    · intro h' hh'
      rw [map_mapError_eq_ok hh']
      rfl

include hrt in
/-- **Turns in order do what the grammar allows.** -/
theorem turns_steps (engines : List Engine) (h : RunHistory) (w : World (List Spec × ρ))
    (before : List Call) (report : φ) :
    let r := turns rt.noted reporter.recorded o engines h w (before, report)
    ∃ steps, Turns o engines (r.1.map fun _ => ()) steps ∧ Shows steps w r.2.1 before r.2.2.1 ∧
      ∀ h', r.1 = .ok h' → h'.features = h.features.merge (passedOn steps) := by
  induction engines generalizing h w before report with
  | nil =>
    refine ⟨[], .done, ⟨by simp [turns], by simp [turns]⟩, ?_⟩
    intro h' hh'
    cases hh'
    rfl
  | cons e rest ih =>
    obtain ⟨steps, hturn, hshows, hfeatures⟩ := turn_steps hrt reporter o e h w before report
    unfold turns
    rcases hone : turn rt.noted reporter.recorded o e h w (before, report) with
      ⟨failure | h₁, w₁, calls₁, report₁⟩ <;> rw [hone] at hturn hshows hfeatures
    · refine ⟨steps, .cut rest hturn, hshows, ?_⟩
      intro h' hok
      cases hok
    -- The others take their turns where this one has ended.
    · obtain ⟨more, hrest, hmore, hlater⟩ := ih h₁ w₁ calls₁ report₁
      refine ⟨steps ++ more, .next hturn hrest, hshows.append hmore, ?_⟩
      intro h' hh'
      rw [hlater h' hh', hfeatures h₁ rfl, passedOn_append, FeatureSet.merge_append]

include hrt in
/-- **A survey does what the grammar allows**, and if it ends well it gives back all features
    that were passed on. -/
theorem run_steps (p : Plan) (w : World (List Spec × ρ)) (before : List Call) (report : φ) :
    let r := run rt.noted reporter.recorded o p w (before, report)
    ∃ steps, Protocol o p.engines r.1 steps ∧ Shows steps w r.2.1 before r.2.2.1 ∧
      ∀ features, r.1 = .ok features → features = .ofFeatures (passedOn steps) := by
  unfold run runOpen
  -- The cases are the constructors of the grammar, in its order.
  by_cases hnone : p.engines = []
  · simp only [hnone, List.isEmpty_nil, if_true]
    exact ⟨_, .empty, ⟨by simp [Reporter.recorded], by simp⟩, fun _ hok => nomatch hok⟩
  rw [if_neg (by simpa using hnone)]
  rw [tell_recorded]
  rcases reporter.tell .started report with ⟨reason | _, report₁⟩
  · refine ⟨_, .refused hnone reason, ⟨?_, ?_⟩, fun _ hok => nomatch hok⟩
    · simp [Reporter.recorded, Except.mapError]
    · simp [Except.mapError]
  simp only [Except.mapError]
  obtain ⟨steps, hturns, ⟨hcalls, hlaunches⟩, hfeatures⟩ := turns_steps hrt reporter o p.engines {}
    (w.log (startLine p.engines.length)) (before ++ [.told .started (.ok ())]) report₁
  rcases hall : turns rt.noted reporter.recorded o p.engines {} (w.log (startLine p.engines.length))
    (before ++ [.told .started (.ok ())], report₁) with ⟨failure | h, w₁, calls₁, report₂⟩ <;>
    rw [hall] at hturns hcalls hlaunches hfeatures ⊢ <;> dsimp only at hcalls hlaunches
  · refine ⟨_, .cut hturns, ⟨?_, ?_⟩, fun _ hok => nomatch hok⟩
    · simp [hcalls, Reporter.recorded]
    · simp [hlaunches]
  · -- The last notice is given also if the reporter refuses to take it.
    simp only [finish]
    rw [tell_recorded]
    rcases reporter.tell (.finished h.features) report₂ with ⟨reply, report₃⟩
    refine ⟨_, .whole hnone hturns h.features reply, ⟨?_, ?_⟩, ?_⟩
    · simp [hcalls, Reporter.recorded]
    · simp [hlaunches]
    · intro features hok
      rw [← map_mapError_eq_ok hok, hfeatures h rfl]
      simp [passedOn, List.filterMap_cons, FeatureSet.ofFeatures]

/-! ## Section 4: What the grammar allows -/

/-- Nothing follows a refusal, and neither the end of the survey nor the closing of the reporter
    is among the steps. -/
structure Midway (result : Except SurveyFailure Unit) (steps : List Step) : Prop where
  last : steps.Pairwise fun s _ => ¬ s.Refused
  accepted : result = .ok () → ∀ s ∈ steps, ¬ s.Refused
  unfinished : ∀ s ∈ steps, s.isFinish = false
  unclosed : .call .closed ∉ steps

section midway

variable {o : EngineOptions} {e : Engine} {result : Except SurveyFailure Unit} {steps : List Step}

theorem Midway.nil : Midway (.ok ()) [] := ⟨.nil, by simp, by simp, by simp⟩

/-- A notice of anything but the end. -/
theorem Midway.told {notice : Notice} (reply : Except String Unit)
    (hnotice : (Step.call (.told notice reply)).isFinish = false) :
    Midway (reply.mapError .io) [.call (.told notice reply)] := by
  refine ⟨List.pairwise_singleton _ _, fun hok s hs => ?_, fun s hs => ?_, by simp⟩
  · obtain rfl := List.mem_singleton.1 hs
    cases reply with
    | error _ => exact nomatch hok
    | ok _ => exact id
  · exact List.mem_singleton.1 hs ▸ hnotice

/-- Steps in which nothing is refused, and then others. -/
theorem Midway.append (hsteps : Midway (.ok ()) steps) {more : List Step}
    (hmore : Midway result more) : Midway result (steps ++ more) := by
  -- A sequence that ends well has no refusal in it, so none of its steps forbids what follows.
  have hquiet := hsteps.accepted rfl
  refine ⟨?_, ?_, ?_, ?_⟩
  · exact List.pairwise_append.2 ⟨hsteps.last, hmore.last, fun s hs _ _ => hquiet s hs⟩
  · intro hok s hs
    exact (List.mem_append.1 hs).elim (hquiet s) (hmore.accepted hok s)
  · intro s hs
    exact (List.mem_append.1 hs).elim (hsteps.unfinished s) (hmore.unfinished s)
  · intro hclosed
    exact (List.mem_append.1 hclosed).elim hsteps.unclosed hmore.unclosed

/-- A turn may fail for another reason than that the reporter does. -/
theorem Midway.fail (hsteps : Midway (.ok ()) steps) (failure : SurveyFailure) :
    Midway (.error failure) steps :=
  ⟨hsteps.last, (nomatch ·), hsteps.unfinished, hsteps.unclosed⟩

/-- What an engine utters is no notice. -/
theorem utters_plain {c : Call} (hc : e.Utters c) :
    ¬ (Step.call c).Refused ∧ (Step.call c).isFinish = false ∧ c ≠ .closed := by
  cases c with
  | told _ _ => exact hc.elim
  | closed => exact hc.elim
  | wrote _ _ => exact ⟨id, rfl, nofun⟩
  | failed _ => exact ⟨id, rfl, nofun⟩

/-- The reporter takes the notice that an engine is run, and the engine is launched. -/
theorem Midway.launched (spec : Spec) {said : List Call} (hsaid : ∀ c ∈ said, e.Utters c) :
    Midway (.ok ()) (.call (.told (.running e) (.ok ())) :: .launch spec :: said.map .call) := by
  have hnotice : Midway (.ok ()) [.call (.told (.running e) (.ok ()))] := .told (.ok ()) rfl
  have hspec : Midway (.ok ()) [.launch spec] := by
    refine ⟨List.pairwise_singleton _ _, fun _ s hs => ?_, fun s hs => ?_, by simp⟩ <;>
      obtain rfl := List.mem_singleton.1 hs
    · exact id
    · rfl
  -- What is passed on during a run is neither a notice nor the close.
  have huttered : Midway (.ok ()) (said.map .call) := by
    have hquiet : ∀ s ∈ said.map Step.call, ¬ s.Refused := by
      intro s hs
      obtain ⟨c, hc, rfl⟩ := List.mem_map.1 hs
      exact (utters_plain (hsaid c hc)).1
    refine ⟨List.pairwise_of_forall_mem_list fun s hs _ _ => hquiet s hs, fun _ => hquiet, ?_, ?_⟩
    · intro s hs
      obtain ⟨c, hc, rfl⟩ := List.mem_map.1 hs
      exact (utters_plain (hsaid c hc)).2.1
    · intro hclosed
      obtain ⟨c, hc, hcall⟩ := List.mem_map.1 hclosed
      exact (utters_plain (hsaid c hc)).2.2 (Step.call.inj hcall)
  exact hnotice.append (hspec.append huttered)

theorem Turn.midway (h : Turn o e result steps) : Midway result steps := by
  cases h with
  | skipped reply => exact .told reply rfl
  | refused reason => exact .told (.error reason) rfl
  | unstaged cause => exact (Midway.told (.ok ()) rfl).fail _
  | failed failure st hsaid => exact (Midway.launched _ hsaid).fail _
  | ended outcome reply st hsaid => exact (Midway.launched _ hsaid).append (.told reply rfl)

theorem Turns.midway {engines : List Engine} (h : Turns o engines result steps) :
    Midway result steps := by
  induction h with
  | done => exact .nil
  | cut rest hturn => exact hturn.midway
  | next hturn _ ih => exact hturn.midway.append ih

theorem Midway.filter_isFinish (hsteps : Midway result steps) : steps.filter Step.isFinish = [] :=
  List.filter_eq_nil_iff.2 fun s hs => by simp [hsteps.unfinished s hs]

/-- The reporter is closed once, after all else.  It is told at most once that all is done, and
    after a refusal it is only closed. -/
structure Orderly (steps : List Step) : Prop where
  closed : ∃ before, steps = before ++ [.call .closed] ∧ .call .closed ∉ before
  finished : (steps.filter Step.isFinish).length ≤ 1
  cut : steps.Pairwise fun s s' => s.Refused → s' = .call .closed

/-- A survey that is cut is closed where it was cut. -/
theorem Midway.closed (hsteps : Midway result steps) : Orderly (steps ++ [.call .closed]) := by
  refine ⟨⟨steps, rfl, hsteps.unclosed⟩, ?_, ?_⟩
  · rw [List.filter_append, hsteps.filter_isFinish]
    exact Nat.zero_le 1
  · refine List.pairwise_append.2 ⟨?_, List.pairwise_singleton _ _, ?_⟩
    · exact hsteps.last.imp fun hquiet hrefused => absurd hrefused hquiet
    · exact fun _ _ s' hs' _ => List.mem_singleton.1 hs'

/-- A survey that is not cut is closed after the reporter was told that all is done. -/
theorem Midway.finished (hsteps : Midway (.ok ()) steps) (features : FeatureSet)
    (reply : Except String Unit) :
    Orderly (steps ++ [.call (.told (.finished features) reply), .call .closed]) := by
  -- Nothing was refused before the last notice.
  have hquiet := hsteps.accepted rfl
  refine ⟨⟨steps ++ [.call (.told (.finished features) reply)], by simp, ?_⟩, ?_, ?_⟩
  · simpa using hsteps.unclosed
  · rw [List.filter_append, hsteps.filter_isFinish]
    exact Nat.le_refl 1
  · refine List.pairwise_append.2 ⟨?_, ?_, ?_⟩
    · exact hsteps.last.imp fun hquiet hrefused => absurd hrefused hquiet
    · simp
    · exact fun s hs _ _ hrefused => absurd hrefused (hquiet s hs)

/-- **All that the grammar allows is orderly**, and a survey ends well only if the reporter has
    taken the notice that all is done. -/
theorem Protocol.orderly {engines : List Engine} {result : Except SurveyFailure FeatureSet}
    (h : Protocol o engines result steps) :
    Orderly steps ∧ ∀ features, result = .ok features →
      .call (.told (.finished features) (.ok ())) ∈ steps := by
  -- The start is a sequence of one step, to which the turns are appended.
  have hstarted : Midway (.ok ()) [.call (.told .started (.ok ()))] := .told (.ok ()) rfl
  cases h with
  | empty => exact ⟨Midway.nil.closed, fun _ hok => nomatch hok⟩
  | refused _ reason =>
    have hmid : Midway _ [.call (.told .started (.error reason))] := .told (.error reason) rfl
    exact ⟨hmid.closed, fun _ hok => nomatch hok⟩
  | cut hturns => exact ⟨(hstarted.append hturns.midway).closed, fun _ hok => nomatch hok⟩
  | whole _ hturns features reply =>
    refine ⟨(hstarted.append hturns.midway).finished features reply, fun features' hok => ?_⟩
    cases reply with
    | error _ => exact nomatch hok
    | ok _ =>
      cases hok
      simp

end midway

/-! ## Section 5: The protocol -/

/-- Taking notes of what is launched changes nothing else. -/
theorem run_noted (rt : Runtime ρ) (reporter : Reporter φ) (o : EngineOptions) (p : Plan)
    (w : World (List Spec × ρ)) (report : φ) :
    let r := run rt.noted reporter o p w report
    run rt reporter o p w.unnoted report = (r.1, r.2.1.unnoted, r.2.2) := by
  unfold run runOpen
  by_cases hnone : p.engines.isEmpty = true
  · simp only [if_pos hnone]
  simp only [if_neg hnone]
  rcases tell reporter .started report with ⟨_ | _, report₁⟩
  · rfl
  -- Apart from the turns a run does not touch the runtime.
  have hturns := turns_noted rt reporter o p.engines {} (w.log (startLine p.engines.length)) report₁
  have hlog : (w.log (startLine p.engines.length)).unnoted =
      w.unnoted.log (startLine p.engines.length) := rfl
  rw [hlog] at hturns
  simp only [hturns]
  rcases turns rt.noted reporter o p.engines {} (w.log (startLine p.engines.length)) report₁ with
    ⟨_ | h, w₁, report₂⟩ <;> rfl

/-- **Calls in order.**  Whatever engines and containers do and whenever the reporter fails, the
    calls of the reporter and the launches are what the grammar allows, so the reporter is closed
    once and last, it is told at most once that all is done, which it has taken if the survey
    ends well, and after a refusal it is closed without any other call or launch. -/
theorem calls_in_order {rt : Runtime ρ} (hrt : rt.Honest) (reporter : Reporter φ)
    (o : EngineOptions) (p : Plan) (w : World (List Spec × ρ)) (report : φ) :
    let r := run rt.noted reporter.recorded o p w ([], report)
    run rt reporter.recorded o p w.unnoted ([], report) = (r.1, r.2.1.unnoted, r.2.2) ∧
      ∃ steps, Protocol o p.engines r.1 steps ∧ r.2.2.1 = calls steps ∧
        r.2.1.launches = w.launches ++ launched steps ∧
        (∃ before, steps = before ++ [.call .closed] ∧ .call .closed ∉ before) ∧
        (steps.filter Step.isFinish).length ≤ 1 ∧
        (∀ features, r.1 = .ok features →
          .call (.told (.finished features) (.ok ())) ∈ steps) ∧
        steps.Pairwise fun s s' => s.Refused → s' = .call .closed := by
  intro r
  obtain ⟨steps, hprotocol, hshows, -⟩ := run_steps hrt reporter o p w [] report
  obtain ⟨⟨hclosed, hfinished, hcut⟩, hok⟩ := hprotocol.orderly
  have hcalls : r.2.2.1 = calls steps := hshows.calls
  exact ⟨run_noted rt reporter.recorded o p w ([], report), steps, hprotocol, hcalls,
    hshows.launches, hclosed, hfinished, hok, hcut⟩

/-- A reporter that fails when it is told that an engine has ended gets five calls, the last of
    which closes it, and the second engine is not launched. -/
theorem calls_in_order_broken_pipe :
    let o := Sample.options
    let scan := Sample.scan
    let lint := Sample.lint
    let script : Container.Script := { frames := [Utf8.encode (Sample.document "Git")] }
    let w : World (List Spec × Container.Rehearsal) :=
      Sample.world ([], Sample.rehearsal [("a", script)])
    let reporter : Reporter Unit :=
      { Reporter.silent with
        tell := fun notice report =>
          match notice with
          | .ended _ _ => (.error "Broken pipe", report)
          | _ => (.ok (), report) }
    ∃ (p : Plan) (steps : List Step), p.engines = [scan, lint] ∧
      (let r := run Container.Rehearsal.runtime reporter.recorded o p w.unnoted ([], ())
      Protocol o p.engines r.1 steps) ∧
      (calls steps).length = 5 ∧ (launched steps).length = 1 ∧
      ∃ before, steps = before ++ [.call .closed] ∧ .call .closed ∉ before := by
  intro o scan lint script w reporter
  let p : Plan := ⟨[scan, lint], by decide +kernel⟩
  -- The start, the notice of the engine, a finding, the notice of its end, which fails, and the
  -- close.
  have hcounts :
      let r := run Container.Rehearsal.runtime.noted reporter.recorded o p w ([], ())
      r.2.2.1.length = 5 ∧ r.2.1.launches.length = 1 := by
    decide +kernel
  have horder := calls_in_order Container.Rehearsal.honest reporter o p w ()
  rcases hrun : run Container.Rehearsal.runtime.noted reporter.recorded o p w ([], ()) with
    ⟨result, w', made, report⟩
  rw [hrun] at hcounts horder
  obtain ⟨hplain, steps, hprotocol, hcalls, hlaunches, hclosed, -⟩ := horder
  obtain ⟨hfive, hone⟩ := hcounts
  dsimp only at hplain hprotocol hcalls hlaunches hfive hone
  refine ⟨p, steps, rfl, ?_, hcalls ▸ hfive, ?_, hclosed⟩
  · rw [hplain]
    exact hprotocol
  · rw [hlaunches] at hone
    exact hone

end Survey
end StackSurvey
