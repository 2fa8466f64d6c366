import StackSurvey.Proofs.Engine.Launch
import StackSurvey.Proofs.History

/-! # Gates

    An engine may ask for engines and features before it.  What is asked for is looked up in the
    history of the run, which knows names from two places: those recorded when an engine ends
    well, and those that features carry.  No document can forge a name, so both places agree,
    and an engine is launched just if its rules are met by the engines that were launched before
    it and ended well (`gates_exact`). -/

namespace StackSurvey

open Container (Runtime Spec)
open Report (Notice Reporter)

variable {ρ φ : Type}

/-- A reporter that takes everything and reports nothing. -/
def Report.Reporter.silent : Reporter Unit where
  tell _ _ := (.ok (), ())
  write _ _ := (true, ())
  fail _ _ := ([], ())
  close := id

/-! ## Section 1: What has been completed -/

/-- An engine that was launched and has ended well, and the features that it has passed on. -/
structure Finished where
  engine : Engine
  passed : List Feature

/-- The rules ask for nothing but what finished engines are called and have passed on. -/
def RunRules.MetBy (r : RunRules) (done : List Finished) : Prop :=
  (∀ n ∈ r.engines, ∃ d ∈ done, d.engine.name = n) ∧
    ∀ n ∈ r.features, ∃ d ∈ done, ∃ f ∈ d.passed, f.name = n

/-- The history knows what has been finished, and knows nothing else. -/
structure RunHistory.Accounts (h : RunHistory) (done : List Finished) : Prop where
  executed : ∀ n, n ∈ h.executed ↔ ∃ d ∈ done, d.engine.name = n
  found : ∀ n, n ∈ h.features.names ↔ ∃ d ∈ done, ∃ f ∈ d.passed, f.name = n
  attributed : h.Attributed
  reported : ∀ d ∈ done, ∀ f ∈ d.passed, d.engine.Reports f

namespace RunHistory

variable {h : RunHistory} {done : List Finished}

theorem accounts_empty : RunHistory.Accounts {} [] where
  executed n := by simp
  found n := by simp
  attributed f hf := nomatch hf
  reported d hd := nomatch hd

/-- An engine that ends well is recorded together with what it has passed on. -/
theorem Accounts.finish (ha : h.Accounts done) {e : Engine} {fs : List Feature}
    (hfs : ∀ f ∈ fs, e.Reports f) :
    ((h.record e.name).merge fs).Accounts (done ++ [⟨e, fs⟩]) where
  executed n := by
    simp only [merge, record, mem_insertName, ha.executed, List.mem_append, List.mem_singleton]
    constructor
    · rintro (rfl | ⟨d, hd, hn⟩)
      · exact ⟨_, .inr rfl, rfl⟩
      · exact ⟨d, .inl hd, hn⟩
    · rintro ⟨d, hd | rfl, hn⟩
      · exact .inr ⟨d, hd, hn⟩
      · exact .inl hn.symm
  found n := by
    simp only [merge, record, FeatureSet.mem_names_merge, ha.found, List.mem_append,
      List.mem_singleton]
    constructor
    · rintro (⟨d, hd, hn⟩ | hn)
      · exact ⟨d, .inl hd, hn⟩
      · exact ⟨_, .inr rfl, hn⟩
    · rintro ⟨d, hd | rfl, hn⟩
      · exact .inl ⟨d, hd, hn⟩
      · exact .inr hn
  attributed := ha.attributed.finish fun f hf => (hfs f hf).engines
  reported d hd f hf := by
    rcases List.mem_append.1 hd with hd | hd
    · exact ha.reported d hd f hf
    · obtain rfl := List.mem_singleton.1 hd
      exact hfs f hf

/-- Names in features add nothing to the engines known to have run. -/
theorem Accounts.mem_enginesRun (ha : h.Accounts done) (n : String) :
    n ∈ h.enginesRun ↔ ∃ d ∈ done, d.engine.name = n := by
  rw [ha.attributed.mem_enginesRun, ha.executed]

/-- **The gate opens just if the rules are met.** -/
theorem Accounts.canRun_iff (ha : h.Accounts done) (e : Engine) :
    e.canRun h = true ↔ e.rules.MetBy done := by
  unfold Engine.canRun RunRules.MetBy
  rw [RunRules.satisfiedBy_iff]
  simp only [ha.mem_enginesRun, ha.found]

end RunHistory

namespace Survey

variable (rt : Runtime ρ) (reporter : Reporter φ) (o : EngineOptions)

/-! ## Section 2: One turn -/

/-- What an engine has finished that has the turn and is run, if it ends well. -/
def finished? (e : Engine) (h : RunHistory) (w : World (List Spec × ρ)) (report : φ) :
    Option Finished :=
  match e.run rt.noted (Gathering.sink reporter) o h.features w
    { report := (tell reporter (.running e) report).2 } with
  | (.ok _, _, g) => some ⟨e, g.features⟩
  | (.error _, _, _) => none

/-- The engine can be launched if its turn comes: the reporter takes the notice, and the
    artifacts can be written. -/
def Ready (e : Engine) (h : RunHistory) (w : World ρ) (report : φ) : Prop :=
  (tell reporter (.running e) report).1 = .ok () ∧
    ∃ st, (e.stage o h.features.toJson.compact w).1 = .ok st

theorem turn_of_canRun {e : Engine} {h : RunHistory} (hrun : e.canRun h = true) (w : World ρ)
    (report : φ) :
    turn rt reporter o e h w report = runEngine rt reporter o e h w report := by
  rw [turn, if_pos hrun]

theorem turn_of_not_canRun {e : Engine} {h : RunHistory} (hrun : ¬ e.canRun h = true)
    (w : World ρ) (report : φ) :
    (turn rt reporter o e h w report).1 =
        (tell reporter (.skipped e) report).1.map (fun _ => h) ∧
      (turn rt reporter o e h w report).2.1.runtime = w.runtime := by
  rw [turn, if_neg hrun]
  exact ⟨rfl, rfl⟩

/-- Running an engine launches it if it is ready, and fails without a launch if it is not.  Of an
    engine that ends well the history gets what it has finished. -/
theorem runEngine_spec (e : Engine) (h : RunHistory) (w : World (List Spec × ρ)) (report : φ) :
    let r := runEngine rt.noted reporter o e h w report
    (Ready reporter o e h w report ∧ (∃ st, r.2.1.launches = w.launches ++ [e.stagedSpec o st]) ∧
        ∀ h', r.1 = .ok h' → ∃ fs, finished? rt reporter o e h w report = some ⟨e, fs⟩ ∧
          h' = (h.record e.name).merge fs) ∨
      ¬ Ready reporter o e h w report ∧ r.2.1.launches = w.launches ∧
        ∃ failure, r.1 = .error failure := by
  unfold runEngine finished? Ready
  rcases htell : tell reporter (.running e) report with ⟨failure | _, report₁⟩
  · exact .inr ⟨fun hready => (nomatch hready.1), rfl, failure, rfl⟩
  dsimp only
  -- A launch takes a stage, and a stage is all that a launch takes.
  have hlaunch := e.run_launches rt (Gathering.sink reporter) o h.features w { report := report₁ }
  rcases hrun : e.run rt.noted (Gathering.sink reporter) o h.features w { report := report₁ } with
    ⟨failure | outcome, w₁, g⟩ <;> rw [hrun] at hlaunch
  · rcases hlaunch with ⟨st, hst, hmore⟩ | ⟨cause, hst, -, hsame⟩
    · exact .inl ⟨⟨rfl, st, hst⟩, ⟨st, hmore⟩, nofun⟩
    · refine .inr ⟨?_, hsame, _, rfl⟩
      rintro ⟨-, st, hst'⟩
      exact nomatch hst'.symm.trans hst
  · rcases hlaunch with ⟨st, hst, hmore⟩ | ⟨cause, -, herror, -⟩
    · refine .inl ⟨⟨rfl, st, hst⟩, ⟨st, hmore⟩, ?_⟩
      intro h' hok
      rcases htold : (tell reporter (.ended e outcome) g.report).1 with _ | _ <;>
        simp only [htold, Except.map] at hok
      · exact nomatch hok
      · exact ⟨g.features, rfl, (Except.ok.inj hok).symm⟩
    · exact nomatch herror

/-! ## Section 3: Turns in order -/

/-- Turns are taken one after the other, as long as none of them fails. -/
theorem turns_append (before after : List Engine) (h : RunHistory) (w : World ρ) (report : φ) :
    turns rt reporter o (before ++ after) h w report =
      match turns rt reporter o before h w report with
      | (.error failure, w, report) => (.error failure, w, report)
      | (.ok h, w, report) => turns rt reporter o after h w report := by
  induction before generalizing h w report with
  | nil => rfl
  | cons e rest ih =>
    simp only [List.cons_append, turns]
    rcases turn rt reporter o e h w report with ⟨_ | h', w', report'⟩
    · rfl
    · exact ih h' w' report'

theorem turn_noted (e : Engine) (h : RunHistory) (w : World (List Spec × ρ)) (report : φ) :
    let r := turn rt.noted reporter o e h w report
    turn rt reporter o e h w.unnoted report = (r.1, r.2.1.unnoted, r.2.2) := by
  unfold turn
  split
  · unfold runEngine
    -- A turn uses the runtime only where it runs the engine.
    rcases tell reporter (.running e) report with ⟨_ | _, report₁⟩
    · rfl
    · simp only [e.run_noted rt (Gathering.sink reporter) o h.features w { report := report₁ }]
      rcases e.run rt.noted (Gathering.sink reporter) o h.features w { report := report₁ } with
        ⟨_ | _, w₁, g⟩ <;> rfl
  · rfl

/-- Taking notes of what is launched changes nothing else. -/
theorem turns_noted (engines : List Engine) (h : RunHistory) (w : World (List Spec × ρ))
    (report : φ) :
    let r := turns rt.noted reporter o engines h w report
    turns rt reporter o engines h w.unnoted report = (r.1, r.2.1.unnoted, r.2.2) := by
  induction engines generalizing h w report with
  | nil => rfl
  | cons e rest ih =>
    simp only [turns, turn_noted rt reporter o e h w report]
    rcases turn rt.noted reporter o e h w report with ⟨_ | h₁, w₁, report₁⟩
    · rfl
    · exact ih h₁ w₁ report₁

/-- What the engines of a list finish when they have their turns: each of them that is launched
    and ends well. -/
def completed : List Engine → RunHistory → World (List Spec × ρ) → φ → List Finished
  | [], _, _, _ => []
  | e :: rest, h, w, report =>
    match turn rt.noted reporter o e h w report with
    | (.error _, _, _) => []
    | (.ok h', w', report') =>
      (if w.launches.length < w'.launches.length then
        (finished? rt reporter o e h w report).toList else []) ++
        completed rest h' w' report'

variable {rt reporter o}

/-- A turn without a failure either leaves the history as it was or records what was finished. -/
theorem turn_ok {e : Engine} {h h' : RunHistory} {w w' : World (List Spec × ρ)}
    {report report' : φ} (hturn : turn rt.noted reporter o e h w report = (.ok h', w', report')) :
    (h' = h ∧ w'.launches = w.launches) ∨
      ((∃ spec, w'.launches = w.launches ++ [spec]) ∧
        ∃ fs, finished? rt reporter o e h w report = some ⟨e, fs⟩ ∧
          h' = (h.record e.name).merge fs) := by
  by_cases hrun : e.canRun h = true
  · rw [turn_of_canRun _ _ _ hrun] at hturn
    have hspec := runEngine_spec rt reporter o e h w report
    rw [hturn] at hspec
    rcases hspec with ⟨-, ⟨st, hlaunch⟩, hok⟩ | ⟨-, -, failure, herror⟩
    · exact .inr ⟨⟨_, hlaunch⟩, hok h' rfl⟩
    · exact nomatch herror
  · -- A skipped engine leaves the history as it is, provided the reporter takes the notice.
    obtain ⟨hresult, hsame⟩ := turn_of_not_canRun rt.noted reporter o hrun w report
    rw [hturn] at hresult hsame
    refine .inl ⟨?_, congrArg Prod.fst hsame⟩
    rcases htold : (tell reporter (.skipped e) report).1 with _ | _ <;>
      simp only [htold, Except.map] at hresult
    · exact nomatch hresult
    · exact Except.ok.inj hresult

/-- All that an engine finishes is reported by the engine. -/
theorem finished?_reports (hrt : rt.Honest) {e : Engine} {h : RunHistory}
    {w : World (List Spec × ρ)} {report : φ} {fs : List Feature}
    (hfinished : finished? rt reporter o e h w report = some ⟨e, fs⟩) : ∀ f ∈ fs, e.Reports f := by
  have hreports := Engine.run_gathering hrt.noted reporter e o h.features w
    (tell reporter (.running e) report).2
  unfold finished? at hfinished
  rcases hrun : e.run rt.noted (Gathering.sink reporter) o h.features w
      { report := (tell reporter (.running e) report).2 } with ⟨_ | outcome, w', g⟩ <;>
    rw [hrun] at hfinished hreports
  · -- An engine that has failed is not among those that have finished.
    exact nomatch hfinished
  · obtain rfl : g.features = fs := congrArg Finished.passed (Option.some.inj hfinished)
    exact hreports

/-- **Every turn keeps the accounts**, so after any number of turns the history knows exactly
    what was finished. -/
theorem accounts_turns (hrt : rt.Honest) (before : List Engine) {h h' : RunHistory}
    {done : List Finished} (ha : h.Accounts done) {w w' : World (List Spec × ρ)}
    {report report' : φ}
    (hturns : turns rt.noted reporter o before h w report = (.ok h', w', report')) :
    h'.Accounts (done ++ completed rt reporter o before h w report) := by
  induction before generalizing h done w report with
  | nil =>
    obtain rfl : h = h' := Except.ok.inj (congrArg Prod.fst hturns)
    simpa [completed] using ha
  | cons e rest ih =>
    unfold turns at hturns
    unfold completed
    rcases hturn : turn rt.noted reporter o e h w report with ⟨_ | h₁, w₁, report₁⟩ <;>
      rw [hturn] at hturns
    · exact nomatch hturns
    -- A turn without a launch leaves the history alone; any other one puts the engine and what it
    -- has passed on into the history and into the accounts.
    rcases turn_ok hturn with ⟨rfl, hsame⟩ | ⟨⟨spec, hlaunch⟩, fs, hfinished, rfl⟩
    · have hless : ¬ w.launches.length < w₁.launches.length := by rw [hsame]; exact Nat.lt_irrefl _
      simp only [if_neg hless, List.nil_append]
      exact ih ha hturns
    · have hless : w.launches.length < w₁.launches.length := by rw [hlaunch]; simp
      simp only [if_pos hless, hfinished, Option.toList_some, ← List.append_assoc]
      exact ih (ha.finish (finished?_reports hrt hfinished)) hturns

/-- What is completed was among the engines that had their turns. -/
theorem mem_of_completed (before : List Engine) {h : RunHistory} {w : World (List Spec × ρ)}
    {report : φ} {d : Finished} (hd : d ∈ completed rt reporter o before h w report) :
    d.engine ∈ before := by
  -- By induction on the engines: each turn adds its own engine or none.
  induction before generalizing h w report with
  | nil => exact nomatch hd
  | cons e rest ih =>
    unfold completed at hd
    rcases hturn : turn rt.noted reporter o e h w report with ⟨_ | h₁, w₁, report₁⟩ <;>
      rw [hturn] at hd
    · exact nomatch hd
    rcases List.mem_append.1 hd with hd | hd
    · split at hd
      · unfold finished? at hd
        split at hd
        · obtain rfl := List.mem_singleton.1 hd
          exact List.mem_cons_self
        · exact nomatch hd
      · exact nomatch hd
    · exact List.mem_cons_of_mem e (ih hd)

/-! ## Section 4: Exact gates -/

section accounts

variable {h : RunHistory} {done : List Finished} (ha : h.Accounts done) (e : Engine)
  (w : World (List Spec × ρ)) (report : φ)
include ha

/-- An engine whose rules are not met is skipped, without a launch and with the history as it
    was. -/
theorem turn_of_not_metBy (hmet : ¬ e.rules.MetBy done) :
    let r := turn rt.noted reporter o e h w report
    r.2.1.launches = w.launches ∧ r.1 = (tell reporter (.skipped e) report).1.map fun _ => h := by
  rw [← ha.canRun_iff] at hmet
  obtain ⟨hresult, hsame⟩ := turn_of_not_canRun rt.noted reporter o hmet w report
  exact ⟨congrArg Prod.fst hsame, hresult⟩

/-- An engine whose rules are met is launched if it is ready, and ends the run otherwise. -/
theorem turn_of_metBy (hmet : e.rules.MetBy done) :
    let r := turn rt.noted reporter o e h w report
    (Ready reporter o e h w report ∧ ∃ st, r.2.1.launches = w.launches ++ [e.stagedSpec o st]) ∨
      ¬ Ready reporter o e h w report ∧ r.2.1.launches = w.launches ∧
        ∃ failure, r.1 = .error failure := by
  rw [turn_of_canRun _ _ _ ((ha.canRun_iff e).2 hmet)]
  rcases runEngine_spec rt reporter o e h w report with ⟨hready, hlaunch, -⟩ | hnot
  · exact .inl ⟨hready, hlaunch⟩
  · exact .inr hnot

/-- **A turn launches the engine just if its rules are met and it is ready.** -/
theorem turn_launches_iff :
    (∃ st, (turn rt.noted reporter o e h w report).2.1.launches =
        w.launches ++ [e.stagedSpec o st]) ↔
      e.rules.MetBy done ∧ Ready reporter o e h w report := by
  constructor
  · rintro ⟨st, hlaunch⟩
    -- In all other cases the list of launches is as long as before.
    by_contra hnot
    have hsame : (turn rt.noted reporter o e h w report).2.1.launches = w.launches := by
      by_cases hmet : e.rules.MetBy done
      · rcases turn_of_metBy ha e w report hmet with ⟨hready, -⟩ | ⟨-, hsame, -⟩
        · exact absurd ⟨hmet, hready⟩ hnot
        · exact hsame
      · exact (turn_of_not_metBy ha e w report hmet).1
    rw [hsame] at hlaunch
    simpa using congrArg List.length hlaunch
  · rintro ⟨hmet, hready⟩
    rcases turn_of_metBy ha e w report hmet with ⟨-, hlaunch⟩ | ⟨hnot, -⟩
    · exact hlaunch
    · exact absurd hready hnot

end accounts

/-- **Gates are exact.**  When the turn of an engine comes, the engines known to have run are
    those that were launched before it and ended well, and the features known are those that
    they have passed on.  The engine is launched just if its rules are met by these and it is
    ready; an engine whose rules are met but that is not ready ends the run, and one whose rules
    are not met is skipped, without a launch and with the history as it was. -/
theorem gates_exact (hrt : rt.Honest) (reporter : Reporter φ) (o : EngineOptions)
    (before after : List Engine) (e : Engine) (w : World (List Spec × ρ)) (report : φ)
    {h : RunHistory} {w' : World (List Spec × ρ)} {report' : φ}
    (hreach : turns rt.noted reporter o before {} w report = (.ok h, w', report')) :
    let done := completed rt reporter o before {} w report
    let r := turn rt.noted reporter o e h w' report'
    let ready := Ready reporter o e h w' report'
    turns rt.noted reporter o (before ++ e :: after) {} w report =
        (match r with
        | (.error failure, w, report) => (.error failure, w, report)
        | (.ok h, w, report) => turns rt.noted reporter o after h w report) ∧
      (∀ n, n ∈ h.enginesRun ↔ ∃ d ∈ done, d.engine.name = n) ∧
      (∀ n, n ∈ h.features.names ↔ ∃ d ∈ done, ∃ f ∈ d.passed, f.name = n) ∧
      (∀ d ∈ done, d.engine ∈ before ∧ ∀ f ∈ d.passed, d.engine.Reports f) ∧
      ((∃ st, r.2.1.launches = w'.launches ++ [e.stagedSpec o st]) ↔
        e.rules.MetBy done ∧ ready) ∧
      (e.rules.MetBy done ∧ ¬ ready →
        r.2.1.launches = w'.launches ∧ ∃ failure, r.1 = .error failure) ∧
      (¬ e.rules.MetBy done →
        r.2.1.launches = w'.launches ∧
          r.1 = (tell reporter (.skipped e) report').1.map fun _ => h) := by
  intro done r ready
  -- The accounts start empty, and every turn before this one has kept them.
  have ha : h.Accounts done := by
    simpa only [List.nil_append] using accounts_turns hrt before RunHistory.accounts_empty hreach
  refine ⟨?_, ha.mem_enginesRun, ha.found, ?_, turn_launches_iff ha e w' report', ?_,
    turn_of_not_metBy ha e w' report'⟩
  · rw [turns_append, hreach]
    simp only [turns, r]
    rcases turn rt.noted reporter o e h w' report' with ⟨_ | _, _, _⟩ <;> rfl
  · exact fun d hd => ⟨mem_of_completed before hd, ha.reported d hd⟩
  · rintro ⟨hmet, hnot⟩
    rcases turn_of_metBy ha e w' report' hmet with ⟨hready, -⟩ | ⟨-, hfail⟩
    · exact absurd hready hnot
    · exact hfail

/-- An engine that asks for another one and for a feature is launched after the one that it asks
    for has reported the feature. -/
theorem gates_exact_after_report :
    let o := Sample.options
    let scan := Sample.scan
    let lint := { Sample.lint with rules := { engines := ["scan"], features := ["Git"] } }
    let script : Container.Script := { frames := [Utf8.encode (Sample.document "Git")] }
    let w : World (List Spec × Container.Rehearsal) :=
      Sample.world ([], Sample.rehearsal [("a", script)])
    ∃ h w' report',
      turns Container.Rehearsal.runtime.noted .silent o [scan] {} w () = (.ok h, w', report') ∧
        lint.rules.MetBy (completed Container.Rehearsal.runtime .silent o [scan] {} w ()) := by
  intro o scan lint script w
  -- After the first turn the second engine may run, which says all about the history that is
  -- needed.
  have hok : (turns Container.Rehearsal.runtime.noted .silent o [scan] {} w ()).1.toOption.map
      lint.canRun = some true := by decide +kernel
  rcases hreach : turns Container.Rehearsal.runtime.noted .silent o [scan] {} w () with
    ⟨_ | h, w', report'⟩ <;> rw [hreach] at hok
  · exact nomatch hok
  obtain ⟨-, hengines, hfeatures, -⟩ :=
    gates_exact Container.Rehearsal.honest .silent o [scan] [] lint w () hreach
  obtain ⟨hran, hfound⟩ := RunRules.satisfiedBy_iff.1 (Option.some.inj hok)
  exact ⟨h, w', report', rfl, fun n hn => (hengines n).1 (hran n hn),
    fun n hn => (hfeatures n).1 (hfound n hn)⟩

/-- An engine without rules is not launched if its artifacts cannot be written. -/
theorem rules_met_without_launch :
    let o := Sample.options
    let e := Sample.lint
    let w : World (List Spec × Container.Rehearsal) :=
      { Sample.world ([], Sample.rehearsal []) with
        disk := { refuses := fun _ _ => some .noSpace } }
    e.rules.MetBy (completed Container.Rehearsal.runtime .silent o [] {} w ()) ∧
      (turn Container.Rehearsal.runtime.noted .silent o e {} w ()).2.1.launches.length = 0 :=
  ⟨⟨nofun, nofun⟩, by decide +kernel⟩

end Survey
end StackSurvey
