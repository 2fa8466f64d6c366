import StackSurvey.Proofs.Engine.Scripted
import StackSurvey.Proofs.Survey.Gates

/-! # What a survey comes to

    `reference` runs engines in order over a pair: the names of the engines that have ended well
    and the set of the features found so far.  An engine whose rules are not met by the pair is
    skipped, the others are handed the set, and what they pass on is merged into it.  A survey
    whose containers follow scripts and whose reporter takes all notices comes to just that
    (`run_eq_reference`). -/

namespace StackSurvey

open Container (Casting)
open Report (Notice Reporter)

variable {ρ σ φ : Type}

/-! ## Section 1: The reference -/

/-- The engines that have ended well, in order, and what has been found. -/
structure Progress where
  completed : List String := []
  features : FeatureSet := .empty

namespace Progress

def meets (g : Progress) (r : RunRules) : Bool :=
  r.engines.all (· ∈ g.completed) && r.features.all (· ∈ g.features.names)

/-- Adds an engine that has ended well, and the features that it has passed on. -/
def add (g : Progress) (name : String) (fs : List Feature) : Progress :=
  { completed := g.completed ++ [name], features := g.features.merge fs }

end Progress

namespace Survey

/-- Takes the turn of an engine by the book.  If it ends well the answer has what it has passed
    on, unless it was skipped. -/
def step (c : Casting ρ) (reporter : Reporter φ) (o : EngineOptions) (e : Engine) (g : Progress)
    (w : World ρ) (report : φ) :
    Except EngineFailure (Progress × Option (List Feature)) × World ρ × φ :=
  if g.meets e.rules then
    let a := e.attend c reporter.sink o g.features.toJson.compact w
      (reporter.tell (.running e) report).2
    match a.result with
    | .error failure => (.error failure, a.world, a.sink)
    | .ok outcome =>
      let fs := passed a.calls
      (.ok (g.add e.name fs, some fs), a.world, (reporter.tell (.ended e outcome) a.sink).2)
  else (.ok (g, none), w, (reporter.tell (.skipped e) report).2)

/-- What engines come to that are run in order. -/
structure Rundown (ρ φ : Type) where
  result : Except EngineFailure Progress
  /-- What each engine that has ended well has passed on, in order. -/
  passed : List (List Feature) := []
  world : World ρ
  report : φ

/-- Runs engines in order by the book. -/
def reference (c : Casting ρ) (reporter : Reporter φ) (o : EngineOptions) :
    List Engine → Progress → World ρ → φ → Rundown ρ φ
  | [], g, w, report => { result := .ok g, world := w, report }
  | e :: rest, g, w, report =>
    match step c reporter o e g w report with
    | (.error failure, w, report) => { result := .error failure, world := w, report }
    | (.ok (g, fs), w, report) =>
      let d := reference c reporter o rest g w report
      { d with passed := fs.toList ++ d.passed }

/-- A step adds to the set what was passed on in it. -/
theorem step_features {c : Casting ρ} {reporter : Reporter φ} {o : EngineOptions} {e : Engine}
    {g g' : Progress} {w w' : World ρ} {report report' : φ} {fs : Option (List Feature)}
    (h : step c reporter o e g w report = (.ok (g', fs), w', report')) :
    g'.features = g.features.merge fs.toList.flatten := by
  unfold step at h
  split at h
  · dsimp only at h
    split at h
    · simp at h
    · simp only [Prod.mk.injEq, Except.ok.injEq] at h
      obtain ⟨⟨rfl, rfl⟩, -⟩ := h
      simp [Progress.add]
  · simp only [Prod.mk.injEq, Except.ok.injEq] at h
    obtain ⟨⟨rfl, rfl⟩, -⟩ := h
    rfl

/-- The set that the reference ends with is made up of all that was passed on. -/
theorem reference_features (c : Casting ρ) (reporter : Reporter φ) (o : EngineOptions)
    (engines : List Engine) (g : Progress) (w : World ρ) (report : φ) {g' : Progress}
    (h : (reference c reporter o engines g w report).result = .ok g') :
    g'.features = g.features.merge (reference c reporter o engines g w report).passed.flatten := by
  -- By induction on the engines: merging what the first one has passed on and then the rest is
  -- merging both.
  induction engines generalizing g w report with
  | nil =>
    obtain rfl : g = g' := Except.ok.inj h
    rfl
  | cons e rest ih =>
    unfold reference at h ⊢
    rcases hstep : step c reporter o e g w report with ⟨failure | ⟨g₁, fs⟩, w₁, report₁⟩
    · rw [hstep] at h
      simp at h
    · rw [hstep] at h
      rw [ih g₁ w₁ report₁ h, step_features hstep, ← FeatureSet.merge_append,
        ← List.flatten_append]

end Survey

/-! ## Section 2: History and progress -/

/-- A history and a pair that know the same engines and the same features. -/
structure RunHistory.Agrees (h : RunHistory) (g : Progress) : Prop where
  executed : ∀ n, n ∈ h.executed ↔ n ∈ g.completed
  features : h.features = g.features
  attributed : h.Attributed

namespace RunHistory.Agrees

variable {h : RunHistory} {g : Progress}

theorem start : RunHistory.Agrees {} {} where
  executed n := by simp
  features := rfl
  attributed f hf := nomatch hf

/-- The gate of the history is that of the pair. -/
theorem canRun_eq (ha : h.Agrees g) (e : Engine) : e.canRun h = g.meets e.rules := by
  rw [Bool.eq_iff_iff, Engine.canRun, RunRules.satisfiedBy_iff]
  simp [Progress.meets, ha.attributed.mem_enginesRun, ha.executed, ha.features]

theorem add (ha : h.Agrees g) {name : String} {fs : List Feature}
    (hfs : ∀ f ∈ fs, f.engines = [name]) :
    ((h.record name).merge fs).Agrees (g.add name fs) where
  executed n := by
    simp [RunHistory.merge, RunHistory.record, Progress.add, ha.executed, or_comm]
  features := by rw [RunHistory.merge, RunHistory.record, ha.features, Progress.add]
  attributed := ha.attributed.finish hfs

end RunHistory.Agrees

/-! ## Section 3: Surveys -/

namespace Survey

/-- What holds before every turn, for the reference to come to the same. -/
structure Level (c : Casting ρ) (P : ρ → Prop) (o : EngineOptions) (h : RunHistory) (g : Progress)
    (w w' : World ρ) : Prop where
  agrees : h.Agrees g
  quiet : w.quiet = w'.quiet
  proper : w.names.Proper
  /-- Artifacts are found where they are written. -/
  directory : c.directory w.runtime = o.artifacts.inside
  runtime : P w.runtime

variable {c : Casting ρ} {P : ρ → Prop} {reporter : Reporter φ} {o : EngineOptions}

/-- What a run of an engine leaves is level again with a world that is like it, for a history and
    a pair that agree. -/
theorem Level.run (hfits : c.Fits P) {h h' : RunHistory} {g g' : Progress} {w w' w₁' : World ρ}
    (hl : Level c P o h g w w') (e : Engine) {σ : Type} (sink : Sink σ) (features : FeatureSet)
    (s : σ) (ha : h'.Agrees g')
    (hquiet : (e.run c.runtime sink o features w s).2.1.quiet = w₁'.quiet) :
    Level c P o h' g' (e.run c.runtime sink o features w s).2.1 w₁' where
  agrees := ha
  quiet := hquiet
  proper := hl.proper.congr (e.run_name c.runtime sink o features w s)
  directory := e.run_keeps_cast (P := fun r => c.directory r = o.artifacts.inside)
    (fun setting r hr => (c.directory_cast setting r).trans hr) sink o features hl.directory s
  runtime := e.run_keeps_cast hfits.keeps sink o features hl.runtime s

/-- A log line is nothing that matters for the reference. -/
theorem Level.log {h : RunHistory} {g : Progress} {w w' : World ρ} (hl : Level c P o h g w w')
    (line : LogLine) : Level c P o h g (w.log line) w' :=
  ⟨hl.agrees, hl.quiet, hl.proper, hl.directory, hl.runtime⟩

/-- Nor is a measurement. -/
theorem Level.measure {h : RunHistory} {g : Progress} {w w' : World ρ}
    (hl : Level c P o h g w w') (m : Measurement) : Level c P o h g (w.measure m) w' :=
  ⟨hl.agrees, hl.quiet, hl.proper, hl.directory, hl.runtime⟩

theorem tell_ok (htell : ∀ notice report, (reporter.tell notice report).1 = .ok ())
    (notice : Notice) (report : φ) :
    tell reporter notice report = (.ok (), (reporter.tell notice report).2) := by
  simp only [tell, htell]
  rfl

/-- **A turn is a step of the reference**, and leaves both level. -/
theorem turn_eq_step (hfits : c.Fits P)
    (htell : ∀ notice report, (reporter.tell notice report).1 = .ok ()) (e : Engine)
    {h : RunHistory} {g : Progress} {w w' : World ρ} (hl : Level c P o h g w w') (report : φ) :
    let r := turn c.runtime reporter o e h w report
    let d := step c reporter o e g w' report
    r.2.1.quiet = d.2.1.quiet ∧ r.2.2 = d.2.2 ∧
      match d.1 with
      | .error failure => r.1 = .error (.engine failure.fault)
      | .ok (g', _) => ∃ h', r.1 = .ok h' ∧ Level c P o h' g' r.2.1 d.2.1 := by
  unfold turn step
  rw [hl.agrees.canRun_eq]
  by_cases hmeets : g.meets e.rules = true
  · -- The run of the engine goes by the book, and the survey gathers what is passed on.
    have hrun := e.run_gathering_eq_attend hfits reporter h.features hl.quiet hl.proper
      hl.directory hl.runtime (reporter.tell (.running e) report).2
    have hreports := e.run_gathering c.honest reporter o h.features w
      (reporter.tell (.running e) report).2
    rw [if_pos hmeets, if_pos hmeets, ← hl.agrees.features]
    -- What it comes to is all that matters from here on, not how.
    generalize e.attend c reporter.sink o h.features.toJson.compact w'
      (reporter.tell (.running e) report).2 = a at hrun ⊢
    simp only [runEngine, tell_ok htell]
    rcases he : e.run c.runtime (Gathering.sink reporter) o h.features w
      { report := (reporter.tell (.running e) report).2 } with ⟨result, w₁, gathered⟩
    rw [he] at hrun hreports
    obtain ⟨hended, hquiet, rfl⟩ := hrun
    dsimp only at hended hquiet hreports
    rw [← hended]
    cases result with
    | error failure => exact ⟨hquiet, rfl, rfl⟩
    | ok outcome =>
      have hagrees := hl.agrees.add fun f hf => (hreports f hf).engines
      have hlike : (e.run c.runtime (Gathering.sink reporter) o h.features w
          { report := (reporter.tell (.running e) report).2 }).2.1.quiet = a.world.quiet := by
        rw [he]
        exact hquiet
      have hlevel := hl.run hfits e (Gathering.sink reporter) h.features _ hagrees hlike
      rw [he] at hlevel
      exact ⟨hquiet, rfl, _, rfl, hlevel.log _⟩
  · rw [if_neg hmeets, if_neg hmeets]
    simp only [skip, tell_ok htell]
    exact ⟨hl.quiet, trivial, h, rfl, (hl.log (skipLine e)).measure _⟩

/-- **Turns are the reference.** -/
theorem turns_eq_reference (hfits : c.Fits P)
    (htell : ∀ notice report, (reporter.tell notice report).1 = .ok ()) (engines : List Engine)
    {h : RunHistory} {g : Progress} {w w' : World ρ} (hl : Level c P o h g w w') (report : φ) :
    let r := turns c.runtime reporter o engines h w report
    let d := reference c reporter o engines g w' report
    r.2.1.quiet = d.world.quiet ∧ r.2.2 = d.report ∧
      match d.result with
      | .error failure => r.1 = .error (.engine failure.fault)
      | .ok g' => ∃ h', r.1 = .ok h' ∧ h'.features = g'.features := by
  induction engines generalizing h g w w' report with
  | nil => exact ⟨hl.quiet, rfl, h, rfl, hl.agrees.features⟩
  | cons e rest ih =>
    obtain ⟨hquiet, hreport, hresult⟩ := turn_eq_step hfits htell e hl report
    unfold turns reference
    rcases hstep : step c reporter o e g w' report with ⟨failure | ⟨g₁, fs⟩, w₁', report₁⟩ <;>
      rcases hturn : turn c.runtime reporter o e h w report with ⟨result, w₁, report₁'⟩ <;>
      rw [hstep, hturn] at hquiet hreport hresult <;> dsimp only at hquiet hreport hresult
    -- A failure ends both; after any other turn both are level again.
    · subst hresult hreport
      exact ⟨hquiet, rfl, rfl⟩
    · obtain ⟨h₁, rfl, hl₁⟩ := hresult
      subst hreport
      exact ih hl₁ report₁'

/-- **A survey comes to its reference.**  Whatever scripts are assigned to the containers and
    whatever the findings a reporter declines, a plan without engines fails, and any other one
    ends with the result of the reference: the first failure of an engine, or the set that is
    made up of all that was passed on by the engines that have ended well.  The containers, the
    disk and the reporter are left as the reference leaves them. -/
theorem run_eq_reference (c : Casting ρ) (hfits : c.Fits P) (reporter : Reporter φ)
    (htell : ∀ notice report, (reporter.tell notice report).1 = .ok ()) (o : EngineOptions)
    (p : Plan) (w : World ρ) (hnames : w.names.Proper)
    (hdir : c.directory w.runtime = o.artifacts.inside) (hP : P w.runtime) (report : φ) :
    let r := run c.runtime reporter o p w report
    let d := reference c reporter o p.engines {} w (reporter.tell .started report).2
    if p.engines = [] then r = (.error (.plan .noEngines), w, reporter.close report)
    else
      r.2.1.quiet = d.world.quiet ∧
        match d.result with
        | .error failure =>
          r.1 = .error (.engine failure.fault) ∧ r.2.2 = reporter.close d.report
        | .ok g =>
          r.1 = .ok g.features ∧ g.features = .ofFeatures d.passed.flatten ∧
            r.2.2 = reporter.close (reporter.tell (.finished g.features) d.report).2 := by
  intro r d
  split
  · next hempty => simp only [r, run, runOpen, hempty, List.isEmpty_nil, if_true]
  next hsome =>
  -- Nothing has happened yet, so history and pair agree; the line about the start changes nothing
  -- that matters.
  have hstart : Level c P o {} {} w w := ⟨.start, rfl, hnames, hdir, hP⟩
  have hl := hstart.log (startLine p.engines.length)
  obtain ⟨hquiet, hreport, hresult⟩ :=
    turns_eq_reference hfits htell p.engines hl (reporter.tell .started report).2
  have hempty : p.engines.isEmpty = false := by simpa using hsome
  have hr : r = run c.runtime reporter o p w report := rfl
  unfold run runOpen at hr
  simp only [hempty, Bool.false_eq_true, if_false, tell_ok htell] at hr
  rcases hturns : turns c.runtime reporter o p.engines {} (w.log (startLine p.engines.length))
    (reporter.tell .started report).2 with ⟨result, w', report'⟩
  rw [hturns] at hquiet hreport hresult hr
  rcases hd : d.result with failure | g
  · rw [show d.result = _ from hd] at hresult
    dsimp only at hresult hreport hquiet
    subst hresult
    rw [hr]
    exact ⟨hquiet, rfl, by rw [hreport]⟩
  · rw [show d.result = _ from hd] at hresult
    obtain ⟨h, hok, hfeatures⟩ := hresult
    dsimp only at hok hreport hquiet
    subst hok
    simp only [finish, tell_ok htell, hfeatures, hreport] at hr
    rw [hr]
    exact ⟨hquiet, rfl, reference_features c reporter o p.engines {} w _ hd, rfl⟩

/-- The second engine waits for the feature that the first one reports, the third one for an
    engine that there is not. -/
theorem run_eq_reference_three_engines :
    let o := Sample.options
    let scan := Sample.scan
    let lint := { Sample.lint with rules := { engines := ["scan"], features := ["Git"] } }
    let wait := { Sample.engine "wait" "c" with rules := { engines := ["none"] } }
    let script : Container.Script := { frames := [Utf8.encode (Sample.document "Git")] }
    let w := Sample.world (Sample.rehearsal [("a", script)])
    ∃ (p : Plan) (g : Progress), p.engines = [scan, lint, wait] ∧
      (run Container.Rehearsal.casting.runtime .silent o p w ()).1 = .ok g.features ∧
        g.completed = ["scan", "lint"] := by
  intro o scan lint wait script w
  let p : Plan := ⟨[scan, lint, wait], by decide +kernel⟩
  have hfit : ∀ entry ∈ w.runtime.scripts, entry.2.Fits Container.documentDelimiter := by
    unfold Container.Script.Fits
    decide +kernel
  -- The reference is what is computed, and the run is known from it.
  have hcompleted :
      (reference Container.Rehearsal.casting .silent o p.engines {} w ()).result.toOption.map
        Progress.completed = some ["scan", "lint"] := by decide +kernel
  have hrun := run_eq_reference Container.Rehearsal.casting Container.Rehearsal.casting_fits .silent
    (fun _ _ => rfl) o p w (Names.ofSeed_proper 0) rfl hfit ()
  rw [if_neg (List.cons_ne_nil _ _)] at hrun
  rcases hd : (reference Container.Rehearsal.casting .silent o p.engines {} w ()).result with _ | g
  · rw [hd] at hcompleted
    exact nomatch hcompleted
  · rw [hd] at hcompleted
    obtain ⟨-, hresult⟩ := hrun
    rw [show (reference Container.Rehearsal.casting .silent o p.engines {} w
      (Report.Reporter.silent.tell .started ()).2).result = .ok g from hd] at hresult
    exact ⟨p, g, rfl, hresult.1, Option.some.inj hcompleted⟩

/-- A plan without engines fails, although there is nothing that its reference could fail over. -/
theorem run_without_engines :
    let o := Sample.options
    let w := Sample.world (Sample.rehearsal [])
    let p : Plan := ⟨[], .nil⟩
    (run Container.Rehearsal.casting.runtime .silent o p w ()).1 = .error (.plan .noEngines) ∧
      (reference Container.Rehearsal.casting .silent o p.engines {} w ()).result = .ok {} :=
  ⟨rfl, rfl⟩

end Survey
end StackSurvey
