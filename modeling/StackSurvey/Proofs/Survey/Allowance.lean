import StackSurvey.Proofs.Engine.Ration
import StackSurvey.Proofs.Survey.Visits
import StackSurvey.Report.Data
import StackSurvey.Report.Text

/-! # Each engine has its own allowance

    Both reports want only so many findings of an engine, and count them for that.  The count
    starts over with each engine, so all engines have the same allowance, whatever those before
    have reported.

    * `Counts`: what a reporter does with its count, and `Capped`: the reporters that there are.
    * `Counts.heard_eq_ration`: who counts in this way hears just the ration of the allowance.
    * `allowance_of_each_engine`: what all of this means for the visits of a survey. -/

namespace StackSurvey

open Container (Outcome Runtime)
open Report (DataReport FindingCap Notice Reporter TextReport)

variable {ρ φ : Type}

/-! ## Section 1: Reporters that count -/

namespace Report

/-- The reporter counts the findings since an engine was last said to be running, and wants more as
    long as the cap allows it.  Nothing else changes the count. -/
structure Reporter.Counts (reporter : Reporter φ) (cap : φ → FindingCap) : Prop where
  wanted : ∀ x r, (reporter.write x r).1 = (cap r).accept.1
  write : ∀ x r, cap (reporter.write x r).2 = (cap r).accept.2
  fail : ∀ message r, cap (reporter.fail message r).2 = cap r
  running : ∀ e r, cap (reporter.tell (.running e) r).2 = (cap r).reset
  started : ∀ r, cap (reporter.tell .started r).2 = cap r
  skipped : ∀ e r, cap (reporter.tell (.skipped e) r).2 = cap r
  ended : ∀ e outcome r, cap (reporter.tell (.ended e outcome) r).2 = cap r
  finished : ∀ features r, cap (reporter.tell (.finished features) r).2 = cap r
  close : ∀ r, cap (reporter.close r) = cap r

/-- The same reporter if what it writes to may fail, which it finds out when it is told of a
    stage. -/
def Reporter.faulty (reporter : Reporter φ) (fault? : Notice → φ → Option String) : Reporter φ :=
  { reporter with
    tell := fun notice r =>
      let (result, told) := reporter.tell notice r
      ((fault? notice r).elim result .error, told) }

/-- The reports that want at most `m` findings of an engine, before anything was reported, whatever
    they are written to.  With each goes its cap. -/
inductive Capped (m : Nat) : {φ : Type} → Reporter φ → (φ → FindingCap) → φ → Prop where
  | data : Capped m DataReport.reporter DataReport.cap (.ofLimit m)
  | text (colour : Bool) : Capped m TextReport.reporter TextReport.cap (.ofLimit colour m)
  | faulty {φ : Type} {reporter : Reporter φ} {cap : φ → FindingCap} {report : φ}
      (fault? : Notice → φ → Option String) (h : Capped m reporter cap report) :
      Capped m (reporter.faulty fault?) cap report

theorem DataReport.counts : reporter.Counts DataReport.cap := by
  constructor <;> intros <;> rfl

/-- Writing the features found leaves the cap as it is. -/
theorem TextReport.features_cap (fs : List Feature) (r : TextReport) :
    (r.features fs).cap = r.cap := by
  have hfold (r : TextReport) : (fs.foldl feature r).cap = r.cap := by
    induction fs generalizing r with
    | nil => rfl
    | cons f rest ih => exact ih (r.feature f)
  unfold features
  dsimp only
  rw [hfold]
  split <;> rfl

theorem TextReport.warning_cap (r : TextReport) : r.warning.cap = r.cap := by
  unfold warning
  split <;> rfl

theorem TextReport.counts : reporter.Counts TextReport.cap := by
  -- What the line says depends on the feature; the count does not.
  have hwrite (x : Finding) (r : TextReport) :
      (reporter.write x r).1 = r.cap.accept.1 ∧ (reporter.write x r).2.cap = r.cap.accept.2 := by
    show (write x r).1 = _ ∧ (write x r).2.cap = _
    unfold write
    cases x.feature? <;> exact ⟨rfl, rfl⟩
  constructor
  case wanted => exact fun x r => (hwrite x r).1
  case write => exact fun x r => (hwrite x r).2
  case finished =>
    intro features r
    exact (warning_cap _).trans (features_cap _ r)
  all_goals
    intros
    rfl

theorem Reporter.Counts.faulty {reporter : Reporter φ} {cap : φ → FindingCap}
    (h : reporter.Counts cap) (fault? : Notice → φ → Option String) :
    (reporter.faulty fault?).Counts cap :=
  { wanted := h.wanted, write := h.write, fail := h.fail, running := h.running
    started := h.started, skipped := h.skipped, ended := h.ended, finished := h.finished
    close := h.close }

theorem Capped.counts {m : Nat} {reporter : Reporter φ} {cap : φ → FindingCap} {report : φ}
    (h : Capped m reporter cap report) : reporter.Counts cap := by
  induction h with
  | data => exact DataReport.counts
  | text colour => exact TextReport.counts
  | faulty fault? _ ih => exact ih.faulty fault?

theorem Capped.cap_eq {m : Nat} {reporter : Reporter φ} {cap : φ → FindingCap} {report : φ}
    (h : Capped m reporter cap report) : cap report = .ofLimit m := by
  induction h with
  | data => rfl
  | text colour => rfl
  | faulty fault? _ ih => exact ih

namespace Reporter.Counts

variable {reporter : Reporter φ} {cap : φ → FindingCap} (h : reporter.Counts cap) (e : Engine)
include h

/-- The calls that documents make add the findings in them to the count. -/
theorem replay (documents : List Bytes) (r : φ) :
    cap (reporter.sink.replay (documents.filterMap e.call?) r) =
      { cap r with count := (cap r).count + (e.reported documents).length } := by
  -- By induction on the documents: a finding counts one, and nothing else does.
  induction documents generalizing r with
  | nil => rfl
  | cons document rest ih =>
    rcases hc : e.call? document with _ | ⟨x | message⟩
    · rw [List.filterMap_cons_none hc, Engine.reported_cons_silent hc]
      exact ih r
    · obtain ⟨f, hf⟩ := Engine.feature?_of_write hc
      rw [List.filterMap_cons_some hc, Engine.reported, List.filterMap_cons_some hf]
      refine (ih (reporter.write x r).2).trans ?_
      rw [h.write]
      show FindingCap.mk _ ((cap r).count + 1 + _) = FindingCap.mk _ ((cap r).count + (_ + 1))
      rw [Nat.add_assoc, Nat.add_comm 1]
      rfl
    · have hnone : e.feature? document = none := by rw [Engine.feature?, hc]; rfl
      rw [List.filterMap_cons_some hc, Engine.reported, List.filterMap_cons_none hnone]
      refine (ih (reporter.fail message r).2).trans ?_
      rw [h.fail]
      rfl

/-- **Who counts hears a ration**, and stops the engine just if the ration is used up or there is an
    invalid document. -/
theorem heard_eq_ration (documents : List Bytes) {g : Gathering φ} {room : Nat} (hroom : 0 < room)
    (hcap : (cap g.report).count + room = (cap g.report).limit) :
    e.heard (Gathering.sink reporter) documents g = e.ration room documents ∧
      ((e.digest (Gathering.sink reporter) documents g).stopped = true ↔
        room ≤ (e.due documents).length ∨ ∃ d ∈ documents, e.isInvalid d = true) := by
  -- By induction on the documents.  The invariant is that the count and the room make up the limit;
  -- each finding moves one from the room to the count.
  induction documents generalizing g room with
  | nil =>
    refine ⟨rfl, ?_⟩
    simp only [Engine.digest, Engine.due, Engine.reported, List.takeWhile_nil, List.filterMap_nil,
      List.length_nil, List.not_mem_nil, false_and, exists_false, or_false, Bool.false_eq_true,
      false_iff]
    omega
  | cons document rest ih =>
    rcases hc : e.call? document with _ | ⟨x | message⟩
    · have hanswer := Engine.answer_of_silent hc (Gathering.sink reporter) g
      obtain ⟨hheard, hstopped⟩ := ih hroom hcap
      rw [Engine.heard_cons_continue hanswer, Engine.digest_stopped_of_continue hanswer,
        Engine.ration_cons_silent hc, Engine.due_cons_silent hc, hheard, hstopped]
      simp [Engine.isInvalid_of_silent hc]
    · obtain ⟨f, hf⟩ := Engine.feature?_of_write hc
      have hanswer := Engine.answer_of_write hc (Gathering.sink reporter) g
      have hwanted : ((Gathering.sink reporter).write x g).1 =
          decide ((cap g.report).count + 1 < (cap g.report).limit) := h.wanted x g.report
      have hafter : cap ((Gathering.sink reporter).write x g).2.report =
          { cap g.report with count := (cap g.report).count + 1 } := h.write x g.report
      rw [hwanted] at hanswer
      rw [Engine.due_cons_finding hc hf, List.length_cons]
      by_cases hmore : 1 < room
      · rw [decide_eq_true (by omega : (cap g.report).count + 1 < _), if_pos rfl] at hanswer
        have hless : 0 < room - 1 := by omega
        obtain ⟨hheard, hstopped⟩ := ih (g := ((Gathering.sink reporter).write x g).2) hless
          (by rw [hafter]; dsimp only; omega)
        rw [Engine.heard_cons_continue hanswer, Engine.digest_stopped_of_continue hanswer,
          Engine.ration_cons_wanted hc hmore, hheard, hstopped]
        have hroom' : room - 1 ≤ (e.due rest).length ↔ room ≤ (e.due rest).length + 1 := by omega
        simp [Engine.isInvalid_of_write hc, hroom']
      · -- No room after this one: the reporter says so, and the engine is stopped here.
        rw [decide_eq_false (by omega : ¬ (cap g.report).count + 1 < _)] at hanswer
        rw [Engine.heard_cons_stop hanswer, Engine.digest_stopped_of_stop hanswer,
          Engine.ration_cons_last hc hmore]
        exact ⟨rfl, fun _ => .inl (by omega), fun _ => rfl⟩
    · have hanswer := Engine.answer_of_fail hc (Gathering.sink reporter) g
      rw [Engine.heard_cons_stop hanswer, Engine.digest_stopped_of_stop hanswer,
        Engine.ration_cons_invalid hc]
      exact ⟨rfl, fun _ => .inr ⟨document, List.mem_cons_self, Engine.isInvalid_of_fail hc⟩,
        fun _ => rfl⟩

end Reporter.Counts
end Report

/-! ## Section 2: What a visit may take -/

namespace Survey

/-- The count of a reporter that wants at most `limit` findings of an engine, in a visit. -/
structure Visit.Counted (v : Visit ρ φ) (reporter : Reporter φ) (cap : φ → FindingCap)
    (limit : Nat) : Prop where
  before : (cap v.report).count ≤ limit
  /-- Once the engine runs, it is the number of findings among its documents so far. -/
  during : ∀ front, front <+: v.delivered →
    (cap (v.reportAt reporter front)).count = (v.engine.reported front).length ∧
      (v.engine.reported front).length ≤ limit
  after : (cap v.reportAfter).count ≤ limit

/-- What a visit comes to if the container writes these documents and does well, and at most `limit`
    findings are wanted. -/
structure Visit.Rationed (v : Visit ρ φ) (reporter : Reporter φ) (outcome : Outcome)
    (documents : List Bytes) (limit : Nat) : Prop where
  merged : (reporter.tell (.ended v.engine outcome) (v.reportAt reporter v.delivered)).1 = .ok () →
    v.result = .ok ((v.history.record v.engine.name).merge ((v.engine.due documents).take limit))
  delivered : v.delivered <+: documents
  /-- The engine is stopped at the last finding that is wanted, if it is due. -/
  spent : limit ≤ (v.engine.due documents).length → outcome.stopped = true ∧
    (∃ front last f, v.delivered = front ++ [last] ∧ v.engine.feature? last = some f ∧
      (v.engine.reported front).length + 1 = limit) ∧
    ∀ document ∈ v.delivered, v.engine.isInvalid document = false
  /-- Otherwise it is stopped at the first invalid document and not without one. -/
  unspent : (v.engine.due documents).length < limit →
    v.delivered = v.engine.audible documents ∧
      (outcome.stopped = true ↔ ∃ document ∈ documents, v.engine.isInvalid document = true)

/-- The visit keeps to the limit.  If its engine ends well and no document of what its container
    writes is too long, the engine gets all of its ration. -/
structure Visit.Fair (v : Visit ρ φ) (reporter : Reporter φ) (cap : φ → FindingCap)
    (stream : Disk → Container.Spec → ρ → Bytes) (limit : Nat) : Prop where
  counted : v.Counted reporter cap limit
  rationed : ∀ a outcome, v.attempt? = some a → a.answer = .ok outcome → outcome.isSuccess = true →
    let documents := Splitter.documents Container.documentDelimiter (stream a.disk a.spec a.runtime)
    (∀ d ∈ documents, d.length ≤ defaultChunkLimit) → v.Rationed reporter outcome documents limit

section visiting

variable {rt : Runtime ρ} {reporter : Reporter φ} {cap : φ → FindingCap}
  (hcounts : reporter.Counts cap) (o : EngineOptions)
include hcounts

/-- While an engine runs, the findings among its documents are counted and no others. -/
theorem cap_reportAt (v : Visit ρ φ) (documents : List Bytes) :
    cap (v.reportAt reporter documents) =
      { cap v.report with count := (v.engine.reported documents).length } := by
  rw [Visit.reportAt, hcounts.replay, hcounts.running]
  show FindingCap.mk _ (0 + _) = _
  rw [Nat.zero_add]
  rfl

variable {limit : Nat} (hlimit : 0 < limit)
include hlimit

/-- Who is told that an engine runs hears the ration of it that the limit allows. -/
theorem heard_from_start (e : Engine) {report report₁ : φ} (hcap : (cap report).limit = limit)
    (htell : reporter.tell (.running e) report = (.ok (), report₁)) (documents : List Bytes) :
    e.heard (Gathering.sink reporter) documents { report := report₁ } =
        e.ration limit documents ∧
      ((e.digest (Gathering.sink reporter) documents { report := report₁ }).stopped = true ↔
        limit ≤ (e.due documents).length ∨ ∃ d ∈ documents, e.isInvalid d = true) := by
  have hreset : cap report₁ = (cap report).reset := by
    rw [← hcounts.running e report, htell]
  apply hcounts.heard_eq_ration e documents hlimit
  rw [hreset]
  exact (Nat.zero_add limit).trans hcap.symm

/-- **The count stays within the limit in a visit**, and the limit stays as it is. -/
theorem visit_counted (hrt : rt.Dutiful) (e : Engine) (h : RunHistory) (w : World ρ) {report : φ}
    (hcap : (cap report).limit = limit) (hcount : (cap report).count ≤ limit) :
    let v := visit rt reporter o e h w report
    v.Counted reporter cap limit ∧ (cap v.reportAfter).limit = limit := by
  intro v
  -- What is left of the count after the visit, and how many findings there were at most.
  have hvisit : (cap v.reportAfter = cap report ∨
      cap v.reportAfter = cap (v.reportAt reporter v.delivered)) ∧
        (e.reported v.delivered).length ≤ limit := by
    rcases visit_cases reporter o e h w report hrt with
      hskipped | hidle | ⟨-, outcome, report₁, chunks, -, htell, hheard⟩
    · have hnone : v.delivered = [] := Visit.delivered_of_untold hskipped.untold
      rw [hnone]
      refine ⟨.inl ?_, Nat.zero_le limit⟩
      rw [hskipped.report]
      exact hcounts.skipped e report
    · have hnone : v.delivered = [] := Visit.delivered_of_untold hidle.untold
      rw [hnone]
      exact ⟨.inr (congrArg cap hidle.report), Nat.zero_le limit⟩
    · obtain ⟨hration, -⟩ := heard_from_start hcounts hlimit e hcap htell chunks
      rw [hheard.delivered]
      refine ⟨.inr ?_, ?_⟩
      · rcases hheard.report_cases with hafter | hafter
        · rw [hafter]
        · rw [hafter]
          exact hcounts.ended e outcome _
      · rw [hration, e.reported_ration hlimit]
        exact List.length_take_le limit _
  obtain ⟨hafter, hwithin⟩ := hvisit
  have hlength : ∀ front, front <+: v.delivered → (e.reported front).length ≤ limit := by
    intro front hfront
    exact (hfront.filterMap e.feature?).length_le.trans hwithin
  refine ⟨⟨hcount, ?_, ?_⟩, ?_⟩
  · intro front hfront
    exact ⟨by rw [cap_reportAt hcounts], hlength front hfront⟩
  · rcases hafter with hafter | hafter
    · rw [hafter]
      exact hcount
    · rw [hafter, cap_reportAt hcounts]
      exact hwithin
  · rcases hafter with hafter | hafter
    · rw [hafter]
      exact hcap
    · rw [hafter, cap_reportAt hcounts]
      exact hcap

/-- **A visit takes a ration of what the container writes.** -/
theorem visit_rationed {stream : Disk → Container.Spec → ρ → Bytes} (hrt : rt.Streams stream)
    {e : Engine} {h : RunHistory} {w : World ρ} {report : φ} (hcap : (cap report).limit = limit)
    {a : Attempt ρ} {outcome : Outcome}
    (hattempt : (visit rt reporter o e h w report).attempt? = some a)
    (hanswer : a.answer = .ok outcome) (hsuccess : outcome.isSuccess = true) {documents : List Bytes}
    (hdocuments : documents =
      Splitter.documents Container.documentDelimiter (stream a.disk a.spec a.runtime))
    (hfit : ∀ d ∈ documents, d.length ≤ defaultChunkLimit) :
    (visit rt reporter o e h w report).Rationed reporter outcome documents limit := by
  let v := visit rt reporter o e h w report
  have houtcome : v.outcome? = some outcome := by
    show v.attempt?.bind _ = _
    rw [show v.attempt? = _ from hattempt]
    show a.answer.toOption = _
    rw [hanswer]
    rfl
  obtain ⟨hrun, report₁, a', htell, hattempt', hasked, -⟩ := attempt_of_outcome houtcome
  obtain rfl : a' = a := Option.some.inj (hattempt'.symm.trans hattempt)
  obtain ⟨hresult, htells, hstop⟩ :=
    Engine.run_of_success hrt hasked hanswer hsuccess hdocuments hfit
  have hok : e.ending o outcome = .ok outcome := Engine.ending_eq_ok_iff.2 ⟨hsuccess, rfl⟩
  have hheard := visit_heard hrun htell (hresult.trans hok.symm) htells
  obtain ⟨hration, hiff⟩ := heard_from_start hcounts hlimit e hcap htell documents
  -- The reporter starts over for each engine, so the ration is that of the whole limit.
  have hdelivered : v.delivered = e.ration limit documents := hheard.delivered.trans hration
  refine ⟨?_, ?_, ?_, ?_⟩
  · intro htold
    rw [hheard.delivered] at htold
    rw [(hheard.ended hok).1, htold, Engine.passed_calls, hration]
    exact congrArg (fun fs => Except.ok ((h.record e.name).merge fs))
      (e.reported_ration hlimit documents)
  · show v.delivered <+: documents
    rw [hdelivered, ← hration]
    exact e.heard_prefix _ _ _
  · intro hspent
    show outcome.stopped = true ∧ (∃ front last f, v.delivered = _ ∧ _) ∧ ∀ d ∈ v.delivered, _
    rw [hdelivered, hstop, hiff]
    exact ⟨.inl hspent, e.ration_spent hlimit hspent⟩
  · -- With room left it can only have been an invalid document that stopped the engine.
    intro hunspent
    show v.delivered = _ ∧ _
    rw [hdelivered, hstop, hiff]
    refine ⟨e.ration_unspent hunspent, ?_⟩
    have hless : ¬ limit ≤ (e.due documents).length := Nat.not_le.2 hunspent
    exact or_iff_right hless

end visiting

/-! ## Section 3: All visits -/

/-- What holds between two visits: those so far were fair, the limit is the one they kept to, and
    the count is within it. -/
structure Within (reporter : Reporter φ) (cap : φ → FindingCap)
    (stream : Disk → Container.Spec → ρ → Bytes) (limit : Nat) (before : List (Visit ρ φ))
    (report : φ) : Prop where
  fair : ∀ v ∈ before, v.Fair reporter cap stream limit
  bound : (cap report).limit = limit
  count : (cap report).count ≤ limit

variable {reporter : Reporter φ} {cap : φ → FindingCap} {report : φ}
  {stream : Disk → Container.Spec → ρ → Bytes}

theorem within_start {m : Nat} (hcap : cap report = .ofLimit m) :
    Within reporter cap stream (max m 1) [] report := by
  constructor
  case fair => exact List.forall_mem_nil _
  case bound =>
    rw [hcap]
    rfl
  case count =>
    rw [hcap]
    exact Nat.zero_le _

/-- A visit that begins within the limit is fair and leaves the report within it. -/
theorem Within.visit {limit : Nat} {before : List (Visit ρ φ)}
    (hwithin : Within reporter cap stream limit before report) (hcounts : reporter.Counts cap)
    (o : EngineOptions) (hlimit : 0 < limit) {rt : Runtime ρ} (hrt : rt.Streams stream) (e : Engine)
    (h : RunHistory) (w : World ρ) :
    let v := visit rt reporter o e h w report
    Within reporter cap stream limit (before ++ [v]) v.reportAfter := by
  intro v
  obtain ⟨hcounted, hafter⟩ :=
    visit_counted hcounts o hlimit hrt.dutiful e h w hwithin.bound hwithin.count
  have hfair : v.Fair reporter cap stream limit := by
    refine ⟨hcounted, ?_⟩
    intro a outcome hattempt hanswer hsuccess documents hfit
    exact visit_rationed hcounts o hlimit hrt hwithin.bound hattempt hanswer hsuccess rfl hfit
  refine ⟨?_, hafter, hcounted.after⟩
  intro v' hv'
  rcases List.mem_append.1 hv' with hold | hnew
  · exact hwithin.fair v' hold
  · obtain rfl := List.mem_singleton.1 hnew
    exact hfair

/-- **Each engine has its own allowance.**  The findings of an engine that ends well are those that
    come before its first invalid document, up to the number wanted.  The engine is stopped at the
    last of them, and nothing that came before takes away from it.  At no time are more findings
    counted than are wanted of one engine.  Each visit goes on from what the one before it has
    ended with, and a survey that ends well gives the features of the last one. -/
theorem allowance_of_each_engine {rt : Runtime ρ} {stream : Disk → Container.Spec → ρ → Bytes}
    (hrt : rt.Streams stream) {m : Nat} {reporter : Reporter φ} {cap : φ → FindingCap} {report : φ}
    (hcapped : Report.Capped m reporter cap report) (o : EngineOptions) (p : Plan) (w : World ρ) :
    let vs := itinerary rt reporter o p w report
    let r := run rt reporter o p w report
    (∀ v ∈ vs, v.Fair reporter cap stream (max m 1)) ∧ (cap r.2.2).count ≤ max m 1 ∧
      vs.IsChain Visit.LeadsTo ∧ ∀ features, r.1 = .ok features →
        ∃ v h, vs.getLast? = some v ∧ v.result = .ok h ∧ h.features = features := by
  intro vs r
  refine and_assoc.1 ⟨?_, itinerary_linked rt reporter o p w report,
    fun features => features_of_last_visit rt reporter o p w report⟩
  have hcounts := hcapped.counts
  have hlimit : 0 < max m 1 := by omega
  have hstarted : ∀ result report₁, reporter.tell .started report = (result, report₁) →
      Within reporter cap stream (max m 1) [] report₁ := by
    intro result report₁ htell
    apply within_start
    rw [← hcapped.cap_eq, ← hcounts.started report, htell]
  rcases run_course rt reporter o p w report with
    ⟨-, hvisits, hrun⟩ | ⟨-, hvisits, reason, report₁, htell, hrun⟩ |
      ⟨-, report₁, htell, hvisits, hrun⟩
  -- Closing leaves the count as it is, so it is within the limit where no engine is visited.
  · have hwithin : Within reporter cap stream (max m 1) [] report := within_start hcapped.cap_eq
    simp only [vs, r, hvisits, hrun, hcounts.close]
    exact ⟨hwithin.fair, hwithin.count⟩
  · have hwithin := hstarted _ _ htell
    simp only [vs, r, hvisits, hrun, hcounts.close]
    exact ⟨hwithin.fair, hwithin.count⟩
  · have hwithin := turns_invariant (P := fun before _ => Within reporter cap stream (max m 1) before)
      rt reporter o (fun _ e h w _ hbefore => hbefore.visit hcounts o hlimit hrt e h w) p.engines []
      {} (w.log (startLine p.engines.length)) report₁ (hstarted _ _ htell)
    rw [List.nil_append, ← hvisits] at hwithin
    refine ⟨hwithin.fair, ?_⟩
    rcases hrun with ⟨failure, -, hrun⟩ | ⟨h, -, hrun⟩
    · simp only [r, hrun, hcounts.close]
      exact hwithin.count
    · simp only [r, hrun, hcounts.close]
      exact (congrArg FindingCap.count (hcounts.finished h.features _)).trans_le hwithin.count

/-- Two findings are wanted of each engine.  The first engine is stopped at its second one, before
    an invalid document; that does not keep the second engine from reporting as many. -/
theorem allowance_of_each_engine_two :
    let o := Sample.options
    let document (feature : String) : String := Sample.document feature ++ "\x00"
    let w := Sample.world (Sample.rehearsal [
      ("a", { frames := [Utf8.encode (document "Git" ++ "\n\x00" ++ document "Svn" ++ "[]")] }),
      ("b", { frames := [Utf8.encode (document "Hg" ++ document "Git" ++ document "Cvs")] })])
    ∃ p : Plan, p.engines = [Sample.scan, Sample.lint] ∧
      let vs := itinerary Container.Rehearsal.runtime DataReport.reporter o p w (.ofLimit 2)
      vs.map (fun v => (v.engine.name, (v.engine.reported v.delivered).map Feature.name)) =
        [("scan", ["Git", "Svn"]), ("lint", ["Hg", "Git"])] ∧
      ∀ v ∈ vs, v.Counted DataReport.reporter DataReport.cap 2 ∧
        ∃ outcome documents, v.Rationed DataReport.reporter outcome documents 2 ∧
          outcome.stopped = true := by
  intro o document w
  let p : Plan := ⟨[Sample.scan, Sample.lint], by decide +kernel⟩
  let stream := Container.Rehearsal.casting.stream
  let documents (a : Attempt Container.Rehearsal) : List Bytes :=
    Splitter.documents Container.documentDelimiter (stream a.disk a.spec a.runtime)
  let vs := itinerary Container.Rehearsal.runtime DataReport.reporter o p w (.ofLimit 2)
  -- What is to be seen by playing the scripts back.
  let fits (v : Visit Container.Rehearsal DataReport) : Bool := v.attempt?.any fun a =>
    a.answer.toOption.any (·.isSuccess) &&
      (documents a).all (fun d => d.length ≤ defaultChunkLimit) &&
      2 ≤ (v.engine.due (documents a)).length
  have hvalues : (vs.map fun v => (v.engine.name, (v.engine.reported v.delivered).map Feature.name),
      vs.all fits) = ([("scan", ["Git", "Svn"]), ("lint", ["Hg", "Git"])], true) := by decide +kernel
  obtain ⟨hreported, hfits⟩ := Prod.mk.inj hvalues
  obtain ⟨hfair, -⟩ := allowance_of_each_engine Container.Rehearsal.streams (Report.Capped.data) o p w
    (m := 2)
  refine ⟨p, rfl, hreported, ?_⟩
  intro v hv
  obtain ⟨a, hattempt, hfit⟩ := Option.any_eq_true _ _ |>.1 (List.all_eq_true.1 hfits v hv)
  simp only [Bool.and_eq_true, List.all_eq_true, decide_eq_true_eq] at hfit
  obtain ⟨⟨hsuccess, hlength⟩, hdue⟩ := hfit
  rcases hanswer : a.answer with failure | outcome
  · rw [hanswer] at hsuccess
    cases hsuccess
  · rw [hanswer] at hsuccess
    have hrationed := (hfair v hv).rationed a outcome hattempt hanswer hsuccess hlength
    exact ⟨(hfair v hv).counted, outcome, documents a, hrationed, (hrationed.spent hdue).1⟩

end Survey
end StackSurvey
