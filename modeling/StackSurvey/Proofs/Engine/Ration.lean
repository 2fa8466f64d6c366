import StackSurvey.Proofs.Engine.Hearing
import StackSurvey.Proofs.Engine.Launch

/-! # Rations

    Whoever wants only so many findings of an engine hears the documents up to the finding that is
    one too many, and in any case none after an invalid one.  `ration` is what is heard then.

    * `reported_ration`: the findings in it are the first of those that are due.
    * `ration_spent`: if it is used up, it ends with a finding, and no invalid document is heard.
    * `ration_unspent`: if it is not used up, all is heard up to the first invalid document.
    * `run_of_success`: an engine that ends well is heard as if all its documents had come. -/

namespace StackSurvey.Engine

variable {σ : Type}

/-! ## Section 1: Documents -/

def feature? (e : Engine) (document : Bytes) : Option Feature :=
  (e.call? document).bind SinkCall.feature?

/-- The features that documents report, in order. -/
def reported (e : Engine) (documents : List Bytes) : List Feature :=
  documents.filterMap e.feature?

def isInvalid (e : Engine) (document : Bytes) : Bool := (e.complaint? document).isSome

/-- The features that documents report before the first invalid one. -/
def due (e : Engine) (documents : List Bytes) : List Feature :=
  e.reported (documents.takeWhile fun document => !e.isInvalid document)

/-- The documents up to the first invalid one, which is among them. -/
def audible (e : Engine) (documents : List Bytes) : List Bytes :=
  documents.takeWhile (fun document => !e.isInvalid document) ++
    (documents.dropWhile fun document => !e.isInvalid document).take 1

/-- The documents up to the finding that is the last one wanted, or to the first invalid one. -/
def ration (e : Engine) : Nat → List Bytes → List Bytes
  | _, [] => []
  | room, document :: rest =>
    match e.call? document with
    | none => document :: e.ration room rest
    | some (.fail _) => [document]
    | some (.write _) => if 1 < room then document :: e.ration (room - 1) rest else [document]

/-- A finding that is written reports a feature. -/
theorem feature?_of_write {e : Engine} {document : Bytes} {x : Finding}
    (h : e.call? document = some (.write x)) : ∃ f, e.feature? document = some f := by
  have hfeature : e.feature? document = x.feature? := by rw [feature?, h]; rfl
  unfold call? at h
  rcases hv : e.verdict document with _ | message | _ | y <;> rw [hv] at h <;> cases h
  obtain ⟨f, rfl, -, -⟩ := verdict_reported hv
  exact ⟨f.withEngine e.name, hfeature⟩

theorem isInvalid_eq (e : Engine) (document : Bytes) :
    e.isInvalid document = ((e.call? document).bind SinkCall.complaint?).isSome := by
  rw [isInvalid, complaint?_call?]

/-- The features of documents are those that their calls pass on. -/
theorem passed_calls (e : Engine) (documents : List Bytes) :
    passed (documents.filterMap e.call?) = e.reported documents := by
  rw [passed, List.filterMap_filterMap]
  rfl

/-! ## Section 2: One more document -/

section step

variable {e : Engine} {document : Bytes} {rest : List Bytes} {room : Nat}

section silent

variable (h : e.call? document = none)
include h

theorem reported_cons_silent : e.reported (document :: rest) = e.reported rest :=
  List.filterMap_cons_none (by rw [feature?, h]; rfl)

theorem isInvalid_of_silent : e.isInvalid document = false := by
  rw [isInvalid_eq, h]
  rfl

theorem due_cons_silent : e.due (document :: rest) = e.due rest := by
  have hvalid := isInvalid_of_silent h
  rw [due, List.takeWhile_cons_of_pos (by rw [hvalid]; rfl)]
  exact reported_cons_silent h

theorem answer_of_silent (sink : Sink σ) (s : σ) : e.answer sink document s = (.continue, s) := by
  unfold call? at h
  unfold answer
  rcases hv : e.verdict document with _ | message | _ | x
  · rfl
  · rw [hv] at h
    cases h
  · rfl
  · rw [hv] at h
    cases h

theorem ration_cons_silent : e.ration room (document :: rest) = document :: e.ration room rest := by
  simp only [ration, h]

end silent

section invalid

variable {message : String} (h : e.call? document = some (.fail message))
include h

theorem isInvalid_of_fail : e.isInvalid document = true := by
  rw [isInvalid_eq, h]
  rfl

theorem due_cons_invalid : e.due (document :: rest) = [] := by
  have hinvalid := isInvalid_of_fail h
  rw [due, List.takeWhile_cons_of_neg (by rw [hinvalid]; decide)]
  rfl

theorem answer_of_fail (sink : Sink σ) (s : σ) :
    e.answer sink document s = (.stop, (sink.fail message s).2) := by
  unfold call? at h
  unfold answer
  rcases hv : e.verdict document with _ | message' | _ | x <;> rw [hv] at h <;> cases h
  rfl

theorem ration_cons_invalid : e.ration room (document :: rest) = [document] := by
  simp only [ration, h]

end invalid

section finding

variable {x : Finding} (h : e.call? document = some (.write x))
include h

theorem isInvalid_of_write : e.isInvalid document = false := by
  rw [isInvalid_eq, h]
  rfl

theorem due_cons_finding {f : Feature} (hf : e.feature? document = some f) :
    e.due (document :: rest) = f :: e.due rest := by
  have hvalid := isInvalid_of_write h
  rw [due, List.takeWhile_cons_of_pos (by rw [hvalid]; rfl)]
  exact List.filterMap_cons_some hf

theorem answer_of_write (sink : Sink σ) (s : σ) :
    e.answer sink document s =
      (if (sink.write x s).1 then .continue else .stop, (sink.write x s).2) := by
  unfold call? at h
  unfold answer
  rcases hv : e.verdict document with _ | message | _ | y <;> rw [hv] at h <;> cases h
  rcases hw : sink.write x s with ⟨_ | _, s'⟩ <;> simp only [hw] <;> rfl

theorem ration_cons_wanted (hroom : 1 < room) :
    e.ration room (document :: rest) = document :: e.ration (room - 1) rest := by
  simp only [ration, h, if_pos hroom]

theorem ration_cons_last (hroom : ¬ 1 < room) : e.ration room (document :: rest) = [document] := by
  simp only [ration, h, if_neg hroom]

end finding

end step

/-! ## Section 3: What is in a ration -/

/-- **A ration has the first of the findings that are due**, as many as there is room for. -/
theorem reported_ration (e : Engine) {room : Nat} (hroom : 0 < room) (documents : List Bytes) :
    e.reported (e.ration room documents) = (e.due documents).take room := by
  -- By induction on the documents, the room shrinking with each finding.
  induction documents generalizing room with
  | nil => exact List.take_nil.symm
  | cons document rest ih =>
    rcases h : e.call? document with _ | ⟨x | message⟩
    · rw [ration_cons_silent h, due_cons_silent h, reported_cons_silent h, ih hroom]
    · obtain ⟨f, hf⟩ := feature?_of_write h
      rw [due_cons_finding h hf]
      by_cases hmore : 1 < room
      · have hrest : 0 < room - 1 := by omega
        obtain ⟨less, rfl⟩ : ∃ less, room = less + 1 := ⟨room - 1, by omega⟩
        rw [ration_cons_wanted h hmore, List.take_succ_cons, reported, List.filterMap_cons_some hf]
        exact congrArg (f :: ·) (ih hrest)
      · -- The last finding that there is room for is still heard.
        obtain rfl : room = 1 := by omega
        rw [ration_cons_last h hmore, reported, List.filterMap_cons_some hf]
        rfl
    · rw [ration_cons_invalid h, due_cons_invalid h, List.take_nil, reported]
      exact List.filterMap_cons_none (by rw [feature?, h]; rfl)

/-- **A ration that is used up ends with the last finding that was wanted**, and there is no
    invalid document in it. -/
theorem ration_spent (e : Engine) {room : Nat} (hroom : 0 < room) {documents : List Bytes}
    (h : room ≤ (e.due documents).length) :
    (∃ front last f, e.ration room documents = front ++ [last] ∧ e.feature? last = some f ∧
        (e.reported front).length + 1 = room) ∧
      ∀ d ∈ e.ration room documents, e.isInvalid d = false := by
  -- By induction on the documents: the finding at which the room is used up is the last document.
  induction documents generalizing room with
  | nil =>
    rw [show e.due [] = [] from rfl, List.length_nil] at h
    omega
  | cons document rest ih =>
    rcases hc : e.call? document with _ | ⟨x | message⟩
    · -- A silent document is heard and takes no room.
      rw [due_cons_silent hc] at h
      obtain ⟨⟨front, last, f, hration, hf, hlength⟩, hvalid⟩ := ih hroom h
      rw [ration_cons_silent hc]
      refine ⟨⟨document :: front, last, f, by rw [hration, List.cons_append], hf, ?_⟩, ?_⟩
      · rw [reported_cons_silent hc, hlength]
      · exact List.forall_mem_cons.2 ⟨isInvalid_of_silent hc, hvalid⟩
    · obtain ⟨f', hf'⟩ := feature?_of_write hc
      rw [due_cons_finding hc hf', List.length_cons] at h
      by_cases hmore : 1 < room
      · obtain ⟨⟨front, last, f, hration, hf, hlength⟩, hvalid⟩ :=
          ih (show 0 < room - 1 by omega) (by omega)
        rw [ration_cons_wanted hc hmore]
        refine ⟨⟨document :: front, last, f, by rw [hration, List.cons_append], hf, ?_⟩, ?_⟩
        · rw [reported, List.filterMap_cons_some hf', List.length_cons]
          unfold reported at hlength
          omega
        · exact List.forall_mem_cons.2 ⟨isInvalid_of_write hc, hvalid⟩
      · have hone : room = 1 := by omega
        rw [ration_cons_last hc hmore, hone]
        refine ⟨⟨[], document, f', rfl, hf', rfl⟩, ?_⟩
        exact List.forall_mem_singleton.2 (isInvalid_of_write hc)
    · -- An invalid document is the end of what is due, so no room could be used up.
      rw [due_cons_invalid hc, List.length_nil] at h
      omega

/-- **A ration that is not used up is all there is** up to the first invalid document. -/
theorem ration_unspent (e : Engine) {room : Nat} {documents : List Bytes}
    (h : (e.due documents).length < room) : e.ration room documents = e.audible documents := by
  induction documents generalizing room with
  | nil => rfl
  | cons document rest ih =>
    rcases hc : e.call? document with _ | ⟨x | message⟩
    · have hvalid := isInvalid_of_silent hc
      rw [due_cons_silent hc] at h
      rw [ration_cons_silent hc, ih h]
      simp [audible, hvalid]
    · -- There is room for another one after this finding.
      have hvalid := isInvalid_of_write hc
      obtain ⟨f, hf⟩ := feature?_of_write hc
      rw [due_cons_finding hc hf, List.length_cons] at h
      rw [ration_cons_wanted hc (by omega), ih (by omega)]
      simp [audible, hvalid]
    · have hinvalid := isInvalid_of_fail hc
      rw [ration_cons_invalid hc]
      simp [audible, hinvalid]

/-! ## Section 4: What comes after the end -/

section ended

variable {e : Engine} {sink : Sink σ} {document : Bytes} {rest : List Bytes} {s s' : σ}

/-- A digest ends where no more documents are wanted. -/
theorem digest_stopped_of_stop (h : e.answer sink document s = (.stop, s')) :
    (e.digest sink (document :: rest) s).stopped = true := by
  unfold answer at h
  rcases hv : e.verdict document with _ | message | _ | x <;> rw [hv] at h
  · cases h
  · rw [digest_cons_invalid hv]
  · cases h
  · rcases hw : sink.write x s with ⟨_ | _, s₁⟩
    · rw [digest_cons_declined hv hw]
    · simp only [hw] at h
      cases h

theorem digest_stopped_of_continue (h : e.answer sink document s = (.continue, s')) :
    (e.digest sink (document :: rest) s).stopped = (e.digest sink rest s').stopped := by
  unfold answer at h
  rcases hv : e.verdict document with _ | message | _ | x <;> rw [hv] at h
  · cases h
    rw [digest_cons_blank hv]
  · cases h
  · cases h
    rw [digest_cons_excluded hv]
  · rcases hw : sink.write x s with ⟨_ | _, s₁⟩ <;> simp only [hw] at h <;> cases h
    rw [digest_cons_taken hv hw]

end ended

/-- **Documents that come after the end make no difference.** -/
theorem heard_append_of_stopped (e : Engine) (sink : Sink σ) {documents : List Bytes}
    (more : List Bytes) {s : σ} (h : (e.digest sink documents s).stopped = true) :
    e.heard sink (documents ++ more) s = e.heard sink documents s ∧
      (e.digest sink (documents ++ more) s).stopped = true := by
  -- What comes after the document at which the engine was stopped is never looked at.
  induction documents generalizing s with
  | nil => cases h
  | cons document rest ih =>
    rw [List.cons_append]
    rcases hanswer : e.answer sink document s with ⟨_ | _, s'⟩
    · rw [digest_stopped_of_continue hanswer] at h ⊢
      rw [heard_cons_continue hanswer, heard_cons_continue hanswer, (ih h).1]
      exact ⟨rfl, (ih h).2⟩
    · rw [heard_cons_stop hanswer, heard_cons_stop hanswer]
      exact ⟨rfl, digest_stopped_of_stop hanswer⟩

/-- **An engine that ends well is heard as if all its documents had come**, though it may have been
    stopped long before. -/
theorem run_of_success {ρ : Type} {rt : Container.Runtime ρ}
    {stream : Disk → Container.Spec → ρ → Bytes} (hrt : rt.Streams stream) {e : Engine}
    {o : EngineOptions} {sink : Sink σ} {features : FeatureSet} {w : World ρ} {s : σ}
    {a : Attempt ρ} {outcome : Container.Outcome}
    (h : e.attempt? rt sink o features w s = some a) (ha : a.answer = .ok outcome)
    (hsuccess : outcome.isSuccess = true) {documents : List Bytes}
    (hdocuments : documents =
      Splitter.documents Container.documentDelimiter (stream a.disk a.spec a.runtime))
    (hfit : ∀ d ∈ documents, d.length ≤ defaultChunkLimit) :
    let r := e.run rt sink o features w s
    r.1 = .ok outcome ∧
      e.Tells sink outcome (e.heard sink documents s) w.journal r.2.1.journal s r.2.2 ∧
      outcome.stopped = (e.digest sink documents s).stopped := by
  obtain ⟨chunks, hending, htells, hstopped, hchunks⟩ := run_of_streams hrt h ha
  rw [← hdocuments] at hchunks
  obtain ⟨hfront, hwhole⟩ := hchunks hfit
  obtain ⟨htimeout, herror⟩ : outcome.timedOut = false ∧ outcome.error = none := by
    simp only [Container.Outcome.isSuccess, Bool.and_eq_true, Bool.not_eq_true',
      Option.isNone_iff_eq_none] at hsuccess
    exact hsuccess.1
  have hok : e.ending o outcome = .ok outcome := ending_eq_ok_iff.2 ⟨hsuccess, rfl⟩
  rcases hs : outcome.stopped with _ | _
  -- All documents have come.
  · obtain rfl := hwhole htimeout herror hs
    exact ⟨hending.trans hok, htells, hs.symm.trans hstopped⟩
  -- Those that have not come would not have been heard.
  · obtain ⟨more, rfl⟩ := hfront
    obtain ⟨hsame, hmore⟩ := e.heard_append_of_stopped sink more (hstopped.symm.trans hs)
    rw [hsame]
    exact ⟨hending.trans hok, htells, hmore.symm⟩

end StackSurvey.Engine
