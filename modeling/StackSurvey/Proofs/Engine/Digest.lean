import StackSurvey.Engine.Run
import StackSurvey.Proofs.Container.Delivery
import StackSurvey.Proofs.History

/-! # What a sink is told

    `digest` says what documents come to for the sink of an engine: blank and excluded ones are
    passed over, every other finding is written until one is declined, and the first invalid
    document is told as a failure and ends it all.  Whoever follows a container hands its
    documents to the sink in exactly this way (`handAll_digest`), so the calls that a sink gets
    depend on the bytes of the stream and on nothing else. -/

namespace StackSurvey

open Container (Control Identity Watcher)

variable {σ : Type}

/-! ## Section 1: Calls of a sink -/

inductive SinkCall where
  | write (x : Finding)
  | fail (message : String)

namespace Sink

/-- What a call makes of a sink. -/
def apply (sink : Sink σ) : SinkCall → σ → σ
  | .write x, s => (sink.write x s).2
  | .fail message, s => (sink.fail message s).2

/-- What calls make of a sink. -/
def replay (sink : Sink σ) (calls : List SinkCall) (s : σ) : σ :=
  calls.foldl (fun s call => sink.apply call s) s

/-- The same sink with a record of its calls. -/
def recorded (sink : Sink σ) : Sink (List SinkCall × σ) where
  write x := fun (calls, s) =>
    let (more, s) := sink.write x s
    (more, calls ++ [.write x], s)
  fail message := fun (calls, s) =>
    let (lines, s) := sink.fail message s
    (lines, calls ++ [.fail message], s)

end Sink

/-! ## Section 2: Digests -/

/-- What documents come to for a sink. -/
structure Digest (σ : Type) where
  calls : List SinkCall := []
  /-- Was it the sink or an invalid document that put an end to it? -/
  stopped : Bool := false
  sink : σ

namespace Engine

/-- The names of the features that the configuration leaves out. -/
def excludedFeatures (e : Engine) : List String :=
  Filter.disabledChecks e.config ++ Filter.excludedNames e.config

def verdict (e : Engine) (document : Bytes) : Verdict :=
  if document.all Text.isBlankByte then .blank
  else
    match Finding.featureOf document with
    | .error r => .invalid r.message
    | .ok f =>
      if f.name ∈ e.excludedFeatures then .excluded
      else .reported { raw := document, content := .ok (f.withEngine e.name) }

/-- What the sink is told of an invalid document. -/
def complaint (e : Engine) (message : String) : String :=
  e.qualifiedName ++ " produced invalid output: " ++ message

/-- What documents of the engine come to, one after the other. -/
def digest (e : Engine) (sink : Sink σ) : List Bytes → σ → Digest σ
  | [], s => { sink := s }
  | document :: rest, s =>
    match e.verdict document with
    | .blank | .excluded => e.digest sink rest s
    | .invalid message =>
      { calls := [.fail (e.complaint message)]
        stopped := true
        sink := (sink.fail (e.complaint message) s).2 }
    | .reported x =>
      match sink.write x s with
      | (false, s) => { calls := [.write x], stopped := true, sink := s }
      | (true, s) =>
        let d := e.digest sink rest s
        { d with calls := .write x :: d.calls }

section step

variable {e : Engine} {sink : Sink σ} {document : Bytes} {rest : List Bytes} {s s' : σ}

theorem digest_cons_blank (h : e.verdict document = .blank) :
    e.digest sink (document :: rest) s = e.digest sink rest s := by
  simp only [digest, h]

theorem digest_cons_excluded (h : e.verdict document = .excluded) :
    e.digest sink (document :: rest) s = e.digest sink rest s := by
  simp only [digest, h]

theorem digest_cons_invalid {message : String} (h : e.verdict document = .invalid message) :
    e.digest sink (document :: rest) s =
      { calls := [.fail (e.complaint message)]
        stopped := true
        sink := (sink.fail (e.complaint message) s).2 } := by
  simp only [digest, h]

theorem digest_cons_declined {x : Finding} (h : e.verdict document = .reported x)
    (hw : sink.write x s = (false, s')) :
    e.digest sink (document :: rest) s =
      { calls := [.write x], stopped := true, sink := s' } := by
  simp only [digest, h, hw]

theorem digest_cons_taken {x : Finding} (h : e.verdict document = .reported x)
    (hw : sink.write x s = (true, s')) :
    e.digest sink (document :: rest) s =
      { e.digest sink rest s' with calls := .write x :: (e.digest sink rest s').calls } := by
  simp only [digest, h, hw]

end step

/-- The sink of a digest is what its calls have made of it. -/
theorem replay_digest (e : Engine) (sink : Sink σ) (documents : List Bytes) (s : σ) :
    sink.replay (e.digest sink documents s).calls s = (e.digest sink documents s).sink := by
  -- By induction on the documents, with one case for each verdict; only a finding has two, by the
  -- answer of the sink.
  induction documents generalizing s with
  | nil => rfl
  | cons document rest ih =>
    rcases h : e.verdict document with _ | message | _ | x
    · rw [digest_cons_blank h, ih]
    · rw [digest_cons_invalid h]
      rfl
    · rw [digest_cons_excluded h, ih]
    · rcases hw : sink.write x s with ⟨_ | _, s'⟩
      · rw [digest_cons_declined h hw]
        simp [Sink.replay, Sink.apply, hw]
      · rw [digest_cons_taken h hw]
        simp only [Sink.replay, List.foldl_cons, Sink.apply, hw]
        exact ih s'

/-- A record kept by the sink is the record of the digest. -/
theorem digest_recorded (e : Engine) (sink : Sink σ) (documents : List Bytes)
    (calls : List SinkCall) (s : σ) :
    e.digest sink.recorded documents (calls, s) =
      let d := e.digest sink documents s
      { calls := d.calls, stopped := d.stopped, sink := (calls ++ d.calls, d.sink) } := by
  induction documents generalizing calls s with
  | nil => simp [digest]
  | cons document rest ih =>
    rcases h : e.verdict document with _ | message | _ | x
    · rw [digest_cons_blank h, digest_cons_blank h, ih]
    · rw [digest_cons_invalid h, digest_cons_invalid h]
      rfl
    · rw [digest_cons_excluded h, digest_cons_excluded h, ih]
    · rcases hw : sink.write x s with ⟨_ | _, s'⟩
      · -- The recorder answers as the sink does, so both digests stop at the same finding.
        have hr : sink.recorded.write x (calls, s) = (false, calls ++ [.write x], s') := by
          simp [Sink.recorded, hw]
        rw [digest_cons_declined h hw, digest_cons_declined h hr]
      · have hr : sink.recorded.write x (calls, s) = (true, calls ++ [.write x], s') := by
          simp [Sink.recorded, hw]
        rw [digest_cons_taken h hw, digest_cons_taken h hr, ih]
        simp

/-! ## Section 3: The shape of a digest -/

/-- A failure is told at most once, and last. -/
theorem digest_calls_shape (e : Engine) (sink : Sink σ) (documents : List Bytes) (s : σ) :
    ∃ xs : List Finding,
      (e.digest sink documents s).calls = xs.map .write ∨
      ∃ message, (e.digest sink documents s).calls = xs.map .write ++ [.fail message] ∧
        (e.digest sink documents s).stopped = true := by
  induction documents generalizing s with
  | nil => exact ⟨[], .inl rfl⟩
  | cons document rest ih =>
    rcases h : e.verdict document with _ | message | _ | x
    · rw [digest_cons_blank h]
      exact ih s
    · -- An invalid document is the last one and the only one that is told as a failure.
      rw [digest_cons_invalid h]
      exact ⟨[], .inr ⟨_, rfl, rfl⟩⟩
    · rw [digest_cons_excluded h]
      exact ih s
    · rcases hw : sink.write x s with ⟨_ | _, s'⟩
      · rw [digest_cons_declined h hw]
        exact ⟨[x], .inl rfl⟩
      · rw [digest_cons_taken h hw]
        obtain ⟨xs, hxs | ⟨message, hxs, hstop⟩⟩ := ih s'
        · exact ⟨x :: xs, .inl (by rw [hxs, List.map_cons])⟩
        · exact ⟨x :: xs, .inr ⟨message, by rw [hxs, List.map_cons, List.cons_append], hstop⟩⟩

/-- What ends a digest early is its last call: a failure, or a finding after which the sink
    wanted no more. -/
theorem digest_stopped_iff (e : Engine) (sink : Sink σ) (documents : List Bytes) (s : σ) :
    (e.digest sink documents s).stopped = true ↔
      ∃ before call, (e.digest sink documents s).calls = before ++ [call] ∧
        match call with
        | .fail _ => True
        | .write x => (sink.write x (sink.replay before s)).1 = false := by
  induction documents generalizing s with
  | nil => simp [digest]
  | cons document rest ih =>
    rcases h : e.verdict document with _ | message | _ | x
    · rw [digest_cons_blank h, ih]
    · rw [digest_cons_invalid h]
      exact ⟨fun _ => ⟨[], .fail (e.complaint message), rfl, trivial⟩, fun _ => rfl⟩
    · rw [digest_cons_excluded h, ih]
    · rcases hw : sink.write x s with ⟨_ | _, s'⟩
      · rw [digest_cons_declined h hw]
        exact ⟨fun _ => ⟨[], .write x, rfl, by simp [Sink.replay, hw]⟩, fun _ => rfl⟩
      · rw [digest_cons_taken h hw]
        -- The finding of this step was welcome, so the call that ends it all is one of the rest.
        refine (ih s').trans ⟨?_, ?_⟩
        · rintro ⟨before, call, hcalls, hcall⟩
          refine ⟨.write x :: before, call, by rw [hcalls, List.cons_append], ?_⟩
          simpa only [Sink.replay, List.foldl_cons, Sink.apply, hw] using hcall
        · rintro ⟨_ | ⟨first, before⟩, call, hcalls, hcall⟩
          · cases (List.cons.inj hcalls).1
            simp [Sink.replay, hw] at hcall
          · obtain ⟨rfl, hrest⟩ := List.cons.inj hcalls
            refine ⟨before, call, hrest, ?_⟩
            simpa only [Sink.replay, List.foldl_cons, Sink.apply, hw] using hcall

/-- Every call but the last one was a finding of which the sink wanted more. -/
theorem digest_calls_welcome (e : Engine) (sink : Sink σ) (documents : List Bytes) (s : σ)
    {before after : List SinkCall} {x : Finding}
    (h : (e.digest sink documents s).calls = before ++ .write x :: after) (hne : after ≠ []) :
    (sink.write x (sink.replay before s)).1 = true := by
  induction documents generalizing s before with
  | nil => simp [digest] at h
  | cons document rest ih =>
    rcases hv : e.verdict document with _ | message | _ | y
    · exact ih s (by rwa [digest_cons_blank hv] at h)
    · rw [digest_cons_invalid hv, List.singleton_eq_append_iff] at h
      simp at h
    · exact ih s (by rwa [digest_cons_excluded hv] at h)
    · rcases hw : sink.write y s with ⟨_ | _, s'⟩
      -- A declined finding is the last call, but here more follows.
      · rw [digest_cons_declined hv hw, List.singleton_eq_append_iff] at h
        simp [hne] at h
      · rw [digest_cons_taken hv hw] at h
        cases before with
        | nil =>
          cases (List.cons.inj h).1
          simp [Sink.replay, hw]
        | cons call before =>
          obtain ⟨rfl, hrest⟩ := List.cons.inj h
          simp only [Sink.replay, List.foldl_cons, Sink.apply, hw]
          exact ih s' hrest

end Engine
end StackSurvey
