import StackSurvey.Proofs.Container.Delivery

/-! # What a watcher is told

    The acts of those who run a container are what they tell its watcher and what they ask of
    it.  Any watcher can be made to keep a record of them.  Chunks that are handed over one after
    the other leave an event and a question each, up to the first answer that wants no more. -/

namespace StackSurvey.Container.Watcher

variable {τ : Type}

/-- Something that a watcher is told, or is asked and answers. -/
inductive Act where
  | notice (event : Event)
  | accept (chunk : Bytes) (answer : Control)
deriving DecidableEq

/-- The same watcher with a record of all acts.  Log lines are not told to the watcher but to the
    log, so they are not recorded. -/
def recorded (w : Watcher τ) : Watcher (List Act × τ) where
  notice event := fun (acts, t) => (acts ++ [.notice event], w.notice event t)
  log line := fun (acts, t) => (acts, w.log line t)
  accept chunk := fun (acts, t) =>
    let (answer, t) := w.accept chunk t
    (answer, acts ++ [.accept chunk answer], t)

/-- The acts by which a chunk is handed over that is answered in this way. -/
def handing (who : Identity) : Bytes × Control → List Act := fun (chunk, answer) =>
  [.notice (.output who chunk), .accept chunk answer]

theorem accept_mem_handing_iff {who : Identity} {given : List (Bytes × Control)} {chunk : Bytes}
    {answer : Control} :
    .accept chunk answer ∈ given.flatMap (handing who) ↔ (chunk, answer) ∈ given := by
  simp [handing]

variable (w : Watcher τ) (who : Identity)

/-- The chunks that are handed over, each with its answer. -/
def answers : List Bytes → τ → List (Bytes × Control)
  | [], _ => []
  | chunk :: chunks, t =>
    match w.hand who chunk t with
    | (.stop, _) => [(chunk, .stop)]
    | (.continue, t) => (chunk, .continue) :: answers chunks t

theorem answers_cons_stop {chunk : Bytes} {t t' : τ} (h : w.hand who chunk t = (.stop, t'))
    (chunks : List Bytes) : w.answers who (chunk :: chunks) t = [(chunk, .stop)] := by
  simp only [answers, h]

theorem answers_cons_continue {chunk : Bytes} {t t' : τ}
    (h : w.hand who chunk t = (.continue, t')) (chunks : List Bytes) :
    w.answers who (chunk :: chunks) t = (chunk, .continue) :: w.answers who chunks t' := by
  simp only [answers, h]

/-- A log line leaves no record. -/
theorem recorded_log (line : LogLine) (v : List Act × τ) : (w.recorded.log line v).1 = v.1 := rfl

theorem recorded_hand (chunk : Bytes) (acts : List Act) (t : τ) :
    w.recorded.hand who chunk (acts, t) =
      let v := w.hand who chunk t
      (v.1, acts ++ handing who (chunk, v.1), v.2) := by
  simp [hand, recorded, handing]

/-- **The record of chunks that are handed over**: an event and the question with the same bytes
    for each of them, and nothing in between. -/
theorem recorded_handAll (chunks : List Bytes) (acts : List Act) (t : τ) :
    w.recorded.handAll who chunks (acts, t) =
      let v := w.handAll who chunks t
      (v.1, acts ++ (w.answers who chunks t).flatMap (handing who), v.2) := by
  induction chunks generalizing acts t with
  | nil => simp [handAll, answers]
  | cons chunk chunks ih =>
    have hrecorded := w.recorded_hand who chunk acts t
    rcases h : w.hand who chunk t with ⟨_ | _, t'⟩ <;> rw [h] at hrecorded
    · rw [handAll_cons_continue _ who hrecorded, handAll_cons_continue _ who h,
        answers_cons_continue _ who h, ih, List.flatMap_cons, List.append_assoc]
    · rw [handAll_cons_stop _ who hrecorded, handAll_cons_stop _ who h,
        answers_cons_stop _ who h, List.flatMap_singleton]

theorem answers_of_continue {chunks : List Bytes} {t : τ}
    (h : (w.handAll who chunks t).1 = .continue) :
    w.answers who chunks t = chunks.map (·, .continue) := by
  induction chunks generalizing t with
  | nil => rfl
  | cons chunk chunks ih =>
    rcases hc : w.hand who chunk t with ⟨_ | _, t'⟩
    · rw [handAll_cons_continue _ who hc] at h
      rw [answers_cons_continue _ who hc, ih h, List.map_cons]
    · rw [handAll_cons_stop _ who hc] at h
      cases h

theorem answers_of_stop {chunks : List Bytes} {t : τ} (h : (w.handAll who chunks t).1 = .stop) :
    ∃ before chunk, before ++ [chunk] <+: chunks ∧
      w.answers who chunks t = before.map (·, .continue) ++ [(chunk, .stop)] := by
  induction chunks generalizing t with
  | nil => cases h
  | cons chunk chunks ih =>
    rcases hc : w.hand who chunk t with ⟨_ | _, t'⟩
    · rw [handAll_cons_continue _ who hc] at h
      obtain ⟨before, last, hprefix, hanswers⟩ := ih h
      refine ⟨chunk :: before, last, (List.prefix_cons_inj chunk).2 hprefix, ?_⟩
      rw [answers_cons_continue _ who hc, hanswers, List.map_cons, List.cons_append]
    · exact ⟨[], chunk, by simp, answers_cons_stop _ who hc chunks⟩

theorem handAll_eq_stop_iff {chunks : List Bytes} {t : τ} :
    (w.handAll who chunks t).1 = .stop ↔ ∃ chunk, (chunk, .stop) ∈ w.answers who chunks t := by
  cases h : (w.handAll who chunks t).1 with
  | «continue» => simp [w.answers_of_continue who h]
  | stop =>
    obtain ⟨before, chunk, -, hanswers⟩ := w.answers_of_stop who h
    simp [hanswers]

/-- Who welcomes everything gets everything. -/
theorem map_fst_answers {chunks : List Bytes} {t : τ}
    (h : ∀ chunk, (chunk, .stop) ∉ w.answers who chunks t) :
    (w.answers who chunks t).map Prod.fst = chunks := by
  rw [← not_exists, ← handAll_eq_stop_iff] at h
  cases hv : (w.handAll who chunks t).1 with
  | «continue» => simp [w.answers_of_continue who hv, Function.comp_def]
  | stop => exact absurd hv h

/-- Nothing is handed over after an answer that wants no more. -/
theorem answers_stop_last {chunks : List Bytes} {t : τ} {before after : List (Bytes × Control)}
    {chunk : Bytes} (h : w.answers who chunks t = before ++ (chunk, .stop) :: after) :
    after = [] := by
  induction chunks generalizing t before with
  | nil => simp [answers] at h
  | cons next chunks ih =>
    rcases hnext : w.hand who next t with ⟨_ | _, t'⟩
    · rw [answers_cons_continue _ who hnext] at h
      -- The first answer is another one, so it is among those before.
      rcases before with _ | ⟨_, before⟩
      · cases h
      · exact ih (List.cons.inj h).2
    · rw [answers_cons_stop _ who hnext] at h
      rcases before with _ | ⟨_, before⟩
      · exact (List.cons.inj h).2.symm
      · simp at h

/-- Chunks are handed over from the first one on. -/
theorem answers_prefix (chunks : List Bytes) (t : τ) :
    (w.answers who chunks t).map Prod.fst <+: chunks := by
  cases h : (w.handAll who chunks t).1 with
  | «continue» => simp [w.answers_of_continue who h, Function.comp_def]
  | stop =>
    obtain ⟨before, chunk, hprefix, hanswers⟩ := w.answers_of_stop who h
    simpa [hanswers, Function.comp_def] using hprefix

/-- A watcher that takes note of nothing and always wants more. -/
def quiet : Watcher Unit where
  notice _ t := t
  log _ t := t
  accept _ t := (.continue, t)

theorem not_stop_mem_answers_quiet (chunks : List Bytes) (chunk : Bytes) :
    (chunk, .stop) ∉ quiet.answers who chunks () := by
  induction chunks with
  | nil => exact List.not_mem_nil
  | cons next chunks ih =>
    have hnext : quiet.hand who next () = (.continue, ()) := rfl
    rw [answers_cons_continue quiet who hnext, List.mem_cons, not_or]
    exact ⟨nofun, ih⟩

end StackSurvey.Container.Watcher
