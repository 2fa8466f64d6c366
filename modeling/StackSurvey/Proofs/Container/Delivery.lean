import StackSurvey.Container.Rehearsal
import StackSurvey.Proofs.Stream.Splitter

/-! # Delivery does not depend on frames

    Those who run containers push each frame into a splitter, hand over the chunks that are
    complete, leave as soon as no more is wanted, and hand over the rest at the end of the
    stream.  This comes to handing over what the splitter makes of the frames, and where every
    document fits, to handing over the documents of the whole stream one after the other, however
    it was cut into frames.  `perform_eq` says so of a rehearsal. -/

namespace StackSurvey.Container

/-! ## Section 1: Chunks one after the other -/

namespace Watcher

variable {τ : Type} (w : Watcher τ) (who : Identity)

/-- Hands over chunks one after the other, as long as more is wanted. -/
def handAll : List Bytes → τ → Control × τ
  | [], t => (.continue, t)
  | chunk :: chunks, t =>
    match w.hand who chunk t with
    | (.stop, t) => (.stop, t)
    | (.continue, t) => handAll chunks t

theorem handAll_cons_stop {chunk : Bytes} {t t' : τ} (h : w.hand who chunk t = (.stop, t'))
    (chunks : List Bytes) : w.handAll who (chunk :: chunks) t = (.stop, t') := by
  simp only [handAll, h]

theorem handAll_cons_continue {chunk : Bytes} {t t' : τ}
    (h : w.hand who chunk t = (.continue, t')) (chunks : List Bytes) :
    w.handAll who (chunk :: chunks) t = w.handAll who chunks t' := by
  simp only [handAll, h]

/-- More chunks are handed over only if all before them were welcome. -/
theorem handAll_append (xs ys : List Bytes) (t : τ) :
    w.handAll who (xs ++ ys) t =
      match w.handAll who xs t with
      | (.stop, t) => (.stop, t)
      | (.continue, t) => w.handAll who ys t := by
  induction xs generalizing t with
  | nil => rfl
  | cons x xs ih =>
    rw [List.cons_append]
    rcases h : w.hand who x t with ⟨_ | _, t'⟩
    · rw [handAll_cons_continue w who h, handAll_cons_continue w who h, ih]
    · rw [handAll_cons_stop w who h, handAll_cons_stop w who h]

theorem deliver_of_none {s s' : Splitter} (h : s.nextChunk = (none, s')) (t : τ) :
    w.deliver who s t = (.continue, s', t) := by
  unfold deliver
  split
  · next heq => cases h.symm.trans heq; rfl
  · next heq => cases h.symm.trans heq

theorem deliver_of_some {s s' : Splitter} {chunk : Bytes} (h : s.nextChunk = (some chunk, s'))
    (t : τ) :
    w.deliver who s t =
      match w.hand who chunk t with
      | (.stop, t) => (.stop, s', t)
      | (.continue, t) => w.deliver who s' t := by
  conv_lhs => unfold deliver
  split
  · next heq => cases h.symm.trans heq
  · next heq => cases h.symm.trans heq; rfl

/-- Delivering hands over what draining the splitter gives. -/
theorem deliver_eq (s : Splitter) (t : τ) :
    ∃ s', w.deliver who s t =
        ((w.handAll who s.drain.1 t).1, s', (w.handAll who s.drain.1 t).2) ∧
      ((w.handAll who s.drain.1 t).1 = .continue → s' = s.drain.2) := by
  induction hn : s.buffer.length using Nat.strongRecOn generalizing s t with
  | ind n ih =>
    -- Both sides look at the same next chunk, and every chunk makes the buffer shorter.
    rcases h : s.nextChunk with ⟨_ | chunk, s₁⟩
    · rw [deliver_of_none w who h, Splitter.drain_of_none h]
      exact ⟨s₁, rfl, fun _ => rfl⟩
    · rw [deliver_of_some w who h, Splitter.drain_of_some h]
      rcases hc : w.hand who chunk t with ⟨_ | _, t'⟩
      · rw [handAll_cons_continue w who hc]
        exact ih _ (hn ▸ Splitter.length_nextChunk h) s₁ t' rfl
      · rw [handAll_cons_stop w who hc]
        exact ⟨s₁, rfl, nofun⟩

theorem deliverRest_eq (s : Splitter) (t : τ) :
    w.deliverRest who s t =
      ((w.handAll who (Splitter.rest s.buffer) t).1, s.finish.2,
        (w.handAll who (Splitter.rest s.buffer) t).2) := by
  unfold deliverRest Splitter.finish Splitter.rest
  by_cases h : s.buffer = []
  · simp [h, handAll]
  · rcases hc : w.hand who s.buffer t with ⟨_ | _, t'⟩ <;> simp [h, hc, handAll]

/-- Playing back frames hands over the chunks that they complete. -/
theorem play_eq (frames : List Bytes) (s : Splitter) (t : τ) :
    let fed := Splitter.feed frames s
    let v := w.handAll who fed.1 t
    ∃ s', Rehearsal.play w who frames s t = (v.1, s', v.2) ∧ (v.1 = .continue → s' = fed.2) := by
  -- By induction on the pieces.  The splitter is known only as long as more is wanted, since a
  -- consumer that says stop leaves it in the middle of a piece.
  induction frames generalizing s t with
  | nil => exact ⟨s, rfl, fun _ => rfl⟩
  | cons frame frames ih =>
    obtain ⟨s₁, hdeliver, hcont⟩ := w.deliver_eq who (s.push frame) t
    simp only [Splitter.feed, handAll_append, Rehearsal.play]
    rcases hv : w.handAll who (s.push frame).drain.1 t with ⟨_ | _, t₁⟩ <;>
      rw [hv] at hdeliver hcont <;> simp only [hdeliver]
    · obtain rfl := hcont rfl
      exact ih (s.push frame).drain.2 t₁
    · -- Stopped within this piece: the others are not looked at.
      exact ⟨s₁, rfl, fun hcontinue => by cases hcontinue⟩

end Watcher

/-! ## Section 2: Rehearsals -/

/-- The documents that a script hands over.  What follows the last delimiter is only one of them
    if the stream ends by itself. -/
def Script.documents (delimiter : UInt8) (script : Script) : List Bytes :=
  if script.timedOut || script.error.isSome then
    Splitter.complete delimiter script.frames.flatten
  else Splitter.documents delimiter script.frames.flatten

/-- No document of the script exceeds the usual limit of a chunk. -/
def Script.Fits (delimiter : UInt8) (script : Script) : Prop :=
  ∀ d ∈ Splitter.documents delimiter script.frames.flatten, d.length ≤ defaultChunkLimit

/-- How a script ends once `control` was the last word on its output. -/
def Script.outcome (spec : Spec) (script : Script) (control : Control) : Outcome :=
  { exitStatus := script.exitStatus
    stderr := Rehearsal.errorText spec script
    duration := script.duration
    timedOut := script.timedOut
    stopped := control = .stop
    error := script.error }

namespace Rehearsal

variable {τ : Type} {spec : Spec} {script : Script}

/-- **A rehearsal hands over the documents of its script and tells how it ended.** -/
theorem perform_eq (hfit : script.Fits spec.delimiter) (w : Watcher τ) (t : τ) :
    perform spec script w t =
      let v := w.handAll spec.identity (script.documents spec.delimiter)
        (w.notice (.started spec.identity) t)
      (script.outcome spec v.1, w.noticeOutcome spec.identity (script.outcome spec v.1) v.2) := by
  simp only [perform]
  generalize w.notice (.started spec.identity) t = t₀
  obtain ⟨s', hplay, hcont⟩ := w.play_eq spec.identity script.frames (.ofDelimiter spec.delimiter) t₀
  obtain ⟨hcomplete, htail⟩ := Splitter.feed_ofDelimiter hfit
  rw [hcomplete] at hplay hcont
  -- A stream that was cut off has its complete pieces only; any other one has its tail too.
  by_cases hcut : (script.timedOut || script.error.isSome) = true
  · simp [hplay, hcut, Script.documents, Bool.or_assoc, Script.outcome]
  · rw [Script.documents, if_neg hcut, Splitter.documents, Watcher.handAll_append]
    rcases hv : w.handAll spec.identity (Splitter.complete spec.delimiter script.frames.flatten) t₀
      with ⟨_ | _, t₁⟩ <;> rw [hv] at hplay hcont
    · obtain rfl := hcont rfl
      simp [hplay, hcut, Watcher.deliverRest_eq, htail, Script.outcome]
    · simp [hplay, Script.outcome]

end Rehearsal

end StackSurvey.Container
