import StackSurvey.Container.Session
import StackSurvey.Proofs.Container.Delivery

/-! # Honest runtimes

    What runs containers must not touch the state of a watcher other than by calling the
    watcher.  Then whatever all calls of the watcher keep, a whole run keeps.  Rehearsals and
    sessions with a daemon are honest. -/

namespace StackSurvey.Container

namespace Watcher

variable {τ : Type}

/-- Every call of the watcher keeps the property. -/
structure Keeps (w : Watcher τ) (P : τ → Prop) : Prop where
  notice : ∀ event t, P t → P (w.notice event t)
  log : ∀ line t, P t → P (w.log line t)
  accept : ∀ chunk t, P t → P (w.accept chunk t).2

variable {w : Watcher τ} {P : τ → Prop}

theorem Keeps.hand (hw : w.Keeps P) (who : Identity) (chunk : Bytes) (t : τ) (ht : P t) :
    P (w.hand who chunk t).2 :=
  hw.accept chunk _ (hw.notice _ t ht)

/-! ## Section 1: Handing over -/

section handing

variable {who : Identity} (hhand : ∀ chunk t, P t → P (w.hand who chunk t).2)
include hhand

theorem handAll_keeps (chunks : List Bytes) {t : τ} (ht : P t) : P (w.handAll who chunks t).2 := by
  induction chunks generalizing t with
  | nil => exact ht
  | cons chunk rest ih =>
    have hkept := hhand chunk t ht
    rcases h : w.hand who chunk t with ⟨_ | _, t'⟩ <;> rw [h] at hkept
    · rw [handAll_cons_continue w who h]
      exact ih hkept
    · rw [handAll_cons_stop w who h]
      exact hkept

theorem deliver_keeps (s : Splitter) {t : τ} (ht : P t) : P (w.deliver who s t).2.2 := by
  obtain ⟨s', h, -⟩ := w.deliver_eq who s t
  rw [h]
  exact handAll_keeps hhand _ ht

theorem deliverRest_keeps (s : Splitter) {t : τ} (ht : P t) : P (w.deliverRest who s t).2.2 := by
  rw [deliverRest_eq]
  exact handAll_keeps hhand _ ht

theorem play_keeps (frames : List Bytes) (s : Splitter) {t : τ} (ht : P t) :
    P (Rehearsal.play w who frames s t).2.2 := by
  induction frames generalizing s t with
  | nil => exact ht
  | cons frame frames ih =>
    have hkept := deliver_keeps hhand (s.push frame) ht
    unfold Rehearsal.play
    rcases h : w.deliver who (s.push frame) t with ⟨_ | _, s', t'⟩ <;> rw [h] at hkept
    · exact ih s' hkept
    · exact hkept

theorem follow_keeps (deadline : Duration) (ending : Option (Duration × Ending))
    (frames : List (Duration × Frame)) {g : Daemon.Gathered τ} (hg : P g.watcher) :
    P (Daemon.follow w who deadline ending frames g).2.watcher := by
  induction frames generalizing g with
  | nil => exact hg
  | cons x frames ih =>
    obtain ⟨time, frame⟩ := x
    unfold Daemon.follow
    split
    · exact hg
    -- Only a frame of output calls the watcher.
    · cases frame with
      | stdout bytes =>
        have hkept := deliver_keeps hhand (g.splitter.push bytes) hg
        rcases h : w.deliver who (g.splitter.push bytes) g.watcher with ⟨_ | _, s', t'⟩ <;>
          rw [h] at hkept <;> simp only [h]
        · exact ih (g := { g with splitter := s', watcher := t' }) hkept
        · exact hkept
      | stderr bytes => exact ih hg
      | other _ => exact ih hg

end handing
end Watcher

/-! ## Section 2: Runtimes -/

/-- Whoever follows a container is called and otherwise left alone. -/
def Runtime.Honest {ρ : Type} (rt : Runtime ρ) : Prop :=
  ∀ {τ : Type} {P : τ → Prop} (disk : Disk) (spec : Spec) (w : Watcher τ), w.Keeps P →
    ∀ (r : ρ) (t : τ), P t → P (rt.run disk spec w (r, t)).2.2

variable {τ : Type} {w : Watcher τ} {P : τ → Prop}

/-- What the start and every chunk keep is kept until the outcome of a rehearsal is told. -/
theorem Rehearsal.perform_ends {spec : Spec}
    (hhand : ∀ chunk t, P t → P (w.hand spec.identity chunk t).2) (script : Script) {t : τ}
    (hstart : P (w.notice (.started spec.identity) t)) :
    ∃ t', P t' ∧ (perform spec script w t).2 =
      w.noticeOutcome spec.identity (perform spec script w t).1 t' := by
  have hplay := Watcher.play_keeps hhand script.frames (.ofDelimiter spec.delimiter) hstart
  simp only [perform]
  refine ⟨_, ?_, rfl⟩
  split
  · exact hplay
  · exact Watcher.deliverRest_keeps hhand _ hplay

theorem Rehearsal.perform_keeps (hw : w.Keeps P) (spec : Spec) (script : Script) {t : τ}
    (ht : P t) : P (perform spec script w t).2 := by
  obtain ⟨t', ht', hend⟩ := perform_ends (hw.hand spec.identity) script (hw.notice _ t ht)
  exact hend ▸ hw.notice _ t' ht'

theorem Rehearsal.honest : Rehearsal.runtime.Honest := by
  intro τ P disk spec w hw r t ht
  simp only [runtime]
  split
  · exact ht
  · exact perform_keeps hw spec _ ht

namespace Daemon

variable {δ : Type} (d : Daemon δ)

section logging

variable (hlog : ∀ line t, P t → P (w.log line t))
include hlog

theorem attempt_keeps (r : Request) (message name : String) {s : Exchange δ × τ} (hs : P s.2) :
    P (d.attempt w r message name s).2 := by
  obtain ⟨x, t⟩ := s
  rcases h : d.ask r x with ⟨_ | _, x'⟩ <;> simp only [attempt, h]
  · exact hlog _ t hs
  · exact hs

theorem remove_keeps (name : String) {s : Exchange δ × τ} (hs : P s.2) :
    P (d.remove w name s).2 := by
  obtain ⟨x, t⟩ := s
  rcases h : d.ask (.remove name) x with ⟨f | _, x'⟩ <;> simp only [remove, h]
  · split
    · exact hs
    · exact hlog _ t hs
  · exact hs

variable {spec : Spec} (hhand : ∀ chunk t, P t → P (w.hand spec.identity chunk t).2)
include hhand

theorem settle_keeps (leave : Leave) (splitter : Splitter) {s : Exchange δ × τ} (hs : P s.2) :
    P (d.settle w spec leave splitter s).2.2.2 := by
  cases leave with
  | closed => exact Watcher.deliverRest_keeps hhand splitter hs
  | declined => exact d.attempt_keeps hlog _ _ _ hs
  | broken reason => exact d.attempt_keeps hlog _ _ _ hs
  | deadline => exact d.attempt_keeps hlog _ _ _ hs

/-- What the start, log lines and every chunk keep is kept until the outcome is told. -/
theorem accompany_ends {s : Exchange δ × τ} (hstart : P (w.notice (.started spec.identity) s.2)) :
    ∃ t', P t' ∧ (d.accompany w spec s).2.2 =
      w.noticeOutcome spec.identity (d.accompany w spec s).1 t' := by
  obtain ⟨x, t⟩ := s
  -- The property is carried from the start through all that is handed over, and the last step is
  -- the notice of the end.
  have hfollow := Watcher.follow_keeps hhand spec.timeout
    (d.attachment x.daemon).ending (d.attachment x.daemon).frames
    (g := { splitter := .ofDelimiter spec.delimiter
            stderr := .ofLimit spec.errorLimit
            watcher := w.notice (.started spec.identity) t }) hstart
  have hsettle := fun leave splitter => d.settle_keeps hlog hhand leave splitter (s := (x, _)) hfollow
  simp only [accompany]
  refine ⟨_, ?_, rfl⟩
  split
  · exact d.remove_keeps hlog spec.name (s := (_, _)) (hsettle _ _)
  · exact hsettle _ _

end logging

theorem accompany_keeps (hw : w.Keeps P) (spec : Spec) {s : Exchange δ × τ} (hs : P s.2) :
    P (d.accompany w spec s).2.2 := by
  obtain ⟨t', ht', hend⟩ := d.accompany_ends hw.log (hw.hand spec.identity) (hw.notice _ s.2 hs)
  exact hend ▸ hw.notice _ t' ht'

theorem launch_keeps (hw : w.Keeps P) (spec : Spec) {s : Exchange δ × τ} (hs : P s.2) :
    P (d.launch w spec s).2.2 := by
  unfold launch
  split
  · exact d.remove_keeps hw.log spec.name (s := (_, _)) hs
  · split
    · exact d.remove_keeps hw.log spec.name (s := (_, _)) hs
    · exact d.accompany_keeps hw spec (s := (_, _)) hs

theorem honest : d.runtime.Honest := by
  intro τ P disk spec w hw x t ht
  simp only [runtime, run]
  split
  · exact ht
  · split
    · exact hw.log _ t ht
    · exact d.launch_keeps hw spec (s := (_, _)) (hw.log _ t ht)

end Daemon
end StackSurvey.Container
