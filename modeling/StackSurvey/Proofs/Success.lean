import Mathlib.Data.List.Forall2

/-! # Steps that succeed

    A computation of several steps succeeds just if each of them does.  A success is taken apart
    in this way, one step after the other, without a look at how the steps may fail.  If there is
    a step for each item of a list, the items and what the steps give belong together in pairs. -/

namespace Except

variable {ε α β : Type}

/-- Two steps succeed just if the first one does, and the second one with what it gives. -/
theorem bind_eq_ok {x : Except ε α} {f : α → Except ε β} {b : β} :
    x >>= f = .ok b ↔ ∃ a, x = .ok a ∧ f a = .ok b := by
  cases x <;> simp [bind, Except.bind]

/-- A step for each item of a list succeeds just if all of these steps do, and gives what they
    give. -/
theorem mapM_eq_ok {f : α → Except ε β} {xs : List α} {ys : List β} :
    xs.mapM f = .ok ys ↔ List.Forall₂ (fun x y => f x = .ok y) xs ys := by
  induction xs generalizing ys with
  | nil => simp [pure, Except.pure, eq_comm]
  | cons x xs ih =>
    rw [List.mapM_cons, bind_eq_ok, List.forall₂_cons_left_iff]
    constructor
    · rintro ⟨y, hy, h⟩
      obtain ⟨rest, hrest, h⟩ := bind_eq_ok.1 h
      cases h
      exact ⟨y, rest, hy, ih.1 hrest, rfl⟩
    · rintro ⟨y, rest, hy, hrest, rfl⟩
      exact ⟨y, hy, bind_eq_ok.2 ⟨rest, ih.2 hrest, rfl⟩⟩

end Except

namespace List.Forall₂

variable {α β : Type} {R : α → β → Prop} {xs : List α} {ys : List β}

/-- What the items of a list have in common, those of the other list have in common. -/
theorem forall_mem_iff {P : α → Prop} {Q : β → Prop} (hxs : Forall₂ R xs ys)
    (h : ∀ a b, R a b → (P a ↔ Q b)) : (∀ a ∈ xs, P a) ↔ ∀ b ∈ ys, Q b := by
  induction hxs with
  | nil => simp
  | cons hfirst _ ih => rw [List.forall_mem_cons, List.forall_mem_cons, ih, h _ _ hfirst]

/-- What holds between any two items of a list holds between any two of the other list. -/
theorem pairwise_iff {S : α → α → Prop} {T : β → β → Prop} (hxs : Forall₂ R xs ys)
    (h : ∀ a b a' b', R a b → R a' b' → (S a a' ↔ T b b')) : xs.Pairwise S ↔ ys.Pairwise T := by
  induction hxs with
  | nil => simp
  | @cons a b xs ys hfirst hrest ih =>
    rw [List.pairwise_cons, List.pairwise_cons, ih,
      hrest.forall_mem_iff fun a' b' h' => h a b a' b' hfirst h']

end List.Forall₂
