import Mathlib.Data.List.Perm.Lattice
import StackSurvey.Dictionary

/-! # Looking up and erasing

    In a dictionary with distinct names, looking a name up finds its only entry
    (`get?_eq_some_iff`), whatever the order of the entries.  Erasing a name by filling its gap
    with the last entry therefore changes no other name's value (`get?_swapErase_ne`). -/

namespace StackSurvey.Dictionary

variable {α : Type} {d e : Dictionary α} {name : String}

/-! ## Section 1: Looking up -/

theorem mem_of_get? {v : α} (h : get? name d = some v) : (name, v) ∈ d := by
  induction d with
  | nil => exact nomatch h
  | cons entry rest ih =>
    obtain ⟨k, x⟩ := entry
    unfold get? at h
    split at h
    · next hk =>
      obtain rfl := Option.some.inj h
      rw [hk]
      exact List.mem_cons_self
    · exact List.mem_cons_of_mem _ (ih h)

theorem mem_names : name ∈ names d ↔ ∃ v, (name, v) ∈ d := by
  simp [names]

theorem isSome_get? {name : String} {d : Dictionary α} :
    (get? name d).isSome ↔ name ∈ d.names := by
  induction d with
  | nil => simp [names]
  | cons entry rest ih =>
    obtain ⟨k, w⟩ := entry
    rw [names, List.map_cons, List.mem_cons]
    by_cases hk : k = name
    · simp [get?, hk]
    · rw [get?, if_neg hk, ih]
      simp [Ne.symm hk, names]

theorem get?_eq_none_iff : get? name d = none ↔ name ∉ names d := by
  rw [← isSome_get?, Option.not_isSome_iff_eq_none]

theorem get?_append (name : String) (d entries : Dictionary α) :
    get? name (d ++ entries) = (get? name d).or (get? name entries) := by
  induction d with
  | nil => rfl
  | cons entry rest ih =>
    obtain ⟨k, w⟩ := entry
    by_cases hk : k = name
    · simp [get?, hk]
    · simp [get?, hk, ih]

/-- Of distinct names, each has the value of its entry. -/
theorem get?_eq_some_iff (hd : (names d).Nodup) {v : α} :
    get? name d = some v ↔ (name, v) ∈ d := by
  refine ⟨mem_of_get?, fun hmem => ?_⟩
  -- The first entry of a name is the only one, so that searching finds any entry that there is.
  induction d with
  | nil => exact absurd hmem List.not_mem_nil
  | cons entry rest ih =>
    obtain ⟨k, x⟩ := entry
    obtain ⟨hk, hrest⟩ := List.nodup_cons.1 hd
    rcases List.mem_cons.1 hmem with hfirst | hlater
    · obtain ⟨rfl, rfl⟩ := Prod.mk.inj hfirst
      rw [get?, if_pos rfl]
    · have hne : k ≠ name := by
        rintro rfl
        exact hk (mem_names.2 ⟨v, hlater⟩)
      rw [get?, if_neg hne]
      exact ih hrest hlater

/-! ## Section 2: Erasing -/

/-- What is left are all other entries, in another order. -/
theorem swapErase_perm (hd : (names d).Nodup) :
    (swapErase name d).Perm (d.filter fun entry => entry.1 ≠ name) := by
  induction d with
  | nil => exact .nil
  | cons entry rest ih =>
    obtain ⟨k, x⟩ := entry
    obtain ⟨hk, hrest⟩ := List.nodup_cons.1 hd
    by_cases hkname : k = name
    · subst hkname
      have hothers : rest.filter (fun entry => entry.1 ≠ k) = rest := by
        rw [List.filter_eq_self]
        intro entry hentry
        exact decide_eq_true fun h => hk (mem_names.2 ⟨entry.2, h ▸ hentry⟩)
      rw [swapErase, if_pos rfl, List.filter_cons_of_neg (by simp), hothers]
      -- The last entry takes the place of the erased one, unless that was the last one itself.
      rcases List.eq_nil_or_concat rest with rfl | ⟨front, last, rfl⟩
      · exact .nil
      · simp only [List.concat_eq_append, List.getLast?_append, List.dropLast_concat,
          List.getLast?_singleton, Option.some_or]
        exact (List.perm_append_singleton last front).symm
    · rw [swapErase, if_neg hkname, List.filter_cons_of_pos (by simpa using hkname)]
      exact (ih hrest).cons _

theorem nodup_names_swapErase (hd : (names d).Nodup) : (names (swapErase name d)).Nodup := by
  refine ((swapErase_perm hd).map Prod.fst).nodup_iff.2 ?_
  exact hd.sublist (List.filter_sublist.map Prod.fst)

theorem get?_swapErase_ne (hd : (names d).Nodup) {other : String} (hne : other ≠ name) :
    get? other (swapErase name d) = get? other d := by
  apply Option.ext
  intro v
  rw [get?_eq_some_iff (nodup_names_swapErase hd), get?_eq_some_iff hd,
    (swapErase_perm hd).mem_iff]
  simp [hne]

end StackSurvey.Dictionary
