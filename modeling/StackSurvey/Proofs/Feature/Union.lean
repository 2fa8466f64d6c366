import StackSurvey.Proofs.Dictionary
import StackSurvey.Proofs.Feature

/-! # Ordered unions

    Whatever a feature has several of is put together in one way: what is there keeps its place,
    and an item is appended if no item of its key is there.  For texts the text itself is the
    key, for the entries of a dictionary it is their name.

    Such unions are associative (`unionBy_assoc`), have the first list as a prefix
    (`prefix_unionBy`), and add nothing whose key is there (`unionBy_of_subset`). -/

namespace StackSurvey

/-! ## Section 1: Items with keys -/

section Keyed

variable {α : Type} {key : α → String} {xs ys zs : List α}

/-- Appends an item unless there is one of its key. -/
def pushBy (key : α → String) (xs : List α) (x : α) : List α :=
  if key x ∈ xs.map key then xs else xs ++ [x]

/-- Appends the items of a second list in order, each unless there is one of its key. -/
def unionBy (key : α → String) (xs ys : List α) : List α := ys.foldl (pushBy key) xs

@[simp] theorem unionBy_nil (xs : List α) : unionBy key xs [] = xs := rfl

theorem unionBy_cons (xs : List α) (y : α) (ys : List α) :
    unionBy key xs (y :: ys) = unionBy key (pushBy key xs y) ys := rfl

theorem unionBy_append (xs ys zs : List α) :
    unionBy key xs (ys ++ zs) = unionBy key (unionBy key xs ys) zs :=
  List.foldl_append

theorem unionBy_singleton (xs : List α) (y : α) : unionBy key xs [y] = pushBy key xs y := rfl

/-- Only the keys decide what is new. -/
theorem map_pushBy (xs : List α) (x : α) :
    (pushBy key xs x).map key = pushUnique (xs.map key) (key x) := by
  unfold pushBy pushUnique
  split <;> simp

theorem map_unionBy (xs ys : List α) :
    (unionBy key xs ys).map key = (ys.map key).foldl pushUnique (xs.map key) := by
  induction ys generalizing xs with
  | nil => rfl
  | cons y ys ih => rw [unionBy_cons, ih, map_pushBy, List.map_cons, List.foldl_cons]

theorem nodup_map_unionBy (hxs : (xs.map key).Nodup) (ys : List α) :
    ((unionBy key xs ys).map key).Nodup := by
  induction ys generalizing xs with
  | nil => exact hxs
  | cons y ys ih =>
    have hpush : ((pushBy key xs y).map key).Nodup := by
      rw [map_pushBy]
      exact nodup_pushUnique hxs (key y)
    exact ih hpush

theorem prefix_unionBy (xs ys : List α) : xs <+: unionBy key xs ys := by
  induction ys generalizing xs with
  | nil => exact List.prefix_rfl
  | cons y ys ih =>
    have hpush : xs <+: pushBy key xs y := by
      unfold pushBy
      split
      · exact List.prefix_rfl
      · exact List.prefix_append xs [y]
    exact hpush.trans (ih (pushBy key xs y))

/-- Nothing is added if all the keys are there. -/
theorem unionBy_of_subset (h : ∀ y ∈ ys, key y ∈ xs.map key) : unionBy key xs ys = xs := by
  induction ys with
  | nil => rfl
  | cons y ys ih =>
    have hy : key y ∈ xs.map key := h y List.mem_cons_self
    rw [unionBy_cons, pushBy, if_pos hy, ih fun z hz => h z (List.mem_cons_of_mem y hz)]

/-- Items with distinct keys are all appended. -/
theorem unionBy_of_nodup (h : ((xs ++ ys).map key).Nodup) : unionBy key xs ys = xs ++ ys := by
  induction ys generalizing xs with
  | nil => rw [unionBy_nil, List.append_nil]
  | cons y ys ih =>
    have hy : key y ∉ xs.map key := by
      rw [List.map_append, List.nodup_append] at h
      intro hmem
      exact h.2.2 (key y) hmem (key y) (List.mem_map_of_mem List.mem_cons_self) rfl
    rw [unionBy_cons, pushBy, if_neg hy, ih (by simpa using h), List.append_assoc,
      List.singleton_append]

theorem mem_map_unionBy {k : String} :
    k ∈ (unionBy key xs ys).map key ↔ k ∈ xs.map key ∨ k ∈ ys.map key := by
  rw [map_unionBy, mem_foldl_pushUnique]

/-- A key comes twice in a union just if it comes twice in the first list. -/
theorem nodup_map_unionBy_iff :
    ((unionBy key xs ys).map key).Nodup ↔ (xs.map key).Nodup := by
  constructor
  · intro hunion
    have hsub : (xs.map key).Sublist ((unionBy key xs ys).map key) :=
      (prefix_unionBy xs ys).sublist.map key
    exact hunion.sublist hsub
  · exact fun hxs => nodup_map_unionBy hxs ys

theorem unionBy_pushBy (xs ys : List α) (z : α) :
    unionBy key xs (pushBy key ys z) = pushBy key (unionBy key xs ys) z := by
  by_cases hz : key z ∈ ys.map key
  -- An item whose key the second list has is not new to the union either.
  · have hunion : key z ∈ (unionBy key xs ys).map key := mem_map_unionBy.2 (.inr hz)
    rw [pushBy, if_pos hz, pushBy, if_pos hunion]
  · rw [pushBy, if_neg hz, unionBy_append, unionBy_singleton]

/-- Whether later items meet the union of the lists before them or are put together first makes
    no difference, repetitions within each of the lists included. -/
theorem unionBy_assoc (xs ys zs : List α) :
    unionBy key xs (unionBy key ys zs) = unionBy key (unionBy key xs ys) zs := by
  induction zs generalizing ys with
  | nil => rfl
  | cons z zs ih => rw [unionBy_cons, ih, unionBy_pushBy, unionBy_cons]

end Keyed

/-! ## Section 2: Texts -/

theorem foldl_pushUnique_eq_unionBy (xs ys : List String) :
    ys.foldl pushUnique xs = unionBy id xs ys := by
  have h : (unionBy id xs ys).map id = (ys.map id).foldl pushUnique (xs.map id) :=
    map_unionBy xs ys
  rw [List.map_id, List.map_id, List.map_id] at h
  exact h.symm

/-- The texts of a list, then those of another that it does not have, in order and each once. -/
def orderedUnion (xs ys : List String) : List String := xs ++ (ys.filter (· ∉ xs)).eraseDups

theorem unionBy_id (xs ys : List String) : unionBy id xs ys = orderedUnion xs ys := by
  rw [← foldl_pushUnique_eq_unionBy, foldl_pushUnique, orderedUnion]

theorem orderedUnion_append (xs ys zs : List String) :
    orderedUnion xs (ys ++ zs) = orderedUnion (orderedUnion xs ys) zs := by
  rw [← unionBy_id, ← unionBy_id, ← unionBy_id, unionBy_append]

theorem mem_orderedUnion {x : String} {xs ys : List String} :
    x ∈ orderedUnion xs ys ↔ x ∈ xs ∨ x ∈ ys := by
  rw [← unionBy_id, ← foldl_pushUnique_eq_unionBy, mem_foldl_pushUnique]

theorem nodup_orderedUnion_iff {xs ys : List String} : (orderedUnion xs ys).Nodup ↔ xs.Nodup := by
  have h : ((unionBy id xs ys).map id).Nodup ↔ (xs.map id).Nodup := nodup_map_unionBy_iff
  rwa [List.map_id, List.map_id, unionBy_id] at h

theorem eraseDups_of_nodup {xs : List String} (h : xs.Nodup) : xs.eraseDups = xs := by
  rw [← foldl_pushUnique_nil, foldl_pushUnique_eq_unionBy, unionBy_of_nodup (by simpa using h),
    List.nil_append]

/-! ## Section 3: Dictionaries -/

namespace Dictionary

variable {α : Type}

theorem orPut_eq_pushBy (name : String) (v : α) (d : Dictionary α) :
    orPut name v d = pushBy Prod.fst d (name, v) := orPut_eq name v d

theorem foldl_orPut_eq_unionBy (d entries : Dictionary α) :
    entries.foldl (fun d (k, v) => orPut k v d) d = unionBy Prod.fst d entries := by
  have h : (fun (d : Dictionary α) (e : String × α) => orPut e.1 e.2 d) = pushBy Prod.fst := by
    funext d e
    exact orPut_eq_pushBy e.1 e.2 d
  exact congrArg (fun push => entries.foldl push d) h

theorem get?_pushBy (name : String) (d : Dictionary α) (entry : String × α) :
    get? name (pushBy Prod.fst d entry) = (get? name d).or (get? name [entry]) := by
  unfold pushBy
  split
  · next h =>
    obtain ⟨k, w⟩ := entry
    by_cases hk : k = name
    -- The name has a value already, so the new one does not matter.
    · have hsome : (get? name d).isSome := isSome_get?.2 (hk ▸ h)
      obtain ⟨v, hv⟩ := Option.isSome_iff_exists.1 hsome
      rw [hv, Option.some_or]
    · simp [get?, hk]
  · exact get?_append name d [entry]

/-- The value that a name has first stays. -/
theorem get?_unionBy (name : String) (d entries : Dictionary α) :
    get? name (unionBy Prod.fst d entries) = (get? name d).or (get? name entries) := by
  induction entries generalizing d with
  | nil => rw [unionBy_nil, get?_nil, Option.or_none]
  | cons entry rest ih =>
    rw [unionBy_cons, ih, get?_pushBy, Option.or_assoc, ← get?_append, List.singleton_append]

end Dictionary

/-! ## Section 4: Objects -/

namespace Json.Object

variable {a b : Json.Object}

theorem members_merge (a b : Json.Object) :
    (a.merge b).members = unionBy Prod.fst a.members b.members :=
  Dictionary.foldl_orPut_eq_unionBy a.members b.members

theorem merge_assoc (a b c : Json.Object) : (a.merge b).merge c = a.merge (b.merge c) := by
  apply ext
  rw [members_merge, members_merge, members_merge, members_merge, unionBy_assoc]

theorem names_merge (a b : Json.Object) :
    Dictionary.names (a.merge b).members =
      orderedUnion (Dictionary.names a.members) (Dictionary.names b.members) := by
  rw [members_merge, ← unionBy_id, ← foldl_pushUnique_eq_unionBy]
  exact map_unionBy a.members b.members

/-- Nothing is added by an object whose names are all there. -/
theorem merge_of_subset
    (h : ∀ name ∈ Dictionary.names b.members, name ∈ Dictionary.names a.members) :
    a.merge b = a := by
  apply ext
  rw [members_merge]
  exact unionBy_of_subset fun m hm => h m.1 (List.mem_map_of_mem hm)

end Json.Object
end StackSurvey
