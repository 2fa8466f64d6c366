/-! # Dictionaries that remember their order

    A dictionary is a list of named values with distinct names.  Reports show the order of the
    entries, so every operation says what becomes of it: `put` keeps the place of a name that is
    there and appends a new one, `orPut` never changes an entry that is there, `putSorted` keeps
    names ascending, and `swapErase` fills the gap with the last entry. -/

namespace StackSurvey

/-- Appends a text to a list unless it is there. -/
def pushUnique (xs : List String) (x : String) : List String :=
  if x ∈ xs then xs else xs ++ [x]

@[simp] theorem mem_pushUnique {xs : List String} {x y : String} :
    y ∈ pushUnique xs x ↔ y ∈ xs ∨ y = x := by
  unfold pushUnique
  split <;> rename_i h
  · exact ⟨Or.inl, fun hy => hy.elim id fun e => e ▸ h⟩
  · simp

/-- A list without repetitions stays one. -/
theorem nodup_pushUnique {xs : List String} (h : xs.Nodup) (x : String) :
    (pushUnique xs x).Nodup := by
  unfold pushUnique
  split <;> rename_i hx
  · exact h
  · rw [List.nodup_append]
    refine ⟨h, by simp, ?_⟩
    intro a ha b hb
    rw [List.mem_singleton] at hb
    intro e
    exact hx (hb ▸ e ▸ ha)

/-- Named values in an order. -/
abbrev Dictionary (α : Type) : Type := List (String × α)

namespace Dictionary

variable {α : Type}

def get? (name : String) : Dictionary α → Option α
  | [] => none
  | (k, v) :: rest => if k = name then some v else get? name rest

def names (d : Dictionary α) : List String := d.map Prod.fst

/-- Gives `name` the value `v`, in its old place or at the end. -/
def put (name : String) (v : α) : Dictionary α → Dictionary α
  | [] => [(name, v)]
  | (k, w) :: rest => if k = name then (k, v) :: rest else (k, w) :: put name v rest

/-- Gives `name` the value `v` unless it has one. -/
def orPut (name : String) (v : α) : Dictionary α → Dictionary α
  | [] => [(name, v)]
  | (k, w) :: rest => if k = name then (k, w) :: rest else (k, w) :: orPut name v rest

/-- Gives `name` the value `v` in a dictionary whose names ascend. -/
def putSorted (name : String) (v : α) : Dictionary α → Dictionary α
  | [] => [(name, v)]
  | (k, w) :: rest =>
    if k = name then (k, v) :: rest
    else if name < k then (name, v) :: (k, w) :: rest
    else (k, w) :: putSorted name v rest

/-- Removes `name`; the last entry moves into the gap. -/
def swapErase (name : String) : Dictionary α → Dictionary α
  | [] => []
  | (k, w) :: rest =>
    if k = name then
      match rest.getLast? with
      | none => []
      | some last => last :: rest.dropLast
    else (k, w) :: swapErase name rest

/-- The entries in ascending order of their names. -/
def sorted (d : Dictionary α) : Dictionary α :=
  d.foldl (fun acc (k, v) => putSorted k v acc) []

@[simp] theorem get?_nil (name : String) : get? name ([] : Dictionary α) = none := rfl

@[simp] theorem get?_put_self (name : String) (v : α) (d : Dictionary α) :
    get? name (put name v d) = some v := by
  induction d with
  | nil => simp [put, get?]
  | cons entry rest ih =>
    obtain ⟨k, w⟩ := entry
    by_cases h : k = name <;> simp [put, get?, h, ih]

theorem get?_put_ne {name other : String} (h : other ≠ name) (v : α) (d : Dictionary α) :
    get? other (put name v d) = get? other d := by
  induction d with
  | nil => simp [put, get?, Ne.symm h]
  | cons entry rest ih =>
    obtain ⟨k, w⟩ := entry
    by_cases hk : k = name
    · subst hk; simp [put, get?, Ne.symm h]
    · by_cases ho : k = other
      · subst ho; simp [put, get?, hk]
      · simp [put, get?, hk, ho, ih]

/-- A name that is put in keeps its place, and a new one goes to the end. -/
theorem names_put (name : String) (v : α) (d : Dictionary α) :
    names (put name v d) = pushUnique (names d) name := by
  unfold pushUnique
  induction d with
  | nil => simp [put, names]
  | cons entry rest ih =>
    obtain ⟨k, w⟩ := entry
    simp only [names] at ih ⊢
    by_cases hk : k = name
    · simp [put, hk]
    · rw [put, if_neg hk, List.map_cons, ih]
      by_cases hrest : name ∈ rest.map Prod.fst <;> simp [hrest, Ne.symm hk]

theorem mem_put {name : String} {v : α} {d : Dictionary α} {entry : String × α}
    (h : entry ∈ put name v d) : entry = (name, v) ∨ entry ∈ d := by
  induction d with
  | nil => exact .inl (List.mem_singleton.1 h)
  | cons first rest ih =>
    obtain ⟨k, w⟩ := first
    unfold put at h
    split at h
    · next hk =>
      rcases List.mem_cons.1 h with hfirst | hlater
      · rw [hfirst, hk]
        exact .inl rfl
      · exact .inr (List.mem_cons_of_mem _ hlater)
    · rcases List.mem_cons.1 h with hfirst | hlater
      · rw [hfirst]
        exact .inr List.mem_cons_self
      · exact (ih hlater).imp_right (List.mem_cons_of_mem _)

theorem put_of_not_mem {name : String} {d : Dictionary α} (hname : name ∉ names d) (v : α) :
    put name v d = d ++ [(name, v)] := by
  induction d with
  | nil => rfl
  | cons entry rest ih =>
    obtain ⟨k, w⟩ := entry
    rw [names, List.map_cons, List.mem_cons, not_or] at hname
    rw [put, if_neg (Ne.symm hname.1), ih hname.2, List.cons_append]

theorem orPut_eq (name : String) (v : α) (d : Dictionary α) :
    orPut name v d = if name ∈ names d then d else d ++ [(name, v)] := by
  induction d with
  | nil => simp [orPut, names]
  | cons entry rest ih =>
    obtain ⟨k, w⟩ := entry
    simp only [names] at ih ⊢
    by_cases hk : k = name
    · simp [orPut, hk]
    · rw [orPut, if_neg hk, ih]
      by_cases hrest : name ∈ rest.map Prod.fst <;> simp [hrest, Ne.symm hk]

end Dictionary
end StackSurvey
