import Mathlib.Tactic.Common
import StackSurvey.Json.Value

/-! # Shapes of JSON values

    Two things that can be said of a value at every level: how deep its brackets nest (`nesting`),
    and whether one of its numbers is a double (`hasDouble`). -/

namespace StackSurvey.Json

/-! ## Section 1: Nesting -/

mutual

/-- How deep the brackets of a value nest. -/
def nesting : Json → Nat
  | .list items => nestingOfItems items + 1
  | .object members => nestingOfMembers members + 1
  | _ => 0

def nestingOfItems : List Json → Nat
  | [] => 0
  | v :: items => max (nesting v) (nestingOfItems items)

def nestingOfMembers : List (String × Json) → Nat
  | [] => 0
  | (_, v) :: members => max (nesting v) (nestingOfMembers members)

end

theorem nestingOfItems_le {items : List Json} {depth : Nat} :
    nestingOfItems items ≤ depth ↔ ∀ v ∈ items, v.nesting ≤ depth := by
  induction items with
  | nil => simp [nestingOfItems]
  | cons v items ih => rw [nestingOfItems, Nat.max_le, ih, List.forall_mem_cons]

theorem nestingOfMembers_le {members : List (String × Json)} {depth : Nat} :
    nestingOfMembers members ≤ depth ↔ ∀ m ∈ members, m.2.nesting ≤ depth := by
  induction members with
  | nil => simp [nestingOfMembers]
  | cons m members ih => rw [nestingOfMembers, Nat.max_le, ih, List.forall_mem_cons]

/-- What a list may hold within a limit on the nesting. -/
theorem nesting_list_le {items : List Json} {depth : Nat} :
    (Json.list items).nesting ≤ depth + 1 ↔ ∀ v ∈ items, v.nesting ≤ depth := by
  rw [nesting, Nat.add_le_add_iff_right, nestingOfItems_le]

/-- What an object may hold within a limit on the nesting. -/
theorem nesting_object_le {members : List (String × Json)} {depth : Nat} :
    (Json.object members).nesting ≤ depth + 1 ↔ ∀ m ∈ members, m.2.nesting ≤ depth := by
  rw [nesting, Nat.add_le_add_iff_right, nestingOfMembers_le]

/-! ## Section 2: Doubles -/

mutual

/-- Is one of the numbers in a value a double? -/
def hasDouble : Json → Bool
  | .number (.double _) => true
  | .list items => itemsHaveDouble items
  | .object members => membersHaveDouble members
  | _ => false

/-- Is one of the numbers in a list of values a double? -/
def itemsHaveDouble : List Json → Bool
  | [] => false
  | v :: items => hasDouble v || itemsHaveDouble items

/-- Is one of the numbers in the values of members a double? -/
def membersHaveDouble : List (String × Json) → Bool
  | [] => false
  | (_, v) :: members => hasDouble v || membersHaveDouble members

end

theorem hasDouble_list {items : List Json} :
    (Json.list items).hasDouble = false ↔ ∀ v ∈ items, v.hasDouble = false := by
  rw [hasDouble]
  induction items with
  | nil => simp [itemsHaveDouble]
  | cons v items ih => simp [itemsHaveDouble, ih]

theorem hasDouble_object {members : List (String × Json)} :
    (Json.object members).hasDouble = false ↔ ∀ m ∈ members, m.2.hasDouble = false := by
  rw [hasDouble]
  induction members with
  | nil => simp [membersHaveDouble]
  | cons m members ih => simp [membersHaveDouble, ih]

theorem hasDouble_ofTexts (texts : List String) : (ofTexts texts).hasDouble = false := by
  rw [ofTexts, hasDouble_list, List.forall_mem_map]
  exact fun _ _ => rfl

end StackSurvey.Json
