import StackSurvey.Dictionary
import StackSurvey.Number.Notation

/-! # JSON values

    The members of an object keep their order.  A whole number is held exactly as long as it
    fits 64 bits of either kind, any other number is a double. -/

namespace StackSurvey

/-- A whole number that fits a signed or an unsigned word of 64 bits. -/
structure Whole where
  val : Int
  lower : -Int.pow 2 63 ≤ val
  upper : val < Int.pow 2 64
deriving DecidableEq

/-- The whole number, if it fits. -/
def Whole.ofInt? (n : Int) : Option Whole :=
  if h : -Int.pow 2 63 ≤ n ∧ n < Int.pow 2 64 then some ⟨n, h.1, h.2⟩ else none

@[simp] theorem Whole.ofInt?_val (n : Whole) : Whole.ofInt? n.val = some n := by
  rw [Whole.ofInt?, dif_pos ⟨n.lower, n.upper⟩]

/-- A number in data. -/
inductive Number where
  | whole (n : Whole)
  | double (x : Binary64)
deriving DecidableEq

inductive Json where
  | null
  | flag (b : Bool)
  | number (n : Number)
  | text (s : String)
  | list (items : List Json)
  | object (members : List (String × Json))
deriving Inhabited

namespace Json

/-! ## Section 1: Parts -/

/-- A small whole number as a value. -/
def ofWhole? (n : Int) : Option Json := (Whole.ofInt? n).map fun w => .number (.whole w)

/-- A natural number as a value; `null` if it fits no word. -/
def ofNat (n : Nat) : Json := (ofWhole? n).getD .null

def ofTexts (texts : List String) : Json := .list (texts.map .text)

/-- The member of an object; nothing if there is none or the value is no object. -/
def member? (name : String) : Json → Option Json
  | .object members => Dictionary.get? name members
  | _ => none

def asText? : Json → Option String
  | .text s => some s
  | _ => none

/-! ## Section 2: Sameness -/

/-- Equality of numbers: whole numbers and doubles are never equal. -/
def sameNumber : Number → Number → Bool
  | .whole a, .whole b => a = b
  | .double x, .double y => x.sameValue y
  | _, _ => false

/-- The first member of that name with a value on which `test` holds. -/
def anyNamed (name : String) (test : Json → Bool) : List (String × Json) → Bool
  | [] => false
  | (k, v) :: rest => if k = name then test v else anyNamed name test rest

mutual

/-- Are two values the same, the order of an object's members aside? -/
def same : Json → Json → Bool
  | .null, .null => true
  | .flag a, .flag b => a = b
  | .number a, .number b => sameNumber a b
  | .text a, .text b => a = b
  | .list a, .list b => sameItems a b
  | .object a, .object b => a.length = b.length && sameMembers a b
  | _, _ => false

/-- Are two lists the same, item by item? -/
def sameItems : List Json → List Json → Bool
  | [], [] => true
  | x :: xs, y :: ys => same x y && sameItems xs ys
  | _, _ => false

/-- Is every member of the first list a member of the second? -/
def sameMembers : List (String × Json) → List (String × Json) → Bool
  | [], _ => true
  | (k, v) :: rest, other => anyNamed k (same v) other && sameMembers rest other

end

end Json
end StackSurvey
