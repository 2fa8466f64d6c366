/-! # Unique names

    Artifacts, containers and unlabelled runs need names that nobody else uses.  A supply of
    names has one for every number and never the same one twice.  The names of `ofSeed` have the
    shape of random identifiers: five groups of digits in base sixteen, of which the first four
    come from a seed and the last one counts. -/

namespace StackSurvey

/-- A supply of names, and how many of them are taken. -/
structure Names where
  used : Nat := 0
  name : Nat → String
  distinct : ∀ i j, name i = name j → i = j

namespace Names

def take (s : Names) : String × Names := (s.name s.used, { s with used := s.used + 1 })

/-! ## Section 1: Numbers in base sixteen -/

/-- The digits of a number, as few as possible. -/
def digits (n : Nat) : List Char :=
  if n < 16 then [Nat.digitChar n] else digits (n / 16) ++ [Nat.digitChar (n % 16)]

def digitValue (c : Char) : Nat :=
  if '0' ≤ c ∧ c ≤ '9' then c.toNat - '0'.toNat else c.toNat - 'a'.toNat + 10

/-- The number that digits stand for. -/
def value (cs : List Char) : Nat := cs.foldl (fun v c => 16 * v + digitValue c) 0

theorem digitValue_digitChar {n : Nat} (h : n < 16) : digitValue (Nat.digitChar n) = n := by
  have : ∀ m : Fin 16, digitValue (Nat.digitChar m) = m := by decide
  exact this ⟨n, h⟩

theorem value_append_singleton (cs : List Char) (c : Char) :
    value (cs ++ [c]) = 16 * value cs + digitValue c := by
  simp [value]

@[simp] theorem value_digits (n : Nat) : value (digits n) = n := by
  induction n using Nat.strongRecOn with
  | ind n ih =>
    unfold digits
    split
    · next h => simp [value, digitValue_digitChar h]
    · next h =>
      rw [value_append_singleton, ih _ (by omega), digitValue_digitChar (by omega)]
      omega

/-- Zeros in front of digits. -/
theorem value_replicate_append (k : Nat) (cs : List Char) :
    value (List.replicate k '0' ++ cs) = value cs := by
  induction k with
  | zero => rfl
  | succ k ih => simpa [List.replicate_succ, value, digitValue] using ih

/-- The digits of a number, filled up to a width with zeros. -/
def padded (width n : Nat) : List Char :=
  List.replicate (width - (digits n).length) '0' ++ digits n

theorem padded_injective {width m n : Nat} (h : padded width m = padded width n) : m = n := by
  have := congrArg value h
  simpa [padded, value_replicate_append] using this

/-! ## Section 2: Identifiers -/

/-- The first four groups of an identifier.  The third one starts with the number of the
    scheme for random identifiers, the fourth one with its two marker bits. -/
def groups (seed : Nat) : List Char :=
  padded 8 (seed % Nat.pow 16 8) ++ '-' :: padded 4 (seed / Nat.pow 16 8 % Nat.pow 16 4) ++
    '-' :: '4' :: padded 3 (seed / Nat.pow 16 12 % Nat.pow 16 3) ++
    '-' :: padded 4 (8 * Nat.pow 16 3 + seed / Nat.pow 16 15 % (4 * Nat.pow 16 3)) ++ ['-']

/-- The identifier of a number: the last group counts. -/
def identifier (seed n : Nat) : String := String.ofList (groups seed ++ padded 12 n)

/-- The supply of identifiers that belongs to a seed. -/
def ofSeed (seed : Nat) : Names where
  name := identifier seed
  distinct i j h := by
    unfold identifier at h
    exact padded_injective (List.append_cancel_left (String.ofList_injective h))

end Names
end StackSurvey
