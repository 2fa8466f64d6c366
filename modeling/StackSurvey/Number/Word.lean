/-! # Reading unsigned words

    A word is written in decimal digits, of which there is at least one, with or without a plus
    in front, and it must fit its width. -/

namespace StackSurvey.Word

def ofDigits (digits : List Char) : Nat :=
  digits.foldl (fun n c => 10 * n + (c.toNat - '0'.toNat)) 0

/-- The digits of a text, which has no others, and perhaps a plus in front. -/
def digits? : List Char → Option (List Char)
  | '+' :: rest => if rest.isEmpty || !rest.all Char.isDigit then none else some rest
  | cs => if cs.isEmpty || !cs.all Char.isDigit then none else some cs

/-- The word of `bits` bits that a text gives. -/
def read? (bits : Nat) (text : String) : Option Nat :=
  match digits? text.toList with
  | none => none
  | some digits => if ofDigits digits < Nat.pow 2 bits then some (ofDigits digits) else none

/-- A word fits its width. -/
theorem lt_of_read? {bits n : Nat} {text : String} (h : read? bits text = some n) :
    n < Nat.pow 2 bits := by
  unfold read? at h
  split at h
  · cases h
  · split at h
    · next hlt => cases h; exact hlt
    · cases h

end StackSurvey.Word
