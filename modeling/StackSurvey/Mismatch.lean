import StackSurvey.Number.Notation
import StackSurvey.Text.Quoted

/-! # Values that are not what they should be

    Settings, registries and reported features are read from data of a fixed form.  A
    `Mismatch` says how well-formed data misses the form. -/

namespace StackSurvey

/-- What was found in the place of something else. -/
inductive Found where
  | null
  | flag (b : Bool)
  | whole (n : Int)
  | double (x : Binary64)
  | text (s : String)
  | sequence
  | map
deriving DecidableEq

/-- How data misses the form it should have. -/
inductive Mismatch where
  /-- A value of another kind. -/
  | wrongKind (found : Found) (wanted : String)
  /-- A value of the right kind that is out of range. -/
  | wrongValue (found : Found) (wanted : String)
  /-- A sequence that is too short for the fields it should give. -/
  | wrongLength (length : Nat) (wanted : String)
  /-- A record without a field that it must have. -/
  | missingField (name : String)
  /-- A record with a field given twice. -/
  | repeatedField (name : String)
deriving DecidableEq

/-- The wording of what was found; `double` writes numbers. -/
def Found.message (double : Binary64 → List Char) : Found → String
  | .null => "null"
  | .flag b => "boolean `" ++ (if b then "true" else "false") ++ "`"
  | .whole n => "integer `" ++ toString n ++ "`"
  | .double x => "floating point `" ++ String.ofList (double x) ++ "`"
  | .text s => "string " ++ Text.quote s
  | .sequence => "sequence"
  | .map => "map"

/-- The wording of a mismatch; `double` writes numbers. -/
def Mismatch.message (double : Binary64 → List Char) : Mismatch → String
  | .wrongKind found wanted => "invalid type: " ++ found.message double ++ ", expected " ++ wanted
  | .wrongValue found wanted => "invalid value: " ++ found.message double ++ ", expected " ++ wanted
  | .wrongLength length wanted => "invalid length " ++ toString length ++ ", expected " ++ wanted
  | .missingField name => "missing field `" ++ name ++ "`"
  | .repeatedField name => "duplicate field `" ++ name ++ "`"

end StackSurvey
