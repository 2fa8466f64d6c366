import StackSurvey.Number.Notation

/-! # Durations

    Times are counted in milliseconds. -/

namespace StackSurvey

/-- A length of time. -/
structure Duration where
  milliseconds : Nat := 0
deriving DecidableEq, Repr

namespace Duration

def ofSeconds (n : Nat) : Duration := ⟨1000 * n⟩

def seconds (d : Duration) : Nat := d.milliseconds / 1000

@[simp] theorem seconds_ofSeconds (n : Nat) : (ofSeconds n).seconds = n := by
  simp [ofSeconds, seconds]

/-- The double nearest to the seconds: the whole ones and the rounded rest are added. -/
def toDouble (d : Duration) : Binary64 :=
  let rest := Binary64.ofRatio false (d.milliseconds % 1000) 1000
  let (num, den) := rest.ratio
  Binary64.ofRatio false (d.seconds * den + num) den

/-- Seconds with one place. -/
def display (d : Duration) : String := String.ofList d.toDouble.onePlace ++ "s"

end Duration
end StackSurvey
