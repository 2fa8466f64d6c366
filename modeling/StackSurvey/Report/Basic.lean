import StackSurvey.Engine.Run

/-! # Reporters

    A reporter is told of every stage of a run and gets the findings of the engines.  Being told
    may fail, as what it writes to may, and that ends the run.  A reporter wants only so many
    findings of each engine, which `FindingCap` counts. -/

namespace StackSurvey.Report

/-- A stage of a run. -/
inductive Notice where
  | started
  | skipped (e : Engine)
  | running (e : Engine)
  | ended (e : Engine) (outcome : Container.Outcome)
  | finished (features : FeatureSet)

/-- A reporter in a state `φ`. -/
structure Reporter (φ : Type) where
  /-- Is told of a stage. -/
  tell : Notice → φ → Except String Unit × φ
  /-- Gets a finding, and says whether more are wanted. -/
  write : Finding → φ → Bool × φ
  /-- Learns of an invalid document; the answer is what the log says about it. -/
  fail : String → φ → List LogLine × φ
  /-- Is told that nothing follows. -/
  close : φ → φ

/-- Counts the findings of an engine. -/
structure FindingCap where
  limit : Nat
  count : Nat := 0
deriving DecidableEq, Repr

namespace FindingCap

/-- A cap without findings; a limit of 0 counts as 1. -/
def ofLimit (limit : Nat) : FindingCap := { limit := max limit 1 }

/-- Starts over for another engine. -/
def reset (c : FindingCap) : FindingCap := { c with count := 0 }

/-- Counts a finding, and says whether more are wanted. -/
def accept (c : FindingCap) : Bool × FindingCap :=
  (c.count + 1 < c.limit, { c with count := c.count + 1 })

end FindingCap
end StackSurvey.Report
