import Mathlib.Tactic.Common
import StackSurvey.Stream.Splitter

/-! # The documents of a stream

    A stream of bytes is cut at its delimiters.  What a delimiter ends is complete; what follows
    the last one is the tail, which is a document of its own unless it is empty.  A splitter
    whose limit no piece exceeds gives exactly these documents, in whatever frames the stream
    arrives. -/

namespace StackSurvey

/-! ## Section 1: Cutting a stream -/

namespace Splitter

/-- The pieces of a stream that a delimiter ends. -/
def complete (delimiter : UInt8) (stream : Bytes) : List Bytes :=
  (stream.splitOn delimiter).dropLast

/-- What follows the last delimiter of a stream. -/
def tail (delimiter : UInt8) (stream : Bytes) : Bytes :=
  (stream.splitOn delimiter).getLastD []

/-- The bytes of a tail as documents: one, or none if there are no bytes. -/
def rest (bytes : Bytes) : List Bytes := if bytes = [] then [] else [bytes]

/-- The documents of a stream. -/
def documents (delimiter : UInt8) (stream : Bytes) : List Bytes :=
  complete delimiter stream ++ rest (tail delimiter stream)

/-- No piece of the stream is longer than `limit`. -/
def Fits (limit : Nat) (delimiter : UInt8) (stream : Bytes) : Prop :=
  ∀ piece ∈ stream.splitOn delimiter, piece.length ≤ limit

theorem splitOn_eq (delimiter : UInt8) (stream : Bytes) :
    stream.splitOn delimiter = complete delimiter stream ++ [tail delimiter stream] := by
  have hne := List.splitOn_ne_nil delimiter stream
  unfold complete tail
  rw [List.getLastD_eq_getLast?, List.getLast?_eq_some_getLast hne, Option.getD_some]
  exact (List.dropLast_concat_getLast hne).symm

/-- Documents that fit make a stream that fits: the only other piece is empty. -/
theorem fits_of_documents {limit : Nat} {delimiter : UInt8} {stream : Bytes}
    (h : ∀ d ∈ documents delimiter stream, d.length ≤ limit) : Fits limit delimiter stream := by
  intro piece hp
  rw [splitOn_eq, List.mem_append, List.mem_singleton] at hp
  by_cases he : piece = []
  · simp [he]
  · refine h piece ?_
    rcases hp with hp | rfl
    · exact List.mem_append_left _ hp
    · simp [documents, rest, he]

section noDelimiter

variable {delimiter : UInt8} {front : Bytes} (h : delimiter ∉ front)
include h

theorem complete_of_not_mem : complete delimiter front = [] := by
  simp [complete, List.splitOn_eq_singleton h]

theorem tail_of_not_mem : tail delimiter front = front := by
  simp [tail, List.splitOn_eq_singleton h]

theorem complete_append_cons (back : Bytes) :
    complete delimiter (front ++ delimiter :: back) = front :: complete delimiter back := by
  unfold complete
  rw [List.splitOn_append_cons_self_of_not_mem h,
    List.dropLast_cons_of_ne_nil (List.splitOn_ne_nil _ _)]

theorem tail_append_cons (back : Bytes) :
    tail delimiter (front ++ delimiter :: back) = tail delimiter back := by
  have hne := List.splitOn_ne_nil delimiter back
  unfold tail
  rw [List.splitOn_append_cons_self_of_not_mem h, List.getLastD_eq_getLast?,
    List.getLastD_eq_getLast?, List.getLast?_cons_of_ne_nil hne]

end noDelimiter

/-- A stream has a first delimiter, or none. -/
theorem cut_cases (delimiter : UInt8) (stream : Bytes) :
    delimiter ∉ stream ∨
      ∃ front back, delimiter ∉ front ∧ stream = front ++ delimiter :: back := by
  by_cases h : delimiter ∈ stream
  · obtain ⟨front, back, rfl, hf⟩ := List.eq_append_cons_of_mem h
    exact .inr ⟨front, back, hf, rfl⟩
  · exact .inl h

theorem not_mem_tail (delimiter : UInt8) (stream : Bytes) :
    delimiter ∉ tail delimiter stream := by
  induction hn : stream.length using Nat.strongRecOn generalizing stream with
  | ind n ih =>
    rcases cut_cases delimiter stream with h | ⟨front, back, hf, rfl⟩
    · rwa [tail_of_not_mem h]
    -- What follows the first delimiter is shorter and has the same tail.
    · rw [tail_append_cons hf]
      refine ih _ ?_ back rfl
      simp only [List.length_append, List.length_cons] at hn
      omega

/-- More bytes never change what is complete; they are cut together with the tail. -/
theorem splitOn_append (delimiter : UInt8) (stream more : Bytes) :
    (stream ++ more).splitOn delimiter =
      complete delimiter stream ++ (tail delimiter stream ++ more).splitOn delimiter := by
  induction hn : stream.length using Nat.strongRecOn generalizing stream with
  | ind n ih =>
    -- Without a delimiter the stream is its own tail; otherwise both sides begin with the same
    -- piece, and the induction is on what follows it.
    rcases cut_cases delimiter stream with h | ⟨front, back, hf, rfl⟩
    · rw [complete_of_not_mem h, tail_of_not_mem h, List.nil_append]
    · have hlt : back.length < n := by
        simp only [List.length_append, List.length_cons] at hn
        omega
      rw [complete_append_cons hf, tail_append_cons hf, List.append_assoc, List.cons_append,
        List.splitOn_append_cons_self_of_not_mem hf, ih _ hlt back rfl, List.cons_append]

theorem complete_append (delimiter : UInt8) (stream more : Bytes) :
    complete delimiter (stream ++ more) =
      complete delimiter stream ++ complete delimiter (tail delimiter stream ++ more) := by
  unfold complete
  rw [splitOn_append, List.dropLast_append_of_ne_nil (List.splitOn_ne_nil _ _), complete]

theorem tail_append (delimiter : UInt8) (stream more : Bytes) :
    tail delimiter (stream ++ more) = tail delimiter (tail delimiter stream ++ more) := by
  have hne := List.splitOn_ne_nil delimiter (tail delimiter stream ++ more)
  rw [tail, splitOn_append, List.getLastD_eq_getLast?, List.getLast?_append,
    List.getLast?_eq_some_getLast hne, Option.some_or, ← List.getLast?_eq_some_getLast hne,
    ← List.getLastD_eq_getLast?, ← tail]

/-- The first piece of a stream begins with all that stands before its first delimiter. -/
theorem length_le_of_mem_splitOn (delimiter : UInt8) {front : Bytes} (h : delimiter ∉ front)
    (more : Bytes) :
    ∃ piece ∈ (front ++ more).splitOn delimiter, front.length ≤ piece.length := by
  -- The piece goes on up to the first delimiter of `more`, or to its end.
  rcases cut_cases delimiter more with hm | ⟨between, back, hb, rfl⟩
  · refine ⟨front ++ more, ?_, by simp⟩
    rw [List.splitOn_eq_singleton (by simp [h, hm])]
    exact List.mem_singleton_self _
  · refine ⟨front ++ between, ?_, by simp⟩
    rw [← List.append_assoc, List.splitOn_append_cons_self_of_not_mem (by simp [h, hb])]
    exact List.mem_cons_self

namespace Fits

variable {limit : Nat} {delimiter : UInt8}

/-- The front of a stream that fits does so, although its last piece may be cut off. -/
theorem of_append {stream more : Bytes} (h : Fits limit delimiter (stream ++ more)) :
    Fits limit delimiter stream := by
  intro piece hp
  rw [splitOn_eq, List.mem_append, List.mem_singleton] at hp
  rcases hp with hp | rfl
  · exact h piece (by rw [splitOn_append]; exact List.mem_append_left _ hp)
  -- The tail is the beginning of some whole piece, which fits.
  · obtain ⟨whole, hw, hle⟩ :=
      length_le_of_mem_splitOn delimiter (not_mem_tail delimiter stream) more
    refine Nat.le_trans hle (h whole ?_)
    rw [splitOn_append]
    exact List.mem_append_right _ hw

/-- What is left after the complete pieces fits. -/
theorem of_tail {stream more : Bytes} (h : Fits limit delimiter (stream ++ more)) :
    Fits limit delimiter (tail delimiter stream ++ more) := by
  intro piece hp
  refine h piece ?_
  rw [splitOn_append]
  exact List.mem_append_right _ hp

/-- What follows the first delimiter fits. -/
theorem of_cons {front back : Bytes} (hf : delimiter ∉ front)
    (h : Fits limit delimiter (front ++ delimiter :: back)) : Fits limit delimiter back := by
  intro piece hp
  refine h piece ?_
  rw [List.splitOn_append_cons_self_of_not_mem hf]
  exact List.mem_cons_of_mem _ hp

/-- A stream without a delimiter is its only piece. -/
theorem length_le {front : Bytes} (hf : delimiter ∉ front) (h : Fits limit delimiter front) :
    front.length ≤ limit := by
  refine h front ?_
  rw [List.splitOn_eq_singleton hf]
  exact List.mem_singleton_self _

end Fits
end Splitter
end StackSurvey
