import StackSurvey.Text.Utf8

/-! # Splitting a stream into chunks

    Engines write documents with a delimiter byte between them.  The splitter takes the stream
    in pieces of any size and gives the documents back; a document longer than the limit is cut
    at the limit.  No byte is looked at twice: the part of the buffer known to hold no delimiter
    is remembered, and `inspected` counts the bytes looked at. -/

namespace StackSurvey

/-- The limit of a chunk unless another one is given: sixteen mebibytes. -/
def defaultChunkLimit : Nat := 16 * 1024 * 1024

/-- A splitter and the bytes it holds. -/
structure Splitter where
  delimiter : UInt8
  /-- The length at which a chunk is cut. -/
  limit : Nat
  limit_pos : 0 < limit
  buffer : Bytes := []
  /-- The length of the front part of the buffer known to hold no delimiter. -/
  scanned : Nat := 0
  /-- The number of bytes looked at so far. -/
  inspected : Nat := 0

namespace Splitter

/-- A splitter without bytes; a limit of 0 counts as 1. -/
def ofLimit (delimiter : UInt8) (limit : Nat) : Splitter :=
  { delimiter, limit := max limit 1, limit_pos := Nat.le_max_right limit 1 }

/-- A splitter with the usual limit. -/
def ofDelimiter (delimiter : UInt8) : Splitter := ofLimit delimiter defaultChunkLimit

def push (s : Splitter) (bytes : Bytes) : Splitter := { s with buffer := s.buffer ++ bytes }

/-- The next chunk, if one is complete or has to be cut. -/
def nextChunk (s : Splitter) : Option Bytes × Splitter :=
  let fresh := s.buffer.drop s.scanned
  let before := fresh.takeWhile (· ≠ s.delimiter)
  if before.length < fresh.length then
    -- Everything before the delimiter is the chunk, what was looked at earlier included.
    let stop := s.scanned + before.length
    (some (s.buffer.take stop),
      { s with
        buffer := s.buffer.drop (stop + 1)
        scanned := 0
        inspected := s.inspected + before.length + 1 })
  else
    -- Without a delimiter all fresh bytes were looked at, whether or not a chunk is cut off.
    let inspected := s.inspected + fresh.length
    if s.limit < s.buffer.length then
      let rest := s.buffer.drop s.limit
      (some (s.buffer.take s.limit), { s with buffer := rest, scanned := rest.length, inspected })
    else (none, { s with scanned := s.buffer.length, inspected })

/-- The bytes left at the end of the stream, if there are any. -/
def finish (s : Splitter) : Option Bytes × Splitter :=
  let rest := { s with buffer := [], scanned := 0 }
  if s.buffer.isEmpty then (none, rest) else (some s.buffer, rest)

/-- Every chunk makes the buffer shorter. -/
theorem length_nextChunk {s t : Splitter} {chunk : Bytes} (h : s.nextChunk = (some chunk, t)) :
    t.buffer.length < s.buffer.length := by
  unfold nextChunk at h
  dsimp only at h
  split at h
  · next hb =>
    cases h
    simp only [List.length_drop] at hb ⊢
    omega
  · split at h
    · next hl =>
      cases h
      have := s.limit_pos
      simp only [List.length_drop]
      omega
    · cases h

/-- All chunks that are complete or have to be cut. -/
def drain (s : Splitter) : List Bytes × Splitter :=
  match h : s.nextChunk with
  | (none, s') => ([], s')
  | (some chunk, s') =>
    have := length_nextChunk h
    let (chunks, t) := drain s'
    (chunk :: chunks, t)
termination_by s.buffer.length

end Splitter
end StackSurvey
