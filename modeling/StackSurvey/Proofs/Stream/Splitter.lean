import Mathlib.Data.List.TakeWhile
import StackSurvey.Proofs.Stream.Documents

/-! # What a splitter gives back

    A splitter is sound as long as what it counts as looked at holds no delimiter.  Then
    `nextChunk` does one of three things: it gives the bytes up to the first delimiter, or cuts a
    buffer that has grown too long, or gives nothing.  Where no piece exceeds the limit nothing
    is ever cut, and `drain` gives the complete pieces of the buffer and keeps the tail. -/

namespace StackSurvey

namespace Splitter

/-! ## Section 1: Soundness -/

/-- What counts as looked at is part of the buffer and holds no delimiter. -/
structure Sound (s : Splitter) : Prop where
  scanned_le : s.scanned ≤ s.buffer.length
  clean : s.delimiter ∉ s.buffer.take s.scanned

/-- A buffer without a delimiter may count as looked at. -/
theorem Sound.of_not_mem {s : Splitter} (hle : s.scanned ≤ s.buffer.length)
    (h : s.delimiter ∉ s.buffer) : s.Sound :=
  ⟨hle, fun hm => h (List.mem_of_mem_take hm)⟩

theorem Sound.push {s : Splitter} (hs : s.Sound) (bytes : Bytes) : (s.push bytes).Sound := by
  refine ⟨?_, ?_⟩
  · have := hs.scanned_le
    simp only [Splitter.push, List.length_append]
    omega
  · simp only [Splitter.push]
    rw [List.take_append_of_le_length hs.scanned_le]
    exact hs.clean

/-! ## Section 2: The next chunk -/

section firstDelimiter

variable {s : Splitter} {front back : Bytes}

/-- What counts as looked at ends before the first delimiter. -/
theorem Sound.scanned_le_front (hs : s.Sound) (hb : s.buffer = front ++ s.delimiter :: back) :
    s.scanned ≤ front.length := by
  by_contra hlt
  refine hs.clean ?_
  rw [hb, List.take_append]
  refine List.mem_append_right _ ?_
  obtain ⟨k, hk⟩ : ∃ k, s.scanned - front.length = k + 1 := ⟨s.scanned - front.length - 1, by omega⟩
  rw [hk, List.take_succ_cons]
  exact List.mem_cons_self

/-- The bytes up to the first delimiter are the next chunk. -/
theorem nextChunk_of_cons (hs : s.Sound) (hf : s.delimiter ∉ front)
    (hb : s.buffer = front ++ s.delimiter :: back) :
    s.nextChunk = (some front,
      { s with
        buffer := back
        scanned := 0
        inspected := s.inspected + (front.length - s.scanned) + 1 }) := by
  -- Only fresh bytes are searched, and what was looked at ends before the first delimiter, so
  -- the search stops at it.
  have hle := hs.scanned_le_front hb
  have hfresh : s.buffer.drop s.scanned = front.drop s.scanned ++ s.delimiter :: back := by
    rw [hb, List.drop_append_of_le_length hle]
  have hbefore : (s.buffer.drop s.scanned).takeWhile (· ≠ s.delimiter) = front.drop s.scanned := by
    rw [hfresh, List.takeWhile_append_of_pos]
    · simp
    · intro b hm
      have : b ≠ s.delimiter := fun he => hf (he ▸ List.mem_of_mem_drop hm)
      simpa using this
  have hstop : s.scanned + (front.drop s.scanned).length = front.length := by
    rw [List.length_drop]
    omega
  unfold nextChunk
  dsimp only
  rw [hbefore, if_pos (by rw [hfresh]; simp), hstop, List.length_drop, hb]
  simp

end firstDelimiter

/-- Without a delimiter the buffer is cut if it is too long, and looked at otherwise. -/
theorem nextChunk_of_not_mem {s : Splitter} (h : s.delimiter ∉ s.buffer) :
    s.nextChunk =
      let inspected := s.inspected + (s.buffer.length - s.scanned)
      if s.limit < s.buffer.length then
        (some (s.buffer.take s.limit),
          { s with
            buffer := s.buffer.drop s.limit
            scanned := (s.buffer.drop s.limit).length
            inspected })
      else (none, { s with scanned := s.buffer.length, inspected }) := by
  -- The search goes through all that was not looked at before.
  have hbefore : (s.buffer.drop s.scanned).takeWhile (· ≠ s.delimiter) = s.buffer.drop s.scanned := by
    rw [List.takeWhile_eq_self_iff]
    intro b hm
    have : b ≠ s.delimiter := fun he => h (he ▸ List.mem_of_mem_drop hm)
    simpa using this
  unfold nextChunk
  dsimp only
  simp only [hbefore, Nat.lt_irrefl, if_false, List.length_drop]

/-! ## Section 3: All chunks -/

theorem drain_of_none {s t : Splitter} (h : s.nextChunk = (none, t)) : s.drain = ([], t) := by
  unfold drain
  split
  · next heq => cases h.symm.trans heq; rfl
  · next heq => cases h.symm.trans heq

theorem drain_of_some {s t : Splitter} {chunk : Bytes} (h : s.nextChunk = (some chunk, t)) :
    s.drain = (chunk :: t.drain.1, t.drain.2) := by
  conv_lhs => unfold drain
  split
  · next heq => cases h.symm.trans heq
  · next heq => cases h.symm.trans heq; rfl

/-- The splitter that has given back all that is complete, every byte having been looked at. -/
def settled (s : Splitter) : Splitter :=
  { s with
    buffer := tail s.delimiter s.buffer
    scanned := (tail s.delimiter s.buffer).length
    inspected := s.inspected + (s.buffer.length - s.scanned) }

/-- A buffer whose pieces fit gives its complete pieces and keeps its tail. -/
theorem drain_eq {s : Splitter} (hs : s.Sound) (hfit : Fits s.limit s.delimiter s.buffer) :
    s.drain = (complete s.delimiter s.buffer, s.settled) := by
  induction hn : s.buffer.length using Nat.strongRecOn generalizing s with
  | ind n ih =>
    rcases cut_cases s.delimiter s.buffer with h | ⟨front, back, hf, hb⟩
    -- The whole buffer is one piece, which fits, so nothing is cut off.
    · have hle : ¬ s.limit < s.buffer.length := Nat.not_lt.2 (hfit.length_le h)
      have hnext := nextChunk_of_not_mem h
      dsimp only at hnext
      rw [if_neg hle] at hnext
      rw [drain_of_none hnext, complete_of_not_mem h, settled, tail_of_not_mem h]
    · have hle := hs.scanned_le_front hb
      have hlen : s.buffer.length = front.length + (back.length + 1) := by rw [hb]; simp
      have hback : Fits s.limit s.delimiter back := Fits.of_cons hf (hb ▸ hfit)
      -- `t` is the splitter after the first chunk: it is sound again, and its buffer is shorter.
      let t : Splitter := { s with
        buffer := back
        scanned := 0
        inspected := s.inspected + (front.length - s.scanned) + 1 }
      have ht : t.Sound := ⟨Nat.zero_le _, List.not_mem_nil⟩
      have hcount :
          t.inspected + (t.buffer.length - t.scanned) =
            s.inspected + (s.buffer.length - s.scanned) := by
        dsimp only [t]
        omega
      have hsettled : t.settled = s.settled := by
        unfold settled
        rw [hcount, hb, tail_append_cons hf]
      rw [drain_of_some (nextChunk_of_cons hs hf hb), ih back.length (by omega) ht hback rfl,
        hsettled, hb, complete_append_cons hf]

/-! ## Section 4: Frames -/

/-- Takes in frames one after the other, and gives the chunks that they complete. -/
def feed : List Bytes → Splitter → List Bytes × Splitter
  | [], s => ([], s)
  | frame :: frames, s =>
    let (chunks, s) := (s.push frame).drain
    let (more, s) := feed frames s
    (chunks ++ more, s)

/-- Frames give the complete pieces of what they make up together with the bytes held before
    them, and the tail is kept. -/
theorem feed_eq (frames : List Bytes) {s : Splitter} (hle : s.scanned ≤ s.buffer.length)
    (hmem : s.delimiter ∉ s.buffer)
    (hfit : Fits s.limit s.delimiter (s.buffer ++ frames.flatten)) :
    (feed frames s).1 = complete s.delimiter (s.buffer ++ frames.flatten) ∧
      (feed frames s).2.buffer = tail s.delimiter (s.buffer ++ frames.flatten) := by
  induction frames generalizing s with
  | nil =>
    simp only [List.flatten_nil, List.append_nil, complete_of_not_mem hmem, tail_of_not_mem hmem]
    exact ⟨rfl, rfl⟩
  | cons frame frames ih =>
    have hbuffer : s.buffer ++ (frame :: frames).flatten =
        (s.push frame).buffer ++ frames.flatten := by
      rw [List.flatten_cons, ← List.append_assoc]
      rfl
    rw [hbuffer] at hfit ⊢
    have hdrain := drain_eq ((Sound.of_not_mem hle hmem).push frame) hfit.of_append
    -- What was complete before the next frame stays so; the rest is the case of the tail.
    obtain ⟨hcomplete, htail⟩ := ih (s := (s.push frame).settled) (Nat.le_refl _) (not_mem_tail _ _)
      hfit.of_tail
    rw [show s.delimiter = (s.push frame).delimiter from rfl,
      complete_append _ (s.push frame).buffer, tail_append _ (s.push frame).buffer]
    simp only [feed, hdrain, hcomplete]
    exact ⟨rfl, htail⟩

/-- Frames whose documents fit give the documents of what they make up. -/
theorem feed_ofDelimiter {delimiter : UInt8} {frames : List Bytes}
    (hfit : ∀ d ∈ documents delimiter frames.flatten, d.length ≤ defaultChunkLimit) :
    (feed frames (.ofDelimiter delimiter)).1 = complete delimiter frames.flatten ∧
      (feed frames (.ofDelimiter delimiter)).2.buffer = tail delimiter frames.flatten :=
  feed_eq frames (s := .ofDelimiter delimiter) (Nat.le_refl _) List.not_mem_nil
    (fits_of_documents hfit)

end Splitter
end StackSurvey
