import StackSurvey.Proofs.Stream.Calls

/-! # What a splitter looks at

    Bytes that come in are fresh until a search for a delimiter has looked at them, or until they
    are taken at the end of the stream without a look.  A call never puts a byte back among the
    fresh ones, so no byte is looked at twice, whether it is given back in a chunk, cut off or
    still held.

    * `Call.look` is what a call does to the fresh bytes, and `Step.spends` says that it does
      nothing else.
    * `spent_record`: the bytes of a stream are those that were looked at or taken unseen, in the
      order of the calls, and those that are fresh.
    * `looked_at_once`: so `inspected` counts every byte at most once, and exactly once wherever
      all that came in was searched. -/

namespace StackSurvey

namespace Splitter

/-! ## Section 1: Fresh bytes -/

/-- The bytes held that no search has looked at. -/
def fresh (s : Splitter) : Bytes := s.buffer.drop s.scanned

theorem length_fresh (s : Splitter) : s.fresh.length = s.buffer.length - s.scanned :=
  List.length_drop

/-- What a call does to the fresh bytes: it looks at some, or it gives them away without a
    look. -/
structure Look where
  inspected : Bytes := []
  unseen : Bytes := []

/-- The bytes that are not fresh any more. -/
def Look.bytes (l : Look) : Bytes := l.inspected ++ l.unseen

/-- A search looks at the fresh bytes up to the first delimiter, and at that one too. -/
def Call.look : Call → Splitter → Look
  | .push _, _ => {}
  | .next, s =>
    { inspected := s.fresh.take ((s.fresh.takeWhile (· ≠ s.delimiter)).length + 1) }
  | .finish, s => { unseen := s.fresh }

/-- What calls do to the fresh bytes, one after the other. -/
def looks : List Call → Splitter → List Look
  | [], _ => []
  | call :: calls, s => call.look s :: looks calls (call.answer s).2

/-- Without a delimiter a search looks at all fresh bytes. -/
theorem inspected_of_not_mem {s : Splitter} (h : s.delimiter ∉ s.buffer) :
    (Call.next.look s).inspected = s.fresh := by
  have hbefore : s.fresh.takeWhile (· ≠ s.delimiter) = s.fresh := by
    rw [List.takeWhile_eq_self_iff]
    intro b hb
    have hne : b ≠ s.delimiter := fun he => h (he ▸ List.mem_of_mem_drop hb)
    simpa using hne
  show s.fresh.take _ = s.fresh
  rw [hbefore]
  exact List.take_of_length_le (Nat.le_succ _)

section firstDelimiter

variable {s : Splitter} {front back : Bytes} (hs : s.Sound)
  (held : s.buffer = front ++ s.delimiter :: back)
include hs held

/-- What was looked at ends before the first delimiter. -/
theorem Sound.fresh_eq : s.fresh = front.drop s.scanned ++ s.delimiter :: back := by
  unfold fresh
  rw [held, List.drop_append_of_le_length (hs.scanned_le_front held)]

/-- A search stops at the first delimiter. -/
theorem Sound.inspected_eq (clean : s.delimiter ∉ front) :
    (Call.next.look s).inspected = front.drop s.scanned ++ [s.delimiter] := by
  have hbefore : s.fresh.takeWhile (· ≠ s.delimiter) = front.drop s.scanned := by
    rw [hs.fresh_eq held, List.takeWhile_append_of_pos]
    · simp
    · intro b hb
      have hne : b ≠ s.delimiter := fun he => clean (he ▸ List.mem_of_mem_drop hb)
      simpa using hne
  show s.fresh.take _ = _
  rw [hbefore, hs.fresh_eq held, List.take_append, List.take_of_length_le (Nat.le_succ _)]
  simp

end firstDelimiter

/-! ## Section 2: One call -/

/-- A call spends the front of the fresh bytes and those that come in, and counts the bytes that
    it looks at. -/
structure Spends (s : Splitter) (call : Call) (t : Splitter) : Prop where
  bytes : s.fresh ++ call.bytes = (call.look s).bytes ++ t.fresh
  inspected : t.inspected = s.inspected + (call.look s).inspected.length

/-- **Every call spends fresh bytes**: what it has looked at once is never fresh again. -/
theorem Step.spends {s t : Splitter} {call : Call} {chunk? : Option Bytes}
    (h : s.Step call chunk? t) (hs : s.Sound) : s.Spends call t := by
  cases h with
  | pushed bytes =>
    refine ⟨?_, rfl⟩
    show s.buffer.drop s.scanned ++ bytes = (s.buffer ++ bytes).drop s.scanned
    rw [List.drop_append_of_le_length hs.scanned_le]
  | @delimited front back clean held =>
    have hlook := hs.inspected_eq held clean
    refine ⟨?_, ?_⟩
    · show s.fresh ++ [] = ((Call.next.look s).inspected ++ []) ++ back
      rw [hlook, hs.fresh_eq held]
      simp
    · rw [hlook, List.length_append, List.length_drop, List.length_singleton]
      show s.inspected + (front.length - s.scanned) + 1 = _
      omega
  | cut clean long =>
    have hlook := inspected_of_not_mem clean
    refine ⟨?_, ?_⟩
    -- The search has gone to the end of the buffer, so what is not cut off is not fresh either.
    · show s.fresh ++ [] = ((Call.next.look s).inspected ++ []) ++
        (s.buffer.drop s.limit).drop (s.buffer.drop s.limit).length
      rw [hlook, List.drop_length]
      simp
    · rw [hlook, length_fresh]
  | waits waiting =>
    have hlook := inspected_of_not_mem waiting.clean
    refine ⟨?_, ?_⟩
    · show s.fresh ++ [] = ((Call.next.look s).inspected ++ []) ++ s.buffer.drop s.buffer.length
      rw [hlook, List.drop_length]
      simp
    · rw [hlook, length_fresh]
  | taken held => exact ⟨rfl, rfl⟩
  | nothing empty =>
    refine ⟨?_, rfl⟩
    show s.fresh ++ [] = s.fresh ++ s.buffer.drop 0
    rw [empty]
    rfl

/-- After a call that has found no chunk nothing is fresh. -/
theorem Sound.fresh_of_none {s : Splitter} (hs : s.Sound) (hnone : s.nextChunk.1 = none) :
    s.nextChunk.2.fresh = [] := by
  have hstep := hs.step .next
  rw [show (Call.next.answer s).1 = none from hnone] at hstep
  show (Call.next.answer s).2.fresh = []
  generalize (Call.next.answer s).2 = t at hstep
  cases hstep with
  | waits waiting => exact List.drop_length

/-! ## Section 3: All calls -/

/-- **Each byte is spent once.**  The induction is on the calls: what is fresh after a call is
    what the others begin with. -/
theorem spent_record {s : Splitter} (hs : s.Sound) (calls : List Call) :
    s.fresh ++ pushed calls = (looks calls s).flatMap Look.bytes ++ (after calls s).fresh ∧
      (after calls s).inspected =
        s.inspected + ((looks calls s).flatMap Look.inspected).length := by
  -- By induction on the calls: what one of them brings is fresh, and what it looks at is not fresh
  -- any more.
  induction calls generalizing s with
  | nil => exact ⟨List.append_nil _, rfl⟩
  | cons call calls ih =>
    have hstep := hs.step call
    have hspends := hstep.spends hs
    obtain ⟨hbytes, hcount⟩ := ih (hstep.keeps hs).1
    constructor
    · rw [pushed_cons, looks, List.flatMap_cons, List.append_assoc, ← List.append_assoc s.fresh,
        hspends.bytes, List.append_assoc, hbytes]
      rfl
    · rw [looks, List.flatMap_cons, List.length_append]
      show (after calls (call.answer s).2).inspected = _
      rw [hcount, hspends.inspected]
      omega

/-- All that is spent is looked at or unseen. -/
theorem length_flatMap_bytes (ls : List Look) :
    (ls.flatMap Look.bytes).length =
      (ls.flatMap Look.inspected).length + (ls.flatMap Look.unseen).length := by
  induction ls with
  | nil => rfl
  | cons l ls ih =>
    simp only [List.flatMap_cons, List.length_append, Look.bytes]
    omega

/-- Orderly calls take nothing unseen: before each end of the stream a search has looked at all
    that was held. -/
theorem unseen_of_orderlyAfter {s : Splitter} (hs : s.Sound) (previous? : Option Entry)
    (hprevious : previous? = some ⟨.next, none⟩ → s.fresh = []) {calls : List Call}
    (h : OrderlyAfter previous? (record calls s)) :
    (looks calls s).flatMap Look.unseen = [] := by
  induction calls generalizing s previous? with
  | nil => rfl
  | cons call calls ih =>
    obtain ⟨hplace, hcalls⟩ := h
    -- Only finishing can drop bytes unseen, and it comes after a search that has seen them all.
    have hunseen : (call.look s).unseen = [] := by
      cases call with
      | push bytes => rfl
      | next => rfl
      | finish => exact hprevious (hplace rfl)
    have hfresh : some (⟨call, (call.answer s).1⟩ : Entry) = some ⟨.next, none⟩ →
        (call.answer s).2.fresh = [] := by
      intro heq
      obtain ⟨rfl, hnone⟩ := Entry.mk.inj (Option.some.inj heq)
      exact hs.fresh_of_none hnone
    rw [looks, List.flatMap_cons, hunseen, List.nil_append]
    exact ih ((hs.step call).keeps hs).1 _ hfresh hcalls

/-- What comes first in orderly entries is orderly. -/
theorem OrderlyAfter.left {previous? : Option Entry} {entries more : List Entry}
    (h : OrderlyAfter previous? (entries ++ more)) : OrderlyAfter previous? entries := by
  induction entries generalizing previous? with
  | nil => trivial
  | cons e entries ih => exact ⟨h.1, ih h.2⟩

/-- If orderly calls have looked at all that there was before them, they have looked at all that
    came in when no chunk is found. -/
theorem inspected_of_none {s : Splitter} (hs : s.Sound) (hfresh : s.fresh = [])
    {calls : List Call} (horderly : Orderly (record calls s))
    (hnone : (after calls s).nextChunk.1 = none) :
    (after calls s).nextChunk.2.inspected = s.inspected + (pushed calls).length := by
  let u := after calls s
  have hu : u.Sound := (hs.after calls).1
  have hunseen := unseen_of_orderlyAfter hs none (by simp) horderly
  obtain ⟨hbytes, hcount⟩ := spent_record hs calls
  have hlength := congrArg List.length hbytes
  rw [hfresh, List.nil_append, List.length_append, length_flatMap_bytes, hunseen,
    List.length_nil, Nat.add_zero] at hlength
  -- The last search goes through all that is still fresh.
  have hspends : u.Spends .next u.nextChunk.2 := (hu.step .next).spends hu
  have hlast := congrArg List.length hspends.bytes
  rw [hu.fresh_of_none hnone] at hlast
  have hwhole : u.fresh.length = (Call.next.look u).inspected.length := by
    simpa [Call.bytes, Look.bytes, Call.look] using hlast
  calc u.nextChunk.2.inspected
      = u.inspected + u.fresh.length := by rw [hspends.inspected, hwhole]
    _ = s.inspected + ((looks calls s).flatMap Look.inspected).length + u.fresh.length := by
        rw [← hcount]
    _ = s.inspected + (pushed calls).length := by rw [hlength, Nat.add_assoc]

/-- **Each byte is looked at once at most**, whatever the delimiter, the limit and the order of
    the calls.  The bytes that have come in are, in order, those that calls have looked at or
    taken unseen, and those that are held and fresh.  What is counted are the bytes looked at,
    so together with the other two kinds they are as many as have come in.  If what is left is
    only taken right after no chunk was found, all bytes that have come in were looked at
    whenever no chunk is found. -/
theorem looked_at_once (delimiter : UInt8) (limit : Nat) (calls : List Call) :
    let start := Splitter.ofLimit delimiter limit
    let s := after calls start
    let unseen := (looks calls start).flatMap Look.unseen
    pushed calls = (looks calls start).flatMap Look.bytes ++ s.fresh ∧
      s.inspected = ((looks calls start).flatMap Look.inspected).length ∧
      s.inspected + s.fresh.length + unseen.length = (pushed calls).length ∧
      (Orderly (record calls start) → ∀ earlier later, calls = earlier ++ .next :: later →
        (after earlier start).nextChunk.1 = none →
        (after earlier start).nextChunk.2.inspected = (pushed earlier).length) := by
  intro start s unseen
  have hstart : start.Sound := .ofLimit delimiter limit
  obtain ⟨hbytes, hcount⟩ := spent_record hstart calls
  have hstream : pushed calls = (looks calls start).flatMap Look.bytes ++ s.fresh := hbytes
  have hinspected : s.inspected = ((looks calls start).flatMap Look.inspected).length := by
    rw [hcount]
    exact Nat.zero_add _
  refine ⟨hstream, hinspected, ?_, ?_⟩
  · rw [hstream, List.length_append, length_flatMap_bytes, ← hinspected]
    show s.inspected + s.fresh.length + unseen.length = s.inspected + unseen.length + s.fresh.length
    omega
  · -- Up to a `none` the calls are orderly as well, so nothing was dropped unseen.
    rintro horderly earlier later rfl hnone
    rw [record_append] at horderly
    have hearlier : Orderly (record earlier start) := OrderlyAfter.left horderly
    rw [inspected_of_none hstart rfl hearlier hnone]
    exact Nat.zero_add _

/-- A limit of four bytes cuts the first chunk, and what is left is taken before the stream goes
    on: after a search, or right after a chunk, when one byte is fresh. -/
theorem looked_at_once_cut_and_left_over :
    let front : List Call := [
      .push (Utf8.encode "abcdef"), .next, .push (Utf8.encode "g\x00h"), .next]
    let back : List Call := [.push (Utf8.encode "x\x00"), .next]
    let orderly := front ++ [.next, .finish] ++ back
    let hasty := front ++ [.finish] ++ back
    Orderly (record (orderly ++ [.next]) (.ofLimit 0 4)) ∧
      (after orderly (.ofLimit 0 4)).nextChunk.2.inspected = (pushed orderly).length ∧
      ¬ Orderly (record hasty (.ofLimit 0 4)) ∧
      (looks hasty (.ofLimit 0 4)).flatMap Look.unseen = Utf8.encode "h" ∧
      (after hasty (.ofLimit 0 4)).inspected + 1 = (pushed hasty).length := by
  intro front back orderly hasty
  have horderly : Orderly (record (orderly ++ [.next]) (.ofLimit 0 4)) := by decide +kernel
  have hnone : (after orderly (.ofLimit 0 4)).nextChunk.1 = none := by decide +kernel
  obtain ⟨-, -, -, hall⟩ := looked_at_once 0 4 (orderly ++ [.next])
  obtain ⟨-, -, hcount, -⟩ := looked_at_once 0 4 hasty
  have hunseen : (looks hasty (.ofLimit 0 4)).flatMap Look.unseen = Utf8.encode "h" := by
    decide +kernel
  have hfresh : (after hasty (.ofLimit 0 4)).fresh = [] := by decide +kernel
  refine ⟨horderly, hall horderly orderly [] rfl hnone, by decide +kernel, hunseen, ?_⟩
  have hone : (Utf8.encode "h").length = 1 := by decide +kernel
  rw [hunseen, hfresh, hone] at hcount
  exact hcount

end Splitter
end StackSurvey
