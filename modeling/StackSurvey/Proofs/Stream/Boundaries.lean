import StackSurvey.Proofs.Stream.Calls

/-! # Where a stream is cut

    The pieces of a stream lie between its delimiters.  What a splitter gives back depends on
    the stream alone as long as every piece fits: `chunks_of_stream` says that then the chunks
    are the pieces, in whatever frames the stream comes in and whenever chunks are asked for.

    A piece that does not fit is cut only if too much of it is held before its delimiter has come
    in.  `chunks_within_limit_iff` says for which streams the limit is kept in any case. -/

namespace StackSurvey

namespace Splitter

/-! ## Section 1: Pieces that fit -/

/-- A call gives back the first piece, or leaves all pieces as they are. -/
theorem Step.splitOn_eq {s t : Splitter} {call : Call} {chunk? : Option Bytes}
    (h : s.Step call chunk? t) (hfinish : call ≠ .finish) (later : Bytes)
    (hfit : Fits s.limit s.delimiter (s.buffer ++ (call.bytes ++ later))) :
    (s.buffer ++ (call.bytes ++ later)).splitOn s.delimiter =
      chunk?.toList ++ (t.buffer ++ later).splitOn s.delimiter := by
  cases h with
  | pushed bytes =>
    show (s.buffer ++ (bytes ++ later)).splitOn _ = (s.buffer ++ bytes ++ later).splitOn _
    rw [List.append_assoc]
  | @delimited front back clean held =>
    show (s.buffer ++ later).splitOn _ = front :: (back ++ later).splitOn _
    rw [held, List.append_assoc, List.cons_append]
    exact List.splitOn_append_cons_self_of_not_mem clean _
  | cut clean long =>
    -- All that is held belongs to one piece, which fits.
    have hle : s.buffer.length ≤ s.limit := hfit.of_append.length_le clean
    omega
  | waits waiting => rfl
  -- What is left over may be the front of a piece whose other bytes come in later.
  | taken held => exact absurd rfl hfinish
  | nothing empty => exact absurd rfl hfinish

/-- The pieces of what is held and of what comes in are the chunks given back, and the pieces of
    what is held afterwards and of what comes in later. -/
theorem splitOn_record {s : Splitter} (hs : s.Sound) {calls : List Call}
    (hfinish : .finish ∉ calls) (later : Bytes)
    (hfit : Fits s.limit s.delimiter (s.buffer ++ (pushed calls ++ later))) :
    (s.buffer ++ (pushed calls ++ later)).splitOn s.delimiter =
      chunks (record calls s) ++ ((after calls s).buffer ++ later).splitOn s.delimiter := by
  induction calls generalizing s with
  | nil => rfl
  | cons call calls ih =>
    rw [List.mem_cons, not_or] at hfinish
    obtain ⟨hcall, hcalls⟩ := hfinish
    obtain ⟨hsound, hdelimiter, hlimit⟩ := (hs.step call).keeps hs
    rw [pushed_cons, List.append_assoc] at hfit ⊢
    have hfirst := (hs.step call).splitOn_eq (Ne.symm hcall) (pushed calls ++ later) hfit
    -- What is left after the call consists of some of the pieces, so it fits as well.
    have hrest : Fits (call.answer s).2.limit (call.answer s).2.delimiter
        ((call.answer s).2.buffer ++ (pushed calls ++ later)) := by
      rw [hlimit, hdelimiter]
      intro piece hpiece
      refine hfit piece ?_
      rw [hfirst]
      exact List.mem_append_right _ hpiece
    have hlater := ih hsound hcalls hrest
    rw [hdelimiter] at hlater
    rw [hfirst, hlater, record, chunks_cons, List.append_assoc]
    rfl

/-! ## Section 2: The end of a stream -/

/-- A splitter without a chunk to give has none to give later on, unless bytes come in. -/
theorem idle_record {s : Splitter} (hsound : s.Sound) (hs : s.Waiting) {calls : List Call}
    (hcalls : ∀ call ∈ calls, call = .next ∨ call = .finish ∧ s.buffer = []) :
    chunks (record calls s) = [] ∧ (after calls s).buffer = s.buffer := by
  -- By induction on the calls: a splitter that waits is left as it is by each of them.
  induction calls generalizing s with
  | nil => exact ⟨rfl, rfl⟩
  | cons call calls ih =>
    have hstep := hsound.step call
    obtain ⟨hnone, hbuffer, hwaiting⟩ := hstep.idle hs (hcalls call List.mem_cons_self)
    obtain ⟨hchunks, hafter⟩ := ih (hstep.keeps hsound).1 hwaiting fun c hc => by
      rw [hbuffer]
      exact hcalls c (List.mem_cons_of_mem _ hc)
    refine ⟨?_, hafter.trans hbuffer⟩
    rw [record, chunks_cons, hnone, hchunks]
    rfl

/-- What is left is given once, and then there is nothing. -/
theorem finish_record {s : Splitter} (hsound : s.Sound) {calls : List Call}
    (hcalls : ∀ call ∈ calls, call = .next ∨ call = .finish) :
    chunks (record (.finish :: calls) s) = rest s.buffer := by
  have hstep := hsound.step .finish
  -- Finishing empties the buffer, whatever was in it, and what was in it is the last chunk.
  have hempty : (Call.finish.answer s).2.buffer = [] ∧
      (Call.finish.answer s).1.toList = rest s.buffer := by
    generalize (Call.finish.answer s).1 = chunk?, (Call.finish.answer s).2 = t at hstep
    cases hstep with
    | taken held => exact ⟨rfl, by simp [rest, held]⟩
    | nothing empty => exact ⟨empty, by simp [rest, empty]⟩
  obtain ⟨hbuffer, hchunk⟩ := hempty
  have hwaiting : (Call.finish.answer s).2.Waiting :=
    ⟨hbuffer ▸ List.not_mem_nil, hbuffer ▸ Nat.zero_le _⟩
  obtain ⟨hchunks, -⟩ := idle_record (hstep.keeps hsound).1 hwaiting fun c hc =>
    (hcalls c hc).imp_right fun h => ⟨h, hbuffer⟩
  rw [record, chunks_cons, hchunks, hchunk, List.append_nil]

/-- Calls take in a whole stream and give back all of it: after the last bytes no chunk was
    found, and then what is left was taken.  Nothing comes in any more. -/
def Exhausts (stream : Bytes) (calls : List Call) (s : Splitter) : Prop :=
  ∃ feed polls idle,
    calls = feed ++ .next :: polls ++ .finish :: idle ∧
    .finish ∉ feed ∧ pushed feed = stream ∧ (after feed s).nextChunk.1 = none ∧
    (∀ call ∈ polls, call = .next) ∧ ∀ call ∈ idle, call = .next ∨ call = .finish

/-- However a stream has come in, it can be exhausted. -/
theorem exists_exhausts (s : Splitter) {stream : Bytes} {feed : List Call}
    (hfinish : .finish ∉ feed) (hstream : pushed feed = stream) :
    ∃ polls, Exhausts stream (feed ++ polls) s := by
  obtain ⟨n, -, hnone⟩ := exists_none (after feed s)
  refine ⟨List.replicate n .next ++ [.next, .finish], feed ++ List.replicate n .next, [], [], ?_,
    ?_, ?_, ?_, by simp, by simp⟩
  · simp
  · simp [hfinish]
  · rw [pushed_append, hstream, pushed_replicate_next, List.append_nil]
  · rw [after_append]
    exact hnone

/-- When no chunk is left to give, the complete pieces of a stream have been given, and its tail
    is held. -/
theorem feed_record {s : Splitter} (hs : s.Sound) (hempty : s.buffer = []) {feed : List Call}
    (hfinish : .finish ∉ feed) (hfit : Fits s.limit s.delimiter (pushed feed))
    (hwaiting : (after feed s).Waiting) :
    chunks (record feed s) = complete s.delimiter (pushed feed) ∧
      (after feed s).buffer = tail s.delimiter (pushed feed) := by
  have hclean : s.delimiter ∉ (after feed s).buffer := by
    rw [← (hs.after feed).2.1]
    exact hwaiting.clean
  -- The chunks given back and what is held are the pieces of what was pushed, in order.
  have hpieces : (pushed feed).splitOn s.delimiter =
      chunks (record feed s) ++ [(after feed s).buffer] := by
    have hsplit := splitOn_record hs hfinish [] (by simpa [hempty] using hfit)
    simp only [hempty, List.nil_append, List.append_nil] at hsplit
    rw [hsplit, List.splitOn_eq_singleton hclean]
  constructor
  · rw [complete, hpieces, List.dropLast_concat]
  · rw [tail, hpieces, List.getLastD_eq_getLast?, List.getLast?_concat, Option.getD_some]

/-- An exhausted stream whose pieces fit has given its documents. -/
theorem chunks_of_exhausts {s : Splitter} (hs : s.Sound) (hempty : s.buffer = []) {stream : Bytes}
    (hfit : Fits s.limit s.delimiter stream) {calls : List Call} (h : Exhausts stream calls s) :
    chunks (record calls s) = documents s.delimiter stream := by
  obtain ⟨feed, polls, idle, rfl, hfeed, rfl, hnone, hpolls, hidle⟩ := h
  -- `u` is the splitter when all bytes have come in.
  let u := after feed s
  have hu : u.Sound := (hs.after feed).1
  have hwaiting : u.Waiting := by
    have hstep := hu.step .next
    rw [show (Call.next.answer u).1 = none from hnone] at hstep
    exact hstep.waiting
  obtain ⟨hchunks, hbuffer⟩ := feed_record hs hempty hfeed hfit hwaiting
  have hcalls : ∀ call ∈ Call.next :: polls, call = .next ∨ call = .finish ∧ u.buffer = [] := by
    intro call hcall
    rcases List.mem_cons.1 hcall with rfl | hcall
    · exact .inl rfl
    · exact .inl (hpolls call hcall)
  obtain ⟨hpolled, hheld⟩ := idle_record hu hwaiting hcalls
  have hrest : chunks (record (.finish :: idle) (after (.next :: polls) u)) = rest u.buffer := by
    rw [finish_record (hu.after _).1 hidle, hheld]
  calc chunks (record (feed ++ .next :: polls ++ .finish :: idle) s)
      = chunks (record feed s) ++ chunks (record (.next :: polls) u) ++
          chunks (record (.finish :: idle) (after (.next :: polls) u)) := by
        rw [record_append, after_append, record_append, chunks_append, chunks_append]
    _ = complete s.delimiter (pushed feed) ++ rest (tail s.delimiter (pushed feed)) := by
        rw [hpolled, hrest, hchunks, show u.buffer = _ from hbuffer, List.append_nil]

/-- **Chunks do not depend on frames.**  Of a stream whose pieces fit, the chunks given up to any
    moment are the first pieces, in whatever frames its bytes have come in and whenever chunks
    were asked for.  All of it gives its documents: the pieces without an empty last one.  So any
    two sequences of calls that exhaust it give the same chunks, and whatever has been done so
    far can be carried on to its end. -/
theorem chunks_of_stream (delimiter : UInt8) (limit : Nat) (stream : Bytes)
    (hfit : Fits (max limit 1) delimiter stream) :
    let s := Splitter.ofLimit delimiter limit
    (∀ calls, .finish ∉ calls → pushed calls <+: stream →
        chunks (record calls s) <+: stream.splitOn delimiter) ∧
      (∀ calls, Exhausts stream calls s →
        chunks (record calls s) = documents delimiter stream) ∧
      (∀ calls calls', Exhausts stream calls s → Exhausts stream calls' s →
        chunks (record calls s) = chunks (record calls' s)) ∧
      ∀ calls, .finish ∉ calls → pushed calls = stream →
        ∃ more, Exhausts stream (calls ++ more) s := by
  intro s
  have hs : s.Sound := .ofLimit delimiter limit
  have hdocuments : ∀ calls, Exhausts stream calls s →
      chunks (record calls s) = documents delimiter stream :=
    fun calls h => chunks_of_exhausts hs rfl hfit h
  refine ⟨?_, hdocuments, ?_, ?_⟩
  · rintro calls hfinish ⟨later, rfl⟩
    exact ⟨_, (splitOn_record hs hfinish later hfit).symm⟩
  · intro calls calls' h h'
    rw [hdocuments calls h, hdocuments calls' h']
  · intro calls hfinish hstream
    exact exists_exhausts s hfinish hstream

/-- A stream with an empty piece and one as long as the limit, in one frame and in several, with
    many calls for chunks between them and after its end. -/
theorem chunks_of_stream_two_framings :
    let s := Splitter.ofLimit 0 4
    let stream := Utf8.encode "ab\x00cdef\x00\x00gh"
    let atOnce : List Call := [.push stream, .next, .next, .next, .next, .finish]
    let framed : List Call := [
      .push (Utf8.encode "a"), .next, .push (Utf8.encode "b\x00c"), .next, .next,
      .push (Utf8.encode "def"), .next, .push (Utf8.encode "\x00\x00g"), .next,
      .push (Utf8.encode "h"), .next, .next, .next, .finish, .next]
    Fits 4 0 stream ∧ Exhausts stream atOnce s ∧ Exhausts stream framed s ∧
      chunks (record framed s) =
        [Utf8.encode "ab", Utf8.encode "cdef", [], Utf8.encode "gh"] ∧
      chunks (record framed s) = chunks (record atOnce s) := by
  intro s stream atOnce framed
  have hfit : Fits 4 0 stream := by
    unfold Fits
    decide +kernel
  have hdocuments : documents 0 stream =
      [Utf8.encode "ab", Utf8.encode "cdef", [], Utf8.encode "gh"] := by decide +kernel
  -- The fourth call of `next` gives nothing; with smaller pieces it takes longer to get there.
  have hatOnce : Exhausts stream atOnce s := by
    refine ⟨atOnce.take 4, [], [], rfl, ?_, ?_, ?_, ?_, ?_⟩ <;> decide +kernel
  have hframed : Exhausts stream framed s := by
    refine ⟨framed.take 11, [.next], [.next], rfl, ?_, ?_, ?_, ?_, ?_⟩ <;> decide +kernel
  obtain ⟨-, hexhausted, hsame, -⟩ := chunks_of_stream 0 4 stream hfit
  exact ⟨hfit, hatOnce, hframed, (hexhausted framed hframed).trans hdocuments,
    hsame framed atOnce hframed hatOnce⟩

/-! ## Section 3: Pieces that do not fit -/

/-- All complete pieces are given if a splitter is asked often enough. -/
theorem exists_mem_chunks {s : Splitter} (hs : s.Sound) {piece : Bytes}
    (h : piece ∈ complete s.delimiter s.buffer) :
    ∃ n, piece ∈ chunks (record (List.replicate n .next) s) := by
  -- By strong induction on the bytes held, since each chunk takes some of them away.
  induction hn : s.buffer.length using Nat.strongRecOn generalizing s with
  | ind k ih =>
    rcases cut_cases s.delimiter s.buffer with hclean | ⟨front, back, hf, hb⟩
    · -- There is no complete piece.
      rw [complete_of_not_mem hclean] at h
      cases h
    · have hnext := nextChunk_of_cons hs hf hb
      have hsound : s.nextChunk.2.Sound := ((hs.step .next).keeps hs).1
      rw [hb, complete_append_cons hf] at h
      rcases List.mem_cons.1 h with rfl | h
      · -- The piece in front is given by the next call.
        refine ⟨1, ?_⟩
        show piece ∈ chunks [⟨.next, s.nextChunk.1⟩]
        rw [hnext]
        exact List.mem_singleton_self _
      · have hlength : s.nextChunk.2.buffer.length < k := by
          rw [← hn, hnext, hb, List.length_append, List.length_cons]
          show back.length < _
          omega
        obtain ⟨n, hmem⟩ := ih _ hlength hsound (by rw [hnext]; exact h) rfl
        refine ⟨n + 1, ?_⟩
        rw [List.replicate_succ, record, chunks_cons]
        exact List.mem_append_right _ hmem

/-- What a delimiter ends is the end of a complete piece. -/
theorem exists_complete {delimiter : UInt8} {chunk : Bytes} (h : delimiter ∉ chunk)
    (before later : Bytes) :
    ∃ piece ∈ complete delimiter (before ++ (chunk ++ [delimiter] ++ later)),
      chunk.length ≤ piece.length := by
  have hclean : delimiter ∉ tail delimiter before ++ chunk := by
    simp [h, not_mem_tail]
  have hpiece : complete delimiter (tail delimiter before ++ (chunk ++ [delimiter] ++ later)) =
      (tail delimiter before ++ chunk) :: complete delimiter later := by
    rw [← complete_append_cons hclean]
    simp
  refine ⟨tail delimiter before ++ chunk, ?_, by simp⟩
  rw [complete_append, hpiece]
  exact List.mem_append_right _ List.mem_cons_self

/-- A chunk that is not left over is as long as the limit, or is the end of a complete piece. -/
theorem Accounts.length_le {delimiter : UInt8} {limit : Nat} {bytes left : Bytes}
    {entries : List Entry} {pieces : List Piece}
    (h : Accounts delimiter limit [] bytes entries pieces left)
    (hcomplete : ∀ piece ∈ complete delimiter bytes, piece.length ≤ limit) {p : Piece}
    (hp : p ∈ pieces) (hending : p.ending ≠ .leftOver) : p.chunk.length ≤ limit := by
  cases hend : p.ending with
  | delimited =>
    -- The piece of the stream may begin before the chunk, in what was cut off or taken earlier.
    obtain ⟨before, later, rfl⟩ := List.append_of_mem hp
    have hbytes : p.bytes delimiter = p.chunk ++ [delimiter] := by rw [Piece.bytes, hend]
    have hwhole : bytes = before.flatMap (Piece.bytes delimiter) ++
        (p.chunk ++ [delimiter] ++ (later.flatMap (Piece.bytes delimiter) ++ left)) := by
      have := h.whole
      rw [List.flatMap_append, List.flatMap_cons, hbytes] at this
      simpa using this
    obtain ⟨piece, hpiece, hle⟩ := exists_complete (h.clean p hp)
      (before.flatMap (Piece.bytes delimiter)) (later.flatMap (Piece.bytes delimiter) ++ left)
    exact Nat.le_trans hle (hcomplete piece (hwhole ▸ hpiece))
  | cut => exact Nat.le_of_eq (h.cut p hp hend)
  | leftOver => exact absurd hend hending

/-- **The limit is kept, in whatever frames a stream comes in and whenever chunks are asked for,
    if and only if no piece that a delimiter ends is longer.**  A longer one is given whole when
    its delimiter comes in before it is cut. -/
theorem chunks_within_limit_iff (delimiter : UInt8) (limit : Nat) (stream : Bytes) :
    (∀ calls, .finish ∉ calls → pushed calls = stream →
        ∀ chunk ∈ chunks (record calls (.ofLimit delimiter limit)),
          chunk.length ≤ max limit 1) ↔
      ∀ piece ∈ complete delimiter stream, piece.length ≤ max limit 1 := by
  constructor
  · intro h piece hpiece
    -- The stream comes in at once, and then its pieces are asked for.
    have hpushed : ((ofLimit delimiter limit).push stream).Sound := (Sound.ofLimit _ _).push stream
    obtain ⟨n, hmem⟩ := exists_mem_chunks hpushed hpiece
    refine h (.push stream :: List.replicate n .next) (by simp) ?_ piece hmem
    rw [pushed_cons, pushed_replicate_next, List.append_nil]
    rfl
  · rintro h calls hfinish rfl chunk hchunk
    obtain ⟨pieces, hpieces⟩ := accounts_ofLimit (orderlyAfter_of_not_mem hfinish _ none)
    rw [← hpieces.map_chunk] at hchunk
    obtain ⟨p, hp, rfl⟩ := List.mem_map.1 hchunk
    refine hpieces.length_le h hp fun hending => hfinish ?_
    -- What is left over is given by a call for it.
    have hgiven : (.finish, p.chunk) ∈ given (record calls (ofLimit delimiter limit)) := by
      rw [← hpieces.given]
      exact List.mem_map.2 ⟨p, hp, by rw [hending]; rfl⟩
    exact mem_of_given hgiven

/-- A chunk of six bytes where four are the limit: its delimiter came in together with it. -/
theorem over_limit_in_one_push :
    let calls : List Call := [.push (Utf8.encode "abcdef\x00"), .next]
    .finish ∉ calls ∧
      chunks (record calls (.ofLimit 0 4)) = [Utf8.encode "abcdef"] ∧
      ¬ ∀ chunk ∈ chunks (record calls (.ofLimit 0 4)), chunk.length ≤ 4 := by
  decide +kernel

end Splitter
end StackSurvey
