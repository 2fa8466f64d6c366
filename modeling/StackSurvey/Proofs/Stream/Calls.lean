import StackSurvey.Proofs.Stream.Splitter

/-! # Calls of a splitter

    A splitter is used by calls in any order: bytes are pushed, the next chunk is asked for, and
    what is left is taken.  The record of calls notes each of them with what it gave back.

    * `Step` lists what a call can come to, and `Sound.step` says that there is nothing else.
    * `Accounts` sets the bytes that have come in against the pieces given back and the bytes
      still held; `Step.accounts` is one call and `accounts_record` all of them.
    * `nothing_lost`: of a stream nothing is lost and nothing invented, as long as what is left
      is only taken when no chunk is found. -/

namespace StackSurvey

namespace Splitter

/-! ## Section 1: Calls and what they give back -/

/-- What may be asked of a splitter. -/
inductive Call where
  /-- More bytes of the stream have come in. -/
  | push (bytes : Bytes)
  /-- The next chunk is wanted. -/
  | next
  /-- What is left is wanted, since the stream is over. -/
  | finish
deriving DecidableEq

namespace Call

def bytes : Call → Bytes
  | push bytes => bytes
  | next => []
  | finish => []

/-- What a call gives back, and the splitter after it. -/
def answer : Call → Splitter → Option Bytes × Splitter
  | push bytes, s => (none, s.push bytes)
  | next, s => s.nextChunk
  | finish, s => s.finish

end Call

/-- A call, and the chunk that it gave back if it did so. -/
structure Entry where
  call : Call
  chunk? : Option Bytes
deriving DecidableEq

/-- The splitter after calls. -/
def after : List Call → Splitter → Splitter
  | [], s => s
  | call :: calls, s => after calls (call.answer s).2

/-- Calls in order, each with what it gave back. -/
def record : List Call → Splitter → List Entry
  | [], _ => []
  | call :: calls, s => ⟨call, (call.answer s).1⟩ :: record calls (call.answer s).2

/-- The bytes that calls bring. -/
def pushed (calls : List Call) : Bytes := calls.flatMap Call.bytes

/-- The chunks given back, in order. -/
def chunks (entries : List Entry) : List Bytes := entries.filterMap Entry.chunk?

/-- The chunks given back, each with the call that gave it. -/
def given (entries : List Entry) : List (Call × Bytes) :=
  entries.filterMap fun e => e.chunk?.map (e.call, ·)

theorem after_append (calls more : List Call) (s : Splitter) :
    after (calls ++ more) s = after more (after calls s) := by
  induction calls generalizing s with
  | nil => rfl
  | cons call calls ih => exact ih _

theorem record_append (calls more : List Call) (s : Splitter) :
    record (calls ++ more) s = record calls s ++ record more (after calls s) := by
  induction calls generalizing s with
  | nil => rfl
  | cons call calls ih => exact congrArg (_ :: ·) (ih _)

@[simp] theorem pushed_nil : pushed [] = [] := rfl

@[simp] theorem pushed_cons (call : Call) (calls : List Call) :
    pushed (call :: calls) = call.bytes ++ pushed calls := rfl

theorem pushed_append (calls more : List Call) :
    pushed (calls ++ more) = pushed calls ++ pushed more := List.flatMap_append

@[simp] theorem pushed_replicate_next (n : Nat) : pushed (List.replicate n .next) = [] := by
  induction n with
  | zero => rfl
  | succ n ih => rw [List.replicate_succ, pushed_cons, ih]; rfl

@[simp] theorem chunks_nil : chunks [] = [] := rfl

@[simp] theorem chunks_cons (e : Entry) (entries : List Entry) :
    chunks (e :: entries) = e.chunk?.toList ++ chunks entries := by
  rcases e with ⟨call, _ | chunk⟩ <;> rfl

@[simp] theorem chunks_append (entries more : List Entry) :
    chunks (entries ++ more) = chunks entries ++ chunks more := List.filterMap_append

theorem given_append (entries more : List Entry) :
    given (entries ++ more) = given entries ++ given more := List.filterMap_append

theorem map_snd_given (entries : List Entry) :
    (given entries).map Prod.snd = chunks entries := by
  induction entries with
  | nil => rfl
  | cons e entries ih =>
    rcases e with ⟨call, _ | chunk⟩
    · exact ih
    · exact congrArg (chunk :: ·) ih

theorem map_call_record (calls : List Call) (s : Splitter) :
    (record calls s).map Entry.call = calls := by
  induction calls generalizing s with
  | nil => rfl
  | cons call calls ih => exact congrArg (call :: ·) (ih _)

/-- A chunk is given by a call that was made. -/
theorem mem_of_given {calls : List Call} {s : Splitter} {call : Call} {chunk : Bytes}
    (h : (call, chunk) ∈ given (record calls s)) : call ∈ calls := by
  obtain ⟨e, he, hgiven⟩ := List.mem_filterMap.1 h
  obtain ⟨_, -, heq⟩ := Option.map_eq_some_iff.1 hgiven
  have hcall : e.call = call := (Prod.mk.inj heq).1
  rw [← map_call_record calls s, ← hcall]
  exact List.mem_map_of_mem he

/-! ## Section 2: What a call can come to -/

/-- There is no chunk to give: no delimiter has come in, and nothing has grown too long. -/
structure Waiting (s : Splitter) : Prop where
  clean : s.delimiter ∉ s.buffer
  short : s.buffer.length ≤ s.limit

/-- What a call can give back, and what becomes of the splitter. -/
inductive Step (s : Splitter) : Call → Option Bytes → Splitter → Prop where
  | pushed (bytes : Bytes) : Step s (.push bytes) none (s.push bytes)
  /-- The bytes before the first delimiter are given, and the delimiter is dropped. -/
  | delimited {front back : Bytes} (clean : s.delimiter ∉ front)
      (held : s.buffer = front ++ s.delimiter :: back) :
      Step s .next (some front)
        { s with
          buffer := back
          scanned := 0
          inspected := s.inspected + (front.length - s.scanned) + 1 }
  /-- There is no delimiter, and too many bytes to go on waiting for one. -/
  | cut (clean : s.delimiter ∉ s.buffer) (long : s.limit < s.buffer.length) :
      Step s .next (some (s.buffer.take s.limit))
        { s with
          buffer := s.buffer.drop s.limit
          scanned := (s.buffer.drop s.limit).length
          inspected := s.inspected + (s.buffer.length - s.scanned) }
  | waits (waiting : s.Waiting) :
      Step s .next none
        { s with
          scanned := s.buffer.length
          inspected := s.inspected + (s.buffer.length - s.scanned) }
  | taken (held : s.buffer ≠ []) :
      Step s .finish (some s.buffer) { s with buffer := [], scanned := 0 }
  | nothing (empty : s.buffer = []) : Step s .finish none { s with scanned := 0 }

/-- A call of a sound splitter comes to one of these. -/
theorem Sound.step {s : Splitter} (hs : s.Sound) (call : Call) :
    s.Step call (call.answer s).1 (call.answer s).2 := by
  cases call with
  | push bytes => exact .pushed bytes
  | next =>
    show s.Step .next s.nextChunk.1 s.nextChunk.2
    -- What is held has a delimiter, or is too long without one, or neither.
    rcases cut_cases s.delimiter s.buffer with h | ⟨front, back, hf, hb⟩
    · have hnext := nextChunk_of_not_mem h
      dsimp only at hnext
      by_cases hlong : s.limit < s.buffer.length
      · rw [if_pos hlong] at hnext
        rw [hnext]
        exact .cut h hlong
      · rw [if_neg hlong] at hnext
        rw [hnext]
        exact .waits ⟨h, Nat.not_lt.1 hlong⟩
    · rw [nextChunk_of_cons hs hf hb]
      exact .delimited hf hb
  | finish =>
    show s.Step .finish s.finish.1 s.finish.2
    unfold Splitter.finish
    cases hb : s.buffer with
    | nil =>
      have h : s.Step .finish none { s with scanned := 0 } := .nothing hb
      rwa [hb] at h
    | cons b bytes =>
      have h : s.Step .finish (some s.buffer) { s with buffer := [], scanned := 0 } :=
        .taken (hb ▸ List.cons_ne_nil b bytes)
      rwa [hb] at h

/-- No call makes a splitter unsound, or changes its delimiter or its limit. -/
theorem Step.keeps {s t : Splitter} {call : Call} {chunk? : Option Bytes}
    (h : s.Step call chunk? t) (hs : s.Sound) :
    t.Sound ∧ t.delimiter = s.delimiter ∧ t.limit = s.limit := by
  cases h with
  | pushed bytes => exact ⟨hs.push bytes, rfl, rfl⟩
  | delimited clean held => exact ⟨⟨Nat.zero_le _, List.not_mem_nil⟩, rfl, rfl⟩
  | cut clean long =>
    -- All that is left has been scanned already: it was part of what had no delimiter.
    exact ⟨.of_not_mem (Nat.le_refl _) fun hm => clean (List.mem_of_mem_drop hm), rfl, rfl⟩
  | waits waiting => exact ⟨.of_not_mem (Nat.le_refl _) waiting.clean, rfl, rfl⟩
  | taken held => exact ⟨⟨Nat.zero_le _, List.not_mem_nil⟩, rfl, rfl⟩
  | nothing empty => exact ⟨⟨Nat.zero_le _, List.not_mem_nil⟩, rfl, rfl⟩

theorem Sound.ofLimit (delimiter : UInt8) (limit : Nat) :
    (Splitter.ofLimit delimiter limit).Sound := ⟨Nat.le_refl _, List.not_mem_nil⟩

/-- Calls in any order keep a splitter sound, and its delimiter and limit as they are. -/
theorem Sound.after {s : Splitter} (hs : s.Sound) (calls : List Call) :
    (after calls s).Sound ∧ (after calls s).delimiter = s.delimiter ∧
      (after calls s).limit = s.limit := by
  induction calls generalizing s with
  | nil => exact ⟨hs, rfl, rfl⟩
  | cons call calls ih =>
    obtain ⟨hsound, hdelimiter, hlimit⟩ := (hs.step call).keeps hs
    obtain ⟨hsound', hdelimiter', hlimit'⟩ := ih hsound
    exact ⟨hsound', hdelimiter'.trans hdelimiter, hlimit'.trans hlimit⟩

/-- If no chunk is found there is none to give. -/
theorem Step.waiting {s t : Splitter} (h : s.Step .next none t) : s.Waiting := by
  cases h with
  | waits waiting => exact waiting

/-- A splitter without a chunk to give stays as it is, until it is asked for what is left. -/
theorem Step.idle {s t : Splitter} {call : Call} {chunk? : Option Bytes}
    (h : s.Step call chunk? t) (hs : s.Waiting)
    (hcall : call = .next ∨ call = .finish ∧ s.buffer = []) :
    chunk? = none ∧ t.buffer = s.buffer ∧ t.Waiting := by
  cases h with
  | pushed bytes => simp at hcall
  | delimited clean held => exact absurd (held ▸ by simp) hs.clean
  | cut clean long => exact absurd hs.short (Nat.not_le.2 long)
  | waits waiting => exact ⟨rfl, rfl, waiting.clean, waiting.short⟩
  | taken held => exact absurd (hcall.resolve_left (by simp)).2 held
  | nothing empty => exact ⟨rfl, rfl, hs.clean, hs.short⟩

/-- After the entry of a call that found no chunk there is none to give. -/
theorem Sound.waiting_of_entry {s : Splitter} (hs : s.Sound) {call : Call}
    (h : (⟨call, (call.answer s).1⟩ : Entry) = ⟨.next, none⟩) : (call.answer s).2.Waiting := by
  obtain ⟨rfl, hnone⟩ := Entry.mk.inj h
  have hstep := hs.step .next
  rw [hnone] at hstep
  exact (hstep.idle hstep.waiting (.inl rfl)).2.2

theorem waiting_after {s : Splitter} (hs : s.Sound) {calls : List Call}
    (h : (record calls s).getLast? = some ⟨.next, none⟩) : (after calls s).Waiting := by
  rcases List.eq_nil_or_concat calls with rfl | ⟨calls, call, rfl⟩
  · cases h
  · -- Only the last call counts.
    rw [List.concat_eq_append, record_append] at h
    rw [List.concat_eq_append, after_append]
    have hlast : (⟨call, (call.answer (after calls s)).1⟩ : Entry) = ⟨.next, none⟩ := by
      simpa [record] using h
    exact (hs.after calls).1.waiting_of_entry hlast

/-- A splitter that is asked again and again runs out of chunks: each one costs it a byte. -/
theorem exists_none (s : Splitter) :
    ∃ n ≤ s.buffer.length, (after (List.replicate n .next) s).nextChunk.1 = none := by
  -- A chunk takes a byte at least, so the bytes held bound the number of calls.
  induction hn : s.buffer.length using Nat.strongRecOn generalizing s with
  | ind k ih =>
    rcases hnext : s.nextChunk with ⟨_ | chunk, t⟩
    · refine ⟨0, Nat.zero_le _, ?_⟩
      show s.nextChunk.1 = none
      rw [hnext]
    · have hlt : t.buffer.length < k := hn ▸ length_nextChunk hnext
      obtain ⟨n, hle, hnone⟩ := ih t.buffer.length hlt t rfl
      refine ⟨n + 1, by omega, ?_⟩
      show (after (List.replicate n .next) s.nextChunk.2).nextChunk.1 = none
      rw [hnext]
      exact hnone

/-! ## Section 3: Accounts -/

/-- What brought a chunk to its end. -/
inductive Ending where
  /-- A delimiter, which the chunk does not include. -/
  | delimited
  /-- The limit. -/
  | cut
  /-- The end of the stream. -/
  | leftOver

def Ending.call : Ending → Call
  | .delimited => .next
  | .cut => .next
  | .leftOver => .finish

/-- A piece of a stream. -/
structure Piece where
  chunk : Bytes
  ending : Ending

/-- The bytes of the stream that make up a piece. -/
def Piece.bytes (delimiter : UInt8) (p : Piece) : Bytes :=
  match p.ending with
  | .delimited => p.chunk ++ [delimiter]
  | .cut => p.chunk
  | .leftOver => p.chunk

/-- The bytes held at first and those that come in then are the pieces given back and the bytes
    that are left. -/
structure Accounts (delimiter : UInt8) (limit : Nat) (held bytes : Bytes) (entries : List Entry)
    (pieces : List Piece) (left : Bytes) : Prop where
  given : pieces.map (fun p => (p.ending.call, p.chunk)) = given entries
  clean : ∀ p ∈ pieces, delimiter ∉ p.chunk
  cut : ∀ p ∈ pieces, p.ending = .cut → p.chunk.length = limit
  whole : held ++ bytes = pieces.flatMap (Piece.bytes delimiter) ++ left

namespace Accounts

variable {delimiter : UInt8} {limit : Nat} {held bytes left : Bytes}

/-- Nothing has been given back. -/
theorem silent {e : Entry} (hnone : e.chunk? = none) (h : held ++ bytes = left) :
    Accounts delimiter limit held bytes [e] [] left where
  given := by simp [Splitter.given, hnone]
  clean := by simp
  cut := by simp
  whole := h

/-- One piece has been given back. -/
theorem single (p : Piece) (hclean : delimiter ∉ p.chunk)
    (hcut : p.ending = .cut → p.chunk.length = limit)
    (h : held ++ bytes = p.bytes delimiter ++ left) :
    Accounts delimiter limit held bytes [⟨p.ending.call, some p.chunk⟩] [p] left where
  given := rfl
  clean := by simpa using hclean
  cut := by simpa using hcut
  whole := by simpa using h

/-- The pieces are the chunks given back. -/
theorem map_chunk {entries : List Entry} {pieces : List Piece}
    (h : Accounts delimiter limit held bytes entries pieces left) :
    pieces.map Piece.chunk = chunks entries := by
  rw [← map_snd_given, ← h.given, List.map_map]
  rfl

/-- Accounts of calls and of those after them. -/
theorem append {more rest : Bytes} {entries entries' : List Entry} {pieces pieces' : List Piece}
    (h : Accounts delimiter limit held bytes entries pieces left)
    (h' : Accounts delimiter limit left more entries' pieces' rest) :
    Accounts delimiter limit held (bytes ++ more) (entries ++ entries') (pieces ++ pieces') rest where
  given := by rw [List.map_append, h.given, h'.given, given_append]
  clean p hp := (List.mem_append.1 hp).elim (h.clean p) (h'.clean p)
  cut p hp := (List.mem_append.1 hp).elim (h.cut p) (h'.cut p)
  whole := by
    calc held ++ (bytes ++ more)
        = (held ++ bytes) ++ more := (List.append_assoc ..).symm
      _ = pieces.flatMap (Piece.bytes delimiter) ++ (left ++ more) := by
          rw [h.whole, List.append_assoc]
      _ = _ := by rw [h'.whole, List.flatMap_append, List.append_assoc]

end Accounts

/-- A call gives back at most one piece, and what is left is clean if it is taken. -/
theorem Step.accounts {s t : Splitter} {call : Call} {chunk? : Option Bytes}
    (h : s.Step call chunk? t) (hfinish : call = .finish → s.delimiter ∉ s.buffer) :
    ∃ pieces, Accounts s.delimiter s.limit s.buffer call.bytes [⟨call, chunk?⟩] pieces t.buffer := by
  cases h with
  | pushed bytes => exact ⟨[], .silent rfl rfl⟩
  | @delimited front back clean held =>
    refine ⟨[⟨front, .delimited⟩], .single ⟨front, .delimited⟩ clean (by simp) ?_⟩
    rw [held]
    simp [Call.bytes, Piece.bytes]
  | cut clean long =>
    refine ⟨[⟨s.buffer.take s.limit, .cut⟩], .single ⟨s.buffer.take s.limit, .cut⟩ ?_ ?_ ?_⟩
    · exact fun hm => clean (List.mem_of_mem_take hm)
    · intro _
      rw [List.length_take]
      omega
    · simp [Call.bytes, Piece.bytes]
  | waits waiting => exact ⟨[], .silent rfl (List.append_nil _)⟩
  | taken held =>
    -- Only here does it matter when the call was made: what is held could have a delimiter.
    refine ⟨[⟨s.buffer, .leftOver⟩], .single ⟨s.buffer, .leftOver⟩ (hfinish rfl) ?_ ?_⟩
    · simp
    · simp [Call.bytes, Piece.bytes]
  | nothing empty => exact ⟨[], .silent rfl (List.append_nil _)⟩

/-! ## Section 4: Orderly calls -/

/-- Entries that follow `previous?` are orderly if what is left is only ever taken right after no
    chunk was found. -/
def OrderlyAfter (previous? : Option Entry) : List Entry → Prop
  | [] => True
  | e :: entries =>
    (e.call = .finish → previous? = some ⟨.next, none⟩) ∧ OrderlyAfter (some e) entries

instance OrderlyAfter.decidable (previous? : Option Entry) :
    ∀ entries, Decidable (OrderlyAfter previous? entries)
  | [] => .isTrue trivial
  | e :: entries =>
    have := OrderlyAfter.decidable (some e) entries
    inferInstanceAs (Decidable (_ ∧ _))

/-- What is left is only ever taken right after no chunk was found. -/
def Orderly (entries : List Entry) : Prop := OrderlyAfter none entries

instance (entries : List Entry) : Decidable (Orderly entries) :=
  inferInstanceAs (Decidable (OrderlyAfter none entries))

/-- Calls that never take what is left are orderly. -/
theorem orderlyAfter_of_not_mem {calls : List Call} (h : .finish ∉ calls) (s : Splitter)
    (previous? : Option Entry) : OrderlyAfter previous? (record calls s) := by
  induction calls generalizing s previous? with
  | nil => trivial
  | cons call calls ih =>
    rw [List.mem_cons, not_or] at h
    obtain ⟨hcall, hcalls⟩ := h
    exact ⟨fun heq => absurd heq.symm hcall, ih hcalls _ _⟩

/-- The accounts of orderly calls.  The induction is on the calls; what a call is allowed to do
    hangs on the entry before it, after which there was no delimiter. -/
theorem accounts_record {s : Splitter} (hs : s.Sound) (previous? : Option Entry)
    (hprevious : previous? = some ⟨.next, none⟩ → s.delimiter ∉ s.buffer) {calls : List Call}
    (h : OrderlyAfter previous? (record calls s)) :
    ∃ pieces, Accounts s.delimiter s.limit s.buffer (pushed calls) (record calls s) pieces
      (after calls s).buffer := by
  -- By induction on the calls, with the last entry before them, which says whether what is left
  -- over may be asked for.
  induction calls generalizing s previous? with
  | nil => exact ⟨[], rfl, by simp, by simp, List.append_nil _⟩
  | cons call calls ih =>
    obtain ⟨hplace, hcalls⟩ := h
    have hstep := hs.step call
    obtain ⟨hsound, hdelimiter, hlimit⟩ := hstep.keeps hs
    obtain ⟨first, hfirst⟩ := hstep.accounts fun hcall => hprevious (hplace hcall)
    have hclean : some (⟨call, (call.answer s).1⟩ : Entry) = some ⟨.next, none⟩ →
        (call.answer s).2.delimiter ∉ (call.answer s).2.buffer :=
      fun heq => (hs.waiting_of_entry (Option.some.inj heq)).clean
    obtain ⟨later, hlater⟩ := ih hsound _ hclean hcalls
    rw [hdelimiter, hlimit] at hlater
    exact ⟨first ++ later, hfirst.append hlater⟩

/-- The accounts of a splitter that starts without bytes. -/
theorem accounts_ofLimit {delimiter : UInt8} {limit : Nat} {calls : List Call}
    (h : Orderly (record calls (.ofLimit delimiter limit))) :
    ∃ pieces, Accounts delimiter (max limit 1) [] (pushed calls)
      (record calls (.ofLimit delimiter limit)) pieces
      (after calls (.ofLimit delimiter limit)).buffer :=
  accounts_record (.ofLimit delimiter limit) none (by simp) h

/-- **Nothing is lost and nothing invented**, whatever the delimiter, the limit and the order of
    the calls, as long as what is left is only taken right after no chunk was found.  The bytes
    that have come in are the chunks given back, each with the delimiter that ended it unless it
    was cut or left over, and the bytes still held. -/
theorem nothing_lost (delimiter : UInt8) (limit : Nat) (calls : List Call)
    (h : Orderly (record calls (.ofLimit delimiter limit))) :
    let entries := record calls (.ofLimit delimiter limit)
    let s := after calls (.ofLimit delimiter limit)
    (∀ chunk ∈ chunks entries, delimiter ∉ chunk) ∧
      (∃ pieces : List Piece,
        pieces.map (fun p => (p.ending.call, p.chunk)) = given entries ∧
        (∀ p ∈ pieces, p.ending = .cut → p.chunk.length = max limit 1) ∧
        pushed calls = pieces.flatMap (Piece.bytes delimiter) ++ s.buffer) ∧
      s.scanned ≤ s.buffer.length ∧
      delimiter ∉ s.buffer.take s.scanned ∧
      (entries.getLast? = some ⟨.next, none⟩ →
        delimiter ∉ s.buffer ∧ s.buffer.length ≤ max limit 1) ∧
      ∃ n ≤ s.buffer.length, (after (List.replicate n .next) s).nextChunk.1 = none := by
  intro entries s
  have hstart : (ofLimit delimiter limit).Sound := .ofLimit delimiter limit
  obtain ⟨hsound, hdelimiter, hlimit⟩ := hstart.after calls
  have hd : s.delimiter = delimiter := hdelimiter
  have hl : s.limit = max limit 1 := hlimit
  obtain ⟨pieces, hpieces⟩ := accounts_ofLimit h
  refine ⟨?_, ⟨pieces, hpieces.given, hpieces.cut, hpieces.whole⟩, hsound.scanned_le, ?_, ?_,
    exists_none s⟩
  · -- Each chunk is that of a piece, and no piece has a delimiter in it.
    intro chunk hchunk
    rw [← hpieces.map_chunk] at hchunk
    obtain ⟨p, hp, rfl⟩ := List.mem_map.1 hchunk
    exact hpieces.clean p hp
  · rw [← hd]
    exact hsound.clean
  · intro hlast
    have hwaiting : s.Waiting := waiting_after hstart hlast
    rw [← hd, ← hl]
    exact ⟨hwaiting.clean, hwaiting.short⟩

/-- A limit of four bytes cuts the first chunk; the second one begins with what was held then.
    What is left is taken in between, and the stream goes on. -/
theorem nothing_lost_cut_and_left_over :
    let calls : List Call := [
      .push (Utf8.encode "abcdef"), .next, .push (Utf8.encode "g\x00h"), .next, .next, .finish,
      .push (Utf8.encode "x\x00y"), .next]
    let entries := record calls (.ofLimit 0 4)
    Orderly entries ∧
      given entries = [(.next, Utf8.encode "abcd"), (.next, Utf8.encode "efg"),
        (.finish, Utf8.encode "h"), (.next, Utf8.encode "x")] ∧
      (∀ chunk ∈ chunks entries, 0 ∉ chunk) ∧
      ∃ pieces : List Piece,
        pieces.map (fun p => (p.ending.call, p.chunk)) = given entries ∧
        (∀ p ∈ pieces, p.ending = .cut → p.chunk.length = 4) ∧
        pushed calls = pieces.flatMap (Piece.bytes 0) ++ Utf8.encode "y" := by
  intro calls entries
  have horderly : Orderly entries := by decide +kernel
  have hgiven : given entries = [(.next, Utf8.encode "abcd"), (.next, Utf8.encode "efg"),
      (.finish, Utf8.encode "h"), (.next, Utf8.encode "x")] := by decide +kernel
  have hleft : (after calls (.ofLimit 0 4)).buffer = Utf8.encode "y" := by decide +kernel
  obtain ⟨hclean, ⟨pieces, hpieces, hcut, hwhole⟩, -⟩ := nothing_lost 0 4 calls horderly
  exact ⟨horderly, hgiven, hclean, pieces, hpieces, hcut, hleft ▸ hwhole⟩

end Splitter
end StackSurvey
