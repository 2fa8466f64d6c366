import Mathlib.Tactic.Common
import StackSurvey.Json.Reader

/-! # What readers take

    `Reads r text x rest` says that the reader `r` gives `x` and leaves `rest` wherever `text` is
    what is left.  Places do not occur in it, so what is read can be said of readers one after the
    other (`Reads.bind`) without a count of lines and columns. -/

namespace StackSurvey.Json.Reader

variable {α β : Type}

/-! ## Section 1: Readers one after the other -/

theorem bind_of_ok {r : Reader α} {f : α → Reader β} {cur middle : Cursor} {x : α}
    (h : r cur = .ok (x, middle)) : (r >>= f) cur = f x middle := by
  show (r cur >>= fun p => f p.1 p.2) = _
  rw [h]
  rfl

/-- What two readers give, the second has given where the first ended. -/
theorem bind_eq_ok {r : Reader α} {f : α → Reader β} {cur cur' : Cursor} {y : β}
    (h : (r >>= f) cur = .ok (y, cur')) :
    ∃ x middle, r cur = .ok (x, middle) ∧ f x middle = .ok (y, cur') := by
  change (r cur >>= fun p => f p.1 p.2) = _ at h
  rcases hfirst : r cur with fault | ⟨x, middle⟩ <;> rw [hfirst] at h
  · cases h
  · exact ⟨x, middle, rfl, h⟩

/-- From a place where `text` is left, the reader gives `x` and leaves `rest`. -/
def Reads (r : Reader α) (text : List Char) (x : α) (rest : List Char) : Prop :=
  ∀ cur : Cursor, cur.rest = text → ∃ cur', r cur = .ok (x, cur') ∧ cur'.rest = rest

theorem Reads.pure (x : α) (text : List Char) : Reads (Pure.pure x) text x text :=
  fun cur hcur => ⟨cur, rfl, hcur⟩

theorem Reads.bind {r : Reader α} {f : α → Reader β} {text middle rest : List Char} {x : α} {y : β}
    (hr : Reads r text x middle) (hf : Reads (f x) middle y rest) :
    Reads (r >>= f) text y rest := by
  intro cur hcur
  obtain ⟨cur₁, hfirst, hmiddle⟩ := hr cur hcur
  obtain ⟨cur₂, hsecond, hrest⟩ := hf cur₁ hmiddle
  exact ⟨cur₂, (bind_of_ok hfirst).trans hsecond, hrest⟩

/-- A whole text is read from its start, and nothing but white space may be left. -/
theorem run_eq_ok_iff {r : Reader α} {text : String} {x : α} :
    r.run text = .ok x ↔ ∃ cur, r (Cursor.start text.toList) = .ok (x, cur) ∧
      (skipSpaces cur cur.rest).rest = [] := by
  unfold run
  constructor
  · intro h
    rcases hread : r (Cursor.start text.toList) with fault | ⟨y, cur⟩ <;> rw [hread] at h
    · cases h
    · -- The reader has succeeded; what is left must be white space.
      change (if (skipSpaces cur cur.rest).rest.isEmpty then Except.ok y else _) = _ at h
      split at h
      · next hempty =>
        obtain rfl := Except.ok.inj h
        exact ⟨cur, rfl, List.isEmpty_iff.1 hempty⟩
      · cases h
  · rintro ⟨cur, hread, hrest⟩
    rw [hread]
    show (if (skipSpaces cur cur.rest).rest.isEmpty then Except.ok x else _) = _
    rw [hrest]
    rfl

/-! ## Section 2: Characters -/

theorem past_rest (cur : Cursor) (c : Char) (rest : List Char) : (cur.past c rest).rest = rest := by
  unfold Cursor.past
  split <;> rfl

theorem reads_peek (text : List Char) : Reads peek text text.head? text := by
  intro cur hcur
  exact ⟨cur, by rw [peek, hcur], hcur⟩

theorem reads_next (c : Char) (rest : List Char) : Reads next (c :: rest) (some c) rest := by
  intro cur hcur
  refine ⟨cur.past c rest, ?_, past_rest cur c rest⟩
  simp only [next, hcur]

theorem reads_advance (c : Char) (rest : List Char) : Reads advance (c :: rest) () rest :=
  (reads_next c rest).bind (.pure () rest)

theorem reads_remaining (text : List Char) : Reads remaining text text.length text := by
  intro cur hcur
  exact ⟨cur, by rw [remaining, hcur], hcur⟩

/-! ## Section 3: White space -/

/-- Nothing but white space. -/
def IsGap (gap : List Char) : Prop := ∀ c ∈ gap, isSpace c = true

theorem isGap_nil : IsGap [] := fun _ h => absurd h List.not_mem_nil

/-- No white space is left. -/
def StartsToken (text : List Char) : Prop := ∀ c, text.head? = some c → isSpace c = false

theorem skipSpaces_rest {gap text : List Char} (hgap : IsGap gap) (htext : StartsToken text)
    (cur : Cursor) (hcur : cur.rest = gap ++ text) :
    (skipSpaces cur (gap ++ text)).rest = text := by
  -- By induction on the gap; the cursor moves past one character at a time.
  induction gap generalizing cur with
  | nil =>
    cases text with
    | nil => exact hcur
    | cons c rest =>
      have hc : isSpace c = false := htext c rfl
      rw [List.nil_append, skipSpaces, hc]
      exact hcur
  | cons c gap ih =>
    have hc : isSpace c = true := hgap c List.mem_cons_self
    rw [List.cons_append, skipSpaces, if_pos hc]
    exact ih (fun d hd => hgap d (List.mem_cons_of_mem c hd)) _ (past_rest cur c (gap ++ text))

theorem reads_peekToken {gap text : List Char} (hgap : IsGap gap) (htext : StartsToken text) :
    Reads peekToken (gap ++ text) text.head? text := by
  intro cur hcur
  have hrest := skipSpaces_rest hgap htext cur hcur
  rw [← hcur] at hrest
  exact ⟨skipSpaces cur cur.rest, by rw [peekToken, hrest], hrest⟩

theorem reads_peekToken_cons {gap : List Char} {c : Char} {rest : List Char} (hgap : IsGap gap)
    (hc : isSpace c = false) : Reads peekToken (gap ++ c :: rest) (some c) (c :: rest) :=
  reads_peekToken hgap fun d hd => by
    obtain rfl := Option.some.inj hd
    exact hc

theorem reads_startOfValue {gap : List Char} {c : Char} {rest : List Char} (hgap : IsGap gap)
    (hc : isSpace c = false) : Reads startOfValue (gap ++ c :: rest) c (c :: rest) :=
  (reads_peekToken_cons hgap hc).bind (.pure c (c :: rest))

/-- A colon, and what stands before it. -/
theorem reads_colon {gap rest : List Char} (hgap : IsGap gap) :
    Reads colon (gap ++ ':' :: rest) () rest :=
  (reads_peekToken_cons hgap rfl).bind (reads_advance ':' rest)

/-! ## Section 4: Words -/

theorem reads_wordRest (w rest : List Char) : Reads (wordRest w) (w ++ rest) () rest := by
  induction w with
  | nil => exact .pure () rest
  | cons c w ih =>
    refine (reads_next c (w ++ rest)).bind ?_
    show Reads (if c = c then wordRest w else failHere .wordExpected) _ _ _
    rw [if_pos rfl]
    exact ih

theorem reads_word (c : Char) (w rest : List Char) : Reads (word w) (c :: (w ++ rest)) () rest :=
  (reads_advance c _).bind (reads_wordRest w rest)

end StackSurvey.Json.Reader
