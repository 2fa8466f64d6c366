import Mathlib.Tactic.Common
import StackSurvey.Stream.CappedBuffer

/-! # What a capped buffer keeps

    A buffer keeps the front of all that is pushed into it, and knows whether that is all.  Where
    the bytes are cut into pushes does not matter: what the buffer is after them depends on the
    bytes alone (`foldl_push_ofLimit`).

    Main result: `keeps_the_front`. -/

namespace StackSurvey.CappedBuffer

/-- The buffer of that limit to which these bytes were pushed. -/
def holding (limit : Nat) (bytes : Bytes) : CappedBuffer :=
  { limit, bytes := bytes.take limit, truncated := limit < bytes.length }

theorem ofLimit_eq_holding (limit : Nat) : ofLimit limit = holding limit [] := by
  simp [ofLimit, holding]

/-- A push adds to the bytes that were pushed, kept or not. -/
theorem push_holding (limit : Nat) (xs ys : Bytes) :
    (holding limit xs).push ys = holding limit (xs ++ ys) := by
  have hkept : (xs.take limit).length = min limit xs.length := List.length_take
  have hroom : limit - min limit xs.length = limit - xs.length := by omega
  have htruncated : (limit < xs.length ∨ limit - xs.length < ys.length) ↔
      limit < xs.length + ys.length := by omega
  simp only [push, holding, hkept, hroom, List.take_append, List.length_append, ← Bool.decide_or,
    htruncated]

/-- **All that matters are the bytes**, not the pushes that they are cut into. -/
theorem foldl_push_holding (limit : Nat) (xs : Bytes) (pieces : List Bytes) :
    pieces.foldl push (holding limit xs) = holding limit (xs ++ pieces.flatten) := by
  induction pieces generalizing xs with
  | nil => simp
  | cons piece pieces ih =>
    rw [List.foldl_cons, push_holding, ih, List.flatten_cons, List.append_assoc]

theorem foldl_push_ofLimit (limit : Nat) (pieces : List Bytes) :
    pieces.foldl push (ofLimit limit) = holding limit pieces.flatten := by
  rw [ofLimit_eq_holding, foldl_push_holding, List.nil_append]

/-- More pushes never bring back what was dropped. -/
theorem truncated_foldl_push {b : CappedBuffer} (hb : b.truncated = true) (more : List Bytes) :
    (more.foldl push b).truncated = true := by
  induction more generalizing b with
  | nil => exact hb
  | cons bytes more ih =>
    have hpush : (b.push bytes).truncated = true := by
      simp only [push, hb, Bool.true_or]
    exact ih hpush

/-- **A capped buffer keeps the front of what is pushed**: as many bytes as the limit allows, and
    all of them if there are no more.  It is truncated just if there are more, and stays so
    whatever else is pushed.  Its text is that of the bytes kept, with the mark just if bytes were
    dropped, and it is the same however the same bytes are cut into pushes. -/
theorem keeps_the_front (limit : Nat) (pushes : List Bytes) :
    let total := pushes.flatten.length
    let kept := pushes.flatten.take (min limit total)
    let b := pushes.foldl push (ofLimit limit)
    b.bytes = kept ∧ kept.length = min limit total ∧
      (b.truncated = true ↔ limit < total) ∧
      (b.truncated = true → ∀ more : List Bytes, (more.foldl push b).truncated = true) ∧
      b.text = Utf8.decodeLossy kept ++ (if limit < total then truncationMark else "") ∧
      ∀ pushes' : List Bytes, pushes'.flatten = pushes.flatten →
        (pushes'.foldl push (ofLimit limit)).text = b.text := by
  intro total kept b
  -- The buffer is known from the bytes pushed, and all that is claimed is read off it.
  have hb : b = holding limit pushes.flatten := foldl_push_ofLimit limit pushes
  have hbytes : b.bytes = kept := by
    rw [hb]
    exact List.take_eq_take_min
  have htruncated : b.truncated = true ↔ limit < total := by
    rw [hb]
    exact decide_eq_true_iff
  refine ⟨hbytes, ?_, htruncated, truncated_foldl_push, ?_, ?_⟩
  · rw [List.length_take]
    show min (min limit total) total = min limit total
    omega
  · simp only [text, hbytes, htruncated]
  · intro pushes' hsame
    rw [foldl_push_ofLimit, hsame, ← hb]

/-- A limit that falls into a character of two bytes: in one push, and in pushes that end in the
    middle of the character and at the limit, with empty ones between them. -/
theorem keeps_the_front_of_characters :
    let pushes : List Bytes := [[0x61, 0xC3, 0xA9, 0xC3, 0xA9]]
    let pieces : List Bytes := [[0x61, 0xC3], [], [0xA9, 0xC3], [], [0xA9]]
    pieces.flatten = pushes.flatten ∧
      (pushes.foldl push (ofLimit 4)).bytes = [0x61, 0xC3, 0xA9, 0xC3] ∧
      (pieces.foldl push (ofLimit 4)).text = "aé\uFFFD\n[stderr truncated]" ∧
      ([[0x62], []].foldl push (pushes.foldl push (ofLimit 4))).truncated = true := by
  intro pushes pieces
  have hsame : pieces.flatten = pushes.flatten := by decide
  obtain ⟨hbytes, -, htruncated, hstays, htext, hpieces⟩ := keeps_the_front 4 pushes
  refine ⟨hsame, hbytes.trans (by decide), ?_, hstays (htruncated.2 (by decide)) _⟩
  rw [hpieces pieces hsame, htext]
  decide +kernel

end StackSurvey.CappedBuffer
