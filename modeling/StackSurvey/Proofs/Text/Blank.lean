import StackSurvey.Proofs.Text.Utf8
import StackSurvey.Text.Blank

/-! # Two classes of white space

    Bytes are blank in five cases, characters in twenty-five.  A text whose bytes are all blank
    consists of the five characters that are a blank byte (`all_isBlankByte_encode`), so a text
    can be blank without being blank by its bytes.  Trimming does not see which blank characters
    stand around a text (`trim_surrounded`). -/

namespace StackSurvey.Text

/-! ## Section 1: Blank by its bytes -/

/-- A character that is a blank byte. -/
def isPlainBlank (c : Char) : Bool :=
  c = ' ' || c = '\t' || c = '\n' || c = '\x0c' || c = '\r'

def isPlainText (text : String) : Bool := text.toList.all isPlainBlank

theorem isPlainBlank_iff {c : Char} :
    isPlainBlank c = true ↔ c = ' ' ∨ c = '\t' ∨ c = '\n' ∨ c = '\x0c' ∨ c = '\r' := by
  simp [isPlainBlank, or_assoc]

theorem isPlainText_append (s t : String) :
    isPlainText (s ++ t) = (isPlainText s && isPlainText t) := by
  rw [isPlainText, String.toList_append, List.all_append, isPlainText, isPlainText]

theorem isBlankText_append (s t : String) :
    isBlankText (s ++ t) = (isBlankText s && isBlankText t) := by
  rw [isBlankText, String.toList_append, List.all_append, isBlankText, isBlankText]

theorem isBlank_of_isPlainBlank {c : Char} (h : isPlainBlank c = true) : isBlank c = true := by
  rw [isPlainBlank_iff] at h
  rcases h with rfl | rfl | rfl | rfl | rfl <;> rfl

theorem isBlankText_of_isPlainText {text : String} (h : isPlainText text = true) :
    isBlankText text = true := by
  rw [isPlainText, List.all_eq_true] at h
  rw [isBlankText, List.all_eq_true]
  exact fun c hc => isBlank_of_isPlainBlank (h c hc)

/-- The bytes of a character are blank just if it is one of the five. -/
theorem all_isBlankByte_encodeChar (c : Char) :
    (String.utf8EncodeChar c).all isBlankByte = isPlainBlank c := by
  rw [Bool.eq_iff_iff, isPlainBlank_iff]
  constructor
  · intro hall
    obtain ⟨b, more, hbytes, hspells⟩ := Utf8.spells_encodeChar c
    rw [hbytes, List.all_cons, Bool.and_eq_true] at hall
    have hb := hall.1
    simp only [isBlankByte, Bool.or_eq_true, decide_eq_true_eq, or_assoc] at hb
    generalize hn : c.toNat = n at hspells
    cases hspells with
    | one =>
      rw [← Char.ofNat_toNat c, hn]
      rcases hb with rfl | rfl | rfl | rfl | rfl <;> decide
    -- The first of several bytes is none of the five.
    | two hlow | three hlow | four hlow =>
      rcases hb with rfl | rfl | rfl | rfl | rfl <;> exact absurd hlow (by decide)
  · rintro (rfl | rfl | rfl | rfl | rfl) <;> decide

theorem all_isBlankByte_encode (text : String) :
    (Utf8.encode text).all isBlankByte = isPlainText text := by
  rw [Utf8.encode_eq, isPlainText, List.all_flatMap]
  exact congrArg text.toList.all (funext all_isBlankByte_encodeChar)

/-! ## Section 2: Trimming -/

theorem trimChars_append_left {p : List Char} (hp : ∀ c ∈ p, isBlank c = true) (t : List Char) :
    trimChars (p ++ t) = trimChars t := by
  rw [trimChars, List.dropWhile_append_of_pos hp, trimChars]

theorem trimChars_append_right {q : List Char} (hq : ∀ c ∈ q, isBlank c = true) (t : List Char) :
    trimChars (t ++ q) = trimChars t := by
  have hnone : q.dropWhile isBlank = [] := by
    rw [← List.append_nil q, List.dropWhile_append_of_pos hq, List.dropWhile_nil]
  have hreverse : ∀ c ∈ q.reverse, isBlank c = true := fun c hc => hq c (List.mem_reverse.1 hc)
  unfold trimChars
  rw [List.dropWhile_append]
  split
  -- Nothing but blank characters in the text either.
  · next hempty => rw [hnone, List.isEmpty_iff.1 hempty]
  · rw [List.reverse_append, List.dropWhile_append_of_pos hreverse]

/-- Blank characters around a text are trimmed off. -/
theorem trim_surrounded {p q : String} (hp : isBlankText p = true) (hq : isBlankText q = true)
    (t : String) : trim (p ++ t ++ q) = trim t := by
  rw [isBlankText, List.all_eq_true] at hp hq
  rw [trim, String.toList_append, String.toList_append, trimChars_append_right hq,
    trimChars_append_left hp, trim]

theorem trim_of_isBlankText {t : String} (ht : isBlankText t = true) : trim t = "" := by
  have htrim := trim_surrounded ht (q := "") rfl ""
  rwa [String.append_empty, String.append_empty] at htrim

end StackSurvey.Text
