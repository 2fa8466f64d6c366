import StackSurvey.Finding.Basic
import StackSurvey.Proofs.Text.Blank

/-! # White space around a document

    A document is skipped if its bytes are blank and trimmed by Unicode otherwise.  Once it is not
    skipped, only the trimmed text counts (`featureOf_encode_congr`), so white space around it
    makes no difference unless it decides whether the document is skipped
    (`same_content_surrounded_iff`). -/

namespace StackSurvey.Finding

open Text Utf8

/-- The feature of a document, or the reason why there is none, depends on its trimmed text. -/
theorem featureOf_encode_congr {s t : String} (h : trim s = trim t) :
    featureOf (encode s) = featureOf (encode t) := by
  simp only [featureOf, decode_encode, h]

theorem content_encode (t : String) :
    (ofBytes? (encode t)).map content =
      if isPlainText t then none else some (featureOf (encode t)) := by
  rw [ofBytes?, all_isBlankByte_encode]
  split <;> rfl

theorem ofBytes?_of_isPlainText {t : String} (ht : isPlainText t = true) :
    ofBytes? (encode t) = none := by
  have h := content_encode t
  rwa [ht, if_pos rfl, Option.map_eq_none_iff] at h

/-- White space is no JSON. -/
theorem featureOf_of_isBlankText {t : String} (ht : isBlankText t = true) :
    featureOf (encode t) = .error (.notJson ⟨.endInValue, 1, 0⟩) := by
  simp only [featureOf, decode_encode, trim_of_isBlankText ht]
  rfl

/-- A document that describes a feature is not blank. -/
theorem not_blank_of_featureOf {document : Bytes} {f : Feature} (h : featureOf document = .ok f) :
    document.all isBlankByte = false := by
  rcases hdecode : decode document with fault | text
  · simp only [featureOf, hdecode] at h
    cases h
  obtain rfl := decode_eq_ok_iff.1 hdecode
  rw [all_isBlankByte_encode, Bool.eq_false_iff]
  intro hplain
  rw [featureOf_of_isBlankText (isBlankText_of_isPlainText hplain)] at h
  cases h

/-- The finding in a document reports the feature that the document describes. -/
theorem featureOf_eq_ok_iff {document : Bytes} {f : Feature} :
    featureOf document = .ok f ↔ ∃ x, ofBytes? document = some x ∧ x.feature? = some f := by
  unfold ofBytes?
  constructor
  · intro h
    rw [not_blank_of_featureOf h, if_neg Bool.false_ne_true]
    exact ⟨_, rfl, by rw [feature?, h]; rfl⟩
  · rintro ⟨x, hx, hf⟩
    split at hx
    · cases hx
    · obtain rfl := Option.some.inj hx
      rcases hcontent : featureOf document with r | g
      · rw [feature?, hcontent] at hf
        cases hf
      · rw [feature?, hcontent] at hf
        rw [Option.some.inj hf]

/-- A text of white space that is not blank by its bytes is reported as JSON that ends before its
    value. -/
theorem message_of_isBlankText {t : String} (ht : isBlankText t = true)
    (hplain : isPlainText t = false) :
    (ofBytes? (encode t)).bind message? =
      some "output is not valid JSON: EOF while parsing a value at line 1 column 0" := by
  have h := content_encode t
  rw [hplain, if_neg Bool.false_ne_true, featureOf_of_isBlankText ht,
    Option.map_eq_some_iff] at h
  obtain ⟨x, hx, hcontent⟩ := h
  rw [hx, Option.bind_some, message?, hcontent]
  decide

/-- **White space around a document** changes nothing about whether it is skipped and what it
    says, unless the document is skipped on its own and what stands around it is not blank by its
    bytes.  It is then reported although it holds nothing but white space. -/
theorem same_content_surrounded_iff {p q : String} (hp : isBlankText p = true)
    (hq : isBlankText q = true) (t : String) :
    ((ofBytes? (encode (p ++ t ++ q))).map content = (ofBytes? (encode t)).map content ↔
      (isPlainText t = true → isPlainText p = true ∧ isPlainText q = true)) ∧
    (isPlainText t = true → ¬ (isPlainText p = true ∧ isPlainText q = true) →
      ofBytes? (encode t) = none ∧
      (ofBytes? (encode (p ++ t ++ q))).bind message? =
        some "output is not valid JSON: EOF while parsing a value at line 1 column 0") := by
  have hsame : featureOf (encode (p ++ t ++ q)) = featureOf (encode t) :=
    featureOf_encode_congr (trim_surrounded hp hq t)
  have hplain : isPlainText (p ++ t ++ q) =
      (isPlainText p && isPlainText t && isPlainText q) := by
    rw [isPlainText_append, isPlainText_append]
  constructor
  · rw [content_encode, content_encode, hsame, hplain]
    cases isPlainText p <;> cases isPlainText t <;> cases isPlainText q <;> simp
  · intro ht haround
    have hblank : isBlankText (p ++ t ++ q) = true := by
      rw [isBlankText_append, isBlankText_append, hp, hq, isBlankText_of_isPlainText ht]
      rfl
    have hreported : isPlainText (p ++ t ++ q) = false := by
      rw [hplain, ht, Bool.and_true, Bool.eq_false_iff, ne_eq, Bool.and_eq_true]
      exact haround
    exact ⟨ofBytes?_of_isPlainText ht, message_of_isBlankText hblank hreported⟩

/-- No-break spaces and a line break around a document. -/
theorem same_content_surrounded_object :
    (ofBytes? (encode ("\u00a0" ++ "\x7b\"type\":\"feature\"\x7d" ++ "\u2003\n"))).map content =
      (ofBytes? (encode "\x7b\"type\":\"feature\"\x7d")).map content :=
  (same_content_surrounded_iff (p := "\u00a0") (q := "\u2003\n") (by decide) (by decide) _).1.2
    (by decide)

/-- A vertical tab is white space, yet no blank byte: nothing is skipped, a vertical tab around
    nothing is reported. -/
theorem vertical_tab_reported :
    isBlankText "\x0b" = true ∧ ofBytes? (encode "") = none ∧
      (ofBytes? (encode ("\x0b" ++ "" ++ ""))).bind message? =
        some "output is not valid JSON: EOF while parsing a value at line 1 column 0" :=
  ⟨by decide, ofBytes?_of_isPlainText (by decide),
    message_of_isBlankText (by decide) (by decide)⟩

end StackSurvey.Finding
