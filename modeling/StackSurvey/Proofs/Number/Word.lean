import Mathlib.Tactic.Common
import StackSurvey.Number.Word

/-! # What is read as a word

    A number may be written with a plus and with zeros in front, and in no other way than that
    besides its own decimal digits.  `read?_eq_some_iff` says that just these texts are read, and
    as the number that they spell. -/

namespace StackSurvey.Word

/-- A text spells a number: its decimal digits, behind zeros and perhaps a plus. -/
def Spells (text : String) (n : Nat) : Prop :=
  ∃ (plus : String) (zeros : Nat), (plus = "" ∨ plus = "+") ∧
    text = plus ++ String.ofList (List.replicate zeros '0') ++ toString n

/-! ## Section 1: Digits -/

/-- A digit is the one of its value. -/
theorem digitChar_value {c : Char} (hc : c.isDigit = true) :
    (c.toNat - '0'.toNat) < 10 ∧ Nat.digitChar (c.toNat - '0'.toNat) = c := by
  have hbounds : '0'.toNat ≤ c.toNat ∧ c.toNat ≤ '9'.toNat := Char.isDigit_iff_toNat.1 hc
  have hzero : '0'.toNat = 48 := by decide
  have hnine : '9'.toNat = 57 := by decide
  have hlt : c.toNat - '0'.toNat < 10 := by omega
  refine ⟨hlt, ?_⟩
  apply Char.toNat_inj.1
  rw [Nat.toNat_digitChar_of_lt_ten hlt]
  omega

/-- Digits that follow a number other than zero become digits of the number they make with
    it. -/
theorem toDigits_ofDigitChars {ds : List Char} (hds : ∀ c ∈ ds, c.isDigit = true) {n : Nat}
    (hn : 0 < n) : Nat.toDigits 10 (Nat.ofDigitChars 10 ds n) = Nat.toDigits 10 n ++ ds := by
  induction ds generalizing n with
  | nil => simp [Nat.ofDigitChars]
  | cons c rest ih =>
    obtain ⟨hlt, hchar⟩ := digitChar_value (hds c List.mem_cons_self)
    have hrest : ∀ c' ∈ rest, c'.isDigit = true := fun c' h => hds c' (List.mem_cons_of_mem c h)
    rw [Nat.ofDigitChars_cons, ih hrest (by omega), ← Nat.toDigits_append_toDigits (by omega) hn hlt,
      Nat.toDigits_of_lt_base hlt, hchar]
    simp

/-- Digits are the decimal digits of the number they make, behind some zeros. -/
theorem digits_eq_zeros_append {ds : List Char} (hne : ds ≠ [])
    (hds : ∀ c ∈ ds, c.isDigit = true) :
    ∃ zeros, ds = List.replicate zeros '0' ++ Nat.toDigits 10 (ofDigits ds) := by
  induction ds with
  | nil => exact absurd rfl hne
  | cons c rest ih =>
    have hrest : ∀ c' ∈ rest, c'.isDigit = true := fun c' h => hds c' (List.mem_cons_of_mem c h)
    obtain ⟨hlt, hchar⟩ := digitChar_value (hds c List.mem_cons_self)
    have hcons : ofDigits (c :: rest) = Nat.ofDigitChars 10 rest (c.toNat - '0'.toNat) := by
      show Nat.ofDigitChars 10 (c :: rest) 0 = _
      rw [Nat.ofDigitChars_cons, Nat.mul_zero, Nat.zero_add]
    by_cases hzero : c.toNat - '0'.toNat = 0
    · have hc : c = '0' := by rw [← hchar, hzero]; decide
      by_cases hnil : rest = []
      · refine ⟨0, ?_⟩
        subst hnil hc
        decide
      -- A zero in front of other digits changes nothing about their number.
      · obtain ⟨zeros, hzeros⟩ := ih hnil hrest
        refine ⟨zeros + 1, ?_⟩
        rw [hcons, hzero, hc, List.replicate_succ, List.cons_append]
        exact congrArg _ hzeros
    · refine ⟨0, ?_⟩
      rw [hcons, toDigits_ofDigitChars hrest (by omega), Nat.toDigits_of_lt_base hlt, hchar]
      rfl

/-- The decimal digits of a number, behind any zeros, make the number. -/
theorem ofDigits_zeros_append (zeros n : Nat) :
    ofDigits (List.replicate zeros '0' ++ Nat.toDigits 10 n) = n := by
  show Nat.ofDigitChars 10 _ 0 = n
  rw [Nat.ofDigitChars_append, Nat.ofDigitChars_replicate_zero, Nat.mul_zero,
    Nat.ofDigitChars_toDigits (by omega) (by omega)]

/-! ## Section 2: Texts -/

/-- What the digits of a text are. -/
theorem digits?_eq_some_iff {cs ds : List Char} :
    digits? cs = some ds ↔
      ds ≠ [] ∧ (∀ c ∈ ds, c.isDigit = true) ∧ (cs = ds ∨ cs = '+' :: ds) := by
  constructor
  · intro h
    unfold digits? at h
    split at h <;> split at h <;> simp_all
  · rintro ⟨hne, hds, rfl | rfl⟩
    · -- Digits do not start with a plus, so nothing is dropped from them.
      have hfirst : ∀ rest, cs ≠ '+' :: rest := by
        intro rest hrest
        have hplus : ('+' : Char).isDigit = true := hds _ (hrest ▸ List.mem_cons_self)
        exact absurd hplus (by decide)
      unfold digits?
      split
      · next rest => exact absurd rfl (hfirst rest)
      · rw [if_neg (by simp_all)]
    · show (if ds.isEmpty || !ds.all Char.isDigit then none else some ds) = some ds
      rw [if_neg (by simp_all)]

/-- The characters of a text that spells a number. -/
theorem spells_iff {text : String} {n : Nat} :
    Spells text n ↔ ∃ zeros, text.toList = List.replicate zeros '0' ++ Nat.toDigits 10 n ∨
      text.toList = '+' :: (List.replicate zeros '0' ++ Nat.toDigits 10 n) := by
  -- A text and its characters say the same; the rest is about lists.
  have hlist (zeros : Nat) (plus : String) :
      text = plus ++ String.ofList (List.replicate zeros '0') ++ toString n ↔
        text.toList = plus.toList ++ (List.replicate zeros '0' ++ Nat.toDigits 10 n) := by
    rw [← String.toList_inj]
    simp [Nat.toString_eq_repr, Nat.toList_repr]
  constructor
  · rintro ⟨plus, zeros, rfl | rfl, h⟩
    · exact ⟨zeros, .inl ((hlist zeros "").1 h)⟩
    · exact ⟨zeros, .inr ((hlist zeros "+").1 h)⟩
  · rintro ⟨zeros, h | h⟩
    · exact ⟨"", zeros, .inl rfl, (hlist zeros "").2 h⟩
    · exact ⟨"+", zeros, .inr rfl, (hlist zeros "+").2 h⟩

/-- **A text is read as a number if and only if it spells it and the number fits.** -/
theorem read?_eq_some_iff {bits n : Nat} {text : String} :
    read? bits text = some n ↔ Spells text n ∧ n < Nat.pow 2 bits := by
  constructor
  · intro h
    refine ⟨?_, lt_of_read? h⟩
    unfold read? at h
    split at h
    · cases h
    next ds hds =>
      split at h
      · obtain ⟨hne, hdigits, htext⟩ := digits?_eq_some_iff.1 hds
        obtain ⟨zeros, hzeros⟩ := digits_eq_zeros_append hne hdigits
        cases h
        rw [spells_iff]
        refine ⟨zeros, ?_⟩
        rw [← hzeros]
        exact htext
      · cases h
  · rintro ⟨hspells, hlt⟩
    obtain ⟨zeros, htext⟩ := spells_iff.1 hspells
    -- What is spelled is made of digits and can be read back.
    have hdigits : digits? text.toList = some (List.replicate zeros '0' ++ Nat.toDigits 10 n) := by
      refine digits?_eq_some_iff.2 ⟨?_, ?_, htext⟩
      · simp [Nat.toDigits_ne_nil]
      · intro c hc
        rcases List.mem_append.1 hc with hc | hc
        · rw [List.eq_of_mem_replicate hc]; decide
        · exact Nat.isDigit_of_mem_toDigits (by omega) (by omega) hc
    rw [read?, hdigits]
    show (if ofDigits _ < _ then some (ofDigits _) else none) = some n
    rw [ofDigits_zeros_append, if_pos hlt]

end StackSurvey.Word
