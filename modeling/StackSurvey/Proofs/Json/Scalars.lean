import Mathlib.Tactic.Common
import StackSurvey.Json.Printer
import StackSurvey.Proofs.Json.Reading

/-! # Scalars that were written are read back

    A string is read one character at a time: either it stands for itself or what follows the
    backslash is an escape for it (`escapeChar_spec`), and the closing quote is the first that is
    not escaped.  A whole number is read by its digits, which fit a word.

    Main results: `reads_string` and `reads_number`. -/

namespace StackSurvey.Json.Reader

/-! ## Section 1: Escapes -/

theorem hexValue?_hexDigit (n : Nat) : hexValue? (hexDigit n) = some (n % 16) := by
  have hdigits : ∀ k < 16, hexValue? (Nat.digitChar k) = some k := by decide
  exact hdigits (n % 16) (Nat.mod_lt n (by decide))

theorem fourHex?_escape (n : Nat) (rest : List Char) :
    fourHex? ('0' :: '0' :: hexDigit (n / 16) :: hexDigit n :: rest) =
      some (n / 16 % 16 * 16 + n % 16, rest) := by
  have hzero : hexValue? '0' = some 0 := rfl
  simp [fourHex?, hzero, hexValue?_hexDigit]

/-- A character below 32 after a backslash and `u`. -/
theorem reads_unicodeEscape {n : Nat} (hn : n < 0x20) (rest : List Char) :
    Reads unicodeEscape ('0' :: '0' :: hexDigit (n / 16) :: hexDigit n :: rest) (Char.ofNat n)
      rest := by
  have hvalue : n / 16 % 16 * 16 + n % 16 = n := by omega
  have hhex : Reads hexEscape ('0' :: '0' :: hexDigit (n / 16) :: hexDigit n :: rest) n rest := by
    intro cur hcur
    refine ⟨⟨rest, cur.line, cur.column + 4⟩, ?_, rfl⟩
    rw [hexEscape, hcur, fourHex?_escape, hvalue]
  refine hhex.bind ?_
  -- No half of a pair of escapes is that small.
  have hlow : (0xDC00 ≤ n && n ≤ 0xDFFF) = false := by simp; omega
  have hhigh : (0xD800 ≤ n && n ≤ 0xDBFF) = false := by simp; omega
  simp only [hlow, hhigh, Bool.false_eq_true, if_false]
  exact .pure _ rest

/-- A written character is either itself, being no quote, no backslash and no control character,
    or a backslash and an escape for it. -/
theorem escapeChar_spec (c : Char) :
    (escapeChar c = [c] ∧ c ≠ '"' ∧ c ≠ '\\' ∧ ¬ c.toNat < 0x20) ∨
      ∃ mark, escapeChar c = '\\' :: mark ∧ ∀ rest, Reads escape (mark ++ rest) c rest := by
  unfold escapeChar
  split_ifs with hquote hbackslash hback htab hline hfeed hreturn hcontrol
  · subst hquote
    exact .inr ⟨['"'], rfl, fun rest => (reads_next '"' rest).bind (.pure _ rest)⟩
  · subst hbackslash
    exact .inr ⟨['\\'], rfl, fun rest => (reads_next '\\' rest).bind (.pure _ rest)⟩
  · subst hback
    exact .inr ⟨['b'], rfl, fun rest => (reads_next 'b' rest).bind (.pure _ rest)⟩
  · subst htab
    exact .inr ⟨['t'], rfl, fun rest => (reads_next 't' rest).bind (.pure _ rest)⟩
  · subst hline
    exact .inr ⟨['n'], rfl, fun rest => (reads_next 'n' rest).bind (.pure _ rest)⟩
  · subst hfeed
    exact .inr ⟨['f'], rfl, fun rest => (reads_next 'f' rest).bind (.pure _ rest)⟩
  · subst hreturn
    exact .inr ⟨['r'], rfl, fun rest => (reads_next 'r' rest).bind (.pure _ rest)⟩
  · -- Other control characters are written with four digits, of which the first two are zeros.
    refine .inr ⟨'u' :: '0' :: '0' :: hexDigit (c.toNat / 16) :: [hexDigit c.toNat], rfl,
      fun rest => (reads_next 'u' _).bind ?_⟩
    have hread := reads_unicodeEscape hcontrol rest
    rw [Char.ofNat_toNat] at hread
    exact hread
  · exact .inl ⟨rfl, hquote, hbackslash, hcontrol⟩

/-! ## Section 2: Strings -/

/-- One written character is taken in one turn. -/
theorem reads_stringRest_char {c : Char} {fuel : Nat} {taken text rest : List Char} {s : String}
    (h : Reads (stringRest fuel (c :: taken)) text s rest) :
    Reads (stringRest (fuel + 1) taken) (escapeChar c ++ text) s rest := by
  rcases escapeChar_spec c with ⟨hself, hquote, hbackslash, hcontrol⟩ | ⟨mark, hmark, hescape⟩
  · rw [hself]
    refine (reads_next c text).bind ?_
    simp only [hcontrol, if_false]
    exact h
  · rw [hmark]
    exact (reads_next '\\' (mark ++ text)).bind ((hescape text).bind h)

theorem reads_stringRest (cs : List Char) {fuel : Nat} (hfuel : cs.length < fuel)
    (taken rest : List Char) :
    Reads (stringRest fuel taken) (cs.flatMap escapeChar ++ '"' :: rest)
      (String.ofList (taken.reverse ++ cs)) rest := by
  -- By induction on the characters; those taken so far are held backwards.
  induction cs generalizing fuel taken with
  | nil =>
    obtain ⟨fuel, rfl⟩ := Nat.exists_eq_succ_of_ne_zero (Nat.ne_of_gt hfuel)
    rw [List.append_nil]
    exact (reads_next '"' rest).bind (.pure _ rest)
  | cons c cs ih =>
    obtain ⟨fuel, rfl⟩ := Nat.exists_eq_succ_of_ne_zero (Nat.ne_of_gt (Nat.zero_lt_of_lt hfuel))
    have hrest := ih (Nat.lt_of_succ_lt_succ hfuel) (c :: taken)
    rw [List.reverse_cons, List.append_assoc, List.singleton_append] at hrest
    rw [List.flatMap_cons, List.append_assoc]
    exact reads_stringRest_char hrest

theorem length_le_flatMap_escapeChar (cs : List Char) :
    cs.length ≤ (cs.flatMap escapeChar).length := by
  induction cs with
  | nil => exact Nat.le_refl 0
  | cons c cs ih =>
    -- Each character is written as one at least.
    have hpos : 0 < (escapeChar c).length := by
      rcases escapeChar_spec c with ⟨hself, -⟩ | ⟨mark, hmark, -⟩
      · rw [hself]
        exact Nat.one_pos
      · rw [hmark]
        exact Nat.succ_pos mark.length
    rw [List.flatMap_cons, List.length_append, List.length_cons]
    omega

/-- **A string in quotes is read back.** -/
theorem reads_string (s : String) (rest : List Char) :
    Reads string (quoted s ++ rest) s rest := by
  rw [quoted, List.cons_append, List.cons_append, List.append_assoc]
  refine (reads_advance '"' _).bind ((reads_remaining _).bind ?_)
  have hfuel : s.toList.length <
      (s.toList.flatMap escapeChar ++ (['"'] ++ rest)).length + 1 := by
    have := length_le_flatMap_escapeChar s.toList
    rw [List.length_append]
    omega
  have hread := reads_stringRest s.toList hfuel [] rest
  rw [List.reverse_nil, List.nil_append, String.ofList_toList] at hread
  exact hread

/-! ## Section 3: Whole numbers -/

/-- What is left does not carry a number on. -/
def EndsNumber (rest : List Char) : Prop :=
  ∀ c, rest.head? = some c → c.isDigit = false ∧ c ≠ '.' ∧ c ≠ 'e' ∧ c ≠ 'E'

theorem isSpace_of_isDigit {c : Char} (hc : c.isDigit = true) : isSpace c = false := by
  have hne : ∀ d : Char, d.isDigit = false → c ≠ d := by
    rintro d hd rfl
    exact Bool.noConfusion (hd.symm.trans hc)
  simp [isSpace, hne]

/-- White space ends a number. -/
theorem endsNumber_of_isSpace {c : Char} (hc : isSpace c = true) :
    c.isDigit = false ∧ c ≠ '.' ∧ c ≠ 'e' ∧ c ≠ 'E' := by
  simp only [isSpace, Bool.or_eq_true, decide_eq_true_eq, or_assoc] at hc
  rcases hc with rfl | rfl | rfl | rfl <;> decide

/-- Digits are read up to the first character that is none. -/
theorem reads_digits {ds rest : List Char} (hds : ∀ c ∈ ds, c.isDigit = true)
    (hrest : ∀ c, rest.head? = some c → c.isDigit = false) :
    Reads digits (ds ++ rest) (ds.map fun c => c.toNat - 48) rest := by
  have htake : (ds ++ rest).takeWhile Char.isDigit = ds := by
    rw [List.takeWhile_append_of_pos hds]
    cases rest with
    | nil => simp
    | cons c rest => simp [hrest c rfl]
  intro cur hcur
  refine ⟨⟨rest, cur.line, cur.column + ds.length⟩, ?_, rfl⟩
  simp only [digits, hcur, htake, List.drop_left]

/-- Digits of a number that fits a word are all kept. -/
theorem foldl_pushWhole (ds : List Char) {n : Nat} (h : Nat.ofDigitChars 10 ds n < Nat.pow 2 64) :
    (ds.map fun c => c.toNat - 48).foldl Significand.pushWhole ⟨n, 0⟩ =
      ⟨Nat.ofDigitChars 10 ds n, 0⟩ := by
  induction ds generalizing n with
  | nil => rfl
  | cons d ds ih =>
    rw [Nat.ofDigitChars_cons] at h ⊢
    -- What comes before more digits is no greater than the whole.
    have hle : 10 * n + (d.toNat - '0'.toNat) ≤
        Nat.ofDigitChars 10 ds (10 * n + (d.toNat - '0'.toNat)) := by
      rw [Nat.ofDigitChars_eq_ofDigitChars_zero]
      exact Nat.le_add_right_of_le (Nat.le_mul_of_pos_left _ (Nat.pow_pos (by decide)))
    have hstep : Significand.pushWhole ⟨n, 0⟩ (d.toNat - 48) =
        ⟨10 * n + (d.toNat - '0'.toNat), 0⟩ := by
      have hfits : 10 * n + (d.toNat - 48) < Nat.pow 2 64 := Nat.lt_of_le_of_lt hle h
      rw [Significand.pushWhole, Nat.mul_comm n, if_pos (by simp [hfits])]
      rfl
    rw [List.map_cons, List.foldl_cons, hstep]
    exact ih h

/-- A number other than zero does not start with `0`. -/
theorem toDigits_head {n : Nat} (hn : n ≠ 0) :
    ∃ c more, Nat.toDigits 10 n = c :: more ∧ c ≠ '0' := by
  induction n using Nat.strongRecOn with
  | _ n ih =>
    rcases Nat.lt_or_ge n 10 with hsmall | hlarge
    · refine ⟨n.digitChar, [], Nat.toDigits_of_lt_base hsmall, ?_⟩
      rw [ne_eq, Nat.digitChar_eq_zero]
      exact hn
    · obtain ⟨c, more, hmore, hc⟩ := ih (n / 10) (by omega) (by omega)
      refine ⟨c, more ++ [(n % 10).digitChar], ?_, hc⟩
      rw [Nat.toDigits_of_base_le (by decide) hlarge, hmore, List.cons_append]

/-- The digits of a number as they are read: a single zero, or digits of which the first is not
    zero. -/
theorem toDigits_cases (n : Nat) :
    ∃ c more, Nat.toDigits 10 n = c :: more ∧ c.isDigit = true ∧
      (∀ d ∈ more, d.isDigit = true) ∧ (c = '0' → more = []) := by
  have hdigits : ∀ d ∈ Nat.toDigits 10 n, d.isDigit = true := fun d hd =>
    Nat.isDigit_of_mem_toDigits (by decide) (by decide) hd
  by_cases hn : n = 0
  · subst hn
    exact ⟨'0', [], Nat.toDigits_zero 10, rfl, fun d hd => absurd hd List.not_mem_nil, fun _ => rfl⟩
  · obtain ⟨c, more, hmore, hc⟩ := toDigits_head hn
    rw [hmore] at hdigits
    exact ⟨c, more, hmore, hdigits c List.mem_cons_self,
      fun d hd => hdigits d (List.mem_cons_of_mem c hd), fun h => absurd h hc⟩

theorem wholeChars_head (n : Int) :
    ∃ c more, wholeChars n = c :: more ∧ (c = '-' ∨ c.isDigit = true) := by
  unfold wholeChars
  split
  · exact ⟨'-', _, rfl, .inl rfl⟩
  · obtain ⟨c, more, hdigits, hc, -⟩ := toDigits_cases n.natAbs
    exact ⟨c, more, hdigits, .inr hc⟩

/-- The digits of a number are read as that number. -/
theorem reads_unsigned {negative : Bool} {n : Nat} {rest : List Char} {x : Number}
    (hn : n < Nat.pow 2 64) (hrest : EndsNumber rest)
    (h : Reads (wholeNumber negative ⟨n, 0⟩) rest x rest) :
    Reads (unsigned negative) (Nat.toDigits 10 n ++ rest) x rest := by
  obtain ⟨c, more, hdigits, hc, hmore, hzero⟩ := toDigits_cases n
  have hvalue : ((c.toNat - 48) :: more.map fun c => c.toNat - 48).foldl Significand.pushWhole
      ⟨0, 0⟩ = ⟨n, 0⟩ := by
    have hfold := foldl_pushWhole (Nat.toDigits 10 n) (n := 0)
    rw [Nat.ofDigitChars_ten_toDigits, hdigits] at hfold
    exact hfold hn
  -- A zero stands alone, and after any other digit all that follow are taken.
  have hread : ∀ k : List Nat → Reader Number,
      Reads (k (more.map fun c => c.toNat - 48)) rest x rest →
      Reads (if c = '0' then Pure.pure [] >>= k else digits >>= k) (more ++ rest) x rest := by
    intro k hk
    split_ifs with hc0
    · rw [hzero hc0] at hk ⊢
      exact (Reads.pure [] rest).bind hk
    · exact (reads_digits hmore fun d hd => (hrest d hd).1).bind hk
  have hnodigit : (rest.head?.map Char.isDigit).getD false = false := by
    cases rest with
    | nil => rfl
    | cons d rest => exact (hrest d rfl).1
  rw [hdigits, List.cons_append]
  refine (reads_next c _).bind ?_
  simp only [hc, Bool.not_true, Bool.false_eq_true, if_false]
  refine hread _ ((reads_peek rest).bind ?_)
  simp only [hnodigit, Bool.and_false, Bool.false_eq_true, if_false, hvalue]
  refine (reads_peek rest).bind ?_
  cases rest with
  | nil => exact h
  | cons d rest =>
    obtain ⟨-, hpoint, he, hE⟩ := hrest d rfl
    have hmark : isExponentMark (some d) = false := by simp [isExponentMark, he, hE]
    simp only [List.head?_cons]
    split
    · exact absurd (Option.some.inj ‹_›) hpoint
    · rw [hmark]
      exact h

/-- **A whole number is read back.** -/
theorem reads_number (n : Whole) {rest : List Char} (hrest : EndsNumber rest) :
    Reads number (wholeChars n.val ++ rest) (.whole n) rest := by
  have hupper := n.upper
  have hlower := n.lower
  rw [show Int.pow 2 64 = 18446744073709551616 from rfl] at hupper
  rw [show Int.pow 2 63 = 9223372036854775808 from rfl] at hlower
  -- The range reaches further above zero than below it; the magnitude fits into 64 bits either way.
  have hfits : n.val.natAbs < Nat.pow 2 64 := by
    rw [show Nat.pow 2 64 = 18446744073709551616 from rfl]
    omega
  by_cases hsign : n.val < 0
  · have hvalue : -(n.val.natAbs : Int) = n.val := by omega
    have hnonzero : n.val.natAbs ≠ 0 := by omega
    have hwhole : Reads (wholeNumber true ⟨n.val.natAbs, 0⟩) rest (.whole n) rest := by
      simp only [wholeNumber, hnonzero, hvalue, Whole.ofInt?_val, ne_eq, not_true_eq_false,
        decide_false, Bool.and_false, Bool.false_eq_true, if_false, if_true]
      exact .pure _ rest
    rw [wholeChars, if_pos hsign, List.cons_append]
    exact (reads_peek _).bind ((reads_advance '-' _).bind (reads_unsigned hfits hrest hwhole))
  · have hvalue : (n.val.natAbs : Int) = n.val := by omega
    have hwhole : Reads (wholeNumber false ⟨n.val.natAbs, 0⟩) rest (.whole n) rest := by
      simp only [wholeNumber, hvalue, Whole.ofInt?_val, ne_eq, not_true_eq_false, Bool.false_and,
        Bool.false_eq_true, if_false]
      exact .pure _ rest
    rw [wholeChars, if_neg hsign]
    refine (reads_peek _).bind ?_
    -- A digit comes first, so nothing is taken for a sign.
    have hnosign : ((Binary64.digitsOf n.val.natAbs ++ rest).head? == some '-') = false := by
      obtain ⟨c, more, hdigits, hc, -⟩ := toDigits_cases n.val.natAbs
      rw [Binary64.digitsOf, hdigits, List.cons_append, List.head?_cons, beq_eq_false_iff_ne]
      rintro ⟨⟩
      exact absurd hc (by decide)
    rw [hnosign]
    exact reads_unsigned hfits hrest hwhole

end StackSurvey.Json.Reader
