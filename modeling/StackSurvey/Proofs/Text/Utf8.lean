import Mathlib.Tactic.Common
import StackSurvey.Text.Utf8

/-! # Decoding undoes encoding

    A byte sequence is read as a text just if it is the encoding of that text
    (`decode_eq_ok_iff`): every text reads back, and no ill-formed, overlong or cut off sequence
    is read as anything.

    Both directions go character by character.  `Spells` says which bytes make up a character:
    they are read as that character whatever follows (`front_of_spells`), no other bytes are
    (`spells_of_front`), and they are those that it is encoded by (`encodeChar_of_spells`,
    `spells_encodeChar`). -/

namespace StackSurvey.Utf8

/-! ## Section 1: The bytes of a text -/

theorem toList_loop (bytes : ByteArray) (i : Nat) (read : List UInt8) :
    ByteArray.toList.loop bytes i read = read.reverse ++ bytes.data.toList.drop i := by
  -- By induction on the bytes still to be read; those read are held backwards.
  induction hn : bytes.size - i generalizing i read with
  | zero =>
    have hi : ¬ i < bytes.size := by omega
    have hdrop : bytes.data.toList.drop i = [] := by
      rw [List.drop_eq_nil_iff, Array.length_toList]
      exact Nat.not_lt.1 hi
    rw [ByteArray.toList.loop, if_neg hi, hdrop, List.append_nil]
  | succ n ih =>
    have hi : i < bytes.size := by omega
    have hlist : i < bytes.data.toList.length := by rwa [Array.length_toList]
    have hget : bytes.get! i = bytes.data.toList[i] := by
      rw [Array.getElem_toList]
      exact getElem!_pos bytes.data i hi
    rw [ByteArray.toList.loop, if_pos hi, ih (i + 1) _ (by omega), List.drop_eq_getElem_cons hlist,
      hget, List.reverse_cons, List.append_assoc, List.singleton_append]

/-- A text is encoded character by character. -/
theorem encode_eq (text : String) : encode text = text.toList.flatMap String.utf8EncodeChar := by
  have htext : text.toUTF8 = text.toList.utf8Encode := by
    rw [← String.toByteArray_ofList, String.ofList_toList]
    rfl
  show ByteArray.toList.loop text.toUTF8 0 [] = _
  rw [toList_loop, htext, List.drop_zero, List.reverse_nil, List.nil_append]
  exact List.toList_data_toByteArray

/-! ## Section 2: The bytes of a character -/

theorem isContinuation_iff {b : UInt8} :
    isContinuation b = true ↔ 0x80 ≤ b.toNat ∧ b.toNat ≤ 0xBF := by
  simp [isContinuation, UInt8.le_iff_toNat_le]

theorem secondOfThree_iff {b c : UInt8} :
    secondOfThree b c = true ↔ 0x80 ≤ c.toNat ∧ c.toNat ≤ 0xBF ∧
      (b.toNat = 0xE0 → 0xA0 ≤ c.toNat) ∧ (b.toNat = 0xED → c.toNat ≤ 0x9F) := by
  unfold secondOfThree
  simp only [isContinuation, UInt8.le_iff_toNat_le, ← UInt8.toNat_inj]
  split <;> simp_all
  · omega
  · split <;> simp_all
    omega

theorem secondOfFour_iff {b c : UInt8} :
    secondOfFour b c = true ↔ 0x80 ≤ c.toNat ∧ c.toNat ≤ 0xBF ∧
      (b.toNat = 0xF0 → 0x90 ≤ c.toNat) ∧ (b.toNat = 0xF4 → c.toNat ≤ 0x8F) := by
  unfold secondOfFour
  simp only [isContinuation, UInt8.le_iff_toNat_le, ← UInt8.toNat_inj]
  split <;> simp_all
  · omega
  · split <;> simp_all
    omega

/-- The bytes `b :: more` make up the character with the code point `n`. -/
inductive Spells (b : UInt8) : (more : Bytes) → (n : Nat) → Prop where
  | one (hb : b.toNat < 0x80) : Spells b [] b.toNat
  | two {c : UInt8} (hlow : 0xC2 ≤ b.toNat) (hhigh : b.toNat ≤ 0xDF)
      (hc : isContinuation c = true) : Spells b [c] (b.toNat % 32 * 64 + payload c)
  | three {c d : UInt8} (hlow : 0xE0 ≤ b.toNat) (hhigh : b.toNat ≤ 0xEF)
      (hc : secondOfThree b c = true) (hd : isContinuation d = true) :
      Spells b [c, d] (b.toNat % 16 * 4096 + payload c * 64 + payload d)
  | four {c d e : UInt8} (hlow : 0xF0 ≤ b.toNat) (hhigh : b.toNat ≤ 0xF4)
      (hc : secondOfFour b c = true) (hd : isContinuation d = true)
      (he : isContinuation e = true) :
      Spells b [c, d, e]
        (b.toNat % 8 * 262144 + payload c * 4096 + payload d * 64 + payload e)

section spelling

variable {b : UInt8} {more rest : Bytes} {n : Nat}

/-- The bytes of a character are read as that character, whatever follows. -/
theorem front_of_spells (h : Spells b more n) (rest : Bytes) :
    front b (more ++ rest) = .char (Char.ofNat n) more.length := by
  cases h with
  | one hb => simp [front.eq_def, UInt8.lt_iff_toNat_lt, hb]
  | two hlow hhigh hc =>
    have hone : ¬ b.toNat < 0x80 := by omega
    simp [front.eq_def, UInt8.lt_iff_toNat_lt, UInt8.le_iff_toNat_le, hone, hlow, hhigh, hc]
  | three hlow hhigh hc hd =>
    have hone : ¬ b.toNat < 0x80 := by omega
    have htwo : ¬ b.toNat ≤ 0xDF := by omega
    simp [front.eq_def, UInt8.lt_iff_toNat_lt, UInt8.le_iff_toNat_le, hone, htwo, hlow, hhigh, hc,
      hd]
  | four hlow hhigh hc hd he =>
    have hone : ¬ b.toNat < 0x80 := by omega
    have htwo : ¬ b.toNat ≤ 0xDF := by omega
    have hthree : ¬ b.toNat ≤ 0xEF := by omega
    simp [front.eq_def, UInt8.lt_iff_toNat_lt, UInt8.le_iff_toNat_le, hone, htwo, hthree, hlow,
      hhigh, hc, hd, he]

/-- No other bytes are read as a character. -/
theorem spells_of_front {c : Char} {extra : Nat} (h : front b rest = .char c extra) :
    ∃ more later n, Spells b more n ∧ rest = more ++ later ∧ more.length = extra ∧
      c = Char.ofNat n := by
  rw [front.eq_def] at h
  simp only [UInt8.lt_iff_toNat_lt, UInt8.le_iff_toNat_le, Bool.and_eq_true, decide_eq_true_eq] at h
  -- One bullet for each length; a byte that is missing or does not fit gives no character.
  split at h
  · next hb =>
    obtain ⟨rfl, rfl⟩ := Front.char.inj h
    exact ⟨[], rest, _, .one hb, rfl, rfl, rfl⟩
  split at h
  · next hb =>
    rcases rest with _ | ⟨x, later⟩
    · cases h
    dsimp only at h
    split at h
    · next hx =>
      obtain ⟨rfl, rfl⟩ := Front.char.inj h
      exact ⟨[x], later, _, .two hb.1 hb.2 hx, rfl, rfl, rfl⟩
    · cases h
  split at h
  · next hb =>
    rcases rest with _ | ⟨x, rest⟩
    · cases h
    dsimp only at h
    split at h
    · next hx =>
      rcases rest with _ | ⟨y, later⟩
      · cases h
      dsimp only at h
      split at h
      · next hy =>
        obtain ⟨rfl, rfl⟩ := Front.char.inj h
        exact ⟨[x, y], later, _, .three hb.1 hb.2 hx hy, rfl, rfl, rfl⟩
      · cases h
    · cases h
  split at h
  · next hb =>
    rcases rest with _ | ⟨x, rest⟩
    · cases h
    dsimp only at h
    split at h
    · next hx =>
      rcases rest with _ | ⟨y, rest⟩
      · cases h
      dsimp only at h
      split at h
      · next hy =>
        rcases rest with _ | ⟨z, later⟩
        · cases h
        dsimp only at h
        split at h
        · next hz =>
          obtain ⟨rfl, rfl⟩ := Front.char.inj h
          exact ⟨[x, y, z], later, _, .four hb.1 hb.2 hx hy hz, rfl, rfl, rfl⟩
        · cases h
      · cases h
    · cases h
  · cases h

theorem toNat_charOfNat (h : n.isValidChar) : (Char.ofNat n).val.toNat = n := by
  rw [Char.ofNat, dif_pos h]
  rfl

/-- Bytes that make up a character are those that it is encoded by.  None of the spellings is
    overlong, and none of a surrogate. -/
theorem encodeChar_of_spells (h : Spells b more n) :
    String.utf8EncodeChar (Char.ofNat n) = b :: more := by
  -- The four lengths, each in the range of code points to which it belongs.
  cases h with
  | one hb =>
    have hn : (Char.ofNat b.toNat).val.toNat = b.toNat := toNat_charOfNat (.inl (by omega))
    simp only [String.utf8EncodeChar, hn]
    rw [if_pos (by omega), UInt8.ofNat_toNat]
  | @two c hlow hhigh hc =>
    rw [isContinuation_iff] at hc
    have hn : (Char.ofNat (b.toNat % 32 * 64 + payload c)).val.toNat =
        b.toNat % 32 * 64 + c.toNat % 64 := toNat_charOfNat (.inl (by unfold payload; omega))
    simp only [String.utf8EncodeChar, hn]
    rw [if_neg (by omega), if_pos (by omega)]
    simp only [List.cons.injEq, UInt8.ofNat_eq_iff_mod_eq_toNat, and_true]
    omega
  -- With three and four bytes the second one has a narrower range, which rules out long spellings
  -- and surrogates.
  | @three c d hlow hhigh hc hd =>
    rw [isContinuation_iff] at hd
    rw [secondOfThree_iff] at hc
    have hn : (Char.ofNat (b.toNat % 16 * 4096 + payload c * 64 + payload d)).val.toNat =
        b.toNat % 16 * 4096 + c.toNat % 64 * 64 + d.toNat % 64 :=
      toNat_charOfNat (by unfold payload Nat.isValidChar; omega)
    simp only [String.utf8EncodeChar, hn]
    rw [if_neg (by omega), if_neg (by omega), if_pos (by omega)]
    simp only [List.cons.injEq, UInt8.ofNat_eq_iff_mod_eq_toNat, and_true]
    omega
  | @four c d e hlow hhigh hc hd he =>
    rw [isContinuation_iff] at hd he
    rw [secondOfFour_iff] at hc
    have hn : (Char.ofNat
          (b.toNat % 8 * 262144 + payload c * 4096 + payload d * 64 + payload e)).val.toNat =
        b.toNat % 8 * 262144 + c.toNat % 64 * 4096 + d.toNat % 64 * 64 + e.toNat % 64 :=
      toNat_charOfNat (by unfold payload Nat.isValidChar; omega)
    simp only [String.utf8EncodeChar, hn]
    rw [if_neg (by omega), if_neg (by omega), if_neg (by omega)]
    simp only [List.cons.injEq, UInt8.ofNat_eq_iff_mod_eq_toNat, and_true]
    omega

/-- Every character is made up of the bytes that it is encoded by. -/
theorem spells_encodeChar (c : Char) :
    ∃ b more, String.utf8EncodeChar c = b :: more ∧ Spells b more c.toNat := by
  have hvalid : c.val.toNat.isValidChar := c.valid
  show ∃ b more, String.utf8EncodeChar c = b :: more ∧ Spells b more c.val.toNat
  unfold String.utf8EncodeChar
  generalize c.val.toNat = n at hvalid ⊢
  unfold Nat.isValidChar at hvalid
  -- All bytes are written as numbers below 256, so that `omega` can take them apart.
  have hbyte : ∀ n, n < 256 → (UInt8.ofNat n).toNat = n := fun n h => UInt8.toNat_ofNat_of_lt' h
  have hlast : (UInt8.ofNat (n % 64 + 128)).toNat = n % 64 + 128 := hbyte _ (by omega)
  have hmiddle : (UInt8.ofNat (n / 64 % 64 + 128)).toNat = n / 64 % 64 + 128 := hbyte _ (by omega)
  by_cases h1 : n ≤ 127
  · have hb : (UInt8.ofNat n).toNat = n := hbyte n (by omega)
    refine ⟨_, _, if_pos h1, ?_⟩
    have h : Spells (UInt8.ofNat n) [] (UInt8.ofNat n).toNat := .one (by omega)
    rwa [hb] at h
  by_cases h2 : n ≤ 2047
  · have hb : (UInt8.ofNat (n / 64 % 32 + 192)).toNat = n / 64 % 32 + 192 := hbyte _ (by omega)
    refine ⟨_, _, by rw [if_neg h1, if_pos h2], ?_⟩
    have hn : n = (UInt8.ofNat (n / 64 % 32 + 192)).toNat % 32 * 64 +
        payload (UInt8.ofNat (n % 64 + 128)) := by
      unfold payload
      omega
    -- The code point stands on both sides, and only that on the right is to be written as bytes.
    conv => rhs; rw [hn]
    exact .two (by omega) (by omega) (isContinuation_iff.2 (by omega))
  by_cases h3 : n ≤ 65535
  · have hb : (UInt8.ofNat (n / 4096 % 16 + 224)).toNat = n / 4096 % 16 + 224 :=
      hbyte _ (by omega)
    refine ⟨_, _, by rw [if_neg h1, if_neg h2, if_pos h3], ?_⟩
    have hn : n = (UInt8.ofNat (n / 4096 % 16 + 224)).toNat % 16 * 4096 +
        payload (UInt8.ofNat (n / 64 % 64 + 128)) * 64 + payload (UInt8.ofNat (n % 64 + 128)) := by
      unfold payload
      omega
    conv => rhs; rw [hn]
    exact .three (by omega) (by omega) (secondOfThree_iff.2 (by omega))
      (isContinuation_iff.2 (by omega))
  · have hb : (UInt8.ofNat (n / 262144 % 8 + 240)).toNat = n / 262144 % 8 + 240 :=
      hbyte _ (by omega)
    have hsecond : (UInt8.ofNat (n / 4096 % 64 + 128)).toNat = n / 4096 % 64 + 128 :=
      hbyte _ (by omega)
    refine ⟨_, _, by rw [if_neg h1, if_neg h2, if_neg h3], ?_⟩
    have hn : n = (UInt8.ofNat (n / 262144 % 8 + 240)).toNat % 8 * 262144 +
        payload (UInt8.ofNat (n / 4096 % 64 + 128)) * 4096 +
        payload (UInt8.ofNat (n / 64 % 64 + 128)) * 64 + payload (UInt8.ofNat (n % 64 + 128)) := by
      unfold payload
      omega
    conv => rhs; rw [hn]
    exact .four (by omega) (by omega) (secondOfFour_iff.2 (by omega))
      (isContinuation_iff.2 (by omega)) (isContinuation_iff.2 (by omega))

end spelling

/-! ## Section 3: Whole texts -/

theorem decodeFrom_encodeChar (index : Nat) (read : List Char) (c : Char) (rest : Bytes) :
    ∃ index', decodeFrom index read (String.utf8EncodeChar c ++ rest) =
      decodeFrom index' (c :: read) rest := by
  obtain ⟨b, more, hbytes, hspells⟩ := spells_encodeChar c
  have hfront := front_of_spells hspells rest
  rw [Char.ofNat_toNat] at hfront
  refine ⟨index + 1 + more.length, ?_⟩
  rw [hbytes, List.cons_append, decodeFrom, hfront]
  simp

theorem decodeFrom_encode (cs : List Char) (index : Nat) (read : List Char) :
    decodeFrom index read (cs.flatMap String.utf8EncodeChar) = .ok (read.reverse ++ cs) := by
  induction cs generalizing index read with
  | nil => simp [decodeFrom]
  | cons c cs ih =>
    obtain ⟨index', hfirst⟩ := decodeFrom_encodeChar index read c (cs.flatMap String.utf8EncodeChar)
    rw [List.flatMap_cons, hfirst, ih]
    simp

theorem flatMap_of_decodeFrom {index : Nat} {read cs : List Char} {bytes : Bytes}
    (h : decodeFrom index read bytes = .ok cs) :
    ∃ more, cs = read.reverse ++ more ∧ bytes = more.flatMap String.utf8EncodeChar := by
  -- By induction on the decoding, whose first two cases are the ones that succeed.
  fun_induction decodeFrom index read bytes with
  | case1 index read =>
    obtain rfl := Except.ok.inj h
    exact ⟨[], (List.append_nil _).symm, rfl⟩
  | case2 index read b rest c extra hfront ih =>
    obtain ⟨more, later, n, hspells, rfl, rfl, rfl⟩ := spells_of_front hfront
    obtain ⟨cs', rfl, hlater⟩ := ih h
    rw [List.drop_left] at hlater
    refine ⟨Char.ofNat n :: cs', by simp, ?_⟩
    rw [List.flatMap_cons, encodeChar_of_spells hspells, ← hlater, List.cons_append]
  | case3 => cases h
  | case4 => cases h

/-- **A byte sequence is read as a text just if it is the encoding of that text.** -/
theorem decode_eq_ok_iff {bytes : Bytes} {text : String} :
    decode bytes = .ok text ↔ bytes = encode text := by
  unfold decode
  constructor
  · intro h
    rcases hchars : decodeFrom 0 [] bytes with fault | cs <;> rw [hchars] at h
    · cases h
    · obtain rfl : String.ofList cs = text := Except.ok.inj h
      -- What was decoded from the start is all that there was.
      obtain ⟨more, rfl, hbytes⟩ := flatMap_of_decodeFrom hchars
      rw [encode_eq, hbytes, String.toList_ofList]
  · rintro rfl
    rw [encode_eq, decodeFrom_encode]
    exact congrArg Except.ok String.ofList_toList

@[simp] theorem decode_encode (text : String) : decode (encode text) = .ok text :=
  decode_eq_ok_iff.2 rfl

end StackSurvey.Utf8
