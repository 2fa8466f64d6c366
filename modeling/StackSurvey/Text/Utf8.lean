/-! # Decoding bytes as UTF-8

    Output of a container arrives as raw bytes.  A byte sequence is read either strictly
    (`decode`, which names the first place where it is not UTF-8) or leniently
    (`decodeLossy`, which puts U+FFFD in the place of every ill-formed run). -/

namespace StackSurvey

/-- Raw bytes, as they come from a container or a file. -/
abbrev Bytes : Type := List UInt8

namespace Utf8

/-! ## Section 1: One character -/

/-- What stands at the front of a non-empty byte sequence.  `extra` counts the bytes after
    the first one that belong to it. -/
inductive Front where
  /-- A well-formed character. -/
  | char (c : Char) (extra : Nat)
  /-- An ill-formed run: no continuation can make a character of it. -/
  | bad (extra : Nat)
  /-- The sequence ends inside a character that is well-formed so far. -/
  | cut

def isContinuation (b : UInt8) : Bool := 0x80 ≤ b && b ≤ 0xBF

/-- The bytes that may follow the lead byte `b` of a character of three bytes. -/
def secondOfThree (b c : UInt8) : Bool :=
  if b = 0xE0 then 0xA0 ≤ c && c ≤ 0xBF
  else if b = 0xED then 0x80 ≤ c && c ≤ 0x9F
  else isContinuation c

/-- The bytes that may follow the lead byte `b` of a character of four bytes. -/
def secondOfFour (b c : UInt8) : Bool :=
  if b = 0xF0 then 0x90 ≤ c && c ≤ 0xBF
  else if b = 0xF4 then 0x80 ≤ c && c ≤ 0x8F
  else isContinuation c

/-- The low six bits of a continuation byte. -/
def payload (b : UInt8) : Nat := b.toNat % 64

/-- Reads the character at the front of `b :: rest`. -/
def front (b : UInt8) (rest : Bytes) : Front :=
  if b < 0x80 then .char (Char.ofNat b.toNat) 0
  else if 0xC2 ≤ b && b ≤ 0xDF then
    match rest with
    | [] => .cut
    | c :: _ =>
      if isContinuation c then .char (Char.ofNat (b.toNat % 32 * 64 + payload c)) 1
      else .bad 0
  -- The ranges of the second byte leave out long spellings, surrogates and what is beyond Unicode.
  else if 0xE0 ≤ b && b ≤ 0xEF then
    match rest with
    | [] => .cut
    | c :: rest =>
      if secondOfThree b c then
        match rest with
        | [] => .cut
        | d :: _ =>
          if isContinuation d then
            .char (Char.ofNat (b.toNat % 16 * 4096 + payload c * 64 + payload d)) 2
          else .bad 1
      else .bad 0
  else if 0xF0 ≤ b && b ≤ 0xF4 then
    match rest with
    | [] => .cut
    | c :: rest =>
      if secondOfFour b c then
        match rest with
        | [] => .cut
        | d :: rest =>
          if isContinuation d then
            match rest with
            | [] => .cut
            | e :: _ =>
              if isContinuation e then
                .char (Char.ofNat
                  (b.toNat % 8 * 262144 + payload c * 4096 + payload d * 64 + payload e)) 3
              else .bad 2
          else .bad 1
      else .bad 0
  else .bad 0

/-! ## Section 2: Whole sequences -/

inductive Fault where
  /-- The `length` bytes from `index` on are ill-formed. -/
  | invalid (length index : Nat)
  /-- The character that starts at `index` is cut off by the end. -/
  | incomplete (index : Nat)
deriving DecidableEq, Repr

def Fault.message : Fault → String
  | .invalid length index =>
    "invalid utf-8 sequence of " ++ toString length ++ " bytes from index " ++ toString index
  | .incomplete index => "incomplete utf-8 byte sequence from index " ++ toString index

/-- Decoding from position `index`, with the characters read so far in reverse. -/
def decodeFrom (index : Nat) (read : List Char) : Bytes → Except Fault (List Char)
  | [] => .ok read.reverse
  | b :: rest =>
    match front b rest with
    | .char c extra => decodeFrom (index + 1 + extra) (c :: read) (rest.drop extra)
    | .bad extra => .error (.invalid (1 + extra) index)
    | .cut => .error (.incomplete index)
termination_by bytes => bytes.length
decreasing_by simp only [List.length_drop, List.length_cons]; omega

/-- The text that `bytes` encodes, or the first fault. -/
def decode (bytes : Bytes) : Except Fault String :=
  (decodeFrom 0 [] bytes).map String.ofList

/-- Lenient decoding, with the characters read so far in reverse. -/
def decodeLossyFrom (read : List Char) : Bytes → List Char
  | [] => read.reverse
  | b :: rest =>
    match front b rest with
    | .char c extra => decodeLossyFrom (c :: read) (rest.drop extra)
    | .bad extra => decodeLossyFrom ('\uFFFD' :: read) (rest.drop extra)
    | .cut => ('\uFFFD' :: read).reverse
termination_by bytes => bytes.length
decreasing_by all_goals (simp only [List.length_drop, List.length_cons]; omega)

/-- The text that `bytes` encodes, with U+FFFD in the place of every ill-formed run. -/
def decodeLossy (bytes : Bytes) : String :=
  String.ofList (decodeLossyFrom [] bytes)

def encode (text : String) : Bytes := text.toUTF8.toList

end Utf8
end StackSurvey
