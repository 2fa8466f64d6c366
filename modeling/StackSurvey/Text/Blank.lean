/-! # Blank characters

    Two classes of white space are in use.  A chunk of output counts as blank by its bytes
    (`isBlankByte`: space, tab, line feed, form feed, carriage return), while texts are
    trimmed by the Unicode property White_Space (`isBlank`, twenty-five characters). -/

namespace StackSurvey.Text

/-- The white space bytes that make a chunk of output blank. -/
def isBlankByte (b : UInt8) : Bool :=
  b = 0x20 || b = 0x09 || b = 0x0A || b = 0x0C || b = 0x0D

/-- The Unicode property White_Space. -/
def isBlank (c : Char) : Bool :=
  let n := c.toNat
  (0x09 ≤ n && n ≤ 0x0D) || n = 0x20 || n = 0x85 || n = 0xA0 || n = 0x1680 ||
  (0x2000 ≤ n && n ≤ 0x200A) || n = 0x2028 || n = 0x2029 || n = 0x202F || n = 0x205F ||
  n = 0x3000

/-- Drops the blank characters at both ends. -/
def trimChars (cs : List Char) : List Char :=
  ((cs.dropWhile isBlank).reverse.dropWhile isBlank).reverse

/-- Drops the blank characters at both ends of a text. -/
def trim (text : String) : String := String.ofList (trimChars text.toList)

/-- Does the text hold nothing but blank characters? -/
def isBlankText (text : String) : Bool := text.toList.all isBlank

end StackSurvey.Text
