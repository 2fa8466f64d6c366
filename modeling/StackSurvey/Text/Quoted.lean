import StackSurvey.Text.Shown

/-! # Quoted texts

    Log fields and error messages write a text between double quotes so that every character
    of it can be made out: quotes and backslashes are escaped, the common controls have their
    letters, and a character that would not show is written by its code point. -/

namespace StackSurvey.Text

/-- A brace, spelled out because braces are marks inside string literals. -/
def openBrace : Char := '\x7b'

@[inherit_doc openBrace]
def closeBrace : Char := '\x7d'

/-- The digits of `n` in base sixteen, in lower case and without leading zeros. -/
def hexDigits (n : Nat) : List Char := Nat.toDigits 16 n

/-- One character between quotes. -/
def quoteChar (c : Char) : List Char :=
  if c = '"' then ['\\', '"']
  else if c = '\\' then ['\\', '\\']
  else if c = '\n' then ['\\', 'n']
  else if c = '\r' then ['\\', 'r']
  else if c = '\t' then ['\\', 't']
  else if c = '\x00' then ['\\', '0']
  else if isShown c then [c]
  else ['\\', 'u', openBrace] ++ hexDigits c.toNat ++ [closeBrace]

/-- A text between double quotes. -/
def quote (text : String) : String :=
  String.ofList ('"' :: text.toList.flatMap quoteChar ++ ['"'])

/-- A list of texts, each between double quotes. -/
def quoteList (texts : List String) : String :=
  "[" ++ String.intercalate ", " (texts.map quote) ++ "]"

end StackSurvey.Text
