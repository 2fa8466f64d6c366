/-! # Styled text

    Reports for people may use colours.  A styled text starts with the marks of its style and
    ends with a reset; a reset inside it is followed by the marks again, so that the style holds
    to the end. -/

namespace StackSurvey.Report

inductive Style where
  | bold
  | dimmed
  | red
  | green
  | yellow
  | cyan
  | boldRed
deriving DecidableEq, Repr

def Style.code : Style → String
  | bold => "1"
  | dimmed => "2"
  | red => "31"
  | green => "32"
  | yellow => "33"
  | cyan => "36"
  | boldRed => "1;31"

/-- What switches a style on. -/
def Style.marks (s : Style) : List Char := ['\x1b', '['] ++ s.code.toList ++ ['m']

/-- What switches all styles off. -/
def reset : List Char := ['\x1b', '[', '0', 'm']

/-- Puts `marks` behind every reset in a text. -/
def renew (marks : List Char) : List Char → List Char
  | '\x1b' :: '[' :: '0' :: 'm' :: rest => reset ++ marks ++ renew marks rest
  | c :: rest => c :: renew marks rest
  | [] => []

/-- A text in a style, if colours are wanted. -/
def styled (colour : Bool) (s : Style) (text : String) : String :=
  if colour then String.ofList (s.marks ++ renew s.marks text.toList ++ reset) else text

/-- A text filled up with spaces on the right; the width counts characters. -/
def padded (width : Nat) (text : String) : String :=
  text ++ String.ofList (List.replicate (width - text.length) ' ')

end StackSurvey.Report
