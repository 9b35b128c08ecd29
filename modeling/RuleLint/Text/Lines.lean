import RuleLint.Text.Bytes

/-!
# Lines

A text is cut into lines at line feeds. A carriage return just before a line feed goes with it; one
that stands anywhere else stays. After a final line feed there is no further line.
-/

namespace RuleLint

/-- A reversed line without the carriage return at its end. -/
def dropReturn : List Char → List Char
  | '\r' :: line => line
  | line => line

/-- The lines of a text after the part `line` of a line, which is reversed. -/
def linesFrom : List Char → List Char → List (List Char)
  | line, [] => if line.isEmpty then [] else [line.reverse]
  | line, c :: cs =>
    if c = '\n' then (dropReturn line).reverse :: linesFrom [] cs else linesFrom (c :: line) cs

/-- The lines of a text. -/
def linesOf (text : List Char) : List (List Char) :=
  linesFrom [] text

/-- The pieces of a text between the occurrences of a character, from a part `piece` of one on,
which is reversed. -/
def splitOnFrom (x : Char) : List Char → List Char → List (List Char)
  | piece, [] => [piece.reverse]
  | piece, c :: cs =>
    if c = x then piece.reverse :: splitOnFrom x [] cs else splitOnFrom x (c :: piece) cs

/-- The pieces of a text between the occurrences of a character. There is always one more piece
than there are occurrences. -/
def splitOnChar (x : Char) (text : List Char) : List (List Char) :=
  splitOnFrom x [] text

/-- What follows a word at the start of a text. -/
def dropWord? : List Char → List Char → Option (List Char)
  | [], text => some text
  | _ :: _, [] => none
  | x :: word, c :: text => if x = c then dropWord? word text else none

end RuleLint
