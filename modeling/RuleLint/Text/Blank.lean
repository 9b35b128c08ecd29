import RuleLint.Text.CodePoint

/-!
# Blank characters

A character is blank when it has the Unicode property `White_Space`. Rule source is trimmed,
split and scanned with this one notion of a blank; the zero width space and the byte order mark
are not in it.
-/

namespace RuleLint

/-- The code points with the property `White_Space`. -/
def blankCodePoints : CodePoints :=
  [(9, 13), (32, 32), (133, 133), (160, 160), (5760, 5760), (8192, 8202), (8232, 8233),
   (8239, 8239), (8287, 8287), (12288, 12288)]

/-- Whether a character counts as white space. -/
def isBlank (c : Char) : Bool :=
  blankCodePoints.has c

theorem isBlank_newline : isBlank '\n' = true := by decide

theorem isBlank_carriageReturn : isBlank '\r' = true := by decide

theorem not_isBlank_quote : isBlank '"' = false := by decide

/-- The list without its leading blanks. -/
def trimStart (cs : List Char) : List Char :=
  cs.dropWhile isBlank

/-- The list without its trailing blanks. -/
def trimEnd (cs : List Char) : List Char :=
  (cs.reverse.dropWhile isBlank).reverse

/-- The list without the blanks at either end. -/
def trim (cs : List Char) : List Char :=
  trimEnd (trimStart cs)

end RuleLint
