import RuleLint.Domain.Mark

/-!
# Directions of characters

Letters are written to the right or to the left, and a label must not be so mixed that it is shown
in a confusing order. The directions are those of Unicode 17. Code points that no label holds may
lie in the intervals.
-/

namespace RuleLint.Domain

/-- What a character does to the direction of the text it is in. -/
inductive Direction where
  /-- It belongs to a text that starts on the left. -/
  | left
  /-- It belongs to a text that starts on the right. -/
  | right
  /-- It is a figure of an Arabic number. -/
  | arabicNumber
  /-- It is a figure of any other number. -/
  | number
  /-- It goes with the character before. -/
  | mark
  /-- It goes with the text around it. -/
  | neutral
deriving DecidableEq, Repr

/-- The code points of nonspacing marks that start on the left, unlike others. -/
def leftMarkCodePoints : CodePoints :=
  [(3263, 3263), (3270, 3270), (72199, 72199), (72200, 72200), (72767, 72767)]

/-- The code points of characters that start on the right. -/
def rightCodePoints : CodePoints :=
  [(1470, 1470), (1472, 1472), (1475, 1475), (1478, 1478), (1488, 1524), (1544, 1544),
   (1547, 1547), (1549, 1549), (1563, 1610), (1645, 1647), (1649, 1749), (1765, 1766),
   (1774, 1775), (1786, 1808), (1810, 1839), (1869, 1957), (1969, 2026), (2036, 2037),
   (2042, 2042), (2046, 2069), (2074, 2074), (2084, 2084), (2088, 2088), (2096, 2136),
   (2142, 2191), (2208, 2249), (64434, 64450), (65139, 65139), (67584, 67867), (67872, 68096),
   (68112, 68149), (68160, 68324), (68331, 68405), (68416, 68899), (68928, 68943), (68974, 68997),
   (69248, 69289), (69293, 69328), (69376, 69445), (69457, 69505), (69510, 69622),
   (124928, 125135), (125218, 125251), (125259, 126269)]

/-- The code points of figures of Arabic numbers. -/
def arabicNumberCodePoints : CodePoints :=
  [(1632, 1641), (1643, 1644), (68912, 68921), (69216, 69246)]

/-- The code points of other figures, beyond ASCII. -/
def numberCodePoints : CodePoints :=
  [(1776, 1785), (66273, 66299)]

/-- The code points of neutral characters, beyond ASCII. -/
def neutralCodePoints : CodePoints :=
  [(161, 215), (247, 247), (697, 698), (706, 719), (722, 749), (751, 767), (885, 885),
   (1014, 1014), (1418, 1423), (1542, 1543), (1545, 1546), (1548, 1548), (1550, 1551),
   (1642, 1642), (1758, 1758), (1769, 1769), (2038, 2041), (2546, 2547), (2555, 2555),
   (2801, 2801), (3059, 3066), (3192, 3198), (3647, 3647), (3898, 3901), (5008, 5017),
   (5120, 5120), (5787, 5788), (6107, 6107), (6128, 6154), (6464, 6469), (6622, 6655),
   (8204, 8385), (8452, 8525), (8586, 9013), (9083, 9108), (9110, 9899), (9901, 10239),
   (10496, 11263), (11493, 11498), (11513, 11519), (11776, 12292), (12296, 12320), (12336, 12336),
   (12343, 12343), (12349, 12351), (12448, 12448), (12539, 12539), (12736, 12773), (19904, 19967),
   (42128, 42182), (42509, 42511), (42611, 42611), (42622, 42623), (42752, 42785), (42888, 42888),
   (43048, 43051), (43064, 43065), (43124, 43127), (43882, 43883), (64451, 65023), (65093, 65094),
   (65793, 65793), (65856, 65932), (65936, 65952), (67871, 67871), (68409, 68415), (69006, 69007),
   (69329, 69336), (69714, 69733), (71264, 71276), (73685, 73713), (94178, 94178),
   (117760, 118512), (119273, 119361), (119365, 119365), (119552, 119638), (123647, 123647),
   (126704, 127279), (127341, 127343), (127405, 127405), (127584, 130042)]

/-- The direction of a character. -/
def direction (c : Char) : Direction :=
  if c.toNat < 0x80 then
    if c.isAlpha then .left else if c.isDigit then .number else .neutral
  else if isNonspacing c && !leftMarkCodePoints.has c then .mark
  else if rightCodePoints.has c then .right
  else if arabicNumberCodePoints.has c then .arabicNumber
  else if numberCodePoints.has c then .number
  else if neutralCodePoints.has c then .neutral
  else .left

/-- Whether a character makes a domain one that has texts from the right in it. -/
def isFromRight (c : Char) : Bool :=
  direction c == .right || direction c == .arabicNumber

/-- Whether the characters of a label are all shown in order. Its first character tells where it
starts; the last one, apart from marks, is a letter that starts there too or a figure; and only one
kind of numbers is in a label that starts on the right. -/
def isInOrder (label : List Char) : Bool :=
  let directions := label.map direction
  let last := (directions.reverse.dropWhile (· == .mark)).head?
  match directions.head? with
  | none => true
  | some .left =>
    directions.all (fun direction ↦ direction != .right && direction != .arabicNumber)
      && last.any fun direction ↦ direction == .left || direction == .number
  | some .right =>
    directions.all (· != .left)
      && last.any (fun direction ↦ direction != .neutral)
      && !(directions.contains .number && directions.contains .arabicNumber)
  | some _ => false

end RuleLint.Domain
