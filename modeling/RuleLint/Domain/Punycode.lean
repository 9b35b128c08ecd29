/-!
# Punycode

A label of a domain holds ASCII characters only. Others are taken out of it and written after it,
in the order of their code points: each as a number that tells how far to go from the one before,
where going past the end of the label leads to its start and to the next code point. The digits of
a number have bases of their own, which adapt to the numbers before; the first digit below its
threshold is the last one of the number. `encode` takes the characters out, and `decode?` puts them
back.
-/

namespace RuleLint.Domain.Punycode

/-- The value of a digit: the letters come first, then the figures. -/
def digit? (c : Char) : Option Nat :=
  if 'a' ≤ c && c ≤ 'z' then some (c.toNat - 'a'.toNat)
  else if c.isDigit then some (c.toNat - '0'.toNat + 26)
  else none

/-- A bias that grows with the size of numbers. -/
def biasOf (size bias : Nat) : Nat :=
  if 455 < size then biasOf (size / 35) (bias + 36) else bias + 36 * size / (size + 38)
termination_by size

/-- The bias after a number has been read that led to a label with so many characters. The first
number tends to be much larger than those after it. -/
def adapt (number count : Nat) (isFirst : Bool) : Nat :=
  let size := if isFirst then number / 700 else number / 2
  biasOf (size + size / count) 0

/-- What has been put back so far, and what is known of the next number. -/
structure State where
  label : List Char
  /-- The code point to be put back next, unless the number leads past the end of the label. -/
  codePoint : Nat
  /-- Where the number starts to count. -/
  place : Nat
  bias : Nat
  /-- The part of the number that has been read. -/
  number : Nat
  /-- What the next digit counts for; 1 if it is the first of its number. -/
  weight : Nat
  /-- Grows with each digit of the number. -/
  level : Nat

namespace State

/-- Before the first number. -/
def start (label : List Char) : State :=
  ⟨label, 0x80, 0, 72, 0, 1, 36⟩

/-- The least digit after which the number goes on. -/
def threshold (state : State) : Nat :=
  max 1 (min 26 (state.level - state.bias))

/-- Puts a character back where the number leads to. -/
def insert? (state : State) : Option State :=
  let count := state.label.length + 1
  let codePoint := state.codePoint + (state.place + state.number) / count
  let place := (state.place + state.number) % count
  if codePoint.isValidChar then
    some {
      label := state.label.insertIdx place (Char.ofNat codePoint)
      codePoint := codePoint
      place := place + 1
      bias := adapt state.number count (state.place == 0)
      number := 0
      weight := 1
      level := 36 }
  else
    none

/-- Reads a digit. -/
def read? (state : State) (c : Char) : Option State := do
  let digit ← digit? c
  let number := state.number + digit * state.weight
  if digit < state.threshold then
    insert? { state with number := number }
  else
    some { state with
      number := number
      weight := state.weight * (36 - state.threshold)
      level := state.level + 36 }

end State

/-- The label that a text stands for. If some of its characters are ASCII, they come before the last
hyphen. -/
def decode? (text : List Char) : Option (List Char) := do
  let digits := (text.reverse.takeWhile (· != '-')).reverse
  let label := text.take (text.length - digits.length - 1)
  let digits := if label.isEmpty then text else digits
  if label.all fun c ↦ c.toNat < 0x80 then
    let state ← digits.foldlM State.read? (State.start label)
    if state.weight = 1 then some state.label else none
  else
    none

/-! ### Writing -/

/-- The digit with a value. -/
def digit (value : Nat) : Char :=
  Char.ofNat (if value < 26 then 'a'.toNat + value else '0'.toNat + (value - 26))

/-- The digits of a number, for a bias and from a level on. -/
def digits (bias level number : Nat) : List Char :=
  let threshold := max 1 (min 26 (level - bias))
  if number < threshold then [digit number]
  else
    digit (threshold + (number - threshold) % (36 - threshold))
      :: digits bias (level + 36) ((number - threshold) / (36 - threshold))
termination_by number
decreasing_by
  exact Nat.lt_of_le_of_lt (Nat.div_le_self _ _) (by omega)

/-- What has been written of a label. -/
structure Writing where
  /-- The code point whose occurrences are being written. -/
  codePoint : Nat
  /-- How far the next occurrence is from the last one that was written. -/
  distance : Nat
  bias : Nat
  /-- The number of characters that have been written. -/
  count : Nat
  text : List Char

namespace Writing

/-- Before the first number, when the ASCII characters of the label have been written. -/
def start (ascii : List Char) : Writing :=
  ⟨0x80, 0, 72, ascii.length, if ascii.isEmpty then [] else ascii ++ ['-']⟩

/-- Go past a character of the label, and write it if it is the one that is being written. The first
one is written when only the ASCII characters have been. -/
def pass (ascii : List Char) (writing : Writing) (c : Char) : Writing :=
  if c.toNat < writing.codePoint then { writing with distance := writing.distance + 1 }
  else if c.toNat = writing.codePoint then
    { writing with
      distance := 0
      bias := adapt writing.distance (writing.count + 1) (writing.count == ascii.length)
      count := writing.count + 1
      text := writing.text ++ digits writing.bias 36 writing.distance }
  else writing

/-- Write the occurrences of a code point in a label. -/
def write (ascii label : List Char) (writing : Writing) (codePoint : Nat) : Writing :=
  let distance := writing.distance + (codePoint - writing.codePoint) * (writing.count + 1)
  let writing := label.foldl (pass ascii) { writing with codePoint, distance }
  { writing with codePoint := codePoint + 1, distance := writing.distance + 1 }

end Writing

/-- The text that stands for a label. -/
def encode (label : List Char) : List Char :=
  let ascii := label.filter fun c ↦ c.toNat < 0x80
  let others := (label.filter fun c ↦ 0x80 ≤ c.toNat).map Char.toNat
  (others.eraseDups.mergeSort.foldl (Writing.write ascii label) (Writing.start ascii)).text

end RuleLint.Domain.Punycode
