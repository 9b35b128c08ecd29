/-!
# Whole numbers in text

Numbers that a program reads into a 64-bit word: the digits of a base, and no more than the word can
hold.
-/

namespace RuleLint

/-- The value of a digit in a base of at most sixteen. -/
def digitValue? (base : Nat) (c : Char) : Option Nat :=
  let value :=
    if c.isDigit then c.toNat - '0'.toNat
    else if 'a' ≤ c && c ≤ 'f' then c.toNat - 'a'.toNat + 10
    else if 'A' ≤ c && c ≤ 'F' then c.toNat - 'A'.toNat + 10
    else base
  if value < base then some value else none

/-- The least number that a 64-bit word cannot hold. -/
def wordLimit : Nat := 0x10000000000000000

/-- The number written by one or more digits of a base, if a 64-bit word can hold it. -/
def readDigits? (base : Nat) (digits : List Char) : Option Nat := do
  if digits.isEmpty then none
  let n ← digits.foldlM (fun n c ↦ (digitValue? base c).map (base * n + ·)) 0
  if n < wordLimit then some n else none

/-- The number written in base ten, with or without a plus sign, if a 64-bit word can hold it. -/
def readWord? (text : List Char) : Option Nat :=
  match text with
  | '+' :: digits => readDigits? 10 digits
  | digits => readDigits? 10 digits

end RuleLint
