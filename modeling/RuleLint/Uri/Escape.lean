import RuleLint.Text.Number

/-!
# Escaped bytes

In parts of a URI a byte may be written as a percent sign with two digits of base sixteen. A percent
sign with anything else after it stands for itself. What cannot stand for itself in a part of a URI
is written as escapes of its bytes (`escapeAll`).
-/

namespace RuleLint.Uri

/-- The byte that a percent sign and two digits of base sixteen stand for. -/
def escapedByte? (sign high low : UInt8) : Option UInt8 :=
  if sign = 37 then do
    let high ← digitValue? 16 (Char.ofNat high.toNat)
    let low ← digitValue? 16 (Char.ofNat low.toNat)
    return (16 * high + low).toUInt8
  else
    none

/-- Bytes with the escaped ones in place of their escapes. -/
def decodeBytes : List UInt8 → List UInt8
  | sign :: high :: low :: rest =>
    match escapedByte? sign high low with
    | some byte => byte :: decodeBytes rest
    | none => sign :: decodeBytes (high :: low :: rest)
  | bytes => bytes

/-- The text that a part of a URI stands for, if its bytes are those of a text. -/
def decode? (part : List Char) : Option (List Char) :=
  let bytes := decodeBytes (String.ofList part).toUTF8.toList
  (String.fromUTF8? ⟨bytes.toArray⟩).map String.toList

/-- A digit of base sixteen. -/
def hexDigit (n : Nat) : Char :=
  (Nat.digitChar n).toUpper

/-- The escape of a byte. -/
def escape (byte : UInt8) : List Char :=
  ['%', hexDigit (byte.toNat / 16), hexDigit (byte.toNat % 16)]

/-- A text with escapes for the given marks, for control characters and for all that is not
ASCII. -/
def escapeAll (marks : List Char) (text : List Char) : List Char :=
  text.flatMap fun c ↦
    if c.toNat < 0x20 || 0x7f ≤ c.toNat || marks.contains c then
      (String.utf8EncodeChar c).flatMap escape
    else
      [c]

end RuleLint.Uri
