import RuleLint.Text.Lines
import RuleLint.Text.Number

/-!
# Addresses of hosts

A host may be given by its address instead of a name: four bytes, written as numbers between dots
(`isIpv4`), or sixteen, written between brackets as groups of two with colons between them
(`isIpv6`). Of four bytes the last number may stand for several; two colons in a row stand for as
many groups of zeros as are missing, but for one at least.
-/

namespace RuleLint.Uri

/-- The number written by digits of a base; no digits write zero. -/
def numberOf? (base : Nat) (digits : List Char) : Option Nat :=
  digits.foldlM (fun n c ↦ (digitValue? base c).map (base * n + ·)) 0

/-! ### Four bytes -/

/-- The number in a part of an address, in base sixteen after a zero and an `x`, in base eight after
any other zero, and else in base ten. -/
def addressPart? (part : List Char) : Option Nat :=
  match part with
  | [] => none
  | '0' :: 'x' :: digits => numberOf? 16 digits
  | '0' :: digit :: digits => numberOf? 8 (digit :: digits)
  | digits => numberOf? 10 digits

/-- The parts of a name, of which an empty last one does not count. -/
def withoutRoot (parts : List (List Char)) : List (List Char) :=
  if 1 < parts.length && parts.getLast? == some [] then parts.dropLast else parts

/-- Whether a name with the given parts can only be an address: its last part is a number, or at
least looks like one. -/
def endsInNumber (parts : List (List Char)) : Bool :=
  match (withoutRoot parts).getLast? with
  | some part => !part.isEmpty && part.all Char.isDigit || (addressPart? part).isSome
  | none => false

/-- Whether parts make up an address of four bytes. Each number before the last is a byte; the last
fills the bytes that are left. -/
def isIpv4 (parts : List (List Char)) : Bool :=
  let parts := withoutRoot parts
  match (parts.mapM addressPart?).map List.reverse with
  | some (last :: before) =>
    parts.length ≤ 4 && last < Nat.pow 256 (5 - parts.length) && before.all (· < 256)
  | _ => false

/-! ### Sixteen bytes -/

/-- Whether a text is a byte in base ten, without zeros before it. -/
def isByte (text : List Char) : Bool :=
  !text.isEmpty && (text.length == 1 || text.head? != some '0')
    && (numberOf? 10 text).any (· < 256)

/-- Whether a text is a group of two bytes. -/
def isGroup (text : List Char) : Bool :=
  1 ≤ text.length && text.length ≤ 4 && (numberOf? 16 text).isSome

/-- How many groups there are between colons. The last two may be written as four bytes. -/
def groupCount? : List (List Char) → Option Nat
  | [] => some 0
  | part :: parts =>
    if isGroup part then
      (groupCount? parts).map (· + 1)
    else
      let bytes := splitOnChar '.' part
      if parts.isEmpty && bytes.length == 4 && bytes.all isByte then some 2 else none

/-- How many groups a text has. -/
def groupsOf? (text : List Char) : Option Nat :=
  if text.isEmpty then some 0 else groupCount? (splitOnChar ':' text)

/-- A text cut at the first two colons in a row, if there are any. -/
def cutAtGap : List Char → List Char × Option (List Char)
  | [] => ([], none)
  | ':' :: ':' :: rest => ([], some rest)
  | c :: rest => ((c :: (cutAtGap rest).1), (cutAtGap rest).2)

/-- Whether a text is an address of sixteen bytes. -/
def isIpv6 (text : List Char) : Bool :=
  match cutAtGap text with
  | (whole, none) => groupsOf? whole == some 8
  | (before, some after) =>
    !before.contains '.' && match groupsOf? before, groupsOf? after with
      | some before, some after => before + after < 8
      | _, _ => false

end RuleLint.Uri
