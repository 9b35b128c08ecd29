import RuleLint.Yaml.BlockScalar
import RuleLint.Yaml.FlowScalar

/-!
# Tokens of YAML

Indentation is turned into tokens: a block collection starts with a token of its own and ends with
`Token.blockEnd`, and a key is announced by `Token.key` whether or not the text marks it. This
module has the tokens and the readers of anchors, tags and directives.
-/

namespace RuleLint.Yaml

/-- How a scalar is written. -/
inductive Style where
  | plain
  | singleQuoted
  | doubleQuoted
  | literal
  | folded
deriving DecidableEq, Repr

/-- A tag, or a part of one, in octets. None of them is zero, since a zero octet ends it. -/
abbrev Tag := List UInt8

namespace Tag

/-- The tag that a text of ASCII characters writes without escapes. -/
def ofText (text : String) : Tag :=
  text.toList.map fun c ↦ c.toNat.toUInt8

/-- The octets before the first zero. -/
def ofOctets (octets : List UInt8) : Tag :=
  octets.takeWhile (· != 0)

/-- The tag that an exclamation mark alone stands for. -/
def nonSpecific : Tag := ofText "!"

end Tag

/-- A token. -/
inductive Token where
  | versionDirective (major minor : Nat)
  | tagDirective (handle : String) (expansion : Tag)
  | documentStart
  | documentEnd
  | blockSequenceStart
  | blockMappingStart
  | blockEnd
  | flowSequenceStart
  | flowSequenceEnd
  | flowMappingStart
  | flowMappingEnd
  | blockEntry
  | flowEntry
  | key
  | value
  | alias (name : String)
  | anchor (name : String)
  | tag (handle : String) (suffix : Tag)
  | scalar (text : String) (style : Style)
deriving DecidableEq, Repr

/-! ### Anchors and aliases -/

/-- Read the name of an anchor or an alias, from its indicator on. -/
def readAnchorName (place : Place) : Except Fault (String × Place) :=
  let name := place.rest.tail.takeWhile isNameChar
  let next := place.skip.skipMany name.length
  let ends := isGap next.peek || next.peek.any fun c ↦
    c == '?' || c == ':' || c == ',' || c == ']' || c == '\x7d' || c == '%' || c == '@'
      || c == '\x60'
  if name.isEmpty || !ends then .error .malformedAnchor else .ok (String.ofList name, next)

/-! ### Tags -/

/-- Whether a character may stand in a tag. Between angle brackets some more are allowed. -/
def isTagChar (verbatim : Bool) (c : Char) : Bool :=
  isNameChar c || ";/?:@&=+$.!~*'()".toList.contains c
    || (verbatim && (c == ',' || c == '[' || c == ']'))

/-- The octet written by a percent sign and two hexadecimal digits. -/
def percentOctet? : List Char → Option UInt8
  | '%' :: a :: b :: _ => do
    let high ← hexValue? a
    let low ← hexValue? b
    return (16 * high + low).toUInt8
  | _ => none

/-- The number of octets in a sequence whose first octet is given. -/
def sequenceLength? (octet : UInt8) : Option Nat :=
  if octet < 0x80 then some 1
  else if 0xC0 ≤ octet && octet < 0xE0 then some 2
  else if 0xE0 ≤ octet && octet < 0xF0 then some 3
  else if 0xF0 ≤ octet && octet < 0xF8 then some 4
  else none

/-- The octets of the sequence that a text of percent signs and hexadecimal digits begins with. All
but the first have to be ones that continue a sequence; a longer sequence than needed is taken as it
is. -/
def percentOctets? (text : List Char) : Option (List UInt8) := do
  let first ← percentOctet? text
  let n ← sequenceLength? first
  let others ← (List.range (n - 1)).mapM fun i ↦ do
    let octet ← percentOctet? (text.drop (3 * (i + 1)))
    if octet / 0x40 = 2 then some octet else none
  return first :: others

/-- Read the octets of a tag. Those so far are reversed. -/
def readOctets (verbatim : Bool) :
    Nat → Place → List UInt8 → Except Fault (List UInt8 × Place)
  | 0, place, octets => .ok (octets, place)
  | fuel + 1, place, octets =>
    match place.peek with
    | some '%' =>
      match percentOctets? place.rest with
      | some more =>
        readOctets verbatim fuel (place.skipMany (3 * more.length)) (more.reverse ++ octets)
      | none => .error .malformedTag
    | some c =>
      if isTagChar verbatim c then
        readOctets verbatim fuel place.skip (c.toNat.toUInt8 :: octets)
      else
        .ok (octets, place)
    | none => .ok (octets, place)

/-- Read the part of a tag that follows the characters `head`; both together are not empty. -/
def readTagUri (verbatim : Bool) (head : List Char) (place : Place) :
    Except Fault (Tag × Place) := do
  let (octets, next) ← readOctets verbatim (place.rest.length + 1) place []
  if head.isEmpty && octets.isEmpty then .error .malformedTag
  else return (.ofOctets (Tag.ofText (String.ofList head.tail) ++ octets.reverse), next)

/-- Read a handle, from its exclamation mark on: the mark, a name and perhaps another mark. -/
def readHandle (place : Place) : List Char × Place :=
  let name := place.rest.tail.takeWhile isNameChar
  let next := place.skip.skipMany name.length
  if next.sees '!' then ('!' :: (name ++ ['!']), next.skip) else ('!' :: name, next)

/-- Read a tag, from its exclamation mark on. -/
def readTag (inFlow : Bool) (place : Place) : Except Fault (Token × Place) := do
  let (token, next) ←
    if place.peekAt 1 == some '<' then do
      let (suffix, next) ← readTagUri true [] (place.skipMany 2)
      if next.sees '>' then pure (Token.tag "" suffix, next.skip) else .error .malformedTag
    else
      let (handle, next) := readHandle place
      if handle.length > 1 && handle.getLast? == some '!' then do
        let (suffix, next) ← readTagUri false [] next
        pure (Token.tag (String.ofList handle) suffix, next)
      else do
        let (suffix, next) ← readTagUri false handle next
        pure (if suffix.isEmpty then Token.tag "" .nonSpecific else Token.tag "!" suffix, next)
  if isGap next.peek || (inFlow && next.sees ',') then return (token, next)
  else .error .malformedTag

/-! ### Directives -/

/-- Read a decimal number of at most nine digits. -/
def readVersionNumber (place : Place) : Except Fault (Nat × Place) :=
  let digits := place.rest.takeWhile Char.isDigit
  if digits.isEmpty || 9 < digits.length then
    .error .malformedDirective
  else
    .ok (digits.foldl (fun n c ↦ 10 * n + (c.toNat - '0'.toNat)) 0, place.skipMany digits.length)

/-- Read what follows the name of a version directive. -/
def readVersion (place : Place) : Except Fault (Token × Place) := do
  let (major, place) ← readVersionNumber (place.skipWhile isSpaceOrTab)
  if place.sees '.' then
    let (minor, place) ← readVersionNumber place.skip
    return (.versionDirective major minor, place)
  else
    .error .malformedDirective

/-- Read what follows the name of a tag directive. -/
def readTagExpansion (place : Place) : Except Fault (Token × Place) := do
  let place := place.skipWhile isSpaceOrTab
  if !place.sees '!' then .error .malformedDirective
  let (handle, place) := readHandle place
  if handle != ['!'] && !(handle.length > 1 && handle.getLast? == some '!') then
    .error .malformedDirective
  if !place.atSpaceOrTab then .error .malformedDirective
  let (expansion, place) ← readTagUri true [] (place.skipWhile isSpaceOrTab)
  if isGap place.peek then return (.tagDirective (String.ofList handle) expansion, place)
  else .error .malformedDirective

/-- Read a directive with its line, from its percent sign on. -/
def readDirective (place : Place) : Except Fault (Token × Place) := do
  let name := place.rest.tail.takeWhile isNameChar
  let place := place.skip.skipMany name.length
  if !isGap place.peek then .error .malformedDirective
  let (token, place) ←
    if name == "YAML".toList then readVersion place
    else if name == "TAG".toList then readTagExpansion place
    else .error .malformedDirective
  match place.skipLineEnd? with
  | some next => return (token, next)
  | none => .error .malformedDirective

end RuleLint.Yaml
