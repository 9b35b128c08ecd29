import RuleLint.FileTree.Path

/-!
# Paths as a system has them

For a system a path is a row of bytes. Mostly they are those of a text, and then the text is the
path. Bytes that are not are still shown as a text (`SystemPath.shown`), with a replacement
character for each piece of them that cannot belong to a character; but they have no form in JSON,
where only a text can stand.
-/

namespace RuleLint

/-! ### Bytes shown as text -/

namespace Lossy

/-- A character of which some bytes have been read. -/
structure Begun where
  /-- The code point, as far as it has been read. -/
  codePoint : Nat
  /-- The range of the next byte. -/
  next : UInt8 × UInt8
  /-- The ranges of the bytes after it. -/
  later : List (UInt8 × UInt8)

/-- The range of the bytes that go on with a character. -/
def tail : UInt8 × UInt8 :=
  (0x80, 0xbf)

/-- The character that a byte begins, if it is the first of several. -/
def begin? (byte : UInt8) : Option Begun :=
  if 0xc2 ≤ byte && byte ≤ 0xdf then some ⟨byte.toNat - 0xc0, tail, []⟩
  else if byte = 0xe0 then some ⟨0, (0xa0, 0xbf), [tail]⟩
  else if byte = 0xed then some ⟨0xd, (0x80, 0x9f), [tail]⟩
  else if 0xe1 ≤ byte && byte ≤ 0xef then some ⟨byte.toNat - 0xe0, tail, [tail]⟩
  else if byte = 0xf0 then some ⟨0, (0x90, 0xbf), [tail, tail]⟩
  else if 0xf1 ≤ byte && byte ≤ 0xf3 then some ⟨byte.toNat - 0xf0, tail, [tail, tail]⟩
  else if byte = 0xf4 then some ⟨4, (0x80, 0x8f), [tail, tail]⟩
  else none

/-- What stands for bytes that belong to no character. -/
def replacement : Char := '\uFFFD'

/-- What a byte adds where no character has been begun. -/
def first (byte : UInt8) : List Char × Option Begun :=
  if byte < 0x80 then ([Char.ofNat byte.toNat], none)
  else match begin? byte with
    | some begun => ([], some begun)
    | none => ([replacement], none)

/-- What a byte adds. A character that it cannot go on with is given up. -/
def step (byte : UInt8) : Option Begun → List Char × Option Begun
  | none => first byte
  | some ⟨codePoint, next, later⟩ =>
    if next.1 ≤ byte && byte ≤ next.2 then
      let codePoint := 64 * codePoint + (byte.toNat - 0x80)
      match later with
      | [] => ([Char.ofNat codePoint], none)
      | next :: later => ([], some ⟨codePoint, next, later⟩)
    else
      (replacement :: (first byte).1, (first byte).2)

/-- What is shown for bytes after those of a character that has been begun, if one has. -/
def showFrom : Option Begun → List UInt8 → List Char
  | none, [] => []
  | some _, [] => [replacement]
  | begun, byte :: bytes => (step byte begun).1 ++ showFrom (step byte begun).2 bytes

end Lossy

/-! ### Paths -/

/-- A path as a system has it. -/
inductive SystemPath where
  /-- The path with the bytes of a text. -/
  | text (path : Path)
  /-- Bytes that are not those of a text. -/
  | raw (bytes : List UInt8) (notText : String.fromUTF8? ⟨bytes.toArray⟩ = none)
deriving DecidableEq

namespace SystemPath

instance : Coe String SystemPath :=
  ⟨.text⟩

/-- What is shown of a path. -/
def shown : SystemPath → Path
  | .text path => path
  | .raw bytes _ => String.ofList (Lossy.showFrom none bytes)

/-- The path with the given bytes. -/
def ofBytes (bytes : List UInt8) : SystemPath :=
  match h : String.fromUTF8? ⟨bytes.toArray⟩ with
  | some path => .text path
  | none => .raw bytes h

theorem ofBytes_of_eq_none {bytes : List UInt8}
    (h : String.fromUTF8? ⟨bytes.toArray⟩ = none) : ofBytes bytes = .raw bytes h := by
  rw [ofBytes]
  split
  · rename_i path hpath
    rw [hpath] at h
    cases h
  · rfl

/-- The path, if it is a text. -/
def text? : SystemPath → Option Path
  | .text path => some path
  | .raw .. => none

end SystemPath

end RuleLint
