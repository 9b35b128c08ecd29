import RuleLint.Yaml.Place

/-!
# Block scalars

A block scalar is introduced by `|` or `>` and holds the indented lines that follow. A literal one
keeps its breaks; a folded one joins two lines by a space unless one of them starts with a blank or
an empty line lies between them. The header may fix the indentation and says what happens to the
breaks at the end.
-/

namespace RuleLint.Yaml

/-- What happens to the breaks at the end of a block scalar. -/
inductive Chomping where
  /-- The last line keeps its break. -/
  | clip
  /-- No break is kept. -/
  | strip
  /-- Every break is kept. -/
  | keep
deriving DecidableEq, Repr

/-- The chomping that a sign asks for. -/
def chomping? (c : Char) : Option Chomping :=
  if c == '+' then some .keep else if c == '-' then some .strip else none

/-- Read the sign and the digit after the indicator of a block scalar, in either order. The digit
is how much deeper than its parent the scalar is indented; zero is a fault. -/
def readBlockHeader (place : Place) : Except Fault (Chomping × Nat × Place) :=
  let digit (place : Place) : Except Fault (Nat × Place) :=
    match place.peek with
    | some c =>
      if c.isDigit then
        if c == '0' then .error .malformedBlockHeader
        else .ok (c.toNat - '0'.toNat, place.skip)
      else .ok (0, place)
    | none => .ok (0, place)
  match place.peek.bind chomping? with
  | some chomping => do
    let (increment, place) ← digit place.skip
    return (chomping, increment, place)
  | none => do
    let (increment, place) ← digit place
    match (if increment = 0 then none else place.peek.bind chomping?) with
    | some chomping => return (chomping, increment, place.skip)
    | none => return (.clip, increment, place)

/-- What the empty lines before a line of a block scalar tell. -/
structure Leading where
  /-- The breaks of the empty lines. -/
  breaks : List Char
  /-- The greatest column that their spaces reach. -/
  widest : Nat
  place : Place

/-- Read empty lines, and the indentation of the line after them. Spaces are skipped up to the
column `indent`, or all of them while it is zero; a tab before that column is a fault. -/
def readLeading (indent : Nat) :
    Nat → Place → List Char → Nat → Except Fault Leading
  | 0, place, breaks, widest => .ok ⟨breaks, widest, place⟩
  | fuel + 1, place, breaks, widest =>
    let spaces := (place.rest.takeWhile (· == ' ')).length
    let place := place.skipMany (if indent = 0 then spaces else min spaces (indent - place.column))
    let widest := max widest place.column
    if (indent = 0 || place.column < indent) && place.sees '\t' then
      .error .tabIndentation
    else if place.atBreak then
      readLeading indent fuel place.skipBreak (breaks ++ place.breakText) widest
    else
      .ok ⟨breaks, widest, place⟩

/-- The parts of a block scalar that wait for what comes next. -/
structure BlockTail where
  /-- The break of the last line. -/
  lineBreak : List Char
  /-- The breaks of the empty lines after it. -/
  emptyLines : List Char
  /-- Whether the last line starts with a blank. -/
  afterBlank : Bool

/-- How the breaks between two lines are read when the next line does or does not start with a
blank. -/
def BlockTail.join (tail : BlockTail) (folded startsBlank : Bool) : List Char :=
  if folded && tail.lineBreak.head? == some '\n' && !tail.afterBlank && !startsBlank then
    (if tail.emptyLines.isEmpty then [' '] else []) ++ tail.emptyLines
  else
    tail.lineBreak ++ tail.emptyLines

/-- Read the lines of a block scalar. The text so far is reversed. -/
def readBlockLines (folded : Bool) (indent : Nat) :
    Nat → Place → List Char → BlockTail → Except Fault (List Char × BlockTail × Place)
  | 0, place, text, tail => .ok (text, tail, place)
  | fuel + 1, place, text, tail =>
    if place.column = indent && !place.rest.isEmpty then do
      let startsBlank := place.atSpaceOrTab
      let line := place.rest.takeWhile fun c ↦ !isBreak c
      let atEnd := place.skipMany line.length
      let text := line.reverse ++ ((tail.join folded startsBlank).reverse ++ text)
      let leading ← readLeading indent (atEnd.rest.length + 1) atEnd.skipBreak [] 0
      readBlockLines folded indent fuel leading.place text
        ⟨atEnd.breakText, leading.breaks, startsBlank⟩
    else
      .ok (text, tail, place)

/-- Read a block scalar, from its indicator on, inside a node indented to the column `parent`. -/
def readBlock (folded : Bool) (parent : Int) (place : Place) : Except Fault (String × Place) := do
  let (chomping, increment, place) ← readBlockHeader place.skip
  match place.skipLineEnd? with
  | none => .error .malformedBlockHeader
  | some place =>
    let base := parent.toNat
    let fixed := if increment = 0 then 0 else base + increment
    let leading ← readLeading fixed (place.rest.length + 1) place [] 0
    let indent := if fixed = 0 then max leading.widest (max (parent + 1).toNat 1) else fixed
    let (text, tail, next) ←
      readBlockLines folded indent (leading.place.rest.length + 1) leading.place []
        ⟨[], leading.breaks, false⟩
    let kept := match chomping with
      | .strip => []
      | .clip => tail.lineBreak
      | .keep => tail.lineBreak ++ tail.emptyLines
    return (String.ofList (text.reverse ++ kept), next)

end RuleLint.Yaml
