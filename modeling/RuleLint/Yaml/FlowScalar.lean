import RuleLint.Yaml.Place

/-!
# Plain and quoted scalars

A plain or quoted scalar may go over several lines. Blanks next to a break are dropped; a single
break becomes a space, and of several breaks all but the first are kept (`Fold.text`).

The readers take as fuel the number of characters that are left, which bounds their steps.
-/

namespace RuleLint.Yaml

/-- The blanks and breaks between two parts of a scalar. -/
structure Fold where
  /-- Whether there was a break. -/
  broken : Bool
  /-- The blanks before any break. -/
  blanks : List Char
  /-- The first break. -/
  first : List Char
  /-- The other breaks. -/
  others : List Char

namespace Fold

/-- No blanks and no breaks. -/
def none : Fold :=
  ⟨false, [], [], []⟩

/-- After an escaped break, which is read as nothing. -/
def escapedBreak : Fold :=
  ⟨true, [], [], []⟩

/-- How blanks and breaks are read. -/
def text (fold : Fold) : List Char :=
  if fold.broken then
    if fold.first.head? == some '\n' then
      if fold.others.isEmpty then [' '] else fold.others
    else
      fold.first ++ fold.others
  else
    fold.blanks

/-- One more blank. Blanks after a break are dropped. -/
def addBlank (fold : Fold) (c : Char) : Fold :=
  if fold.broken then fold else { fold with blanks := fold.blanks ++ [c] }

/-- One more break. -/
def addBreak (fold : Fold) (text : List Char) : Fold :=
  if fold.broken then { fold with others := fold.others ++ text }
  else { fold with broken := true, blanks := [], first := text }

end Fold

/-- Read blanks and breaks. With `indent`, a tab that follows a break before this column is a
fault. -/
def readFold (indent : Option Int) : Nat → Place → Fold → Except Fault (Fold × Place)
  | 0, place, fold => .ok (fold, place)
  | fuel + 1, place, fold =>
    match place.peek with
    | none => .ok (fold, place)
    | some c =>
      if isSpaceOrTab c then
        if c == '\t' && fold.broken && indent.any ((place.column : Int) < ·) then
          .error .tabIndentation
        else
          readFold indent fuel place.skip (fold.addBlank c)
      else if isBreak c then
        readFold indent fuel place.skipBreak (fold.addBreak place.breakText)
      else
        .ok (fold, place)

/-! ### Plain scalars -/

/-- Whether a character ends a plain scalar inside brackets. -/
def isFlowIndicator (c : Char) : Bool :=
  c == ',' || c == '[' || c == ']' || c == '\x7b' || c == '\x7d'

/-- Read the characters of a plain scalar up to a gap or to what ends the scalar. The text so far is
reversed; `fold` stands before the first character. -/
def readPlainWord (inFlow : Bool) :
    Nat → Place → List Char → Fold → Except Fault (List Char × Fold × Place)
  | 0, place, text, fold => .ok (text, fold, place)
  | fuel + 1, place, text, fold =>
    match place.peek with
    | none => .ok (text, fold, place)
    | some c =>
      let next := place.peekAt 1
      if isGap (some c) then
        .ok (text, fold, place)
      else if inFlow && c == ':' && next.any (fun d ↦ isFlowIndicator d || d == '?') then
        .error .ambiguousColon
      else if (c == ':' && isGap next) || (inFlow && isFlowIndicator c) then
        .ok (text, fold, place)
      else
        readPlainWord inFlow fuel place.skip (c :: (fold.text.reverse ++ text)) .none

/-- Read a plain scalar from a place on. Answers with its text, reversed, and with whether it was
followed by a break. -/
def readPlainFrom (inFlow : Bool) (indent : Int) :
    Nat → Place → List Char → Fold → Except Fault (List Char × Bool × Place)
  | 0, place, text, fold => .ok (text, fold.broken, place)
  | fuel + 1, place, text, fold =>
    if place.atDocumentMark || place.sees '#' then
      .ok (text, fold.broken, place)
    else do
      let (text, fold, place) ← readPlainWord inFlow place.rest.length place text fold
      if place.peek.isSome && isGap place.peek then
        let (fold, place) ← readFold (some indent) place.rest.length place fold
        if !inFlow && (place.column : Int) < indent then
          return (text, fold.broken, place)
        else
          readPlainFrom inFlow indent fuel place text fold
      else
        return (text, fold.broken, place)

/-- Read a plain scalar. Outside brackets its further lines start at or after the column `indent`.
Answers with its text and with whether it was followed by a break. -/
def readPlain (inFlow : Bool) (indent : Int) (place : Place) :
    Except Fault (String × Bool × Place) := do
  let (text, broken, next) ← readPlainFrom inFlow indent (place.rest.length + 1) place [] .none
  return (String.ofList text.reverse, broken, next)

/-! ### Quoted scalars -/

/-- The character that an escape of one letter stands for. -/
def escaped? (c : Char) : Option Char :=
  match c with
  | '0' => some (Char.ofNat 0)
  | 'a' => some '\x07'
  | 'b' => some '\x08'
  | 't' => some '\t'
  | '\t' => some '\t'
  | 'n' => some '\n'
  | 'v' => some '\x0b'
  | 'f' => some '\x0c'
  | 'r' => some '\r'
  | 'e' => some '\x1b'
  | ' ' => some ' '
  | '"' => some '"'
  | '/' => some '/'
  | '\\' => some '\\'
  | 'N' => some '\u0085'
  | '_' => some '\u00a0'
  | 'L' => some '\u2028'
  | 'P' => some '\u2029'
  | _ => none

/-- The number of hexadecimal digits after the letter of an escape. -/
def escapeDigits? (c : Char) : Option Nat :=
  match c with
  | 'x' => some 2
  | 'u' => some 4
  | 'U' => some 8
  | _ => none

/-- The number written by hexadecimal digits. -/
def readHex? (digits : List Char) : Option Nat :=
  digits.foldlM (fun n c ↦ (hexValue? c).map (16 * n + ·)) 0

/-- Read an escape, from its backslash on. -/
def readEscape (place : Place) : Except Fault (Char × Place) :=
  match place.peekAt 1 with
  | none => .error .malformedEscape
  | some letter =>
    match escaped? letter, escapeDigits? letter with
    | some c, _ => .ok (c, place.skipMany 2)
    | none, some n =>
      let digits := (place.rest.drop 2).take n
      match readHex? digits with
      | some code =>
        if h : digits.length = n ∧ code.isValidChar then
          .ok (Char.ofNatAux code h.2, place.skipMany (2 + n))
        else
          .error .malformedEscape
      | none => .error .malformedEscape
    | none, none => .error .malformedEscape

/-- Read the characters of a quoted scalar up to a gap or to its closing quote. The text so far is
reversed. Answers with whether an escaped break came last. -/
def readQuotedWord (quote : Char) :
    Nat → Place → List Char → Except Fault (List Char × Bool × Place)
  | 0, place, text => .ok (text, false, place)
  | fuel + 1, place, text =>
    match place.peek with
    | none => .ok (text, false, place)
    | some c =>
      if isGap (some c) then
        .ok (text, false, place)
      else if quote == '\'' && c == '\'' && place.peekAt 1 == some '\'' then
        readQuotedWord quote fuel (place.skipMany 2) ('\'' :: text)
      else if c == quote then
        .ok (text, false, place)
      else if quote == '"' && c == '\\' then
        if (place.peekAt 1).any isBreak then
          .ok (text, true, place.skip.skipBreak)
        else do
          let (c, place) ← readEscape place
          readQuotedWord quote fuel place (c :: text)
      else
        readQuotedWord quote fuel place.skip (c :: text)

/-- Read a quoted scalar from a place after its opening quote on. The text so far is reversed. -/
def readQuotedFrom (quote : Char) : Nat → Place → List Char → Except Fault (List Char × Place)
  | 0, _, _ => .error .unclosedQuote
  | fuel + 1, place, text =>
    if place.atDocumentMark then
      .error .documentMarkInQuote
    else if place.rest.isEmpty then
      .error .unclosedQuote
    else do
      let (text, joined, place) ← readQuotedWord quote place.rest.length place text
      if place.sees quote then
        return (text, place.skip)
      else
        let fold := if joined then Fold.escapedBreak else Fold.none
        let (fold, place) ← readFold none place.rest.length place fold
        readQuotedFrom quote fuel place (fold.text.reverse ++ text)

/-- Read a quoted scalar, from its opening quote on. -/
def readQuoted (quote : Char) (place : Place) : Except Fault (String × Place) := do
  let (text, next) ← readQuotedFrom quote (place.rest.length + 1) place.skip []
  return (String.ofList text.reverse, next)

end RuleLint.Yaml
