import RuleLint.Yaml.Token

/-!
# From text to tokens

`tokensOf` cuts a text into tokens. What stands at the start of a mapping entry is only known to be
a key when its colon is met, so wherever a key may start its place among the tokens is remembered
(`PendingKey`), and the colon inserts the tokens that announce it. A pending key lapses at the end
of its line and after 1024 bytes; if it stands at the indentation of its collection, it had to
be a key, and its lapse is a fault.

Every character is consumed once, so the length of the text bounds the steps.
-/

namespace RuleLint.Yaml

/-- A place at which a key may have started. -/
structure PendingKey where
  /-- Whether a key has to start there. -/
  required : Bool
  /-- The number of tokens before the place. -/
  token : Nat
  line : Nat
  offset : Nat
  column : Nat

/-- Where the cutting of a text stands. -/
structure Scan where
  place : Place
  tokens : Array Token
  /-- The column of the innermost block collection; `-1` outside all of them. -/
  indent : Int
  /-- The columns of the collections around it. -/
  indents : List Int
  /-- Whether a key may start at the place. -/
  keyAllowed : Bool
  /-- The pending key outside all brackets. -/
  key : Option PendingKey
  /-- The pending keys inside the brackets that are open, innermost first. -/
  flowKeys : List (Option PendingKey)

namespace Scan

/-- The start of a text. -/
def start (text : List Char) : Scan :=
  ⟨.start text, #[], -1, [], true, none, []⟩

/-- Whether a bracket is open. -/
def inFlow (scan : Scan) : Bool :=
  !scan.flowKeys.isEmpty

/-- The pending key of the innermost bracket. -/
def currentKey (scan : Scan) : Option PendingKey :=
  scan.flowKeys.headD scan.key

/-- Replace the pending key of the innermost bracket. -/
def setKey (scan : Scan) (key : Option PendingKey) : Scan :=
  match scan.flowKeys with
  | [] => { scan with key }
  | _ :: keys => { scan with flowKeys := key :: keys }

/-- One more token. -/
def push (scan : Scan) (token : Token) : Scan :=
  { scan with tokens := scan.tokens.push token }

/-- A token before the tokens from an index on. -/
def insert (scan : Scan) (index : Nat) (token : Token) : Scan :=
  { scan with tokens := scan.tokens.insertIdxIfInBounds index token }

/-- One more token, and past the character that it is written with. -/
def pushSkip (scan : Scan) (token : Token) : Scan :=
  { scan.push token with place := scan.place.skip }

/-- Give up the pending key of the innermost bracket. -/
def removeKey (scan : Scan) : Except Fault Scan :=
  match scan.currentKey with
  | some key => if key.required then .error .missingColon else .ok (scan.setKey none)
  | none => .ok scan

/-- Remember that a key may start here. -/
def saveKey (scan : Scan) : Except Fault Scan :=
  if scan.keyAllowed then do
    let place := scan.place
    let required := !scan.inFlow && scan.indent == place.column
    let scan ← scan.removeKey
    return scan.setKey (some ⟨required, scan.tokens.size, place.line, place.offset, place.column⟩)
  else
    return scan

/-- The pending key unless it has lapsed. -/
def refreshKey (place : Place) : Option PendingKey → Except Fault (Option PendingKey)
  | none => .ok none
  | some key =>
    if key.line < place.line || key.offset + 1024 < place.offset then
      if key.required then .error .missingColon else .ok none
    else
      .ok (some key)

/-- Give up every pending key that has lapsed. -/
def refreshKeys (scan : Scan) : Except Fault Scan := do
  let key ← refreshKey scan.place scan.key
  let flowKeys ← scan.flowKeys.mapM (refreshKey scan.place)
  return { scan with key, flowKeys }

/-- Start a block collection if the column is deeper than the innermost one. Its token goes before
the tokens from an index on, or comes last. -/
def openBlock (scan : Scan) (column : Nat) (index : Option Nat) (token : Token) : Scan :=
  if !scan.inFlow && scan.indent < column then
    let scan := { scan with indent := column, indents := scan.indent :: scan.indents }
    match index with
    | some index => scan.insert index token
    | none => scan.push token
  else
    scan

/-- The ends of the collections that are deeper than a column. -/
def closeFrom (column : Int) : Int → List Int → Nat × Int × List Int
  | indent, [] => (0, indent, [])
  | indent, outer :: indents =>
    if column < indent then
      let (n, rest) := closeFrom column outer indents
      (n + 1, rest)
    else
      (0, indent, outer :: indents)

/-- End the block collections that are deeper than a column. -/
def closeBlocks (scan : Scan) (column : Int) : Scan :=
  if scan.inFlow then scan
  else
    let (n, indent, indents) := closeFrom column scan.indent scan.indents
    { scan with tokens := scan.tokens ++ Array.replicate n Token.blockEnd, indent, indents }

/-- Past blanks, comments and breaks, and past a byte order mark at the start of a line. A tab is
skipped only where no key may start. Outside brackets a key may start on the next line. -/
def skipToToken (inFlow : Bool) : Nat → Place → Bool → Place × Bool
  | 0, place, keyAllowed => (place, keyAllowed)
  | fuel + 1, place, keyAllowed =>
    let place := if place.column == 0 && place.sees '\ufeff' then place.skip else place
    let place := place.skipWhile fun c ↦ c == ' ' || (c == '\t' && (inFlow || !keyAllowed))
    let place := if place.sees '#' then place.skipWhile fun c ↦ !isBreak c else place
    if place.atBreak then
      skipToToken inFlow fuel place.skipBreak (keyAllowed || !inFlow)
    else
      (place, keyAllowed)

/-! ### The kinds of tokens -/

/-- A directive. -/
def directive (scan : Scan) : Except Fault Scan := do
  let scan ← (scan.closeBlocks (-1)).removeKey
  let (token, place) ← readDirective scan.place
  return { scan.push token with place, keyAllowed := false }

/-- A mark at which a document begins or ends. -/
def documentMark (scan : Scan) (token : Token) : Except Fault Scan := do
  let scan ← (scan.closeBlocks (-1)).removeKey
  return { scan.push token with place := scan.place.skipMany 3, keyAllowed := false }

/-- An opening bracket. -/
def openBracket (scan : Scan) (token : Token) : Except Fault Scan := do
  let scan ← scan.saveKey
  return { scan.pushSkip token with flowKeys := none :: scan.flowKeys, keyAllowed := true }

/-- A closing bracket. -/
def closeBracket (scan : Scan) (token : Token) : Except Fault Scan := do
  let scan ← scan.removeKey
  return { scan.pushSkip token with flowKeys := scan.flowKeys.tail, keyAllowed := false }

/-- A comma. -/
def comma (scan : Scan) : Except Fault Scan := do
  let scan ← scan.removeKey
  return { scan.pushSkip .flowEntry with keyAllowed := true }

/-- The dash of a sequence entry. -/
def dash (scan : Scan) : Except Fault Scan := do
  if !scan.inFlow && !scan.keyAllowed then .error .misplacedEntry
  let scan ← (scan.openBlock scan.place.column none .blockSequenceStart).removeKey
  return { scan.pushSkip .blockEntry with keyAllowed := true }

/-- The question mark of a key. -/
def questionMark (scan : Scan) : Except Fault Scan := do
  if !scan.inFlow && !scan.keyAllowed then .error .misplacedKey
  let scan ← (scan.openBlock scan.place.column none .blockMappingStart).removeKey
  return { scan.pushSkip .key with keyAllowed := !scan.inFlow }

/-- The colon of a value. -/
def colon (scan : Scan) : Except Fault Scan :=
  match scan.currentKey with
  | some key =>
    let scan := (scan.insert key.token .key).openBlock key.column (some key.token)
      .blockMappingStart
    .ok { (scan.setKey none).pushSkip .value with keyAllowed := false }
  | none => do
    if !scan.inFlow && !scan.keyAllowed then .error .misplacedValue
    let scan := scan.openBlock scan.place.column none .blockMappingStart
    return { scan.pushSkip .value with keyAllowed := !scan.inFlow }

/-- An anchor or an alias. -/
def anchor (scan : Scan) (token : String → Token) : Except Fault Scan := do
  let scan ← scan.saveKey
  let (name, place) ← readAnchorName scan.place
  return { scan.push (token name) with place, keyAllowed := false }

/-- A tag. -/
def tag (scan : Scan) : Except Fault Scan := do
  let scan ← scan.saveKey
  let (token, place) ← readTag scan.inFlow scan.place
  return { scan.push token with place, keyAllowed := false }

/-- A block scalar. -/
def blockScalar (scan : Scan) (folded : Bool) : Except Fault Scan := do
  let scan ← scan.removeKey
  let (text, place) ← readBlock folded scan.indent scan.place
  let style := if folded then Style.folded else Style.literal
  return { scan.push (.scalar text style) with place, keyAllowed := true }

/-- A quoted scalar. -/
def quotedScalar (scan : Scan) (quote : Char) : Except Fault Scan := do
  let scan ← scan.saveKey
  let (text, place) ← readQuoted quote scan.place
  let style := if quote == '"' then Style.doubleQuoted else Style.singleQuoted
  return { scan.push (.scalar text style) with place, keyAllowed := false }

/-- A plain scalar. A key may start after it if it was followed by a break. -/
def plainScalar (scan : Scan) : Except Fault Scan := do
  let scan ← scan.saveKey
  let (text, broken, place) ← readPlain scan.inFlow (scan.indent + 1) scan.place
  return { scan.push (.scalar text .plain) with place, keyAllowed := broken }

/-- Whether a plain scalar can start with a character. -/
def startsPlain (inFlow : Bool) (c : Char) (next : Option Char) : Bool :=
  !(isGap (some c) || "-?:,[]\x7b\x7d#&*!|>'\"%@\x60".toList.contains c)
    || (c == '-' && !(next.any isSpaceOrTab))
    || (!inFlow && (c == '?' || c == ':') && !isGap next)

/-- The token that starts at the place with the character `c`. -/
def token (scan : Scan) (c : Char) : Except Fault Scan :=
  let next := scan.place.peekAt 1
  if scan.place.column == 0 && c == '%' then scan.directive
  else if scan.place.atMark '-' then scan.documentMark .documentStart
  else if scan.place.atMark '.' then scan.documentMark .documentEnd
  else if c == '[' then scan.openBracket .flowSequenceStart
  else if c == '\x7b' then scan.openBracket .flowMappingStart
  else if c == ']' then scan.closeBracket .flowSequenceEnd
  else if c == '\x7d' then scan.closeBracket .flowMappingEnd
  else if c == ',' then scan.comma
  else if c == '-' && isGap next then scan.dash
  else if c == '?' && (scan.inFlow || isGap next) then scan.questionMark
  else if c == ':' && (scan.inFlow || isGap next) then scan.colon
  else if c == '*' then scan.anchor .alias
  else if c == '&' then scan.anchor .anchor
  else if c == '!' then scan.tag
  else if (c == '|' || c == '>') && !scan.inFlow then scan.blockScalar (c == '>')
  else if c == '\'' || c == '"' then scan.quotedScalar c
  else if startsPlain scan.inFlow c next then scan.plainScalar
  else .error .unexpectedCharacter

/-- Past what separates tokens. Pending keys may lapse there, and block collections may end. -/
def separate (scan : Scan) : Except Fault Scan := do
  let (place, keyAllowed) :=
    skipToToken scan.inFlow (scan.place.rest.length + 1) scan.place scan.keyAllowed
  let scan ← { scan with place, keyAllowed }.refreshKeys
  return scan.closeBlocks scan.place.column

/-- Cut what is left of a text. -/
def run : Nat → Scan → Except Fault Scan
  | 0, scan => .ok scan
  | fuel + 1, scan => do
    let scan ← scan.separate
    match scan.place.peek with
    | none => (scan.closeBlocks (-1)).removeKey
    | some c => run fuel (← scan.token c)

end Scan

/-- The tokens of a text. -/
def tokensOf (text : List Char) : Except Fault (List Token) := do
  if text.all isAllowed then
    let scan ← Scan.run (text.length + 1) (.start text)
    return scan.tokens.toList
  else
    .error .forbiddenCharacter

end RuleLint.Yaml
