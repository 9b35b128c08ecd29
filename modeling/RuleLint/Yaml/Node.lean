import RuleLint.Yaml.Tokens

/-!
# Nodes of YAML

The nodes that a YAML text denotes: scalars, sequences and mappings, and aliases of nodes with
anchors. `documentOf` reads a text with at most one document. Where a node is missing, an empty
plain scalar stands for it.

Each anchor has a number, which is how many names of anchors are known before it. So the first uses
of names are numbered one after the other, and a name that is used again takes the number that the
next new name will have as well. An alias stands for the last node with the number that its name had
where the alias stands (`Document.resolve`); that node may come later than the alias, and may even
contain it.

Each step of the reader consumes a token, so their number bounds its depth.
-/

namespace RuleLint.Yaml

/-- A node. -/
inductive Node where
  | scalar (text : String) (style : Style) (tag : Option Tag)
  | sequence (items : List Node)
  | mapping (entries : List (Node × Node))
  /-- What stands for the last node whose anchor has this number. -/
  | alias (number : Nat)

/-- What stands for a missing node. -/
def Node.missing : Node :=
  .scalar "" .plain none

/-- A document. -/
structure Document where
  root : Node
  /-- The nodes with anchors, in the order in which they start, with the numbers of the anchors. -/
  anchored : List (Nat × Node)

/-- The node that a node stands for. Only an alias stands for another one. -/
def Document.resolve (document : Document) : Node → Node
  | .alias number => (document.anchored.reverse.lookup number).getD .missing
  | node => node

/-- Where the reading of tokens stands. -/
structure Reader where
  tokens : List Token
  /-- The expansions of the handles of tags. -/
  handles : List (String × Tag)
  /-- The names of anchors so far, with the number that each had last. -/
  names : List (String × Nat) := []
  /-- The nodes with anchors so far; one that is still being read counts as missing. -/
  anchored : List (Nat × Node) := []

namespace Reader

/-- The next token. -/
def peek (reader : Reader) : Option Token :=
  reader.tokens.head?

/-- Past a token. -/
def skip (reader : Reader) : Reader :=
  { reader with tokens := reader.tokens.tail }

/-- Whether the next token is one of the given ones. -/
def seesAny (reader : Reader) (tokens : List Token) : Bool :=
  reader.peek.any tokens.contains

/-- Begin a node that may have an anchor. -/
def beginNode (reader : Reader) : Option String → Reader
  | none => reader
  | some name =>
    let number := reader.names.length
    { reader with
      names := (name, number) :: reader.names.filter fun other ↦ other.1 != name
      anchored := reader.anchored ++ [(number, .missing)] }

/-- Finish a node that has its place among the nodes with anchors if it has an anchor. -/
def finishNode (reader : Reader) (place : Option Nat) (node : Node) : Reader :=
  match place with
  | none => reader
  | some place =>
    { reader with anchored := reader.anchored.modify place fun (number, _) ↦ (number, node) }

/-- The tag with a handle and a suffix. -/
def expand (reader : Reader) (handle : String) (suffix : Tag) : Except Fault Tag :=
  if handle.isEmpty then .ok suffix
  else match reader.handles.lookup handle with
    | some expansion => .ok (expansion ++ suffix)
    | none => .error .undefinedTagHandle

/-- Read the anchor and the tag of a node, in either order. -/
def properties (reader : Reader) : Except Fault (Option String × Option Tag × Reader) :=
  match reader.tokens with
  | .anchor name :: .tag handle suffix :: tokens => do
    return (some name, some (← reader.expand handle suffix), { reader with tokens })
  | .tag handle suffix :: .anchor name :: tokens => do
    return (some name, some (← reader.expand handle suffix), { reader with tokens })
  | .anchor name :: tokens => .ok (some name, none, { reader with tokens })
  | .tag handle suffix :: tokens => do
    return (none, some (← reader.expand handle suffix), { reader with tokens })
  | _ => .ok (none, none, reader)

/-- The tokens before which a node of a block mapping is missing. -/
def blockMappingStops : List Token := [.key, .value, .blockEnd]

/-- Where a node stands: whether it may be a block collection, and whether a sequence may start
without deeper indentation. -/
inductive Context where
  | flow
  | block
  | indentless
deriving DecidableEq

mutual

/-- Read a node. -/
def node (context : Context) : Nat → Reader → Except Fault (Node × Reader)
  | 0, _ => .error .unexpectedToken
  | fuel + 1, reader => do
    if let some (.alias name) := reader.peek then
      match reader.names.lookup name with
      | some number => return (.alias number, reader.skip)
      | none => .error .undefinedAlias
    else
      let (anchor, tag, reader) ← reader.properties
      let place := anchor.map fun _ ↦ reader.anchored.length
      let finish : Node × Reader → Node × Reader := fun (node, reader) ↦
        (node, reader.finishNode place node)
      let reader := reader.beginNode anchor
      match reader.peek with
      | some (.scalar text style) => return finish (.scalar text style tag, reader.skip)
      | some .flowSequenceStart => return finish (← flowSequence fuel true reader.skip [])
      | some .flowMappingStart => return finish (← flowMapping fuel true reader.skip [])
      | some .blockSequenceStart =>
        if context = .flow then .error .unexpectedToken
        else return finish (← blockSequence fuel reader.skip [])
      | some .blockMappingStart =>
        if context = .flow then .error .unexpectedToken
        else return finish (← blockMapping fuel reader.skip [])
      | some .blockEntry =>
        if context = .indentless then return finish (← indentlessSequence fuel reader [])
        else if anchor.isSome || tag.isSome then
          return finish (.scalar "" .plain tag, reader)
        else .error .unexpectedToken
      | _ =>
        if anchor.isSome || tag.isSome then return finish (.scalar "" .plain tag, reader)
        else .error .unexpectedToken

/-- Read a node unless one of the given tokens shows that it is missing. -/
def nodeUnless (context : Context) (stops : List Token) :
    Nat → Reader → Except Fault (Node × Reader)
  | 0, _ => .error .unexpectedToken
  | fuel + 1, reader =>
    if reader.seesAny stops then .ok (.missing, reader) else node context fuel reader

/-- Read the entries of a block sequence, after the ones given in reverse. -/
def blockSequence : Nat → Reader → List Node → Except Fault (Node × Reader)
  | 0, _, _ => .error .unexpectedToken
  | fuel + 1, reader, items =>
    match reader.peek with
    | some .blockEntry => do
      let (item, reader) ← nodeUnless .block [.blockEntry, .blockEnd] fuel reader.skip
      blockSequence fuel reader (item :: items)
    | some .blockEnd => .ok (.sequence items.reverse, reader.skip)
    | _ => .error .unexpectedToken

/-- Read the entries of a sequence that is no deeper than the mapping around it. -/
def indentlessSequence : Nat → Reader → List Node → Except Fault (Node × Reader)
  | 0, _, _ => .error .unexpectedToken
  | fuel + 1, reader, items =>
    match reader.peek with
    | some .blockEntry => do
      let (item, reader) ← nodeUnless .block (.blockEntry :: blockMappingStops) fuel reader.skip
      indentlessSequence fuel reader (item :: items)
    | _ => .ok (.sequence items.reverse, reader)

/-- Read the entries of a block mapping. -/
def blockMapping : Nat → Reader → List (Node × Node) → Except Fault (Node × Reader)
  | 0, _, _ => .error .unexpectedToken
  | fuel + 1, reader, entries =>
    match reader.peek with
    | some .key => do
      let (key, reader) ← nodeUnless .indentless blockMappingStops fuel reader.skip
      let (value, reader) ←
        if reader.peek == some .value then
          nodeUnless .indentless blockMappingStops fuel reader.skip
        else
          pure (.missing, reader)
      blockMapping fuel reader ((key, value) :: entries)
    | some .blockEnd => .ok (.mapping entries.reverse, reader.skip)
    | _ => .error .unexpectedToken

/-- Read the items of a sequence in brackets. -/
def flowSequence : Nat → Bool → Reader → List Node → Except Fault (Node × Reader)
  | 0, _, _, _ => .error .unexpectedToken
  | fuel + 1, first, reader, items => do
    if reader.peek == some .flowSequenceEnd then
      return (.sequence items.reverse, reader.skip)
    else if !first && reader.peek != some .flowEntry then
      .error .unexpectedToken
    else
      let reader := if first then reader else reader.skip
      match reader.peek with
      | some .flowSequenceEnd => return (.sequence items.reverse, reader.skip)
      | some .key =>
        let (item, reader) ← singlePair fuel reader.skip
        flowSequence fuel false reader (item :: items)
      | _ =>
        let (item, reader) ← node .flow fuel reader
        flowSequence fuel false reader (item :: items)

/-- Read a mapping of one entry that stands in a sequence without brackets of its own. Where its key
is missing, the token that shows this is dropped. -/
def singlePair : Nat → Reader → Except Fault (Node × Reader)
  | 0, _ => .error .unexpectedToken
  | fuel + 1, reader => do
    let (key, reader) ←
      if reader.seesAny [.value, .flowEntry, .flowSequenceEnd] then
        pure (Node.missing, reader.skip)
      else
        node .flow fuel reader
    let (value, reader) ←
      if reader.peek == some .value then
        nodeUnless .flow [.flowEntry, .flowSequenceEnd] fuel reader.skip
      else
        pure (Node.missing, reader)
    return (.mapping [(key, value)], reader)

/-- Read the entries of a mapping in brackets. -/
def flowMapping : Nat → Bool → Reader → List (Node × Node) → Except Fault (Node × Reader)
  | 0, _, _, _ => .error .unexpectedToken
  | fuel + 1, first, reader, entries => do
    if reader.peek == some .flowMappingEnd then
      return (.mapping entries.reverse, reader.skip)
    else if !first && reader.peek != some .flowEntry then
      .error .unexpectedToken
    else
      let reader := if first then reader else reader.skip
      match reader.peek with
      | some .flowMappingEnd => return (.mapping entries.reverse, reader.skip)
      | some .key =>
        let (key, reader) ←
          nodeUnless .flow [.value, .flowEntry, .flowMappingEnd] fuel reader.skip
        let (value, reader) ←
          if reader.peek == some .value then
            nodeUnless .flow [.flowEntry, .flowMappingEnd] fuel reader.skip
          else
            pure (Node.missing, reader)
        flowMapping fuel false reader ((key, value) :: entries)
      | _ =>
        let (key, reader) ← node .flow fuel reader
        flowMapping fuel false reader ((key, .missing) :: entries)

end

/-! ### Documents -/

/-- The handles that are defined in every document. -/
def standardHandles : List (String × Tag) :=
  [("!", .nonSpecific), ("!!", .ofText "tag:yaml.org,2002:")]

/-- Read the directives before a document. Each kind of directive defines a thing once, and only
versions 1.1 and 1.2 are read. Answers with the handles that are defined. -/
def directives (version : Bool) (handles : List (String × Tag)) :
    List Token → Except Fault (List (String × Tag) × List Token)
  | .versionDirective major minor :: tokens =>
    if version then .error .repeatedDirective
    else if major != 1 || (minor != 1 && minor != 2) then .error .unsupportedVersion
    else directives true handles tokens
  | .tagDirective handle expansion :: tokens =>
    if (handles.lookup handle).isSome then .error .repeatedDirective
    else directives version ((handle, expansion) :: handles) tokens
  | tokens => .ok (handles, tokens)

/-- Whether a token belongs to what precedes a document. -/
def startsExplicitly : Token → Bool
  | .versionDirective _ _ => true
  | .tagDirective _ _ => true
  | .documentStart => true
  | _ => false

/-- Read the document that the tokens begin with, if there is any. -/
def document (tokens : List Token) : Except Fault (Option Document × List Token) :=
  let fuel := 3 * tokens.length + 3
  match tokens with
  | [] => .ok (none, [])
  | first :: _ =>
    if startsExplicitly first then do
      let (handles, tokens) ← directives false [] tokens
      match tokens with
      | .documentStart :: tokens =>
        let empty := tokens.head?.all fun token ↦ startsExplicitly token || token == .documentEnd
        if empty then
          return (some ⟨.missing, []⟩, tokens)
        else
          let (node, reader) ← node .block fuel { tokens, handles := handles ++ standardHandles }
          return (some ⟨node, reader.anchored⟩, reader.tokens)
      | _ => .error .unexpectedToken
    else do
      let (node, reader) ← node .block fuel { tokens, handles := standardHandles }
      return (some ⟨node, reader.anchored⟩, reader.tokens)

end Reader

/-- The document of a text, or `none` if the text has no document at all. Two documents are a
fault. -/
def documentOf (text : List Char) : Except Fault (Option Document) := do
  let tokens ← tokensOf text
  let (document, rest) ← Reader.document tokens
  if (rest.dropWhile (· == .documentEnd)).isEmpty then return document
  else .error .severalDocuments

end RuleLint.Yaml
