/-!
# Faults of YAML text

The ways in which a text fails to be a YAML stream with at most one document.
-/

namespace RuleLint.Yaml

/-- What is wrong with a text. -/
inductive Fault where
  /-- A control character, or another character that no stream may hold. -/
  | forbiddenCharacter
  /-- A character that cannot start a token. -/
  | unexpectedCharacter
  /-- The start of a mapping entry that no colon follows. -/
  | missingColon
  /-- A sequence entry, a key or a value where none may start. -/
  | misplacedEntry
  | misplacedKey
  | misplacedValue
  /-- A tab where the depth of indentation is decided. -/
  | tabIndentation
  /-- A colon that touches a bracket or a comma in a plain scalar. -/
  | ambiguousColon
  | unclosedQuote
  | documentMarkInQuote
  | malformedEscape
  | malformedBlockHeader
  | malformedAnchor
  | malformedTag
  | malformedDirective
  | repeatedDirective
  | unsupportedVersion
  | undefinedTagHandle
  | undefinedAlias
  /-- A token that does not fit the structure so far. -/
  | unexpectedToken
  | severalDocuments
deriving DecidableEq, Repr

/-- A short description of a fault. -/
def Fault.message : Fault → String
  | .forbiddenCharacter => "control characters are not allowed"
  | .unexpectedCharacter => "found character that cannot start any token"
  | .missingColon => "could not find expected ':'"
  | .misplacedEntry => "block sequence entries are not allowed in this context"
  | .misplacedKey => "mapping keys are not allowed in this context"
  | .misplacedValue => "mapping values are not allowed in this context"
  | .tabIndentation => "found a tab character where an indentation space is expected"
  | .ambiguousColon => "found unexpected ':'"
  | .unclosedQuote => "found unexpected end of stream"
  | .documentMarkInQuote => "found unexpected document indicator"
  | .malformedEscape => "found unknown escape character"
  | .malformedBlockHeader => "did not find expected comment or line break"
  | .malformedAnchor => "did not find expected alphabetic or numeric character"
  | .malformedTag => "did not find expected tag URI"
  | .malformedDirective => "found malformed directive"
  | .repeatedDirective => "found duplicate directive"
  | .unsupportedVersion => "found incompatible YAML document"
  | .undefinedTagHandle => "found undefined tag handle"
  | .undefinedAlias => "unknown anchor"
  | .unexpectedToken => "did not find expected node content"
  | .severalDocuments => "more than one document"

end RuleLint.Yaml
