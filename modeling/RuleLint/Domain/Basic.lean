import RuleLint.Domain.Character
import RuleLint.Domain.Direction
import RuleLint.Domain.Joining
import RuleLint.Domain.Punycode
import RuleLint.Text.Lines

/-!
# Domains

A domain is a name of labels between dots. Characters beyond ASCII are in a label either as they
are or in Punycode, after `xn--`; in Punycode a label has to be in the one form that it is brought
into otherwise. A label does not start with a mark, and joiners are only where they have an effect.
If something in a domain is written from the right, all its labels have to be in order.
-/

namespace RuleLint.Domain

/-- The characters of a label, if they may be in a label. -/
def readLabel? (label : List Char) : Option (List Char) :=
  match label with
  | 'x' :: 'n' :: '-' :: '-' :: code =>
    if code.isEmpty || code.getLast? == some '-' then none
    else (Punycode.decode? code).filter fun label ↦
      (label.all fun c ↦ isPlain c || isJoiner c) && isComposed label
  | _ => if label.all isAllowed then some label else none

/-- Whether characters make up a label. -/
def isLabel (label : List Char) : Bool :=
  !label.head?.any isMark && joinersFit [] label

/-- Whether labels make up a domain. -/
def areLabels (labels : List (List Char)) : Bool :=
  match labels.mapM readLabel? with
  | some labels =>
    labels.all isLabel && (!(labels.any (·.any isFromRight)) || labels.all isInOrder)
  | none => false

/-- The labels of a domain, if a text is one. Some may be empty, but not all there is. -/
def labels? (text : List Char) : Option (List (List Char)) :=
  let labels := splitOnChar '.' ((text.filter isCounted).map narrow)
  if labels != [[]] && areLabels labels then some labels else none

end RuleLint.Domain
