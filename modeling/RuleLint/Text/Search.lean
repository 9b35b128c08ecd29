import RuleLint.Text.Cursor

/-!
# Searching a text

A recogniser decides at a cursor whether the thing it looks for starts there, and answers with what
it found and the place where it ends. `findAll` reports every find from left to right; after a find
the search goes on where it ended, so finds do not overlap, and their starts strictly increase.
-/

namespace RuleLint

/-- A decision on what starts at a cursor: nothing, or something with an end. -/
abbrev Recogniser (α : Type) := Cursor → Option (α × Cursor)

/-- Something found in a text, with its place. -/
structure Found (α : Type) where
  start : Cursor
  value : α
  stop : Cursor

/-- The span of a find. -/
def Found.span {α : Type} (found : Found α) : Span :=
  found.start.spanTo found.stop

/-- Every find from a place on, given as the two sides of the cursor. A find must consume
something: one that does not is passed over. -/
def findAllFrom {α : Type} (recognise : Recogniser α) (before after : List Char) :
    List (Found α) :=
  match after with
  | [] => []
  | c :: rest =>
    match recognise ⟨before, c :: rest⟩ with
    | none => findAllFrom recognise (c :: before) rest
    | some (value, stop) =>
      if stop.after.length ≤ rest.length then
        ⟨⟨before, c :: rest⟩, value, stop⟩ :: findAllFrom recognise stop.before stop.after
      else
        findAllFrom recognise (c :: before) rest
termination_by after.length

/-- Every find in a text, from left to right. -/
def findAll {α : Type} (recognise : Recogniser α) (text : List Char) : List (Found α) :=
  findAllFrom recognise [] text

/-- The first find in a text. -/
def findFirst {α : Type} (recognise : Recogniser α) (text : List Char) : Option (Found α) :=
  (findAll recognise text).head?

end RuleLint
