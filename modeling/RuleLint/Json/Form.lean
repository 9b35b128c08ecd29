import RuleLint.Json

/-!
# Forms of JSON values

A form says what a value has to look like. A record is written as an object, in which the order of
the members and any others do not matter, or as an array with one item for each of its fields, in
their order. A field that is not written counts as null, so only fields whose form admits null may
be left out of an object. An array may end early only if all that it leaves out is `omissible`.
Some records are written as objects alone (`object`).
-/

namespace RuleLint.Json

/-- What a value has to look like. -/
inductive Form where
  | any
  | bool
  | string
  /-- A whole number between two others, which are included. -/
  | whole (low high : Int)
  /-- One of several words: a string, or an object whose only member has its name and is null. -/
  | word (words : List String)
  | list (item : Form)
  /-- Null, or a value of a form. -/
  | optional (form : Form)
  | either (left right : Form)
  /-- A value of a form. A record that is written as an array may end before it. -/
  | omissible (form : Form)
  | record (fields : List (String × Form))
  /-- A record that is not written as an array. -/
  | object (fields : List (String × Form))

/-- Whether an array may end before a field of a form. -/
def Form.isOmissible : Form → Bool
  | .omissible _ => true
  | _ => false

/-- The members of a value that is read as a record with the given fields. -/
def membersFor? (fields : List (String × Form)) : Json → Option (List (String × Json))
  | .object members => some members
  | .array items =>
    let missing := fields.drop items.length
    if items.length ≤ fields.length && missing.all fun field ↦ field.2.isOmissible then
      some ((fields.map Prod.fst).zip items)
    else
      none
  | _ => none

namespace Form

mutual

/-- Whether a value has a form. -/
def admits : Form → Json → Bool
  | .any, _ => true
  | .bool, .bool _ => true
  | .string, .string _ => true
  | .whole low high, .whole value => low ≤ value && value ≤ high
  | .word words, .string name => words.contains name
  | .word words, .object [(name, .null)] => words.contains name
  | .list item, .array items => items.all (admits item)
  | .optional _, .null => true
  | .optional form, value => admits form value
  | .either left right, value => admits left value || admits right value
  | .omissible form, value => admits form value
  | .record fields, value =>
    match value.membersFor? fields with
    | some members => admitsMembers fields members
    | none => false
  | .object fields, .object members => admitsMembers fields members
  | _, _ => false

/-- Whether the members of a record have the forms of its fields. -/
def admitsMembers : List (String × Form) → List (String × Json) → Bool
  | [], _ => true
  | (name, form) :: fields, members =>
    admits form ((members.lookup name).getD .null) && admitsMembers fields members

end

end Form

/-- The field of a record with a name, where the record has the given fields. -/
def field? (fields : List (String × Form)) (name : String) (value : Json) : Option Json :=
  (value.membersFor? fields).bind (·.lookup name)

end RuleLint.Json
