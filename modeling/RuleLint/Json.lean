/-!
# JSON

JSON values, and their text. Members of objects keep their order. Numbers that are whole are kept
apart from the others, of which only whole ones are ever written.
-/

namespace RuleLint

/-- A JSON value. -/
inductive Json where
  | null
  | bool (value : Bool)
  | whole (value : Int)
  /-- A number with a fraction: the first number with so many decimal places. -/
  | decimal (mantissa : Int) (places : Nat)
  | string (value : String)
  | array (items : List Json)
  | object (members : List (String × Json))
deriving Inhabited, Repr

namespace Json

/-- The member of an object with a name. -/
def member? (name : String) : Json → Option Json
  | .object members => members.lookup name
  | _ => none

/-! ### Text -/

/-- A hexadecimal digit. -/
def hexDigit (n : Nat) : Char :=
  if n < 10 then Char.ofNat ('0'.toNat + n) else Char.ofNat ('a'.toNat + (n - 10))

/-- How a character is written in a string. Quotes, backslashes and control characters are escaped,
and nothing else. -/
def escape (c : Char) : List Char :=
  match c with
  | '"' => ['\\', '"']
  | '\\' => ['\\', '\\']
  | '\n' => ['\\', 'n']
  | '\r' => ['\\', 'r']
  | '\t' => ['\\', 't']
  | '\x08' => ['\\', 'b']
  | '\x0c' => ['\\', 'f']
  | _ =>
    if c.toNat < 0x20 then
      ['\\', 'u', '0', '0', hexDigit (c.toNat / 16), hexDigit (c.toNat % 16)]
    else
      [c]

/-- A string as it is written. -/
def quote (text : String) : String :=
  "\"" ++ String.ofList (text.toList.flatMap escape) ++ "\""

/-- A line break with the given depth of indentation after it. -/
def lineBreak (depth : Nat) : String :=
  "\n" ++ String.ofList (List.replicate (2 * depth) ' ')

/-- Texts between two brackets, each on a line of its own; brackets without texts stand together. -/
def bracket (start stop : String) (depth : Nat) : List String → String
  | [] => start ++ stop
  | texts =>
    start ++ lineBreak (depth + 1) ++ String.intercalate ("," ++ lineBreak (depth + 1)) texts
      ++ lineBreak depth ++ stop

/-- A number with so many decimal places. -/
def decimalText (mantissa : Int) (places : Nat) : String :=
  let digits := (Nat.repr mantissa.natAbs).toList
  let digits := List.replicate (places + 1 - digits.length) '0' ++ digits
  let whole := digits.take (digits.length - places)
  let fraction := digits.drop (digits.length - places)
  (if mantissa < 0 then "-" else "") ++ String.ofList whole ++ "." ++ String.ofList fraction

mutual

/-- The text of a value over several lines, indented by two blanks for each bracket around it. -/
def prettyAt (depth : Nat) : Json → String
  | .null => "null"
  | .bool true => "true"
  | .bool false => "false"
  | .whole value => toString value
  | .decimal mantissa places => decimalText mantissa places
  | .string value => quote value
  | .array items => bracket "[" "]" depth (prettyItems (depth + 1) items)
  | .object members => bracket "\x7b" "\x7d" depth (prettyMembers (depth + 1) members)

/-- The texts of items. -/
def prettyItems (depth : Nat) : List Json → List String
  | [] => []
  | item :: items => prettyAt depth item :: prettyItems depth items

/-- The texts of members. -/
def prettyMembers (depth : Nat) : List (String × Json) → List String
  | [] => []
  | (name, value) :: members =>
    (quote name ++ ": " ++ prettyAt depth value) :: prettyMembers depth members

end

/-- The text of a value over several lines. -/
def pretty (value : Json) : String :=
  prettyAt 0 value

end Json

end RuleLint
