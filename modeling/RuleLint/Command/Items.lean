/-!
# The words of a command

The words after the name of a command are operands and switches. A switch is written as its name
after two dashes, or as its letter after one. Some switches take a value, which is the rest of the
same word (after an equals sign, which only the long form needs) or else the next word, unless that
one looks like a switch. After a word of two dashes alone all words are operands.

`readItems?` turns words into items; which items a command accepts is its own matter. Words are read
from left to right, and what asks for help is the last that is read.
-/

namespace RuleLint.Command

/-- The switches of all commands. -/
inductive Switch where
  | config
  | disable
  | help
  | json
  | maxProblems
deriving DecidableEq, Repr

namespace Switch

/-- The switch with a name. -/
def ofName? : String → Option Switch
  | "config" => some .config
  | "disable" => some .disable
  | "help" => some .help
  | "json" => some .json
  | "max-problems" => some .maxProblems
  | _ => none

/-- The switch with a letter. -/
def ofLetter? : Char → Option Switch
  | 'c' => some .config
  | 'd' => some .disable
  | 'h' => some .help
  | _ => none

/-- Whether a switch takes a value. -/
def takesValue : Switch → Bool
  | .config | .disable | .maxProblems => true
  | .help | .json => false

end Switch

/-- An operand or a switch with its value. -/
inductive Item where
  | operand (text : String)
  | flag (switch : Switch)
  | setting (switch : Switch) (value : String)
deriving DecidableEq, Repr

/-- What a single word looks like. -/
inductive Shape where
  /-- A word that is no switch. -/
  | plain
  /-- Two dashes alone. -/
  | terminator
  /-- A switch, if there is one with this name or letter, and the value in the same word. -/
  | switch (switch : Option Switch) (value : Option String)
deriving DecidableEq, Repr

/-- The shape of a word. A dash alone is no switch. After the letter of a switch without a value the
word may go on; the only such letter asks for help, so what follows it is not read. -/
def Shape.ofWord (word : String) : Shape :=
  match word.toList with
  | ['-', '-'] => .terminator
  | '-' :: '-' :: rest =>
    let name := String.ofList (rest.takeWhile (· != '='))
    match rest.dropWhile (· != '=') with
    | [] => .switch (Switch.ofName? name) none
    | _ :: value => .switch (Switch.ofName? name) (some (String.ofList value))
  | '-' :: letter :: rest =>
    let switch := Switch.ofLetter? letter
    if switch.any Switch.takesValue then
      match rest with
      | [] => .switch switch none
      | '=' :: value => .switch switch (some (String.ofList value))
      | value => .switch switch (some (String.ofList value))
    else
      .switch switch none
  | _ => .plain

/-- The items that words stand for, up to the first that asks for help. There are none if a switch
before it is unknown, lacks its value, or has a value that it does not take. -/
def readItems? : List String → Option (List Item)
  | [] => some []
  | word :: words =>
    match Shape.ofWord word with
    | .plain => (readItems? words).map (.operand word :: ·)
    | .terminator => some (words.map .operand)
    | .switch none _ => none
    | .switch (some switch) value =>
      match switch.takesValue, value with
      | false, none =>
        if switch = .help then some [.flag .help]
        else (readItems? words).map (.flag switch :: ·)
      | false, some _ => none
      | true, some value => (readItems? words).map (.setting switch value :: ·)
      | true, none =>
        match words with
        | [] => none
        | value :: words =>
          if Shape.ofWord value = .plain then
            (readItems? words).map (.setting switch value :: ·)
          else
            none

/-! ### Asking items -/

/-- The operands among items. -/
def operands (items : List Item) : List String :=
  items.filterMap fun
    | .operand text => some text
    | _ => none

/-- The values of a switch. -/
def values (switch : Switch) (items : List Item) : List String :=
  items.filterMap fun
    | .setting other value => if other = switch then some value else none
    | _ => none

/-- Whether a switch without a value is there. -/
def hasFlag (switch : Switch) (items : List Item) : Bool :=
  items.contains (.flag switch)

/-- What may be there once: nothing or the one thing in a list, but not several. -/
def atMostOne? {α : Type} : List α → Option (Option α)
  | [] => some none
  | [a] => some (some a)
  | _ => none

end RuleLint.Command
