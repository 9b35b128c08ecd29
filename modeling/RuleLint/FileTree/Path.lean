import RuleLint.Text.Lines

/-!
# Paths

A path is a text of names between slashes. Empty names and single dots name nothing, except for a
single dot at the very start. The functions here go by the text alone, so two dots are a name like
any other; what a path leads to is a matter of the file tree.
-/

namespace RuleLint

/-- The text of a path. -/
abbrev Path := String

namespace Path

/-- The parts of a path between its slashes. -/
def parts (path : List Char) : List (List Char) :=
  splitOnChar '/' path

/-- Whether a part of a path names nothing. -/
def isIdle (part : List Char) : Bool :=
  part.isEmpty || part == ['.']

/-- The parts up to the last one that names something. -/
def dropIdle (parts : List (List Char)) : List (List Char) :=
  (parts.reverse.dropWhile isIdle).reverse

/-- Parts with slashes between them. -/
def joinParts : List (List Char) → List Char
  | [] => []
  | [part] => part
  | part :: parts => part ++ '/' :: joinParts parts

/-- A path cut after what it starts from: the root, the current directory, or nothing. -/
def splitStart (path : List Char) : List Char × List Char :=
  match path with
  | '/' :: rest => (['/'], rest)
  | ['.'] => (['.'], [])
  | '.' :: '/' :: rest => (['.'], '/' :: rest)
  | _ => ([], path)

/-- The path without its last name. The path of a single name is left empty, and so is that of the
current directory; the root and the empty path have no parent. -/
def parent? (path : Path) : Option Path :=
  let (start, rest) := splitStart path.toList
  match dropIdle (parts rest) with
  | [] => if start == ['.'] then some "" else none
  | names => some (String.ofList (start ++ joinParts (dropIdle names.dropLast)))

/-- The last name of a path, unless it is two dots. -/
def fileName? (path : Path) : Option String :=
  let (_, rest) := splitStart path.toList
  match (dropIdle (parts rest)).getLast? with
  | none => none
  | some name => if name == ['.', '.'] then none else some (String.ofList name)

/-- The part of a name after its last dot. A dot at the very start does not count. -/
def extensionOfName? (name : List Char) : Option (List Char) :=
  if name.contains '.' then
    let extension := (name.reverse.takeWhile (· != '.')).reverse
    if extension.length + 1 < name.length then some extension else none
  else
    none

/-- The extension of the last name of a path. -/
def extension? (path : Path) : Option String := do
  let name ← path.fileName?
  let extension ← extensionOfName? name.toList
  return String.ofList extension

/-- A path to a name below a path. -/
def join (path : Path) (name : String) : Path :=
  if path.isEmpty || path.toList.getLast? == some '/' then path ++ name else path ++ "/" ++ name

/-- A path and its parents, up to a number of them. -/
def ancestorsFrom : Nat → Path → List Path
  | 0, path => [path]
  | fuel + 1, path =>
    match path.parent? with
    | some parent => path :: ancestorsFrom fuel parent
    | none => [path]

/-- A path, its parent, and so on. A parent is shorter, so the length of the path bounds their
number. -/
def ancestors (path : Path) : List Path :=
  ancestorsFrom (path.length + 1) path

end Path

end RuleLint
