import RuleLint.Error
import RuleLint.FileTree.Path

/-!
# File trees

A file tree is what a file system holds at one moment: files, directories and symbolic links, each
at a *place*, which is the list of names from the root down to it. The root is a directory; the
current directory is one of the places.

`FileTree.resolve` finds the place that a path leads to. It follows links, at most forty of them,
and every name on the way has to belong to a directory. Two dots lead to the directory above, and
above the root is the root. Names and paths are limited in length.
-/

namespace RuleLint

/-- The names from the root down to something. -/
abbrev Place := List String

/-- What can stand at a place. -/
inductive Entry where
  | file (content : ByteArray)
  | directory
  | link (target : Path)

/-- A file system at one moment. -/
structure FileTree where
  /-- What stands at the places other than the root. -/
  entries : List (Place × Entry)
  /-- The place of the current directory. -/
  current : Place

namespace FileTree

/-- What stands at a place. -/
def entry? (tree : FileTree) (place : Place) : Option Entry :=
  if place.isEmpty then some .directory else tree.entries.lookup place

/-- Whether a directory stands at a place. -/
def isDirectoryAt (tree : FileTree) (place : Place) : Bool :=
  match tree.entry? place with
  | some .directory => true
  | _ => false

/-- The places of the directories. -/
def directories (tree : FileTree) : List Place :=
  [] :: (tree.entries.map Prod.fst).filter tree.isDirectoryAt

/-- The names of what stands directly below a place. -/
def namesBelow (tree : FileTree) (place : Place) : List String :=
  tree.entries.filterMap fun (other, _) ↦
    match other.getLast? with
    | some name => if other.dropLast = place then some name else none
    | none => none

/-- Put something at a place. The directories above it come into being with it. -/
def put (tree : FileTree) (place : Place) (entry : Entry) : FileTree :=
  let above := ((List.range place.length).map place.take).filter fun other ↦
    (tree.entry? other).isNone
  { tree with
    entries := tree.entries.filter (fun other ↦ other.1 ≠ place)
      ++ above.map (·, .directory) ++ [(place, entry)] }

/-! ### Resolving paths -/

/-- The names of a path; empty ones are kept. -/
def namesOf (path : Path) : List String :=
  (Path.parts path.toList).map String.ofList

/-- The greatest number of bytes of a name. -/
def nameLimit : Nat := 255

/-- The greatest number of bytes of a path. -/
def pathLimit : Nat := 4095

/-- The place that names lead to from a place, with at most `links` links followed. -/
def resolveFrom (tree : FileTree) (links : Nat) (place : Place) (names : List String) :
    Except FileFault Place :=
  match names with
  | [] => .ok place
  | name :: names =>
    if !tree.isDirectoryAt place then
      .error .notDirectory
    else if name == "" || name == "." then
      tree.resolveFrom links place names
    else if name == ".." then
      tree.resolveFrom links place.dropLast names
    else if nameLimit < name.utf8ByteSize then
      .error .nameTooLong
    else
      match tree.entry? (place ++ [name]), links with
      | none, _ => .error .missing
      | some (.link _), 0 => .error .tooManyLinks
      | some (.link target), links + 1 =>
        tree.resolveFrom links (if target.startsWith "/" then [] else place)
          (namesOf target ++ names)
      | some _, links => tree.resolveFrom links (place ++ [name]) names
termination_by (links, names.length)

/-- The number of links that are followed for one path. -/
def linkLimit : Nat := 40

/-- The place that a path leads to. -/
def resolve (tree : FileTree) (path : Path) : Except FileFault Place :=
  if path.toList.contains '\x00' then .error .nullInPath
  else if path.isEmpty then .error .missing
  else if pathLimit < path.utf8ByteSize then .error .nameTooLong
  else
    tree.resolveFrom linkLimit (if path.startsWith "/" then [] else tree.current) (namesOf path)

/-- Whether a path leads to a file. -/
def isFile (tree : FileTree) (path : Path) : Bool :=
  match tree.resolve path with
  | .ok place =>
    match tree.entry? place with
    | some (.file _) => true
    | _ => false
  | .error _ => false

/-- The place of the directory that a path leads to. -/
def directory? (tree : FileTree) (path : Path) : Option Place :=
  match tree.resolve path with
  | .ok place => if tree.isDirectoryAt place then some place else none
  | .error _ => none

/-- The text of the file that a path leads to. -/
def read (tree : FileTree) (path : Path) : Except FileFault String := do
  let place ← tree.resolve path
  match tree.entry? place with
  | some (.file content) =>
    match String.fromUTF8? content with
    | some text => return text
    | none => .error .notText
  | some .directory => .error .isDirectory
  | _ => .error .missing

end FileTree

end RuleLint
