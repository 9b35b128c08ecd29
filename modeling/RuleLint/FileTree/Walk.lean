import RuleLint.Dialect
import RuleLint.FileTree.Basic

/-!
# Rule files below a directory

`FileTree.ruleFiles` lists the rule files below a directory: the entries that are no directories and
have the extension of a dialect. Directories are entered where they stand in the order of the names,
links to directories as well, except for those with a name that starts with a dot. A directory that
can be reached in several ways is entered the first time only, so links may form cycles: every step
either enters a directory that has not been entered before, or leaves one path fewer to look at.
-/

namespace RuleLint.FileTree

/-- Whether a path has the extension of a dialect. -/
def isRulePath (path : Path) : Bool :=
  (path.extension?.bind Dialect.ofExtension?).isSome

/-- Whether the last name of a path starts with a dot. -/
def isHidden (path : Path) : Bool :=
  path.fileName?.any (·.startsWith ".")

/-- The paths of what stands in the directory at a place, in the order of the names, given a path
that leads to the place. -/
def pathsBelow (tree : FileTree) (path : Path) (place : Place) : List Path :=
  ((tree.namesBelow place).mergeSort fun a b ↦ !decide (b < a)).map path.join

/-- The rule files at or below the given paths, where the directories at the places `unvisited` may
still be entered. -/
def ruleFilesFrom (tree : FileTree) (unvisited : List Place) (paths : List Path) : List Path :=
  match paths with
  | [] => []
  | path :: paths =>
    match tree.directory? path with
    | some place =>
      if isHidden path then
        tree.ruleFilesFrom unvisited paths
      else if _h : place ∈ unvisited then
        tree.ruleFilesFrom (unvisited.erase place) (tree.pathsBelow path place ++ paths)
      else
        tree.ruleFilesFrom unvisited paths
    | none =>
      if isRulePath path then path :: tree.ruleFilesFrom unvisited paths
      else tree.ruleFilesFrom unvisited paths
termination_by (unvisited.length, paths.length)
decreasing_by
  all_goals simp_wf
  · exact Prod.Lex.right _ (by omega)
  · have := List.length_erase_of_mem ‹_›
    have := List.length_pos_of_mem ‹_›
    exact Prod.Lex.left _ _ (by omega)
  all_goals exact Prod.Lex.right _ (by omega)

/-- The rule files below the directory that a path leads to. Nothing is below a path that leads
nowhere; a path that leads to something else is a fault. -/
def ruleFiles (tree : FileTree) (path : Path) : Except FileFault (List Path) :=
  match tree.resolve path with
  | .error _ => .ok []
  | .ok place =>
    if tree.isDirectoryAt place then
      .ok (tree.ruleFilesFrom (tree.directories.erase place) (tree.pathsBelow path place))
    else
      .error .notDirectory

end RuleLint.FileTree
