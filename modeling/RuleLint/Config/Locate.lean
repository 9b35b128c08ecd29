import RuleLint.Error
import RuleLint.FileTree.Basic

/-!
# Finding configurations

Unless one is named, the configuration for a path is the nearest one above it. Directories are tried
from the path upwards, by the text of the path, and in each of them two names.
-/

namespace RuleLint.Config

/-- The names of configuration files, in the order in which they are tried. -/
def fileNames : List String :=
  [".xplint.yml", ".xplint.yaml"]

/-- The first configuration file in a directory. -/
def inDirectory? (tree : FileTree) (directory : Path) : Option Path :=
  (fileNames.map directory.join).find? tree.isFile

/-- The configuration file nearest to a path. The search starts in the directory itself, or in the
parent if the path leads to a file. -/
def nearest? (tree : FileTree) (path : Path) : Option Path := do
  let directory ← if tree.isFile path then path.parent? else some path
  directory.ancestors.findSome? (inDirectory? tree)

/-- The configuration in a file. -/
def load (tree : FileTree) (path : Path) : Except Error Config :=
  match tree.read path with
  | .error fault => .error (.file fault)
  | .ok text => (ofText text).mapError .config

end RuleLint.Config
