import Mathlib.Data.List.Lex
import Mathlib.Tactic.SplitIfs
import RuleLint.Files
import RuleLint.Proofs.FileTree.Directories

/-!
# The order of the files below a directory

Paths are compared by what they name, one component after the other, and names by the bytes of their
UTF-8 form (`Path.Precedes`). That is not the order of the texts: `a/b.co` comes before `a.co`,
although a dot comes before a slash.

A walk sorts the entries of one directory at a time, by the characters of their names. The bytes of
names are in the order of the characters (`bytesOf_lt_bytesOf`), so the paths to the entries of a
directory are in order. Where two paths branch off each other, whatever is at or below the one comes
before whatever is at or below the other (`Path.Branches.mono`), so a walk from paths that branch
off each other lists its files in that order (`FileTree.pairwise_ruleFilesFrom`).

Trees that hold the same entries are walked alike, in whatever order they hold them: what stands at
a place does not depend on it, and neither does the order of the names in a directory
(`FileTree.Rearranged.ruleFiles_eq`).
-/

namespace RuleLint

/-! ### Names and their bytes -/

/-- The bytes of a character, as numbers. -/
def bytesOfChar (c : Char) : List Nat :=
  (String.utf8EncodeChar c).map UInt8.toNat

/-- The bytes of a text, as numbers. -/
def bytesOf (text : List Char) : List Nat :=
  text.flatMap bytesOfChar

theorem map_toNat_toByteArray (text : String) :
    text.toByteArray.data.toList.map UInt8.toNat = bytesOf text.toList := by
  rw [← String.utf8Encode_toList, List.utf8Encode, List.data_toByteArray, List.map_flatMap]
  rfl

/-- The bytes of a lesser character are less, whatever follows them. -/
theorem bytesOfChar_append_lt {c d : Char} (h : c < d) (rest rest' : List Nat) :
    bytesOfChar c ++ rest < bytesOfChar d ++ rest' := by
  have hd : d.val.toNat < 0x110000 := by
    have hvalid := d.valid
    simp only [UInt32.isValidChar, Nat.isValidChar] at hvalid
    omega
  have h : c.val.toNat < d.val.toNat := UInt32.lt_iff_toNat_lt.1 h
  simp only [bytesOfChar, String.utf8EncodeChar]
  generalize c.val.toNat = m at *
  generalize d.val.toNat = n at *
  -- a byte after the first has six bits, so the numbers are compared digit by digit
  have hm : m / 4096 = m / 64 / 64 ∧ m / 262144 = m / 64 / 64 / 64 := by omega
  have hn : n / 4096 = n / 64 / 64 ∧ n / 262144 = n / 64 / 64 / 64 := by omega
  have hdigit : ∀ {m n : Nat}, m < n → m / 64 < n / 64 ∨ m / 64 = n / 64 ∧ m % 64 < n % 64 := by
    omega
  have hlast := hdigit h
  have hthird : m / 64 < n / 64 → _ := hdigit
  have hsecond : m / 64 / 64 < n / 64 / 64 → _ := hdigit
  rw [hm.1, hm.2, hn.1, hn.2]
  clear hm hn hdigit
  split_ifs <;>
    simp only [List.map_cons, List.map_nil, List.cons_append, List.nil_append,
      List.cons_lt_cons_iff, UInt8.toNat_ofNat', Nat.reducePow] <;>
    omega

/-- Texts are in the order of their bytes. -/
theorem bytesOf_lt_bytesOf {text text' : List Char} (h : text < text') :
    bytesOf text < bytesOf text' := by
  induction h with
  | @nil c rest =>
    have hne : bytesOf (c :: rest) ≠ [] := by
      simp [bytesOf, bytesOfChar, String.utf8EncodeChar_ne_nil]
    obtain ⟨byte, more, hbytes⟩ := List.exists_cons_of_ne_nil hne
    rw [hbytes]
    exact List.nil_lt_cons byte more
  | rel h => exact bytesOfChar_append_lt h _ _
  | cons _ ih => exact List.append_left_lt ih

/-! ### Components -/

/-- What a path names at one of its steps. -/
inductive Component where
  /-- The root. -/
  | root
  /-- The current directory, at the start of a path. -/
  | here
  /-- The directory above. -/
  | up
  | named (name : String)
deriving DecidableEq

namespace Component

/-- The rank of a component. The root is the least, then the current directory, then the directory
above. Names follow, in the order of their bytes. -/
def rank : Component → List Nat
  | root => [0]
  | here => [1]
  | up => [2]
  | named name => 3 :: name.toByteArray.data.toList.map UInt8.toNat

/-- What a path starts from. -/
def ofStart (start : List Char) : List Component :=
  if start = ['/'] then [root] else if start = ['.'] then [here] else []

/-- What a part of a path names. -/
def ofPart (part : List Char) : Component :=
  if part = ['.', '.'] then up else named (String.ofList part)

theorem rank_named_lt {first second : String} (h : first < second) :
    (named first).rank < (named second).rank := by
  rw [rank, rank, map_toNat_toByteArray, map_toNat_toByteArray]
  exact List.Lex.cons (bytesOf_lt_bytesOf h)

end Component

namespace Path

variable {path path' first first' second second' : Path} {name : String}

/-- What a path names, one after the other. -/
def components (path : Path) : List Component :=
  Component.ofStart (splitStart path.toList).1 ++ path.names.map Component.ofPart

/-- The order of paths by their components. -/
def Precedes (first second : Path) : Prop :=
  first.components.map Component.rank < second.components.map Component.rank

theorem Precedes.irrefl (path : Path) : ¬ path.Precedes path :=
  lt_irrefl (path.components.map Component.rank)

theorem Precedes.trans {third : Path} (h : first.Precedes second) (h' : second.Precedes third) :
    first.Precedes third :=
  lt_trans (b := second.components.map Component.rank) h h'

/-- A text starts from the same if more follows after a slash, unless it is empty. -/
theorem splitStart_append {text : List Char} (hne : text ≠ []) (rest : List Char) :
    (splitStart (text ++ '/' :: rest)).1 = (splitStart text).1 := by
  obtain ⟨c, more, rfl⟩ := List.exists_cons_of_ne_nil hne
  by_cases hroot : c = '/'
  · rw [hroot]
    rfl
  by_cases hdot : c = '.'
  · subst hdot
    cases more with
    | nil => rfl
    | cons d more =>
      by_cases hslash : d = '/'
      · rw [hslash]
        rfl
      · simp [splitStart, hslash]
  · simp [splitStart, hroot, hdot]

theorem splitStart_join (hpath : path ≠ "") (name : String) :
    (splitStart (path.join name).toList).1 = (splitStart path.toList).1 := by
  obtain ⟨text, htext, hends⟩ := exists_toList_join hpath name
  rw [htext]
  by_cases hempty : text = []
  · -- the path is the root
    subst hempty
    rw [hends.resolve_left (by simpa using hpath)]
    rfl
  · rcases hends with hends | hends <;> rw [hends]
    · exact splitStart_append hempty _
    · rw [splitStart_append hempty, splitStart_append hempty]

/-- The path to a name has one more component. -/
theorem components_join (hpath : path ≠ "") (hname : IsName name) :
    (path.join name).components = path.components ++ [.named name] := by
  have hlast : Component.ofPart name.toList = .named name := by
    have hup : name.toList ≠ ['.', '.'] := fun h ↦ hname.not_up (String.toList_injective h)
    rw [Component.ofPart, if_neg hup, String.ofList_toList]
  rw [components, splitStart_join hpath, names_join path hname, List.map_append,
    List.map_singleton, hlast, components, List.append_assoc]

/-! ### Paths that branch off each other -/

/-- What the first path names is on the way of the second. -/
def IsAbove (path below : Path) : Prop :=
  path.components <+: below.components

theorem IsAbove.refl (path : Path) : path.IsAbove path :=
  List.prefix_refl path.components

/-- The paths name the same up to a step where the first names something that comes before what the
second names there. -/
def Branches (first second : Path) : Prop :=
  ∃ shared earlier later rest rest', first.components = shared ++ earlier :: rest ∧
    second.components = shared ++ later :: rest' ∧ earlier.rank < later.rank

theorem isAbove_join (hpath : path ≠ "") (hname : IsName name) : path.IsAbove (path.join name) :=
  ⟨[.named name], (components_join hpath hname).symm⟩

theorem Branches.precedes (h : first.Branches second) : first.Precedes second := by
  obtain ⟨shared, earlier, later, rest, rest', hfirst, hsecond, hlt⟩ := h
  rw [Precedes, hfirst, hsecond, List.map_append, List.map_append]
  exact List.append_left_lt (.rel hlt)

/-- Whatever is at or below the paths branches off as they do. -/
theorem Branches.mono (h : first.Branches second) (hfirst : first.IsAbove first')
    (hsecond : second.IsAbove second') : first'.Branches second' := by
  obtain ⟨shared, earlier, later, rest, rest', heq, heq', hlt⟩ := h
  obtain ⟨more, hmore⟩ := hfirst
  obtain ⟨more', hmore'⟩ := hsecond
  refine ⟨shared, earlier, later, rest ++ more, rest' ++ more', ?_, ?_, hlt⟩
  · rw [← hmore, heq, List.append_assoc, List.cons_append]
  · rw [← hmore', heq', List.append_assoc, List.cons_append]

theorem branches_join {name' : String} (hpath : path ≠ "") (hname : IsName name)
    (hname' : IsName name') (hlt : name < name') : (path.join name).Branches (path.join name') :=
  ⟨path.components, .named name, .named name', [], [], components_join hpath hname,
    components_join hpath hname', Component.rank_named_lt hlt⟩

end Path

namespace FileTree

open RuleLint.Path

variable {tree tree' : FileTree} {path root : Path} {place : Place} {name : String}
  {unvisited unvisited' : List Place} {paths : List Path}

/-! ### The walk -/

/-- The names in a directory, sorted. -/
def sortedNames (tree : FileTree) (place : Place) : List String :=
  (tree.namesBelow place).mergeSort fun a b ↦ !decide (b < a)

theorem pathsBelow_eq : tree.pathsBelow path place = (tree.sortedNames place).map path.join := rfl

theorem mem_sortedNames : name ∈ tree.sortedNames place ↔ name ∈ tree.namesBelow place :=
  List.mem_mergeSort

theorem pairwise_mergeSort_names (names : List String) :
    (names.mergeSort fun a b ↦ !decide (b < a)).Pairwise (· ≤ ·) := by
  have hle : ∀ {a b : String}, (!decide (b < a)) = true ↔ a ≤ b := by
    intro a b
    rw [Bool.not_eq_true', decide_eq_false_iff_not, String.not_lt]
  have htrans : ∀ a b c : String, (!decide (b < a)) = true → (!decide (c < b)) = true →
      (!decide (c < a)) = true := by
    simp only [hle]
    exact fun a b c ↦ String.le_trans
  have htotal : ∀ a b : String, (!decide (b < a) || !decide (a < b)) = true := by
    simp only [Bool.or_eq_true, hle]
    exact String.le_total
  exact (List.pairwise_mergeSort htrans htotal names).imp hle.1

theorem pairwise_sortedNames (htree : tree.WellFormed) :
    (tree.sortedNames place).Pairwise (· < ·) := by
  have hnodup : (tree.sortedNames place).Nodup :=
    (List.mergeSort_perm _ _).nodup_iff.2 htree.nodup_namesBelow
  refine (pairwise_mergeSort_names (tree.namesBelow place)).imp₂ (fun a b hle hne ↦ ?_) hnodup
  exact String.not_le.1 fun hge ↦ hne (String.le_antisymm hle hge)

/-- The paths to the entries of a directory branch off each other, in the order of the walk. -/
theorem pairwise_pathsBelow (htree : tree.WellFormed) (hpath : path ≠ "") :
    (tree.pathsBelow path place).Pairwise Branches := by
  rw [pathsBelow_eq, List.pairwise_map]
  refine (pairwise_sortedNames htree).imp_of_mem fun {name name'} hname hname' hlt ↦ ?_
  exact branches_join hpath (htree.isName_of_mem (mem_sortedNames.1 hname))
    (htree.isName_of_mem (mem_sortedNames.1 hname')) hlt

theorem ne_empty_of_mem_pathsBelow {below : Path} (hpath : path ≠ "")
    (h : below ∈ tree.pathsBelow path place) : below ≠ "" := by
  obtain ⟨name, -, rfl⟩ := List.mem_map.1 h
  obtain ⟨text, htext, -⟩ := exists_toList_join hpath name
  intro hempty
  simp [hempty] at htext

theorem isAbove_of_mem_pathsBelow {below : Path} (htree : tree.WellFormed) (hpath : path ≠ "")
    (h : below ∈ tree.pathsBelow path place) : path.IsAbove below := by
  rw [pathsBelow_eq] at h
  obtain ⟨name, hname, rfl⟩ := List.mem_map.1 h
  exact isAbove_join hpath (htree.isName_of_mem (mem_sortedNames.1 hname))

/-- **A walk lists its files in order.** If the paths that it goes through branch off each other, so
do the files that it lists, each of which is at or below one of the paths. -/
theorem pairwise_ruleFilesFrom (htree : tree.WellFormed) (hne : ∀ path ∈ paths, path ≠ "")
    (hpaths : paths.Pairwise Branches) :
    (tree.ruleFilesFrom unvisited paths).Pairwise Branches ∧
      ∀ file ∈ tree.ruleFilesFrom unvisited paths, ∃ path ∈ paths, path.IsAbove file := by
  fun_induction FileTree.ruleFilesFrom tree unvisited paths with
  | case1 unvisited => simp
  | case2 unvisited path paths place hdirectory hhidden ih
  | case4 unvisited path paths place hdirectory hhidden hplace ih
  | case6 unvisited path paths hdirectory hrule ih =>
    obtain ⟨hfiles, habove⟩ :=
      ih (List.forall_mem_cons.1 hne).2 (List.pairwise_cons.1 hpaths).2
    refine ⟨hfiles, fun file hfile ↦ ?_⟩
    obtain ⟨other, hother, hfile⟩ := habove file hfile
    exact ⟨other, List.mem_cons_of_mem _ hother, hfile⟩
  -- The paths below a directory take its place, and branch off whatever it branches off.
  | case3 unvisited path paths place hdirectory hhidden hplace ih =>
    obtain ⟨hpath, hne⟩ := List.forall_mem_cons.1 hne
    obtain ⟨hfirst, hrest⟩ := List.pairwise_cons.1 hpaths
    obtain ⟨hfiles, habove⟩ := ih
      (fun other hother ↦ (List.mem_append.1 hother).elim (ne_empty_of_mem_pathsBelow hpath)
        (hne other))
      (List.pairwise_append.2 ⟨pairwise_pathsBelow htree hpath, hrest,
        fun below hbelow other hother ↦ (hfirst other hother).mono
          (isAbove_of_mem_pathsBelow htree hpath hbelow) (.refl _)⟩)
    refine ⟨hfiles, fun file hfile ↦ ?_⟩
    obtain ⟨other, hother, hfile⟩ := habove file hfile
    rcases List.mem_append.1 hother with hother | hother
    · exact ⟨path, List.mem_cons_self,
        (isAbove_of_mem_pathsBelow htree hpath hother).trans hfile⟩
    · exact ⟨other, List.mem_cons_of_mem _ hother, hfile⟩
  | case5 unvisited path paths hdirectory hrule ih =>
    obtain ⟨hfirst, hrest⟩ := List.pairwise_cons.1 hpaths
    obtain ⟨hfiles, habove⟩ := ih (List.forall_mem_cons.1 hne).2 hrest
    refine ⟨List.pairwise_cons.2 ⟨fun file hfile ↦ ?_, hfiles⟩,
      List.forall_mem_cons.2 ⟨⟨path, List.mem_cons_self, .refl _⟩, fun file hfile ↦ ?_⟩⟩
    · obtain ⟨other, hother, hfile⟩ := habove file hfile
      exact (hfirst other hother).mono (.refl _) hfile
    · obtain ⟨other, hother, hfile⟩ := habove file hfile
      exact ⟨other, List.mem_cons_of_mem _ hother, hfile⟩

theorem pairwise_ruleFiles {files : List Path} (htree : tree.WellFormed)
    (h : tree.ruleFiles root = .ok files) : files.Pairwise Precedes := by
  rw [ruleFiles] at h
  split at h
  · cases h
    exact .nil
  · rename_i start hresolve
    have hroot : root ≠ "" := (resolve_eq_ok_iff.1 hresolve).2.1
    split at h
    · cases h
      exact (pairwise_ruleFilesFrom htree (fun below ↦ ne_empty_of_mem_pathsBelow hroot)
        (pairwise_pathsBelow htree hroot)).1.imp Branches.precedes
    · cases h

theorem PathLeads.directory?_eq_none_of_false {links : Nat}
    (h : tree.PathLeads path links place) (hdirectory : tree.isDirectoryAt place = false) :
    tree.directory? path = none := by
  rw [Option.eq_none_iff_forall_ne_some]
  intro target htarget
  obtain ⟨hreaches, -⟩ := directory?_eq_some_iff.1 htarget
  obtain ⟨links', hleads⟩ := hreaches.leads
  obtain ⟨-, rfl⟩ := h.unique hleads
  exact Bool.false_ne_true (hdirectory.symm.trans hreaches.isDirectoryAt)

/-! ### The order of the entries -/

/-- What is found under a key does not depend on the order, if there is one thing for each key. -/
theorem lookup_eq_of_perm {entries entries' : List (Place × Entry)} (h : entries.Perm entries')
    (hnodup : (entries.map Prod.fst).Nodup) (place : Place) :
    entries.lookup place = entries'.lookup place := by
  induction h with
  | nil => rfl
  | cons entry _ ih =>
    rw [List.lookup_cons, List.lookup_cons, ih (List.nodup_cons.1 hnodup).2]
  | swap first second rest =>
    obtain ⟨place₁, entry₁⟩ := first
    obtain ⟨place₂, entry₂⟩ := second
    have hne : place₂ ≠ place₁ := by
      have hmem := (List.nodup_cons.1 hnodup).1
      exact fun heq ↦ hmem (heq ▸ List.mem_cons_self)
    rw [List.lookup_cons, List.lookup_cons, List.lookup_cons, List.lookup_cons]
    cases h₁ : place == place₁ with
    | false => rfl
    | true =>
      have h₂ : (place == place₂) = false := by
        rw [eq_of_beq h₁]
        exact beq_false_of_ne hne.symm
      rw [h₂]
  | trans hperm _ ih ih' => rw [ih hnodup, ih' ((hperm.map _).nodup_iff.1 hnodup)]

/-- The trees hold the same entries, in whatever order, and are seen from the same directory. -/
structure Rearranged (tree tree' : FileTree) : Prop where
  perm : tree.entries.Perm tree'.entries
  current_eq : tree.current = tree'.current

namespace Rearranged

variable (h : tree.Rearranged tree') (htree : tree.WellFormed)

include h htree

theorem entry?_eq (place : Place) : tree.entry? place = tree'.entry? place := by
  unfold entry?
  split
  · rfl
  · exact lookup_eq_of_perm h.perm htree.nodup place

theorem isDirectoryAt_eq (place : Place) :
    tree.isDirectoryAt place = tree'.isDirectoryAt place := by
  rw [isDirectoryAt, isDirectoryAt, h.entry?_eq htree]

theorem resolveFrom_eq (links : Nat) (place : Place) (names : List String) :
    tree.resolveFrom links place names = tree'.resolveFrom links place names := by
  have hentry := h.entry?_eq htree
  have hdirectory := h.isDirectoryAt_eq htree
  -- which branch is taken is decided by what stands at places
  fun_induction FileTree.resolveFrom tree links place names <;>
    rw [FileTree.resolveFrom.eq_def tree'] <;> simp_all

theorem resolve_eq (path : Path) : tree.resolve path = tree'.resolve path := by
  rw [resolve, resolve, h.current_eq, h.resolveFrom_eq htree]

theorem directory?_eq (path : Path) : tree.directory? path = tree'.directory? path := by
  simp only [directory?, h.resolve_eq htree, h.isDirectoryAt_eq htree]

theorem read_eq (path : Path) : tree.read path = tree'.read path := by
  simp only [read, h.resolve_eq htree, h.entry?_eq htree]

omit htree in
theorem pathsBelow_eq (path : Path) (place : Place) :
    tree.pathsBelow path place = tree'.pathsBelow path place := by
  have hperm : (tree.sortedNames place).Perm (tree'.sortedNames place) := by
    refine (List.mergeSort_perm _ _).trans (.trans ?_ (List.mergeSort_perm _ _).symm)
    exact h.perm.filterMap _
  have hsame : tree.sortedNames place = tree'.sortedNames place :=
    hperm.eq_of_pairwise (fun _ _ _ _ ↦ String.le_antisymm) (pairwise_mergeSort_names _)
      (pairwise_mergeSort_names _)
  rw [FileTree.pathsBelow_eq, FileTree.pathsBelow_eq, hsame]

theorem perm_directories : tree.directories.Perm tree'.directories := by
  have hfilter : tree.isDirectoryAt = tree'.isDirectoryAt := funext (h.isDirectoryAt_eq htree)
  rw [directories, directories, hfilter]
  exact ((h.perm.map _).filter _).cons _

theorem ruleFilesFrom_eq (hperm : unvisited.Perm unvisited') :
    tree.ruleFilesFrom unvisited paths = tree'.ruleFilesFrom unvisited' paths := by
  fun_induction FileTree.ruleFilesFrom tree unvisited paths generalizing unvisited' with
  | case1 => rw [ruleFilesFrom]
  | case2 unvisited path paths place hdirectory hhidden ih =>
    rw [h.directory?_eq htree] at hdirectory
    rw [ruleFilesFrom, hdirectory]
    dsimp only
    rw [if_pos hhidden, ih hperm]
  | case3 unvisited path paths place hdirectory hhidden hplace ih =>
    rw [h.directory?_eq htree] at hdirectory
    rw [ruleFilesFrom, hdirectory]
    dsimp only
    rw [if_neg hhidden, dif_pos (hperm.mem_iff.1 hplace), ih (hperm.erase place),
      h.pathsBelow_eq]
  | case4 unvisited path paths place hdirectory hhidden hplace ih =>
    rw [h.directory?_eq htree] at hdirectory
    rw [ruleFilesFrom, hdirectory]
    dsimp only
    rw [if_neg hhidden, dif_neg (mt hperm.mem_iff.2 hplace), ih hperm]
  | case5 unvisited path paths hdirectory hrule ih =>
    rw [h.directory?_eq htree] at hdirectory
    rw [ruleFilesFrom, hdirectory]
    dsimp only
    rw [if_pos hrule, ih hperm]
  | case6 unvisited path paths hdirectory hrule ih =>
    rw [h.directory?_eq htree] at hdirectory
    rw [ruleFilesFrom, hdirectory]
    dsimp only
    rw [if_neg hrule, ih hperm]

/-- **Trees with the same entries are walked alike.** -/
theorem ruleFiles_eq (path : Path) : tree.ruleFiles path = tree'.ruleFiles path := by
  rw [ruleFiles, ruleFiles, h.resolve_eq htree]
  cases tree'.resolve path with
  | error fault => rfl
  | ok place =>
    dsimp only
    rw [h.isDirectoryAt_eq htree, h.pathsBelow_eq,
      h.ruleFilesFrom_eq htree ((h.perm_directories htree).erase place)]

end Rearranged

end FileTree

/-! ### Linting a directory -/

section Directory

open FileTree

variable {tree tree' : FileTree} {root : Path} (suite : Suite) (config : Config)

/-- A result is for the path that was linted. -/
theorem path_lintListed (path : Path) :
    (lintListed tree suite config path).value.path = path := by
  rw [lintListed]
  cases tree.read path <;> rfl

theorem FileTree.Rearranged.lintDirectory_eq (h : tree.Rearranged tree') (htree : tree.WellFormed)
    (root : Path) :
    lintDirectory tree suite config root = lintDirectory tree' suite config root := by
  have hlisted : lintListed tree suite config = lintListed tree' suite config := by
    funext path
    rw [lintListed, lintListed, h.read_eq htree]
  rw [lintDirectory, lintDirectory, h.ruleFiles_eq htree, hlisted]

/-- **The results below a directory come in the order of their paths.** Each path comes before the
ones after it, component by component, so none is there twice. The order in which the file system
lists its entries makes no difference. -/
theorem lintDirectory_in_path_order (htree : tree.WellFormed) :
    (∀ results, lintDirectory tree suite config root = .ok results →
      (results.value.map FileResult.path).Pairwise Path.Precedes ∧
        (results.value.map FileResult.path).Nodup) ∧
      ∀ tree', tree.Rearranged tree' →
        lintDirectory tree' suite config root = lintDirectory tree suite config root := by
  refine ⟨fun results hresults ↦ ?_,
    fun tree' h ↦ (h.lintDirectory_eq suite config htree root).symm⟩
  rw [lintDirectory] at hresults
  split at hresults
  · cases hresults
  · rename_i files hfiles
    obtain rfl := (Except.ok.inj hresults).symm
    have hpaths : ((files.map (lintListed tree suite config)).map Noted.value).map FileResult.path =
        files := by
      rw [List.map_map, List.map_map]
      exact List.map_id'' (path_lintListed suite config) files
    dsimp only
    rw [hpaths]
    have horder := FileTree.pairwise_ruleFiles htree hfiles
    refine ⟨horder, horder.imp fun {first second} h heq ↦ ?_⟩
    exact Path.Precedes.irrefl first (heq ▸ h)

/-- A tree with a file and a directory that have the same name up to the dot. -/
def interleavedTree : FileTree where
  entries := [(["a"], .directory), (["a", "b.co"], .file ⟨#[]⟩), (["a.co"], .file ⟨#[]⟩)]
  current := []

theorem ruleFiles_interleavedTree :
    interleavedTree.ruleFiles "/" = .ok ["/a/b.co", "/a.co"] := by
  have ha : interleavedTree.Holds [] "a" .directory :=
    ⟨by decide, by decide, by decide, by decide, rfl⟩
  have hb : interleavedTree.Holds ["a"] "b.co" (.file ⟨#[]⟩) :=
    ⟨by decide, by decide, by decide, by decide, rfl⟩
  have ha' : interleavedTree.Holds [] "a.co" (.file ⟨#[]⟩) :=
    ⟨by decide, by decide, by decide, by decide, rfl⟩
  have hroot : interleavedTree.PathLeads "/" 0 [] :=
    pathLeads_of_leads (originOf_root _) (by decide)
      (.idle (by decide) (.inl rfl) (.idle (by decide) (.inl rfl) (.here _)))
  have hpath : interleavedTree.PathLeads "/a" 0 ["a"] :=
    (hroot.join_iff (by decide) (by decide)).2 ⟨0, rfl, .down ha (by simp) (.here _)⟩
  have hfile : interleavedTree.PathLeads "/a/b.co" 0 ["a", "b.co"] :=
    (hpath.join_iff (by decide) (by decide)).2 ⟨0, rfl, .down hb (by simp) (.here _)⟩
  have hfile' : interleavedTree.PathLeads "/a.co" 0 ["a.co"] :=
    (hroot.join_iff (by decide) (by decide)).2 ⟨0, rfl, .down ha' (by simp) (.here _)⟩
  have hbelow : interleavedTree.pathsBelow "/" [] = ["/a", "/a.co"] := by
    have hnames : interleavedTree.namesBelow [] = ["a", "a.co"] := by decide
    rw [pathsBelow, hnames, List.mergeSort_of_pairwise (by decide)]
    decide
  have hbelow' : interleavedTree.pathsBelow "/a" ["a"] = ["/a/b.co"] := by
    have hnames : interleavedTree.namesBelow ["a"] = ["b.co"] := by decide
    rw [pathsBelow, hnames, List.mergeSort_singleton]
    decide
  have hresolve : interleavedTree.resolve "/" = .ok [] :=
    resolve_eq_ok_iff.2 ⟨by decide, by decide, by decide, 0, by decide, hroot⟩
  have hdirectory := hpath.directory?_eq_some (by decide) (by decide) (by decide)
  have hnone := hfile.directory?_eq_none_of_false (by decide)
  have hnone' := hfile'.directory?_eq_none_of_false (by decide)
  have hhidden : isHidden "/a" = false := by decide +kernel
  have hrule : isRulePath "/a/b.co" = true ∧ isRulePath "/a.co" = true := by decide +kernel
  have hunvisited : interleavedTree.directories.erase [] = [["a"]] := by decide
  rw [ruleFiles, hresolve]
  dsimp only
  rw [if_pos (by decide), hbelow, hunvisited]
  simp [ruleFilesFrom, hdirectory, hbelow', hhidden, hnone, hnone', hrule]

/-- The file in the directory comes before the one beside it, although a slash comes after a dot. It
does so if the entries are listed the other way round. -/
theorem lintDirectory_interleavedTree :
    ∃ results, lintDirectory interleavedTree .standard .empty "/" = .ok results ∧
      results.value.map FileResult.path = ["/a/b.co", "/a.co"] ∧
      (results.value.map FileResult.path).Pairwise Path.Precedes ∧
      lintDirectory ⟨interleavedTree.entries.reverse, []⟩ .standard .empty "/" = .ok results := by
  have htree : interleavedTree.WellFormed := wellFormed_of_getLast? (by decide) (by decide)
  obtain ⟨horder, hsame⟩ := lintDirectory_in_path_order .standard .empty htree
  obtain ⟨results, hresults, hpaths⟩ :
      ∃ results, lintDirectory interleavedTree .standard .empty "/" = .ok results ∧
        results.value.map FileResult.path = ["/a/b.co", "/a.co"] := by
    rw [lintDirectory, ruleFiles_interleavedTree]
    exact ⟨_, rfl, by simp only [List.map_cons, List.map_nil, path_lintListed]⟩
  have hreversed : interleavedTree.Rearranged ⟨interleavedTree.entries.reverse, []⟩ :=
    ⟨(List.reverse_perm _).symm, rfl⟩
  exact ⟨results, hresults, hpaths, (horder results hresults).1,
    (hsame _ hreversed).trans hresults⟩

end Directory

end RuleLint
