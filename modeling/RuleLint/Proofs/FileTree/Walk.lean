import Mathlib.Data.List.Perm.Basic
import Mathlib.Logic.Relation
import RuleLint.Proofs.FileTree.Directories

/-!
# Walks through directories

One directory *enters* another if it has an entry that is the other one, links followed, with a name
that does not start with a dot. `ruleFilesFrom` searches the directories depth first. What it goes
through is described by `Explored`: the directories that it enters, each one once, and the entries
that it lists. One lemma says what each of its steps does to that, and `exists_explored` puts them
together along the recursion.

The search goes by the paths that it makes up on its way. Those of its directories are *trails*:
they enter no directory twice. As long as the trails stay within the limits of the file system
(`WithinLimits`) their entries are directories just if the paths say so. Then the search enters the
directories that can be reached, and lists their rule files (`exists_ruleFiles`).
-/

namespace RuleLint.FileTree

open RuleLint.Path

variable {tree : FileTree} {path root : Path} {place target start : Place} {name : String}
  {visited : List Place}

/-! ### Reachable directories -/

/-- A directory has an entry that is the other one and is not hidden. -/
def Enters (tree : FileTree) (place target : Place) : Prop :=
  ∃ name ∈ tree.namesBelow place, name.startsWith "." = false ∧ tree.Opens place name target

/-- A rule file in a directory that can be reached. -/
structure IsRuleEntry (tree : FileTree) (start place : Place) (name : String) : Prop where
  reachable : Relation.ReflTransGen tree.Enters start place
  mem : name ∈ tree.namesBelow place
  not_opens : ∀ target, ¬ tree.Opens place name target
  isRuleName : IsRuleName name

/-- The path leads from directory to directory, and to none of them twice. The directories on the
way are `visited`. -/
inductive Trail (tree : FileTree) (root : Path) (start : Place) :
    Path → List Place → Place → Prop where
  | start : Trail tree root start root [] start
  | enter {path : Path} {visited : List Place} {place target : Place} {name : String}
      (htrail : Trail tree root start path visited place) (hname : name ∈ tree.namesBelow place)
      (hhidden : name.startsWith "." = false) (hopens : tree.Opens place name target)
      (hnew : target ∉ place :: visited) :
      Trail tree root start (path.join name) (place :: visited) target

/-- The trails stay within the limits of the file system, and so do the paths to the directories
that are seen from them. -/
def WithinLimits (tree : FileTree) (root : Path) (start : Place) : Prop :=
  ∀ path visited place, tree.Trail root start path visited place →
    ∀ name ∈ tree.namesBelow place, ∀ target, tree.Opens place name target →
      tree.Fits (path.join name)

theorem Trail.reaches (h : tree.Trail root start path visited place) (htree : tree.WellFormed)
    (hroot : tree.Reaches root start) : tree.Reaches path place := by
  induction h with
  | start => exact hroot
  | enter _ hname _ hopens _ ih => exact (ih.join_iff (htree.isName_of_mem hname)).2 hopens

theorem Trail.reachable (h : tree.Trail root start path visited place) :
    Relation.ReflTransGen tree.Enters start place := by
  induction h with
  | start => exact .refl
  | enter _ hname hhidden hopens _ ih => exact ih.tail ⟨_, hname, hhidden, hopens⟩

/-! ### The search -/

/-- A directory with the path that it is entered by. -/
structure Visit where
  path : Path
  place : Place

namespace Visit

/-- The entries of a directory, in the order of their names. -/
def entries (tree : FileTree) (visit : Visit) : List (Visit × String) :=
  ((tree.namesBelow visit.place).mergeSort fun a b ↦ !decide (b < a)).map (visit, ·)

/-- The path to an entry of a directory. -/
def pathTo (entry : Visit × String) : Path :=
  entry.1.path.join entry.2

/-- Whether an entry is listed. -/
def isListed (tree : FileTree) (entry : Visit × String) : Bool :=
  (tree.directory? (pathTo entry)).isNone && isRulePath (pathTo entry)

theorem map_pathTo_entries (visit : Visit) :
    (visit.entries tree).map pathTo = tree.pathsBelow visit.path visit.place := by
  rw [entries, List.map_map]
  rfl

theorem mem_entries {visit visit' : Visit} :
    (visit', name) ∈ visit.entries tree ↔ visit' = visit ∧ name ∈ tree.namesBelow visit.place := by
  rw [entries, List.mem_map]
  constructor
  · rintro ⟨name', hname, heq⟩
    obtain ⟨rfl, rfl⟩ := Prod.mk.inj heq
    exact ⟨rfl, List.mem_mergeSort.1 hname⟩
  · rintro ⟨rfl, hname⟩
    exact ⟨name, List.mem_mergeSort.2 hname, rfl⟩

end Visit

open Visit

variable {unvisited : List Place} {visit : Visit} {entry : Visit × String}
  {entries found : List (Visit × String)} {entered : List Visit}

/-- The entry of a directory to which a trail leads through directories that need not be entered any
more. -/
structure Ready (tree : FileTree) (root : Path) (start : Place) (unvisited : List Place)
    (entry : Visit × String) : Prop where
  trail : ∃ visited, tree.Trail root start entry.1.path visited entry.1.place ∧
    ∀ place ∈ entry.1.place :: visited, place ∉ unvisited
  mem : entry.2 ∈ tree.namesBelow entry.1.place

/-- What a search from some entries enters and lists where the directories at the places `unvisited`
may still be entered. -/
structure Explored (tree : FileTree) (root : Path) (start : Place) (unvisited : List Place)
    (entries : List (Visit × String)) (entered : List Visit) (found : List (Visit × String)) :
    Prop where
  nodup : (entered.map Visit.place).Nodup
  subset : ∀ visit ∈ entered, visit.place ∈ unvisited
  trail : ∀ visit ∈ entered, ∃ visited, tree.Trail root start visit.path visited visit.place
  closed : ∀ entry ∈ entries ++ entered.flatMap (Visit.entries tree), ∀ target,
    tree.directory? (pathTo entry) = some target → isHidden (pathTo entry) = false →
      target ∈ entered.map Visit.place ∨ target ∉ unvisited
  perm : found.Perm ((entries ++ entered.flatMap (Visit.entries tree)).filter (isListed tree))

theorem Explored.nil : tree.Explored root start unvisited [] [] [] where
  nodup := List.nodup_nil
  subset := by simp
  trail := by simp
  closed := by simp
  perm := .refl _

/-- An entry is passed over if it is not listed and no directory that could be entered. -/
theorem Explored.skip (h : tree.Explored root start unvisited entries entered found)
    (hlisted : isListed tree entry = false)
    (hentry : ∀ target, tree.directory? (pathTo entry) = some target →
      isHidden (pathTo entry) = false → target ∉ unvisited) :
    tree.Explored root start unvisited (entry :: entries) entered found where
  nodup := h.nodup
  subset := h.subset
  trail := h.trail
  closed := by
    rintro entry' hmem target hdirectory hhidden
    rcases List.mem_cons.1 hmem with rfl | hmem
    · exact .inr (hentry target hdirectory hhidden)
    · exact h.closed entry' hmem target hdirectory hhidden
  perm := by
    rw [List.cons_append, List.filter_cons_of_neg (by simp [hlisted])]
    exact h.perm

theorem Explored.list (h : tree.Explored root start unvisited entries entered found)
    (hlisted : isListed tree entry = true) :
    tree.Explored root start unvisited (entry :: entries) entered (entry :: found) where
  nodup := h.nodup
  subset := h.subset
  trail := h.trail
  closed := by
    rintro entry' hmem target hdirectory hhidden
    rcases List.mem_cons.1 hmem with rfl | hmem
    · simp [isListed, hdirectory] at hlisted
    · exact h.closed entry' hmem target hdirectory hhidden
  perm := by
    rw [List.cons_append, List.filter_cons_of_pos hlisted]
    exact h.perm.cons entry

/-- A directory is entered, and its entries are gone through before the others. -/
theorem Explored.enter (hnodup : unvisited.Nodup) (hplace : place ∈ unvisited)
    (hdirectory : tree.directory? (pathTo entry) = some place)
    (htrail : ∃ visited, tree.Trail root start (pathTo entry) visited place)
    (h : tree.Explored root start (unvisited.erase place)
      (Visit.entries tree ⟨pathTo entry, place⟩ ++ entries) entered found) :
    tree.Explored root start unvisited (entry :: entries) (⟨pathTo entry, place⟩ :: entered)
      found where
  nodup := by
    rw [List.map_cons, List.nodup_cons]
    refine ⟨fun hmem ↦ ?_, h.nodup⟩
    obtain ⟨visit, hvisit, heq⟩ := List.mem_map.1 hmem
    exact hnodup.not_mem_erase (heq ▸ h.subset visit hvisit)
  subset := by
    rintro visit hvisit
    rcases List.mem_cons.1 hvisit with rfl | hvisit
    · exact hplace
    · exact List.mem_of_mem_erase (h.subset visit hvisit)
  trail := by
    rintro visit hvisit
    rcases List.mem_cons.1 hvisit with rfl | hvisit
    · exact htrail
    · exact h.trail visit hvisit
  closed := by
    rintro entry' hmem target htarget hhidden
    by_cases hsame : target = place
    · exact .inl (hsame ▸ List.mem_cons_self)
    have herase : target ∈ unvisited ↔ target ∈ unvisited.erase place :=
      (List.mem_erase_of_ne hsame).symm
    rw [herase]
    rw [List.cons_append, List.flatMap_cons] at hmem
    rcases List.mem_cons.1 hmem with rfl | hmem
    · rw [hdirectory] at htarget
      exact absurd (Option.some.inj htarget).symm hsame
    · refine (h.closed entry' ?_ target htarget hhidden).imp_left (List.mem_cons_of_mem _)
      rw [List.mem_append, List.mem_append] at hmem
      rw [List.mem_append, List.mem_append, or_assoc]
      exact or_left_comm.1 hmem
  perm := by
    have hlisted : isListed tree entry = false := by simp [isListed, hdirectory]
    rw [List.cons_append, List.filter_cons_of_neg (by simp [hlisted]), List.flatMap_cons]
    refine h.perm.trans (.filter _ ?_)
    rw [List.append_assoc, ← List.append_assoc entries, ← List.append_assoc]
    exact List.perm_append_comm.append_right _

/-- A trail goes on to a directory that may still be entered. -/
theorem Ready.enter (h : tree.Ready root start unvisited entry) (htree : tree.WellFormed)
    (hroot : tree.Reaches root start) (hplace : place ∈ unvisited)
    (hdirectory : tree.directory? (pathTo entry) = some place)
    (hhidden : isHidden (pathTo entry) = false) :
    ∃ visited, tree.Trail root start (pathTo entry) (entry.1.place :: visited) place ∧
      ∀ place ∈ entry.1.place :: visited, place ∉ unvisited := by
  obtain ⟨visited, htrail, hvisited⟩ := h.trail
  have hreaches := htrail.reaches htree hroot
  have hname := htree.isName_of_mem h.mem
  rw [pathTo, isHidden_join hreaches.ne_empty hname] at hhidden
  have hopens := (hreaches.join_iff hname).1 (directory?_eq_some_iff.1 hdirectory).1
  exact ⟨visited, htrail.enter h.mem hhidden hopens fun hmem ↦ hvisited _ hmem hplace, hvisited⟩

theorem Ready.mono {fewer : List Place} (h : tree.Ready root start unvisited entry)
    (hsubset : fewer ⊆ unvisited) : tree.Ready root start fewer entry := by
  obtain ⟨⟨visited, htrail, hvisited⟩, hmem⟩ := h
  exact ⟨⟨visited, htrail, fun place hplace hfewer ↦ hvisited place hplace (hsubset hfewer)⟩, hmem⟩

/-- **A search goes through what it is described by.** -/
theorem exists_explored (htree : tree.WellFormed) (hroot : tree.Reaches root start)
    (hnodup : unvisited.Nodup) (hready : ∀ entry ∈ entries, tree.Ready root start unvisited entry) :
    ∃ entered found, tree.Explored root start unvisited entries entered found ∧
      tree.ruleFilesFrom unvisited (entries.map pathTo) = found.map pathTo := by
  generalize hpaths : entries.map pathTo = paths
  fun_induction FileTree.ruleFilesFrom tree unvisited paths generalizing entries with
  | case1 unvisited =>
    obtain rfl := List.map_eq_nil_iff.1 hpaths
    exact ⟨[], [], .nil, rfl⟩
  -- A hidden directory is passed over.
  | case2 unvisited path paths place hdirectory hhidden ih =>
    obtain ⟨entry, entries, rfl, rfl, hrest⟩ := List.map_eq_cons_iff.1 hpaths
    obtain ⟨entered, found, hexplored, hfound⟩ := ih hnodup (List.forall_mem_cons.1 hready).2 hrest
    refine ⟨entered, found, hexplored.skip (by simp [isListed, hdirectory]) ?_, hfound⟩
    intro target _ hshown
    simp [hhidden] at hshown
  -- A directory is entered: its entries come first, and it is not entered again.
  | case3 unvisited path paths place hdirectory hhidden hplace ih =>
    obtain ⟨entry, entries, rfl, rfl, hrest⟩ := List.map_eq_cons_iff.1 hpaths
    obtain ⟨visited, htrail, hvisited⟩ := (hready entry List.mem_cons_self).enter htree hroot hplace
      hdirectory (by simpa using hhidden)
    have hready' : ∀ entry' ∈ Visit.entries tree ⟨pathTo entry, place⟩ ++ entries,
        tree.Ready root start (unvisited.erase place) entry' := by
      intro entry' hentry'
      rcases List.mem_append.1 hentry' with hentry' | hentry'
      · obtain ⟨visit, name⟩ := entry'
        obtain ⟨rfl, hname⟩ := mem_entries.1 hentry'
        refine ⟨⟨_, htrail, fun other hother ↦ ?_⟩, hname⟩
        rcases List.mem_cons.1 hother with rfl | hother
        · exact hnodup.not_mem_erase
        · exact fun herase ↦ hvisited other hother (List.mem_of_mem_erase herase)
      · exact (hready entry' (List.mem_cons_of_mem _ hentry')).mono List.erase_subset
    obtain ⟨entered, found, hexplored, hfound⟩ := ih (hnodup.erase place) hready' (by
      rw [List.map_append, map_pathTo_entries, hrest])
    exact ⟨_, found, hexplored.enter hnodup hplace hdirectory ⟨_, htrail⟩, hfound⟩
  -- A directory that was entered before is passed over.
  | case4 unvisited path paths place hdirectory hhidden hplace ih =>
    obtain ⟨entry, entries, rfl, rfl, hrest⟩ := List.map_eq_cons_iff.1 hpaths
    obtain ⟨entered, found, hexplored, hfound⟩ := ih hnodup (List.forall_mem_cons.1 hready).2 hrest
    refine ⟨entered, found, hexplored.skip (by simp [isListed, hdirectory]) ?_, hfound⟩
    intro target htarget _
    rw [hdirectory] at htarget
    exact Option.some.inj htarget ▸ hplace
  | case5 unvisited path paths hdirectory hrule ih =>
    obtain ⟨entry, entries, rfl, rfl, hrest⟩ := List.map_eq_cons_iff.1 hpaths
    obtain ⟨entered, found, hexplored, hfound⟩ := ih hnodup (List.forall_mem_cons.1 hready).2 hrest
    refine ⟨entered, entry :: found, hexplored.list (by simp [isListed, hdirectory, hrule]), ?_⟩
    rw [hfound, List.map_cons]
  | case6 unvisited path paths hdirectory hrule ih =>
    obtain ⟨entry, entries, rfl, rfl, hrest⟩ := List.map_eq_cons_iff.1 hpaths
    obtain ⟨entered, found, hexplored, hfound⟩ := ih hnodup (List.forall_mem_cons.1 hready).2 hrest
    refine ⟨entered, found, hexplored.skip (by simp [isListed, hrule]) ?_, hfound⟩
    intro target htarget
    simp [hdirectory] at htarget

/-! ### Rule files -/

/-- The place and the name of an entry. -/
def Visit.location (entry : Visit × String) : Place × String :=
  (entry.1.place, entry.2)

theorem mem_map_place {visits : List Visit} :
    place ∈ visits.map Visit.place ↔ ∃ path, ⟨path, place⟩ ∈ visits := by
  rw [List.mem_map]
  constructor
  · rintro ⟨visit, hvisit, rfl⟩
    exact ⟨visit.path, hvisit⟩
  · rintro ⟨path, hvisit⟩
    exact ⟨_, hvisit, rfl⟩

theorem nodup_location {visits : List Visit} (htree : tree.WellFormed)
    (h : (visits.map Visit.place).Nodup) :
    ((visits.flatMap (Visit.entries tree)).map location).Nodup := by
  rw [List.map_flatMap, List.nodup_flatMap]
  constructor
  · intro visit _
    rw [Visit.entries, List.map_map]
    refine List.Nodup.map (fun name name' heq ↦ (Prod.mk.inj heq).2) ?_
    exact (List.mergeSort_perm _ _).nodup_iff.2 htree.nodup_namesBelow
  · refine (List.pairwise_map.1 h).imp fun {visit visit'} hne ↦ ?_
    -- entries of different directories stand at different places
    rintro ⟨place, name⟩ hentry hentry'
    obtain ⟨⟨_, _⟩, hmem, hlocation⟩ := List.mem_map.1 hentry
    obtain ⟨⟨_, _⟩, hmem', hlocation'⟩ := List.mem_map.1 hentry'
    obtain ⟨rfl, -⟩ := mem_entries.1 hmem
    obtain ⟨rfl, -⟩ := mem_entries.1 hmem'
    exact hne ((Prod.mk.inj hlocation).1.trans (Prod.mk.inj hlocation').1.symm)

/-- A trail leads to the first directory and to each one that is entered. -/
theorem Explored.exists_trail (h : tree.Explored root start unvisited entries entered found)
    (hvisit : visit ∈ (⟨root, start⟩ :: entered : List Visit)) :
    ∃ visited, tree.Trail root start visit.path visited visit.place := by
  rcases List.mem_cons.1 hvisit with rfl | hvisit
  · exact ⟨[], .start⟩
  · exact h.trail visit hvisit

section Limits

variable (htree : tree.WellFormed) (hroot : tree.Reaches root start)
  (hlimits : tree.WithinLimits root start)

include htree hroot hlimits

/-- Within the limits, the path to an entry is found to lead to a directory if the entry is one. -/
theorem Trail.directory?_join_iff (h : tree.Trail root start path visited place)
    (hname : name ∈ tree.namesBelow place) :
    tree.directory? (path.join name) = some target ↔ tree.Opens place name target := by
  rw [directory?_eq_some_iff, (h.reaches htree hroot).join_iff (htree.isName_of_mem hname)]
  exact and_iff_left_of_imp (hlimits path visited place h name hname target)

theorem Trail.isListed_iff (h : tree.Trail root start path visited place)
    (hname : name ∈ tree.namesBelow place) :
    isListed tree (⟨path, place⟩, name) = true ↔
      (∀ target, ¬ tree.Opens place name target) ∧ IsRuleName name := by
  have hpath := (h.reaches htree hroot).ne_empty
  rw [isListed, Bool.and_eq_true, pathTo, isRulePath_join hpath (htree.isName_of_mem hname),
    Option.isNone_iff_eq_none, Option.eq_none_iff_forall_ne_some]
  simp only [ne_eq, h.directory?_join_iff htree hroot hlimits hname]

/-- The search from a directory enters every directory that can be reached but the first one. -/
theorem Explored.reachable_iff
    (h : tree.Explored root start (tree.directories.erase start)
      (Visit.entries tree ⟨root, start⟩) entered found) :
    Relation.ReflTransGen tree.Enters start place ↔
      place ∈ (⟨root, start⟩ :: entered : List Visit).map Visit.place := by
  constructor
  · intro hreach
    induction hreach with
    | refl => exact List.mem_cons_self
    | @tail place target _ henters ih =>
      obtain ⟨name, hname, hhidden, hopens⟩ := henters
      obtain ⟨path, hvisit⟩ := mem_map_place.1 ih
      obtain ⟨visited, htrail⟩ := h.exists_trail hvisit
      have hmem : (⟨path, place⟩, name) ∈
          Visit.entries tree ⟨root, start⟩ ++ entered.flatMap (Visit.entries tree) := by
        rw [← List.flatMap_cons]
        exact List.mem_flatMap.2 ⟨_, hvisit, mem_entries.2 ⟨rfl, hname⟩⟩
      have hdirectory := (htrail.directory?_join_iff htree hroot hlimits hname).2 hopens
      have hshown : isHidden (path.join name) = false := by
        rw [isHidden_join (htrail.reaches htree hroot).ne_empty (htree.isName_of_mem hname),
          hhidden]
      by_cases hstart : target = start
      · exact hstart ▸ List.mem_cons_self
      refine List.mem_cons_of_mem _ ((h.closed _ hmem target hdirectory hshown).resolve_right ?_)
      exact not_not_intro ((List.mem_erase_of_ne hstart).2 (mem_directories.2 hopens.2))
  · intro hmem
    obtain ⟨path, hvisit⟩ := mem_map_place.1 hmem
    obtain ⟨visited, htrail⟩ := h.exists_trail hvisit
    exact htrail.reachable

/-- What a search from a directory lists. -/
theorem Explored.mem_found_iff
    (h : tree.Explored root start (tree.directories.erase start)
      (Visit.entries tree ⟨root, start⟩) entered found) :
    entry ∈ found ↔ entry.1 ∈ (⟨root, start⟩ :: entered : List Visit) ∧
      tree.IsRuleEntry start entry.1.place entry.2 := by
  obtain ⟨⟨path, place⟩, name⟩ := entry
  have hfound : (⟨path, place⟩, name) ∈ found ↔
      ((⟨path, place⟩ : Visit) ∈ (⟨root, start⟩ :: entered : List Visit) ∧
        name ∈ tree.namesBelow place) ∧ isListed tree (⟨path, place⟩, name) = true := by
    rw [h.perm.mem_iff, List.mem_filter, ← List.flatMap_cons, List.mem_flatMap]
    refine and_congr_left fun _ ↦
      ⟨?_, fun ⟨hvisit, hname⟩ ↦ ⟨_, hvisit, mem_entries.2 ⟨rfl, hname⟩⟩⟩
    rintro ⟨visit, hvisit, hentry⟩
    obtain ⟨rfl, hname⟩ := mem_entries.1 hentry
    exact ⟨hvisit, hname⟩
  rw [hfound]
  constructor
  · rintro ⟨⟨hvisit, hname⟩, hlisted⟩
    obtain ⟨visited, htrail⟩ := h.exists_trail hvisit
    obtain ⟨hopens, hrule⟩ := (htrail.isListed_iff htree hroot hlimits hname).1 hlisted
    exact ⟨hvisit, htrail.reachable, hname, hopens, hrule⟩
  · rintro ⟨hvisit, hentry⟩
    obtain ⟨visited, htrail⟩ := h.exists_trail hvisit
    exact ⟨⟨hvisit, hentry.mem⟩,
      (htrail.isListed_iff htree hroot hlimits hentry.mem).2 ⟨hentry.not_opens, hentry.isRuleName⟩⟩

/-- **The rule files of the directories that can be reached are listed, each one once.** -/
theorem exists_ruleFiles (hfits : tree.Fits root) :
    ∃ found : List (Visit × String), tree.ruleFiles root = .ok (found.map pathTo) ∧
      (found.map location).Nodup ∧
      (∀ place name, (place, name) ∈ found.map location ↔ tree.IsRuleEntry start place name) ∧
      ∀ entry ∈ found, tree.Reaches entry.1.path entry.1.place := by
  have hnodup := htree.nodup_directories
  have hready : ∀ entry ∈ Visit.entries tree ⟨root, start⟩,
      tree.Ready root start (tree.directories.erase start) entry := by
    rintro ⟨visit, name⟩ hentry
    obtain ⟨rfl, hname⟩ := mem_entries.1 hentry
    refine ⟨⟨[], .start, fun place hplace ↦ ?_⟩, hname⟩
    rw [List.mem_singleton.1 hplace]
    exact hnodup.not_mem_erase
  obtain ⟨entered, found, hexplored, hfound⟩ :=
    exists_explored htree hroot (hnodup.erase start) hready
  have hmem : ∀ {entry : Visit × String}, entry ∈ found ↔ _ :=
    hexplored.mem_found_iff htree hroot hlimits
  refine ⟨found, ?_, ?_, fun place name ↦ ⟨fun hlisted ↦ ?_, fun hentry ↦ ?_⟩,
    fun entry hentry ↦ ?_⟩
  · have hdirectory := directory?_eq_some_iff.2 ⟨hroot, hfits⟩
    rw [directory?] at hdirectory
    rw [ruleFiles]
    cases hresolve : tree.resolve root with
    | error fault => simp [hresolve] at hdirectory
    | ok place =>
      rw [hresolve] at hdirectory
      obtain ⟨hplace, heq⟩ := Option.ite_none_right_eq_some.1 hdirectory
      obtain rfl := Option.some.inj heq
      dsimp only
      rw [if_pos hplace, ← hfound, map_pathTo_entries]
  · refine (hexplored.perm.map location).nodup_iff.2 ?_
    rw [← List.flatMap_cons]
    refine (nodup_location htree ?_).sublist (List.filter_sublist.map location)
    refine List.nodup_cons.2 ⟨fun hstart ↦ ?_, hexplored.nodup⟩
    obtain ⟨visit, hvisit, heq⟩ := List.mem_map.1 hstart
    exact hnodup.not_mem_erase (heq ▸ hexplored.subset visit hvisit)
  · obtain ⟨entry, hentry, hlocation⟩ := List.mem_map.1 hlisted
    obtain ⟨rfl, rfl⟩ := Prod.mk.inj hlocation
    exact (hmem.1 hentry).2
  · obtain ⟨path, hvisit⟩ :=
      mem_map_place.1 ((hexplored.reachable_iff htree hroot hlimits).1 hentry.reachable)
    exact List.mem_map.2 ⟨(⟨path, place⟩, name), hmem.2 ⟨hvisit, hentry⟩, rfl⟩
  · obtain ⟨visited, htrail⟩ := hexplored.exists_trail (hmem.1 hentry).1
    exact htrail.reaches htree hroot

end Limits

end RuleLint.FileTree
