import Mathlib.Data.List.Nodup
import RuleLint.Proofs.FileTree.Paths

/-!
# Directories and their entries

An entry of a directory is itself a directory if its name leads to one, links followed
(`FileTree.Opens`). A path to an entry leads to a directory just if the entry is that directory
(`Reaches.join_iff`), and the file system finds it if the path is within its limits
(`directory?_eq_some_iff`).
-/

namespace RuleLint.FileTree

open RuleLint.Path

variable {tree : FileTree} {path : Path} {place target : Place} {name : String}

/-- What can be relied on in a file system: nothing stands at a place twice, and everything has a
name. -/
structure WellFormed (tree : FileTree) : Prop where
  nodup : (tree.entries.map Prod.fst).Nodup
  isName : ∀ place ∈ tree.entries.map Prod.fst, ∃ above name, place = above ++ [name] ∧ IsName name

theorem wellFormed_of_getLast? (hnodup : (tree.entries.map Prod.fst).Nodup)
    (hname : ∀ place ∈ tree.entries.map Prod.fst, ∃ name ∈ place.getLast?, IsName name) :
    tree.WellFormed where
  nodup := hnodup
  isName := by
    intro place hplace
    obtain ⟨name, hlast, hname⟩ := hname place hplace
    obtain ⟨above, rfl⟩ := List.getLast?_eq_some_iff.1 hlast
    exact ⟨above, name, rfl, hname⟩

/-- The entry of a directory is a directory, which is at the place `target` if links are
followed. -/
def Opens (tree : FileTree) (place : Place) (name : String) (target : Place) : Prop :=
  (∃ links, tree.Leads place [name] links target) ∧ tree.isDirectoryAt target = true

/-- The name of what stands at a place that is directly below another. -/
def nameBelow? (place other : Place) : Option String :=
  match other.getLast? with
  | some name => if other.dropLast = place then some name else none
  | none => none

theorem nameBelow?_eq_some_iff {other : Place} :
    nameBelow? place other = some name ↔ other = place ++ [name] := by
  constructor
  · intro h
    rw [nameBelow?] at h
    split at h
    · rename_i last hlast
      obtain ⟨habove, hname⟩ := Option.ite_none_right_eq_some.1 h
      rw [← habove, ← Option.some.inj hname, List.dropLast_append_getLast? last hlast]
    · cases h
  · rintro rfl
    simp [nameBelow?]

theorem namesBelow_eq :
    tree.namesBelow place = (tree.entries.map Prod.fst).filterMap (nameBelow? place) := by
  rw [List.filterMap_map]
  rfl

theorem mem_namesBelow :
    name ∈ tree.namesBelow place ↔ place ++ [name] ∈ tree.entries.map Prod.fst := by
  rw [namesBelow_eq, List.mem_filterMap]
  constructor
  · rintro ⟨other, hother, hname⟩
    rwa [nameBelow?_eq_some_iff.1 hname] at hother
  · exact fun hplace ↦ ⟨_, hplace, nameBelow?_eq_some_iff.2 rfl⟩

theorem WellFormed.isName_of_mem (h : tree.WellFormed) (hname : name ∈ tree.namesBelow place) :
    IsName name := by
  obtain ⟨above, name', heq, hname'⟩ := h.isName _ (mem_namesBelow.1 hname)
  obtain ⟨-, hsame⟩ := List.append_inj' heq rfl
  rw [List.cons.inj hsame |>.1]
  exact hname'

theorem WellFormed.nodup_namesBelow (h : tree.WellFormed) : (tree.namesBelow place).Nodup := by
  rw [namesBelow_eq]
  refine h.nodup.filterMap fun other other' name hname hname' ↦ ?_
  rw [nameBelow?_eq_some_iff.1 hname, nameBelow?_eq_some_iff.1 hname']

theorem mem_directories : place ∈ tree.directories ↔ tree.isDirectoryAt place = true := by
  rw [directories, List.mem_cons, List.mem_filter]
  constructor
  · rintro (rfl | ⟨-, h⟩)
    · rfl
    · exact h
  · intro h
    by_cases hplace : place = []
    · exact .inl hplace
    refine .inr ⟨?_, h⟩
    by_contra hmem
    have hnone : tree.entries.lookup place = none := by
      rw [List.lookup_eq_none_iff]
      intro entry hentry
      simpa using fun heq ↦ hmem (List.mem_map.2 ⟨entry, hentry, heq.symm⟩)
    rw [isDirectoryAt, entry?, if_neg (by simpa using hplace), hnone] at h
    cases h

theorem WellFormed.nodup_directories (h : tree.WellFormed) : tree.directories.Nodup := by
  rw [directories, List.nodup_cons]
  refine ⟨fun hmem ↦ ?_, h.nodup.filter _⟩
  obtain ⟨above, name, heq, -⟩ := h.isName _ (List.mem_of_mem_filter hmem)
  exact List.cons_ne_nil _ _ (List.append_eq_nil_iff.1 heq.symm).2

/-! ### Paths that lead to directories -/

/-- A path leads to a directory, however long it is and however many links it follows. -/
structure Reaches (tree : FileTree) (path : Path) (place : Place) : Prop where
  ne_empty : path ≠ ""
  not_null : '\x00' ∉ path.toList
  leads : ∃ links, tree.PathLeads path links place
  isDirectoryAt : tree.isDirectoryAt place = true

/-- A path is within the limits of the file system. -/
structure Fits (tree : FileTree) (path : Path) : Prop where
  short : path.utf8ByteSize ≤ pathLimit
  links_le : ∀ links target, tree.PathLeads path links target → links ≤ linkLimit

theorem directory?_eq_some_iff :
    tree.directory? path = some place ↔ tree.Reaches path place ∧ tree.Fits path := by
  have hresolve : tree.directory? path = some place ↔
      tree.resolve path = .ok place ∧ tree.isDirectoryAt place = true := by
    rw [directory?]
    cases tree.resolve path with
    | error fault => simp
    | ok target =>
      rw [Except.ok.injEq]
      dsimp only
      constructor
      · intro h
        obtain ⟨hdirectory, htarget⟩ := Option.ite_none_right_eq_some.1 h
        obtain rfl := Option.some.inj htarget
        exact ⟨rfl, hdirectory⟩
      · rintro ⟨rfl, hdirectory⟩
        exact if_pos hdirectory
  rw [hresolve, resolve_eq_ok_iff]
  constructor
  · rintro ⟨⟨hnull, hne, hshort, links, hle, hleads⟩, hdirectory⟩
    refine ⟨⟨hne, hnull, ⟨links, hleads⟩, hdirectory⟩, hshort, fun links' target hleads' ↦ ?_⟩
    obtain ⟨rfl, -⟩ := hleads.unique hleads'
    exact hle
  · rintro ⟨⟨hne, hnull, ⟨links, hleads⟩, hdirectory⟩, hshort, hle⟩
    exact ⟨⟨hnull, hne, hshort, links, hle links place hleads, hleads⟩, hdirectory⟩

theorem PathLeads.fits {links : Nat} (h : tree.PathLeads path links target)
    (hlinks : links ≤ linkLimit)
    (hshort : path.utf8ByteSize ≤ pathLimit) : tree.Fits path :=
  ⟨hshort, fun _ _ h' ↦ (h.unique h').1 ▸ hlinks⟩

/-- A path within the limits leads to a directory that is found. -/
theorem PathLeads.directory?_eq_some {links : Nat} (h : tree.PathLeads path links target)
    (hlinks : links ≤ linkLimit) (hdirectory : tree.isDirectoryAt target = true)
    (hpath : path ≠ "" ∧ '\x00' ∉ path.toList ∧ path.utf8ByteSize ≤ pathLimit) :
    tree.directory? path = some target :=
  directory?_eq_some_iff.2
    ⟨⟨hpath.1, hpath.2.1, ⟨links, h⟩, hdirectory⟩, h.fits hlinks hpath.2.2⟩

/-- A path that follows too many links leads to no directory that is found. -/
theorem PathLeads.directory?_eq_none {links : Nat} (h : tree.PathLeads path links target)
    (hlinks : linkLimit < links) : tree.directory? path = none := by
  rw [Option.eq_none_iff_forall_ne_some]
  intro place hplace
  exact absurd ((directory?_eq_some_iff.1 hplace).2.links_le links target h)
    (Nat.not_le_of_lt hlinks)

/-- The path to an entry of a directory leads to a directory if the entry is that directory. -/
theorem Reaches.join_iff (h : tree.Reaches path place) (hname : IsName name) :
    tree.Reaches (path.join name) target ↔ tree.Opens place name target := by
  obtain ⟨first, hfirst⟩ := h.leads
  obtain ⟨text, htext, hends⟩ := exists_toList_join h.ne_empty name
  constructor
  · rintro ⟨-, -, ⟨links, hleads⟩, hdirectory⟩
    obtain ⟨second, -, hsecond⟩ := (hfirst.join_iff h.ne_empty hname).1 hleads
    exact ⟨⟨second, hsecond⟩, hdirectory⟩
  · rintro ⟨⟨second, hsecond⟩, hdirectory⟩
    refine ⟨?_, ?_, ⟨first + second, (hfirst.join_iff h.ne_empty hname).2 ⟨second, rfl, hsecond⟩⟩,
      hdirectory⟩
    · rintro hempty
      simp [hempty] at htext
    · have hnull := h.not_null
      have hname := hname.not_null
      rcases hends with hends | hends <;> rw [hends] at hnull <;> rw [htext] <;> simp_all

end RuleLint.FileTree
