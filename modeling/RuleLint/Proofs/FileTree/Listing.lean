import Mathlib
import RuleLint.Files
import RuleLint.Proofs.FileTree.Walk

/-!
# Linting a directory

Linting a directory has a result for each rule file of the directories that can be reached, and for
nothing else (`exists_lintDirectory_eq`). A result depends on what is read at its path alone, so a
file that cannot be read has an error for its result and leaves the others as they are.

The paths that the search goes by get longer from directory to directory, and the links on the way
add up. Past the limits of the file system a directory is taken for something else, and what is
below it is not listed (`ruleFiles_windingTree`).
-/

namespace RuleLint

open FileTree FileTree.Visit

/-! ### One file -/

section Directory

variable {tree : FileTree} {root path : Path} {start : Place} (suite : Suite) (config : Config)

theorem value_lintListed_of_read {text : String} (h : tree.read path = .ok text) :
    (lintListed tree suite config path).value =
      ⟨path, (lint suite (documentOfFile path text) .standard config).diagnostics, none⟩ := by
  rw [lintListed, h]
  rfl

theorem value_lintListed_of_fault {fault : FileFault} (h : tree.read path = .error fault) :
    (lintListed tree suite config path).value =
      ⟨path, [], some ("error reading file: " ++ (Error.file fault).message)⟩ := by
  rw [lintListed, h]
  rfl

/-! ### Directories -/

/-- **Linting a directory is an exact search.** There is one result for each entry that has the name
of a rule file and is no directory, of each directory that can be reached through entries that are
not hidden, and there is no other result. The result has the findings of the file, or an error and
no findings if the file cannot be read. -/
theorem exists_lintDirectory_eq (htree : tree.WellFormed)
    (hroot : tree.directory? root = some start) (hlimits : tree.WithinLimits root start) :
    ∃ found : List (Visit × String),
      lintDirectory tree suite config root = .ok
        ⟨found.map fun entry ↦ (lintListed tree suite config (pathTo entry)).value,
          found.flatMap fun entry ↦ (lintListed tree suite config (pathTo entry)).notices⟩ ∧
      (found.map location).Nodup ∧
      (∀ place name, (place, name) ∈ found.map location ↔ tree.IsRuleEntry start place name) ∧
      ∀ entry ∈ found, tree.Reaches entry.1.path entry.1.place ∧
        (∀ text, tree.read (pathTo entry) = .ok text →
          (lintListed tree suite config (pathTo entry)).value = ⟨pathTo entry,
            (lint suite (documentOfFile (pathTo entry) text) .standard config).diagnostics, none⟩) ∧
        ∀ fault, tree.read (pathTo entry) = .error fault →
          (lintListed tree suite config (pathTo entry)).value = ⟨pathTo entry, [],
            some ("error reading file: " ++ (Error.file fault).message)⟩ := by
  obtain ⟨hreaches, hfits⟩ := directory?_eq_some_iff.1 hroot
  obtain ⟨found, hfound, hnodup, hmem, hentries⟩ := exists_ruleFiles htree hreaches hlimits hfits
  refine ⟨found, ?_, hnodup, hmem, fun entry hentry ↦ ⟨hentries entry hentry, ?_, ?_⟩⟩
  · rw [lintDirectory, hfound]
    simp only [List.map_map, List.flatMap_map]
    rfl
  · exact fun text ↦ value_lintListed_of_read suite config
  · exact fun fault ↦ value_lintListed_of_fault suite config

end Directory

/-! ### Two trees -/

/-- A tree with a directory that can be reached in two ways, a link back to the start, and a file
that is no text. -/
def linkedTree : FileTree where
  entries := [(["d"], .directory), (["d", "again"], .link "sub"), (["d", "bad.co"], .file ⟨#[255]⟩),
    (["d", "sub"], .directory), (["d", "sub", "back"], .link ".."),
    (["d", "sub", "b.en"], .file ⟨#[]⟩)]
  current := []

section Linked

variable {path : Path} {visited : List Place} {place target : Place} {name : String}

theorem wellFormed_linkedTree : linkedTree.WellFormed :=
  wellFormed_of_getLast? (by decide) (by decide)

theorem leads_again : linkedTree.Leads ["d"] ["again"] 1 ["d", "sub"] := by
  have hagain : linkedTree.Holds ["d"] "again" _ :=
    ⟨by decide, by decide, by decide, by decide, rfl⟩
  have hsub : linkedTree.Holds ["d"] "sub" .directory :=
    ⟨by decide, by decide, by decide, by decide, rfl⟩
  have hrest : linkedTree.Leads ["d"] (["sub"] ++ []) 0 ["d", "sub"] :=
    .down hsub (by simp) (.here _)
  exact hagain.leads (originOf_of_relative (by decide)) (by decide) hrest

theorem leads_sub : linkedTree.Leads ["d"] ["sub"] 0 ["d", "sub"] := by
  have hsub : linkedTree.Holds ["d"] "sub" .directory :=
    ⟨by decide, by decide, by decide, by decide, rfl⟩
  exact .down hsub (by simp) (.here _)

theorem leads_back : linkedTree.Leads ["d", "sub"] ["back"] 1 ["d"] := by
  have hback : linkedTree.Holds ["d", "sub"] "back" _ :=
    ⟨by decide, by decide, by decide, by decide, rfl⟩
  have hrest : linkedTree.Leads ["d", "sub"] ([".."] ++ []) 0 ["d"] := .up (by decide) (.here _)
  exact hback.leads (originOf_of_relative (by decide)) (by decide) hrest

theorem opens_d (hname : name ∈ linkedTree.namesBelow ["d"])
    (hopens : linkedTree.Opens ["d"] name target) :
    (name = "again" ∨ name = "sub") ∧ target = ["d", "sub"] := by
  have hbad : linkedTree.Holds ["d"] "bad.co" (.file ⟨#[255]⟩) :=
    ⟨by decide, by decide, by decide, by decide, rfl⟩
  have hnames : linkedTree.namesBelow ["d"] = ["again", "bad.co", "sub"] := by decide
  obtain ⟨⟨links, hleads⟩, hdirectory⟩ := hopens
  rw [hnames] at hname
  rcases List.mem_cons.1 hname with rfl | hname
  · exact ⟨.inl rfl, (hleads.unique leads_again).2⟩
  rcases List.mem_cons.1 hname with rfl | hname
  · obtain ⟨-, rfl⟩ := hleads.unique (.down hbad (by simp) (.here _))
    exact absurd hdirectory (by decide)
  · obtain rfl := List.mem_singleton.1 hname
    exact ⟨.inr rfl, (hleads.unique leads_sub).2⟩

theorem opens_sub (hname : name ∈ linkedTree.namesBelow ["d", "sub"])
    (hopens : linkedTree.Opens ["d", "sub"] name target) : name = "back" ∧ target = ["d"] := by
  have hfile : linkedTree.Holds ["d", "sub"] "b.en" (.file ⟨#[]⟩) :=
    ⟨by decide, by decide, by decide, by decide, rfl⟩
  have hnames : linkedTree.namesBelow ["d", "sub"] = ["back", "b.en"] := by decide
  obtain ⟨⟨links, hleads⟩, hdirectory⟩ := hopens
  rw [hnames] at hname
  rcases List.mem_cons.1 hname with rfl | hname
  · exact ⟨rfl, (hleads.unique leads_back).2⟩
  · obtain rfl := List.mem_singleton.1 hname
    obtain ⟨-, rfl⟩ := hleads.unique (.down hfile (by simp) (.here _))
    exact absurd hdirectory (by decide)

theorem pathLeads_d : linkedTree.PathLeads "d" 0 ["d"] := by
  have hd : linkedTree.Holds [] "d" .directory := ⟨by decide, by decide, by decide, by decide, rfl⟩
  exact pathLeads_of_leads (originOf_root _) (by decide) (Leads.down hd (by simp) (.here _))

theorem fits_linkedTree (hname : name = "again" ∨ name = "sub") :
    linkedTree.Fits ("d" ++ "/" ++ name) ∧
      linkedTree.Fits ("d" ++ "/" ++ name ++ "/" ++ "back") := by
  have hpath : ∃ links ≤ 1, linkedTree.PathLeads ("d" ++ "/" ++ name) links ["d", "sub"] := by
    rcases hname with rfl | rfl
    · exact ⟨1, Nat.le_refl 1,
        (pathLeads_d.join_iff (by decide) (by decide)).2 ⟨1, rfl, leads_again⟩⟩
    · exact ⟨0, Nat.zero_le 1, (pathLeads_d.join_iff (by decide) (by decide)).2 ⟨0, rfl, leads_sub⟩⟩
  obtain ⟨links, hle, hpath⟩ := hpath
  have hback : linkedTree.PathLeads ("d" ++ "/" ++ name ++ "/" ++ "back") (links + 1) ["d"] := by
    rcases hname with rfl | rfl
    · exact (hpath.join_iff (by decide) (by decide)).2 ⟨1, rfl, leads_back⟩
    · exact (hpath.join_iff (by decide) (by decide)).2 ⟨1, rfl, leads_back⟩
  have hlimit : 2 ≤ linkLimit := by decide
  refine ⟨hpath.fits (by omega) ?_, hback.fits (by omega) ?_⟩
  · rcases hname with rfl | rfl <;> decide
  · rcases hname with rfl | rfl <;> decide

/-- A trail of the tree stops in the directory below: the link there leads back to the start. -/
theorem trail_linkedTree (h : linkedTree.Trail "d" ["d"] path visited place) :
    path = "d" ∧ visited = [] ∧ place = ["d"] ∨
      ∃ name, (name = "again" ∨ name = "sub") ∧ path = "d" ++ "/" ++ name ∧ visited = [["d"]] ∧
        place = ["d", "sub"] := by
  induction h with
  | start => exact .inl ⟨rfl, rfl, rfl⟩
  | enter _ hname _ hopens hnew ih =>
    rcases ih with ⟨rfl, rfl, rfl⟩ | ⟨_, -, -, rfl, rfl⟩
    · obtain ⟨hbelow, rfl⟩ := opens_d hname hopens
      exact .inr ⟨_, hbelow, by rcases hbelow with rfl | rfl <;> decide, rfl, rfl⟩
    · obtain ⟨-, rfl⟩ := opens_sub hname hopens
      exact absurd (List.mem_cons_of_mem _ List.mem_cons_self) hnew

theorem withinLimits_linkedTree : linkedTree.WithinLimits "d" ["d"] := by
  intro path visited place htrail name hname target hopens
  rcases trail_linkedTree htrail with ⟨rfl, rfl, rfl⟩ | ⟨below, hbelow, rfl, rfl, rfl⟩
  · have hname := (opens_d hname hopens).1
    have hfits := (fits_linkedTree hname).1
    rcases hname with rfl | rfl <;> exact hfits
  · obtain ⟨rfl, -⟩ := opens_sub hname hopens
    have hfits := (fits_linkedTree hbelow).2
    rcases hbelow with rfl | rfl <;> exact hfits

theorem reachable_linkedTree (h : Relation.ReflTransGen linkedTree.Enters ["d"] place) :
    place = ["d"] ∨ place = ["d", "sub"] := by
  induction h with
  | refl => exact .inl rfl
  | tail _ henters ih =>
    obtain ⟨name, hname, -, hopens⟩ := henters
    rcases ih with rfl | rfl
    · exact .inr (opens_d hname hopens).2
    · exact .inl (opens_sub hname hopens).2

theorem isRuleEntry_linkedTree_iff :
    linkedTree.IsRuleEntry ["d"] place name ↔
      (place, name) ∈ [(["d"], "bad.co"), (["d", "sub"], "b.en")] := by
  have hagain : linkedTree.Opens ["d"] "again" ["d", "sub"] := ⟨⟨1, leads_again⟩, by decide⟩
  have hsub : linkedTree.Opens ["d"] "sub" ["d", "sub"] := ⟨⟨0, leads_sub⟩, by decide⟩
  have hback : linkedTree.Opens ["d", "sub"] "back" ["d"] := ⟨⟨1, leads_back⟩, by decide⟩
  have hnames : linkedTree.namesBelow ["d"] = ["again", "bad.co", "sub"] := by decide
  have hnames' : linkedTree.namesBelow ["d", "sub"] = ["back", "b.en"] := by decide
  constructor
  · rintro ⟨hreach, hname, hopens, -⟩
    rcases reachable_linkedTree hreach with rfl | rfl
    · rw [hnames] at hname
      simp only [List.mem_cons, List.not_mem_nil, or_false] at hname
      rcases hname with rfl | rfl | rfl
      · exact absurd hagain (hopens _)
      · exact List.mem_cons_self
      · exact absurd hsub (hopens _)
    · rw [hnames'] at hname
      simp only [List.mem_cons, List.not_mem_nil, or_false] at hname
      rcases hname with rfl | rfl
      · exact absurd hback (hopens _)
      · exact List.mem_cons_of_mem _ List.mem_cons_self
  · intro hmem
    simp only [List.mem_cons, List.not_mem_nil, or_false, Prod.mk.injEq] at hmem
    rcases hmem with ⟨rfl, rfl⟩ | ⟨rfl, rfl⟩
    · refine ⟨.refl, by decide, fun target hopens ↦ ?_, "bad", by decide, .correlation, by decide⟩
      exact absurd (opens_d (by decide) hopens).1 (by decide)
    · refine ⟨.single ⟨"sub", by decide, startsWith_eq_false (by decide), hsub⟩, by decide,
        fun target hopens ↦ ?_, "b", by decide, .enrichment, by decide⟩
      exact absurd (opens_sub (by decide) hopens).1 (by decide)

/-- The directory below has two names, and what is in it is reported once. The file that is no text
has an error for its result. -/
theorem exists_lintDirectory_eq_linkedTree :
    linkedTree.WellFormed ∧ linkedTree.directory? "d" = some ["d"] ∧
      linkedTree.WithinLimits "d" ["d"] ∧
      ∃ found : List (Visit × String),
        lintDirectory linkedTree .standard .empty "d" = .ok
          ⟨found.map fun entry ↦ (lintListed linkedTree .standard .empty (pathTo entry)).value,
            found.flatMap fun entry ↦
              (lintListed linkedTree .standard .empty (pathTo entry)).notices⟩ ∧
        (found.map location).Perm [(["d"], "bad.co"), (["d", "sub"], "b.en")] := by
  have hroot := pathLeads_d.directory?_eq_some (by decide) (by decide) (by decide)
  obtain ⟨found, hresult, hnodup, hmem, -⟩ := exists_lintDirectory_eq .standard .empty
    wellFormed_linkedTree hroot withinLimits_linkedTree
  refine ⟨wellFormed_linkedTree, hroot, withinLimits_linkedTree, found, hresult, ?_⟩
  rw [List.perm_ext_iff_of_nodup hnodup (by decide)]
  exact fun ⟨place, name⟩ ↦ (hmem place name).trans isRuleEntry_linkedTree_iff

end Linked

/-- A tree with a directory that is found only after more links than are followed for one path. -/
def windingTree : FileTree where
  entries := [(["r"], .directory), (["r", "s"], .link "."),
    (["r", "x"], .link "s/s/s/s/s/s/s/s/s/s/s/s/s/s/s/s/s/s/s/s/../e"), (["e"], .directory),
    (["e", "y"], .link "../r/s/s/s/s/s/s/s/s/s/s/s/s/s/s/s/s/s/s/s/s/../f"), (["f"], .directory),
    (["f", "a.co"], .file ⟨#[]⟩)]
  current := []

theorem wellFormed_windingTree : windingTree.WellFormed :=
  wellFormed_of_getLast? (by decide) (by decide)

/-- The link to the directory itself can be gone through any number of times. -/
theorem leads_loop {names : List String} {links : Nat} {target : Place} (n : Nat)
    (h : windingTree.Leads ["r"] names links target) :
    windingTree.Leads ["r"] (List.replicate n "s" ++ names) (links + n) target := by
  have hholds : windingTree.Holds ["r"] "s" (.link ".") :=
    ⟨by decide, by decide, by decide, by decide, rfl⟩
  induction n with
  | zero => exact h
  | succ n ih =>
    have hrest :
        windingTree.Leads ["r"] (["."] ++ (List.replicate n "s" ++ names)) (links + n) target :=
      .idle (by decide) (.inr rfl) ih
    exact hholds.leads (originOf_of_relative (by decide)) (by decide) hrest

theorem leads_x : windingTree.Leads ["r"] ["x"] 21 ["e"] := by
  have hx : windingTree.Holds ["r"] "x" _ := ⟨by decide, by decide, by decide, by decide, rfl⟩
  have he : windingTree.Holds [] "e" .directory := ⟨by decide, by decide, by decide, by decide, rfl⟩
  have hrest : windingTree.Leads ["r"] ((List.replicate 20 "s" ++ ["..", "e"]) ++ []) 20 ["e"] :=
    leads_loop 20 (.up (by decide) (.down he (by simp) (.here _)))
  exact hx.leads (originOf_of_relative (by decide)) (by decide) hrest

theorem leads_y : windingTree.Leads ["e"] ["y"] 21 ["f"] := by
  have hy : windingTree.Holds ["e"] "y" _ := ⟨by decide, by decide, by decide, by decide, rfl⟩
  have hr : windingTree.Holds [] "r" .directory := ⟨by decide, by decide, by decide, by decide, rfl⟩
  have hf : windingTree.Holds [] "f" .directory := ⟨by decide, by decide, by decide, by decide, rfl⟩
  have hrest : windingTree.Leads ["e"]
      (([".."] ++ "r" :: (List.replicate 20 "s" ++ ["..", "f"])) ++ []) 20 ["f"] :=
    .up (by decide) (.down hr (by simp)
      (leads_loop 20 (.up (by decide) (.down hf (by simp) (.here _)))))
  exact hy.leads (originOf_of_relative (by decide)) (by decide) hrest

/-- **Links that add up hide a directory.** The directory `f` can be reached, and each of the links
on the way can be followed, but the path to it follows more links than the limit. -/
theorem ruleFiles_windingTree :
    windingTree.WellFormed ∧ windingTree.directory? "r" = some ["r"] ∧
      windingTree.IsRuleEntry ["r"] ["f"] "a.co" ∧
      lintDirectory windingTree .standard .empty "r" = .ok ⟨[], []⟩ := by
  have hr : windingTree.Holds [] "r" .directory := ⟨by decide, by decide, by decide, by decide, rfl⟩
  have hs : windingTree.Leads ["r"] ["s"] 1 ["r"] := leads_loop 1 (.here _)
  have hpath : windingTree.PathLeads "r" 0 ["r"] :=
    pathLeads_of_leads (originOf_root _) (by decide) (Leads.down hr (by simp) (.here _))
  have hpath_s : windingTree.PathLeads "r/s" 1 ["r"] :=
    (hpath.join_iff (by decide) (by decide)).2 ⟨1, rfl, hs⟩
  -- Each of `x` and `y` is within the limit of links; the path with both goes beyond it.
  have hpath_x : windingTree.PathLeads "r/x" 21 ["e"] :=
    (hpath.join_iff (by decide) (by decide)).2 ⟨21, rfl, leads_x⟩
  have hpath_y : windingTree.PathLeads "r/x/y" 42 ["f"] :=
    (hpath_x.join_iff (by decide) (by decide)).2 ⟨21, rfl, leads_y⟩
  have hroot := hpath.directory?_eq_some (by decide) (by decide) (by decide)
  have hfound_s := hpath_s.directory?_eq_some (by decide) (by decide) (by decide)
  have hfound_x := hpath_x.directory?_eq_some (by decide) (by decide) (by decide)
  have hlost := hpath_y.directory?_eq_none (by decide)
  refine ⟨wellFormed_windingTree, hroot, ?_, ?_⟩
  · refine ⟨.tail (.tail .refl ⟨"x", by decide, startsWith_eq_false (by decide), ⟨21, leads_x⟩,
      by decide⟩) ⟨"y", by decide, startsWith_eq_false (by decide), ⟨21, leads_y⟩, by decide⟩,
      by decide, ?_, ?_⟩
    · rintro target ⟨⟨links, hleads⟩, hdirectory⟩
      have hfile : windingTree.Holds ["f"] "a.co" (.file ⟨#[]⟩) :=
        ⟨by decide, by decide, by decide, by decide, rfl⟩
      obtain ⟨-, rfl⟩ := hleads.unique (.down hfile (by simp) (.here _))
      exact absurd hdirectory (by decide)
    · exact ⟨"a", by decide, .correlation, by decide⟩
  · have hresolve : windingTree.resolve "r" = .ok ["r"] :=
      resolve_eq_ok_iff.2 ⟨by decide, by decide, by decide, 0, by decide, hpath⟩
    have hfiles : windingTree.ruleFiles "r" = .ok [] := by
      have hbelow : windingTree.pathsBelow "r" ["r"] = ["r/s", "r/x"] := by
        have hnames : windingTree.namesBelow ["r"] = ["s", "x"] := by decide
        rw [pathsBelow, hnames, List.mergeSort_of_pairwise (by decide)]
        decide
      have hbelow' : windingTree.pathsBelow "r/x" ["e"] = ["r/x/y"] := by
        have hnames : windingTree.namesBelow ["e"] = ["y"] := by decide
        rw [pathsBelow, hnames, List.mergeSort_singleton]
        decide
      have hunvisited : windingTree.directories.erase ["r"] = [[], ["e"], ["f"]] := by decide
      have hdirectory : windingTree.isDirectoryAt ["r"] = true := by decide
      rw [ruleFiles, hresolve]
      dsimp only
      rw [if_pos hdirectory, hbelow, hunvisited]
      have hhidden : isHidden "r/x" = false := by decide +kernel
      have hrule : isRulePath "r/x/y" = false := by decide +kernel
      simp [ruleFilesFrom, hfound_s, hfound_x, hlost, hbelow', hhidden, hrule]
    rw [lintDirectory, hfiles]
    rfl

end RuleLint
