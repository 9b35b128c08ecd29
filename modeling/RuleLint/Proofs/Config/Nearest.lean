import Mathlib.Data.List.Forall2
import Mathlib.Data.List.Infix
import RuleLint.Config.Locate
import RuleLint.Proofs.FileTree.Ancestors

/-!
# The nearest configuration

The search for a configuration tries the ancestors of a path, and in each of them the two names of a
configuration file. A path to such a file is that of a file if the directory has one of the name
(`FileTree.Spells.isFile_join_iff`). The ancestors go through the directories above from below
(`FileTree.Spells.exists_rungs`), so the first file that is found is in the nearest of them that has
one (`nearest?_is_nearest`). This holds as far up as the names of the path lead down: at two dots,
or at a link, the ancestors leave the directories above (`nearest?_of_up`).

The limits of the file system are those of the paths that are tried. They are longer than the path
of the search by a slash and the name, and they follow the links of the path as well as those of the
file.
-/

namespace RuleLint

open FileTree

namespace FileTree

variable {tree : FileTree} {path base found : Path} {place directory top start : Place}
  {name : String} {head : List String} {links : Nat}

/-- A directory has a file of the name, or a link to one, and it is found if so many links have been
followed up to the directory. -/
def Offers (tree : FileTree) (links : Nat) (directory : Place) (name : String) : Prop :=
  ∃ more, links + more ≤ linkLimit ∧ ∃ target content, tree.Leads directory [name] more target ∧
    tree.entry? target = some (.file content)

/-- The directory has the configuration file, no directory between it and `start` has one, and no
name that is tried before is that of one. The directories are those from `start` up to `top`. -/
structure IsNearest (tree : FileTree) (links : Nat) (top start directory : Place) (name : String) :
    Prop where
  above_start : directory <+: start
  below_top : top <+: directory
  mem : name ∈ Config.fileNames
  offers : tree.Offers links directory name
  first : name ≠ ".xplint.yml" → ¬ tree.Offers links directory ".xplint.yml"
  nearest : ∀ other, directory <+: other → other <+: start → other ≠ directory →
    ∀ name ∈ Config.fileNames, ¬ tree.Offers links other name

theorem isFile_iff : tree.isFile path = true ↔ ∃ target content,
    tree.resolve path = .ok target ∧ tree.entry? target = some (.file content) := by
  rw [isFile]
  cases tree.resolve path with
  | error fault => simp
  | ok target =>
    dsimp only
    constructor
    · intro h
      split at h
      · exact ⟨target, _, rfl, ‹_›⟩
      · cases h
    · rintro ⟨_, content, hresolve, hentry⟩
      obtain rfl := Except.ok.inj hresolve
      rw [hentry]

/-! ### One directory -/

theorem isName_of_mem_fileNames (h : name ∈ Config.fileNames) :
    Path.IsName name ∧ name.utf8ByteSize ≤ 12 := by
  revert name
  decide

theorem utf8ByteSize_join_le (path : Path) (name : String) :
    (path.join name).utf8ByteSize ≤ path.utf8ByteSize + 1 + name.utf8ByteSize := by
  rw [Path.join]
  have hslash : ("/" : String).utf8ByteSize = 1 := rfl
  split
  · rw [String.utf8ByteSize_append]
    omega
  · rw [String.utf8ByteSize_append, String.utf8ByteSize_append, hslash]

/-- The path to a configuration file is that of a file if the directory has one of the name. -/
theorem Spells.isFile_join_iff (h : tree.Spells head links top base directory)
    (hdirectory : tree.isDirectoryAt directory = true) (hnull : '\x00' ∉ base.toList)
    (hshort : base.utf8ByteSize + 13 ≤ pathLimit) (hname : name ∈ Config.fileNames) :
    tree.isFile (base.join name) = true ↔ tree.Offers links directory name := by
  obtain ⟨hname, hsize⟩ := isName_of_mem_fileNames hname
  have hlimit : (base.join name).utf8ByteSize ≤ pathLimit :=
    (utf8ByteSize_join_le base name).trans (by omega)
  have hjoin : '\x00' ∉ (base.join name).toList ∧ base.join name ≠ "" := by
    have hne : name ≠ "" := by
      rintro rfl
      exact absurd hname.not_idle (by decide)
    rw [Path.join]
    split <;> simp [hnull, hname.not_null, hne]
  rw [isFile_iff, Offers]
  simp only [resolve_eq_ok_iff, h.join_iff hdirectory hname]
  constructor
  · rintro ⟨target, content, ⟨-, -, -, _, hlinks, more, rfl, hleads⟩, hentry⟩
    exact ⟨more, hlinks, target, content, hleads, hentry⟩
  · rintro ⟨more, hlinks, target, content, hleads, hentry⟩
    exact ⟨target, content, ⟨hjoin.1, hjoin.2, hlimit, _, hlinks, more, rfl, hleads⟩, hentry⟩

/-- In a directory the first configuration file is found. -/
theorem Spells.exists_of_inDirectory? (h : tree.Spells head links top base directory)
    (hdirectory : tree.isDirectoryAt directory = true) (hnull : '\x00' ∉ base.toList)
    (hshort : base.utf8ByteSize + 13 ≤ pathLimit)
    (hfound : Config.inDirectory? tree base = some found) :
    ∃ name ∈ Config.fileNames, found = base.join name ∧ tree.isFile found = true ∧
      tree.Offers links directory name ∧
      (name ≠ ".xplint.yml" → ¬ tree.Offers links directory ".xplint.yml") := by
  have hoffers : ∀ name ∈ Config.fileNames, (tree.isFile (base.join name) = true ↔ _) :=
    fun name ↦ h.isFile_join_iff hdirectory hnull hshort
  rw [Config.inDirectory?, List.find?_map] at hfound
  obtain ⟨name, hname, rfl⟩ := Option.map_eq_some_iff.1 hfound
  have hmem := List.mem_of_find?_eq_some hname
  obtain ⟨hfile, before, after, hnames, hbefore⟩ := List.find?_eq_some_iff_append.1 hname
  refine ⟨name, hmem, rfl, hfile, (hoffers name hmem).1 hfile, fun hne hyml ↦ ?_⟩
  cases before with
  | nil => exact hne (List.cons.inj hnames).1.symm
  | cons first before =>
    obtain ⟨rfl, -⟩ := List.cons.inj hnames
    have hnone := hbefore _ List.mem_cons_self
    rw [Function.comp_apply, (hoffers _ List.mem_cons_self).2 hyml] at hnone
    cases hnone

theorem Spells.inDirectory?_eq_none (h : tree.Spells head links top base directory)
    (hdirectory : tree.isDirectoryAt directory = true) (hnull : '\x00' ∉ base.toList)
    (hshort : base.utf8ByteSize + 13 ≤ pathLimit) :
    Config.inDirectory? tree base = none ↔
      ∀ name ∈ Config.fileNames, ¬ tree.Offers links directory name := by
  rw [Config.inDirectory?, List.find?_eq_none, List.forall_mem_map]
  exact forall₂_congr fun name hname ↦
    not_congr (h.isFile_join_iff hdirectory hnull hshort hname)

/-! ### Climbing -/

/-- The path leads to a directory or to a file. -/
theorem Spells.isDirectoryAt_or_file (h : tree.Spells head links top path place) :
    tree.isDirectoryAt place = true ∨ ∃ content, tree.entry? place = some (.file content) := by
  rcases List.eq_nil_or_concat' path.names with hnames | ⟨names, last, hnames⟩
  · exact .inl (h.eq_top hnames ▸ h.isDirectoryAt_top)
  · rcases h.exists_of_names hnames with ⟨rfl, -⟩ |
      ⟨above, entry, tail, rfl, -, -, -, hholds, hlink⟩
    · exact .inl h.isDirectoryAt_top
    · cases entry with
      | file content => exact .inr ⟨content, hholds.entry?_eq⟩
      | directory => exact .inl (by rw [isDirectoryAt, hholds.entry?_eq])
      | link target => exact absurd rfl (hlink target)

/-- The search starts from the directory that the path leads to, or from the one above if it leads
to a file. -/
theorem Spells.exists_start (h : tree.Spells head links top path place)
    (hresolve : tree.resolve path = .ok place) :
    ∃ base, Config.nearest? tree path = base.ancestors.findSome? (Config.inDirectory? tree) ∧
      tree.Spells head links top base (if tree.isFile path then place.dropLast else place) ∧
      tree.isDirectoryAt (if tree.isFile path then place.dropLast else place) = true ∧
      base.toList <+: path.toList := by
  by_cases hfile : tree.isFile path = true
  · obtain ⟨_, content, hresolve', hentry⟩ := isFile_iff.1 hfile
    obtain rfl := Except.ok.inj (hresolve.symm.trans hresolve')
    have hne : place ≠ top := by
      rintro rfl
      have hdirectory := h.isDirectoryAt_top
      rw [isDirectoryAt, hentry] at hdirectory
      cases hdirectory
    rw [if_pos hfile]
    cases hparent : path.parent? with
    | none => exact absurd (h.eq_top (Path.names_eq_nil_of_parent? hparent)) hne
    | some parent =>
      rcases h.spells_parent? hparent with ⟨above, last, rfl, habove, hspells⟩ | ⟨htop, -⟩
      · rw [List.dropLast_concat]
        refine ⟨parent, ?_, hspells, habove, (Path.prefix_of_parent? hparent).1⟩
        rw [Config.nearest?, if_pos hfile, hparent]
        rfl
      · exact absurd htop hne
  · rw [if_neg hfile]
    refine ⟨path, ?_, h, ?_, List.prefix_refl _⟩
    · rw [Config.nearest?, if_neg hfile]
      rfl
    · refine h.isDirectoryAt_or_file.resolve_right fun ⟨content, hentry⟩ ↦ hfile ?_
      exact isFile_iff.2 ⟨place, content, hresolve, hentry⟩

theorem exists_of_mem_right {α β : Type} {R : α → β → Prop} {items : List α} {rungs : List β}
    {rung : β} (h : List.Forall₂ R items rungs) (hrung : rung ∈ rungs) :
    ∃ item ∈ items, R item rung := by
  induction h with
  | nil => cases hrung
  | @cons item _ _ _ hitem _ ih =>
    rcases List.mem_cons.1 hrung with rfl | hrung
    · exact ⟨item, List.mem_cons_self, hitem⟩
    · obtain ⟨other, hmem, hother⟩ := ih hrung
      exact ⟨other, List.mem_cons_of_mem _ hmem, hother⟩

/-- What is found comes from the first rung that has it. -/
theorem exists_of_findSome? {α β γ : Type} {R : α → β → Prop} {f : α → Option γ} {items : List α}
    {rungs : List β} {value : γ} (h : List.Forall₂ R items rungs)
    (hfound : items.findSome? f = some value) :
    ∃ below rung above, rungs = below ++ rung :: above ∧
      (∃ item ∈ items, R item rung ∧ f item = some value) ∧
      ∀ lower ∈ below, ∃ item ∈ items, R item lower ∧ f item = none := by
  induction h with
  | nil => cases hfound
  | @cons item rung items rungs hitem _ ih =>
    rw [List.findSome?_cons] at hfound
    split at hfound
    · rename_i hvalue
      cases hfound
      exact ⟨[], rung, rungs, rfl, ⟨item, List.mem_cons_self, hitem, hvalue⟩, nofun⟩
    · rename_i hnone
      obtain ⟨below, rung', above, rfl, ⟨item', hmem, hfirst⟩, hbelow⟩ := ih hfound
      refine ⟨rung :: below, rung', above, rfl, ⟨item', List.mem_cons_of_mem _ hmem, hfirst⟩,
        List.forall_mem_cons.2 ⟨⟨item, List.mem_cons_self, hitem, hnone⟩, fun lower hlower ↦ ?_⟩⟩
      obtain ⟨item'', hmem, hlower⟩ := hbelow lower hlower
      exact ⟨item'', List.mem_cons_of_mem _ hmem, hlower⟩

end FileTree

/-- The ancestors of a first part of a path are first parts of it, so they are within its limits. -/
theorem Path.within_of_mem_ancestors {path base ancestor : Path} {limit more : Nat}
    (hmem : ancestor ∈ base.ancestors) (hbase : base.toList <+: path.toList)
    (hnull : '\x00' ∉ path.toList) (hshort : path.utf8ByteSize + more ≤ limit) :
    '\x00' ∉ ancestor.toList ∧ ancestor.utf8ByteSize + more ≤ limit := by
  have htext := (Path.prefix_of_mem_ancestorsFrom hmem).trans hbase
  refine ⟨fun hmem ↦ hnull (htext.subset hmem), ?_⟩
  obtain ⟨rest, hrest⟩ := htext
  have hpath : path = ancestor ++ String.ofList rest :=
    String.toList_injective (by rw [String.toList_append, String.toList_ofList, hrest])
  rw [hpath, String.utf8ByteSize_append] at hshort
  omega

/-- **The configuration that is found is the nearest one above.** Let the first names of a path lead
to a directory `top`, and let the others lead down from there, without two dots and without links.
In the directories from that of the path up to the top, the nearest configuration file is found, and
one is found if there is one. Only if there is none may another file be found, and not even then if
the whole path leads down; the top is then the root or, for a relative path, the current directory.
-/
theorem nearest?_is_nearest {tree : FileTree} {path : Path} {head tail : List String} {links : Nat}
    {top place : Place} (hresolve : tree.resolve path = .ok place)
    (hnames : namedBy path = head ++ tail)
    (hhead : tree.Leads (originOf tree.current path) head links top)
    (htop : tree.isDirectoryAt top = true) (htail : tree.Leads top tail 0 place)
    (hup : ".." ∉ tail) (hshort : path.utf8ByteSize + 13 ≤ pathLimit) :
    (∀ found, Config.nearest? tree path = some found →
      (∃ base directory name, found = base.join name ∧ tree.PathLeads base links directory ∧
        tree.isFile found = true ∧
        tree.IsNearest links top (if tree.isFile path then place.dropLast else place) directory
          name) ∨
      head ≠ [] ∧ ∀ directory, top <+: directory →
        directory <+: (if tree.isFile path then place.dropLast else place) →
        ∀ name ∈ Config.fileNames, ¬ tree.Offers links directory name) ∧
      ∀ directory, top <+: directory →
        directory <+: (if tree.isFile path then place.dropLast else place) →
        (∃ name ∈ Config.fileNames, tree.Offers links directory name) →
        (Config.nearest? tree path).isSome = true := by
  have hspells : tree.Spells head links top path place := ⟨htop, hhead, tail, hnames, hup, htail⟩
  obtain ⟨base, hnearest, hspells, hstart, hprefix⟩ := hspells.exists_start hresolve
  obtain ⟨lower, upper, rungs, hancestors, hupper, hrungs, hmem, hpairwise⟩ :=
    hspells.exists_rungs hstart (Nat.lt_succ_self _)
  generalize (if tree.isFile path then place.dropLast else place) = start at *
  have hlower : ∀ ancestor ∈ lower, '\x00' ∉ ancestor.toList ∧
      ancestor.utf8ByteSize + 13 ≤ pathLimit := by
    intro ancestor hancestor
    have hmem : ancestor ∈ Path.ancestorsFrom (base.length + 1) base :=
      hancestors ▸ List.mem_append_left _ hancestor
    exact Path.within_of_mem_ancestors hmem hprefix (resolve_eq_ok_iff.1 hresolve).1 hshort
  have hnone : ∀ rung, (∃ ancestor ∈ lower, (tree.Spells head links top ancestor rung ∧
      tree.isDirectoryAt rung = true) ∧ Config.inDirectory? tree ancestor = none) →
      ∀ name ∈ Config.fileNames, ¬ tree.Offers links rung name := by
    rintro rung ⟨ancestor, hancestor, ⟨hspells, hrung⟩, hnone⟩
    obtain ⟨hnull, hshort⟩ := hlower ancestor hancestor
    exact (hspells.inDirectory?_eq_none hrung hnull hshort).1 hnone
  rw [hnearest, Path.ancestors, hancestors, List.findSome?_append]
  cases hfirst : lower.findSome? (Config.inDirectory? tree) with
  | some first =>
    refine ⟨fun found hfound ↦ .inl ?_, fun _ _ _ _ ↦ rfl⟩
    obtain rfl := Option.some.inj hfound
    obtain ⟨below, directory, above, rfl, ⟨base, hbase, ⟨hspells, hdirectory⟩, hfound⟩, hbelow⟩ :=
      exists_of_findSome? hrungs hfirst
    obtain ⟨hnull, hshort⟩ := hlower base hbase
    obtain ⟨name, hname, rfl, hfile, hoffers, hfirst⟩ :=
      hspells.exists_of_inDirectory? hdirectory hnull hshort hfound
    obtain ⟨htop, hstart⟩ := (hmem directory).1 (by simp)
    refine ⟨base, directory, name, rfl, hspells.pathLeads hdirectory, hfile, hstart, htop, hname,
      hoffers, hfirst, fun other hother hother' hne ↦ ?_⟩
    -- a directory that is nearer is a rung further below
    rcases List.mem_append.1 ((hmem other).2 ⟨htop.trans hother, hother'⟩) with hrung | hrung
    · exact hnone other (hbelow other hrung)
    · have habove := (List.pairwise_cons.1 (List.pairwise_append.1 hpairwise).2.1).1
      refine absurd ?_ hne
      rcases List.mem_cons.1 hrung with rfl | hrung
      · rfl
      · exact (habove other hrung).eq_of_length_le hother.length_le
  | none =>
    have hall : ∀ directory, top <+: directory → directory <+: start →
        ∀ name ∈ Config.fileNames, ¬ tree.Offers links directory name := by
      intro directory htop hstart
      obtain ⟨ancestor, hancestor, hspells⟩ :=
        exists_of_mem_right hrungs ((hmem directory).2 ⟨htop, hstart⟩)
      exact hnone directory
        ⟨ancestor, hancestor, hspells, List.findSome?_eq_none_iff.1 hfirst ancestor hancestor⟩
    refine ⟨fun found hfound ↦ .inr ⟨fun hnil ↦ ?_, hall⟩, ?_⟩
    · rw [hupper hnil] at hfound
      cases hfound
    · rintro directory htop hstart ⟨name, hname, hoffers⟩
      exact absurd hoffers (hall directory htop hstart name hname)

/-! ### A path that leads down, and one that does not -/

/-- A tree with a configuration in a directory below the current one. -/
def nestedTree : FileTree where
  entries := [(["w"], .directory), (["w", "a"], .directory),
    (["w", "a", ".xplint.yml"], .file ⟨#[]⟩), (["w", "a", "b"], .directory),
    (["w", "a", "b", "r.co"], .file ⟨#[]⟩)]
  current := ["w"]

theorem offers_nestedTree : nestedTree.Offers 0 ["w", "a"] ".xplint.yml" := by
  have hholds : nestedTree.Holds ["w", "a"] ".xplint.yml" (.file ⟨#[]⟩) :=
    ⟨by decide, by decide, by decide, by decide, rfl⟩
  exact ⟨0, by decide, _, _, .down hholds (by simp) (.here _), hholds.entry?_eq⟩

/-- The configuration for the rule file is that of the directory above its own. -/
theorem nearest?_nestedTree :
    ∃ found, Config.nearest? nestedTree "a/./b/r.co" = some found ∧
      ∃ base directory name, found = base.join name ∧ nestedTree.PathLeads base 0 directory ∧
        nestedTree.isFile found = true ∧
        nestedTree.IsNearest 0 ["w"] ["w", "a", "b"] directory name := by
  have ha : nestedTree.Holds ["w"] "a" .directory :=
    ⟨by decide, by decide, by decide, by decide, rfl⟩
  have hb : nestedTree.Holds ["w", "a"] "b" .directory :=
    ⟨by decide, by decide, by decide, by decide, rfl⟩
  have hr : nestedTree.Holds ["w", "a", "b"] "r.co" (.file ⟨#[]⟩) :=
    ⟨by decide, by decide, by decide, by decide, rfl⟩
  have htail : nestedTree.Leads ["w"] ["a", "b", "r.co"] 0 ["w", "a", "b", "r.co"] :=
    .down ha (by simp) (.down hb (by simp) (.down hr (by simp) (.here _)))
  have hpath : nestedTree.PathLeads "a/./b/r.co" 0 ["w", "a", "b", "r.co"] :=
    pathLeads_of_leads (originOf_of_relative (by decide)) (by decide)
      (.down ha (by simp) (.idle (by decide) (.inr rfl) (.down hb (by simp)
        (.down hr (by simp) (.here _)))))
  have hresolve : nestedTree.resolve "a/./b/r.co" = .ok ["w", "a", "b", "r.co"] :=
    resolve_eq_ok_iff.2 ⟨by decide, by decide, by decide, 0, by decide, hpath⟩
  have hfile : nestedTree.isFile "a/./b/r.co" = true := isFile_iff.2 ⟨_, _, hresolve, hr.entry?_eq⟩
  have hnames : namedBy "a/./b/r.co" = [] ++ ["a", "b", "r.co"] := by decide
  have hhead : nestedTree.Leads (originOf nestedTree.current "a/./b/r.co") [] 0 ["w"] := by
    rw [originOf_of_relative (by decide)]
    exact .here _
  obtain ⟨hfound, hsome⟩ := nearest?_is_nearest hresolve hnames hhead (by decide) htail
    (by decide) (by decide)
  rw [if_pos hfile] at hfound hsome
  obtain ⟨found, hnearest⟩ := Option.isSome_iff_exists.1 (hsome ["w", "a"] (by decide) (by decide)
    ⟨_, List.mem_cons_self, offers_nestedTree⟩)
  refine ⟨found, hnearest, ?_⟩
  exact (hfound found hnearest).resolve_right fun h ↦ h.1 rfl

/-- Where nothing stands under the name of a configuration file, a directory has none. -/
theorem not_offers_of_entry? {tree : FileTree} {links : Nat} {directory : Place} {name : String}
    (hname : Path.IsName name) (h : tree.entry? (directory ++ [name]) = none) :
    ¬ tree.Offers links directory name := by
  have hnot : ∀ entry, ¬ tree.Holds directory name entry := by
    intro entry hholds
    cases h.symm.trans hholds.entry?_eq
  rintro ⟨more, -, target, content, hleads, -⟩
  cases hleads with
  | idle _ hidle => exact absurd (isIdle_toList.2 hidle) (by simp [hname.not_idle])
  | up => exact hname.not_up rfl
  | down hholds => exact hnot _ hholds
  | follow hholds => exact hnot _ hholds

/-- **Two dots are taken off like a name.** The path leads to the current directory. Neither there
nor above is a configuration, and yet one is found, in the directory whose name comes before the
dots. -/
theorem nearest?_of_up :
    nestedTree.resolve "a/.." = .ok ["w"] ∧ nestedTree.isDirectoryAt ["w"] = true ∧
      (∀ directory, directory <+: ["w"] → ∀ name ∈ Config.fileNames,
        ¬ nestedTree.Offers 0 directory name) ∧
      Config.nearest? nestedTree "a/.." = some "a/.xplint.yml" ∧
      nestedTree.resolve "a/.xplint.yml" = .ok (["w", "a"] ++ [".xplint.yml"]) ∧
      ¬ ["w", "a"] <+: ["w"] := by
  have ha : nestedTree.Holds ["w"] "a" .directory :=
    ⟨by decide, by decide, by decide, by decide, rfl⟩
  have hconfig : nestedTree.Holds ["w", "a"] ".xplint.yml" (.file ⟨#[]⟩) :=
    ⟨by decide, by decide, by decide, by decide, rfl⟩
  have horigin : ∀ {path : Path}, ¬ "/".toList <+: path.toList →
      originOf nestedTree.current path = ["w"] := originOf_of_relative
  have hup : nestedTree.Leads ["w"] ["a", ".."] 0 ["w"] :=
    .down ha (by simp) (.up (by decide) (.here _))
  have hresolve : nestedTree.resolve "a/.." = .ok ["w"] :=
    resolve_eq_ok_iff.2 ⟨by decide, by decide, by decide, 0, by decide,
      pathLeads_of_leads (horigin (by decide)) (by decide) hup⟩
  have hfound : nestedTree.resolve "a/.xplint.yml" = .ok (["w", "a"] ++ [".xplint.yml"]) :=
    resolve_eq_ok_iff.2 ⟨by decide, by decide, by decide, 0, by decide,
      pathLeads_of_leads (horigin (by decide)) (by decide)
        (.down ha (by simp) (.down hconfig (by simp) (.here _)))⟩
  have hnone : ∀ directory, directory <+: ["w"] → ∀ name ∈ Config.fileNames,
      ¬ nestedTree.Offers 0 directory name := by
    have hentries : ∀ directory ∈ ["w"].inits, ∀ name ∈ Config.fileNames,
        (nestedTree.entry? (directory ++ [name])).isNone = true := by decide
    intro directory hdirectory name hname
    refine not_offers_of_entry? (isName_of_mem_fileNames hname).1 (Option.isNone_iff_eq_none.1 ?_)
    exact hentries directory ((List.mem_inits _ _).2 hdirectory) name hname
  -- The walk goes by names: it tries `a/..`, and then `a`, which is below the start.
  refine ⟨hresolve, by decide, hnone, ?_, hfound, by decide⟩
  have hfile : nestedTree.isFile "a/.." = false := by
    rw [isFile, hresolve]
    rfl
  have hancestors : Path.ancestors "a/.." = ["a/..", "a", ""] := by decide +kernel
  have hfirst : Config.inDirectory? nestedTree "a/.." = none := by
    have hspells : nestedTree.Spells ["a", ".."] 0 ["w"] "a/.." ["w"] :=
      ⟨by decide, by rwa [horigin (by decide)], [], by decide, by decide, .here _⟩
    exact (hspells.inDirectory?_eq_none (by decide) (by decide) (by decide)).2 (hnone _ (by decide))
  have hsecond : Config.inDirectory? nestedTree "a" = some "a/.xplint.yml" := by
    have hpaths : Config.fileNames.map (Path.join "a") = ["a/.xplint.yml", "a/.xplint.yaml"] := by
      decide
    rw [Config.inDirectory?, hpaths,
      List.find?_cons_of_pos (isFile_iff.2 ⟨_, _, hfound, hconfig.entry?_eq⟩)]
  rw [Config.nearest?, if_neg (by simp [hfile])]
  simp [hancestors, hfirst, hsecond]

end RuleLint
