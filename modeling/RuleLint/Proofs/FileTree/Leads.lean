import RuleLint.FileTree.Basic

/-!
# Where names lead

`FileTree.Leads` is what it means for names to lead from a place to another one, however many links
are followed on the way; it counts them. `FileTree.resolveFrom` finds that place as long as the
count stays within its limit, and finds too many links otherwise (`Leads.resolveFrom_eq`), so it
finds exactly the places that are led to by at most that many (`resolveFrom_eq_ok_iff`). Names lead
to a place by way of the place that the first of them lead to (`Leads.append`, `Leads.split`).
-/

namespace RuleLint.FileTree

variable {tree : FileTree} {place target : Place} {name : String} {names more : List String}
  {links limit : Nat} {entry : Entry}

/-- The directory at a place has an entry of the name, and one can be looked up by it. -/
structure Holds (tree : FileTree) (place : Place) (name : String) (entry : Entry) : Prop where
  isDirectoryAt : tree.isDirectoryAt place = true
  not_idle : ¬ (name = "" ∨ name = ".")
  not_up : name ≠ ".."
  short : name.utf8ByteSize ≤ nameLimit
  entry?_eq : tree.entry? (place ++ [name]) = some entry

/-- The place where the target of a link begins that stands below a place. -/
def originOf (place : Place) (path : Path) : Place :=
  if path.startsWith "/" then [] else place

theorem originOf_root (path : Path) : originOf [] path = [] :=
  ite_self _

theorem startsWith_eq_false {text start : String} (h : ¬start.toList <+: text.toList) :
    text.startsWith start = false := by
  rwa [← Bool.not_eq_true, String.startsWith_string_iff]

theorem originOf_of_relative {path : Path} (h : ¬"/".toList <+: path.toList) :
    originOf place path = place :=
  if_neg (by simp [startsWith_eq_false h])

/-- The names lead from one place to another and follow that many links. -/
inductive Leads (tree : FileTree) : Place → List String → Nat → Place → Prop where
  | here (place : Place) : Leads tree place [] 0 place
  | idle {place target : Place} {name : String} {names : List String} {links : Nat}
      (hdirectory : tree.isDirectoryAt place = true) (hname : name = "" ∨ name = ".")
      (hrest : Leads tree place names links target) : Leads tree place (name :: names) links target
  | up {place target : Place} {names : List String} {links : Nat}
      (hdirectory : tree.isDirectoryAt place = true)
      (hrest : Leads tree place.dropLast names links target) :
      Leads tree place (".." :: names) links target
  | down {place target : Place} {name : String} {names : List String} {links : Nat} {entry : Entry}
      (hholds : tree.Holds place name entry) (hlink : ∀ path, entry ≠ .link path)
      (hrest : Leads tree (place ++ [name]) names links target) :
      Leads tree place (name :: names) links target
  | follow {place target : Place} {name : String} {names : List String} {links : Nat} {path : Path}
      (hholds : tree.Holds place name (.link path))
      (hrest : Leads tree (originOf place path) (namesOf path ++ names) links target) :
      Leads tree place (name :: names) (links + 1) target

/-! ### One name -/

theorem resolveFrom_nil : tree.resolveFrom limit place [] = .ok place := by
  rw [resolveFrom]

theorem resolveFrom_idle (hdirectory : tree.isDirectoryAt place = true)
    (hname : name = "" ∨ name = ".") :
    tree.resolveFrom limit place (name :: names) = tree.resolveFrom limit place names := by
  rw [resolveFrom.eq_def]
  simp [hdirectory, hname]

theorem resolveFrom_up (hdirectory : tree.isDirectoryAt place = true) :
    tree.resolveFrom limit place (".." :: names) = tree.resolveFrom limit place.dropLast names := by
  rw [resolveFrom.eq_def]
  simp [hdirectory]

/-- An entry that is looked up is gone to, or followed if it is a link and one more may be. -/
theorem Holds.resolveFrom (h : tree.Holds place name entry) :
    tree.resolveFrom limit place (name :: names) =
      match entry, limit with
      | .link _, 0 => .error .tooManyLinks
      | .link path, limit + 1 =>
        tree.resolveFrom limit (originOf place path) (namesOf path ++ names)
      | _, limit => tree.resolveFrom limit (place ++ [name]) names := by
  have hidle : ¬ ((name == "" || name == ".") = true) := by simpa using h.not_idle
  have hup : ¬ ((name == "..") = true) := by simpa using h.not_up
  rw [resolveFrom.eq_def]
  dsimp only
  rw [if_neg (by simp [h.isDirectoryAt]), if_neg hidle, if_neg hup,
    if_neg (Nat.not_lt_of_le h.short)]
  simp only [h.entry?_eq]
  cases entry <;> cases limit <;> rfl

/-! ### All the names -/

/-- **Names are resolved to where they lead if that takes no more links than the limit.** -/
theorem Leads.resolveFrom_eq (h : tree.Leads place names links target) :
    tree.resolveFrom limit place names =
      if links ≤ limit then .ok target else .error .tooManyLinks := by
  induction h generalizing limit with
  | here place => exact resolveFrom_nil
  | idle hdirectory hname _ ih => rw [resolveFrom_idle hdirectory hname, ih]
  | up hdirectory _ ih => rw [resolveFrom_up hdirectory, ih]
  | @down _ _ _ _ _ entry hholds hlink _ ih =>
    rw [hholds.resolveFrom]
    cases entry with
    | file content => exact ih
    | directory => exact ih
    | link path => exact absurd rfl (hlink path)
  | follow hholds _ ih =>
    rw [hholds.resolveFrom]
    cases limit with
    | zero => rfl
    | succ limit => simpa using ih

/-- What names are resolved to is where they lead. -/
theorem exists_leads_of_resolveFrom (h : tree.resolveFrom limit place names = .ok target) :
    ∃ links ≤ limit, tree.Leads place names links target := by
  fun_induction FileTree.resolveFrom tree limit place names with
  | case1 limit place =>
    cases h
    exact ⟨0, Nat.zero_le _, .here _⟩
  | case2 => cases h
  | case3 limit place name names hdirectory hname ih =>
    obtain ⟨links, hle, hleads⟩ := ih h
    exact ⟨links, hle, .idle (by simpa using hdirectory) (by simpa using hname) hleads⟩
  | case4 limit place name names hdirectory hidle hname ih =>
    obtain ⟨links, hle, hleads⟩ := ih h
    obtain rfl : name = ".." := by simpa using hname
    exact ⟨links, hle, .up (by simpa using hdirectory) hleads⟩
  | case5 => cases h
  | case6 => cases h
  | case7 => cases h
  | case8 place name names hdirectory hidle hup hshort path limit hentry ih =>
    obtain ⟨links, hle, hleads⟩ := ih h
    exact ⟨links + 1, Nat.succ_le_succ hle, .follow
      ⟨by simpa using hdirectory, by simpa using hidle, by simpa using hup, Nat.le_of_not_lt hshort,
        hentry⟩ hleads⟩
  | case9 place name names hdirectory hidle hup hshort entry limit hnone hsome hentry ih =>
    obtain ⟨links, hle, hleads⟩ := ih h
    refine ⟨links, hle, .down ⟨by simpa using hdirectory, by simpa using hidle, by simpa using hup,
      Nat.le_of_not_lt hshort, hentry⟩ (fun path hpath ↦ ?_) hleads⟩
    cases limit with
    | zero => exact hnone path rfl hpath
    | succ limit => exact hsome path limit rfl hpath

theorem resolveFrom_eq_ok_iff :
    tree.resolveFrom limit place names = .ok target ↔
      ∃ links ≤ limit, tree.Leads place names links target := by
  refine ⟨exists_leads_of_resolveFrom, ?_⟩
  rintro ⟨links, hle, hleads⟩
  rw [hleads.resolveFrom_eq, if_pos hle]

/-- Names lead to a single place, and in a single way. -/
theorem Leads.unique {links' : Nat} {target' : Place} (h : tree.Leads place names links target)
    (h' : tree.Leads place names links' target') : links = links' ∧ target = target' := by
  have hwithin : ∀ {links links' : Nat} {target target' : Place},
      tree.Leads place names links target → tree.Leads place names links' target' →
        links' ≤ links ∧ target = target' := by
    intro links links' target target' h h'
    have hsame : tree.resolveFrom links place names = _ := h.resolveFrom_eq
    rw [if_pos (Nat.le_refl links), h'.resolveFrom_eq] at hsame
    split at hsame
    · exact ⟨‹_›, (Except.ok.inj hsame).symm⟩
    · cases hsame
  obtain ⟨hle, htarget⟩ := hwithin h h'
  exact ⟨Nat.le_antisymm (hwithin h' h).1 hle, htarget⟩

/-- An empty name leads nowhere else. -/
theorem Leads.eq_of_empty (h : tree.Leads place [""] links target) :
    links = 0 ∧ place = target := by
  generalize hname : [""] = names at h
  cases h with
  | here => cases hname
  | idle _ _ hrest =>
    obtain ⟨-, rfl⟩ := List.cons.inj hname
    cases hrest
    exact ⟨rfl, rfl⟩
  | up => simp at hname
  | down hholds =>
    obtain ⟨rfl, -⟩ := List.cons.inj hname
    exact absurd (.inl rfl) hholds.not_idle
  | follow hholds =>
    obtain ⟨rfl, -⟩ := List.cons.inj hname
    exact absurd (.inl rfl) hholds.not_idle

/-- A link is followed by way of the names of its path. -/
theorem Holds.leads {path : Path} {origin : Place} (h : tree.Holds place name (.link path))
    (horigin : originOf place path = origin) (hnames : namesOf path = more)
    (hrest : tree.Leads origin (more ++ names) links target) :
    tree.Leads place (name :: names) (links + 1) target := by
  subst horigin hnames
  exact .follow h hrest

/-! ### Names after names -/

theorem Leads.append {middle : Place} {first second : Nat} (h : tree.Leads place names first middle)
    (hmore : tree.Leads middle more second target) :
    tree.Leads place (names ++ more) (first + second) target := by
  induction h with
  | here place => rwa [List.nil_append, Nat.zero_add]
  | idle hdirectory hname _ ih => exact .idle hdirectory hname (ih hmore)
  | up hdirectory _ ih => exact .up hdirectory (ih hmore)
  | down hholds hlink _ ih => exact .down hholds hlink (ih hmore)
  | follow hholds _ ih =>
    have hrest := ih hmore
    rw [List.append_assoc] at hrest
    rw [List.cons_append, Nat.add_right_comm]
    exact .follow hholds hrest

/-- Names lead by way of the place that the first of them lead to. -/
theorem Leads.split (h : tree.Leads place (names ++ more) links target) :
    ∃ first second middle, first + second = links ∧ tree.Leads place names first middle ∧
      tree.Leads middle more second target := by
  generalize hall : names ++ more = all at h
  induction h generalizing names with
  | here place =>
    obtain ⟨rfl, rfl⟩ := List.append_eq_nil_iff.1 hall
    exact ⟨0, 0, place, rfl, .here place, .here place⟩
  | @idle place _ name rest links hdirectory hname hrest ih =>
    obtain ⟨rfl, rfl⟩ | ⟨names, rfl, rfl⟩ := List.append_eq_cons_iff.1 hall
    · exact ⟨0, links, place, Nat.zero_add _, .here place, .idle hdirectory hname hrest⟩
    · obtain ⟨first, second, middle, hsum, hfirst, hsecond⟩ := ih rfl
      exact ⟨first, second, middle, hsum, .idle hdirectory hname hfirst, hsecond⟩
  | @up place _ rest links hdirectory hrest ih =>
    obtain ⟨rfl, rfl⟩ | ⟨names, rfl, rfl⟩ := List.append_eq_cons_iff.1 hall
    · exact ⟨0, links, place, Nat.zero_add _, .here place, .up hdirectory hrest⟩
    · obtain ⟨first, second, middle, hsum, hfirst, hsecond⟩ := ih rfl
      exact ⟨first, second, middle, hsum, .up hdirectory hfirst, hsecond⟩
  | @down place _ name rest links entry hholds hlink hrest ih =>
    obtain ⟨rfl, rfl⟩ | ⟨names, rfl, rfl⟩ := List.append_eq_cons_iff.1 hall
    · exact ⟨0, links, place, Nat.zero_add _, .here place, .down hholds hlink hrest⟩
    · obtain ⟨first, second, middle, hsum, hfirst, hsecond⟩ := ih rfl
      exact ⟨first, second, middle, hsum, .down hholds hlink hfirst, hsecond⟩
  | @follow place _ name rest links path hholds hrest ih =>
    obtain ⟨rfl, rfl⟩ | ⟨names, rfl, rfl⟩ := List.append_eq_cons_iff.1 hall
    · exact ⟨0, links + 1, place, Nat.zero_add _, .here place, .follow hholds hrest⟩
    · -- the names of the link come before the names that are left
      obtain ⟨first, second, middle, hsum, hfirst, hsecond⟩ := ih (List.append_assoc _ names more)
      exact ⟨first + 1, second, middle, by omega, .follow hholds hfirst, hsecond⟩

end RuleLint.FileTree
