import Mathlib.Data.List.TakeWhile
import RuleLint.FileTree.Walk
import RuleLint.Proofs.FileTree.Leads
import RuleLint.Proofs.Text.Pieces

/-!
# Paths to the entries of a directory

A path to an entry is the path of its directory with the name after a slash. Going by the text, its
last name is that of the entry (`Path.fileName?_join`); going by the file tree, it leads where the
name leads from where the path of the directory leads (`FileTree.PathLeads.join_iff`). A path is
resolved to where it leads just if it is within the limits of the file system
(`FileTree.resolve_eq_ok_iff`).

What a name says about the dialect of a file is read off its end: the extension is what follows its
last dot, if there is anything before that dot (`Path.extensionOfName?_eq_some_iff`).
-/

namespace RuleLint

variable {path : Path} {name : String}

namespace Path

/-! ### Parts -/

theorem parts_append (text more : List Char) :
    parts (text ++ '/' :: more) = parts text ++ parts more :=
  splitOnChar_append '/' text more

theorem parts_of_notMem {text : List Char} (h : '/' ∉ text) : parts text = [text] :=
  splitOnChar_of_notMem h

theorem joinParts_cons_cons (piece next : List Char) (pieces : List (List Char)) :
    joinParts (piece :: next :: pieces) = piece ++ '/' :: joinParts (next :: pieces) := rfl

theorem mem_joinParts {pieces : List (List Char)} {x : Char} (h : x ∈ joinParts pieces) :
    x = '/' ∨ ∃ piece ∈ pieces, x ∈ piece := by
  induction pieces with
  | nil => cases h
  | cons piece pieces ih =>
    cases pieces with
    | nil => exact Or.inr ⟨piece, List.mem_cons_self, h⟩
    | cons next pieces =>
      rw [joinParts_cons_cons, List.mem_append, List.mem_cons] at h
      rcases h with h | h | h
      · exact Or.inr ⟨piece, List.mem_cons_self, h⟩
      · exact Or.inl h
      · rcases ih h with h | ⟨piece, hpiece, hx⟩
        · exact Or.inl h
        · exact Or.inr ⟨piece, List.mem_cons_of_mem _ hpiece, hx⟩

theorem parts_joinParts {pieces : List (List Char)} (hne : pieces ≠ [])
    (hpieces : ∀ piece ∈ pieces, '/' ∉ piece) : parts (joinParts pieces) = pieces := by
  induction pieces with
  | nil => exact absurd rfl hne
  | cons piece pieces ih =>
    obtain ⟨hpiece, hpieces⟩ := List.forall_mem_cons.1 hpieces
    cases pieces with
    | nil => exact parts_of_notMem hpiece
    | cons next pieces =>
      rw [joinParts_cons_cons, parts_append, parts_of_notMem hpiece,
        ih (List.cons_ne_nil next pieces) hpieces, List.singleton_append]

/-- A name that an entry of a directory can have. -/
structure IsName (name : String) : Prop where
  not_idle : isIdle name.toList = false
  not_up : name ≠ ".."
  not_slash : '/' ∉ name.toList
  not_null : '\x00' ∉ name.toList

instance (name : String) : Decidable (IsName name) :=
  decidable_of_iff (isIdle name.toList = false ∧ name ≠ ".." ∧ '/' ∉ name.toList ∧
      '\x00' ∉ name.toList)
    ⟨fun ⟨hidle, hup, hslash, hnull⟩ ↦ ⟨hidle, hup, hslash, hnull⟩,
      fun h ↦ ⟨h.not_idle, h.not_up, h.not_slash, h.not_null⟩⟩

/-- A path to a name goes on after a slash, which is there already or not. -/
theorem exists_toList_join (hpath : path ≠ "") (name : String) :
    ∃ text, (path.join name).toList = text ++ '/' :: name.toList ∧
      (path.toList = text ∨ path.toList = text ++ ['/']) := by
  rw [join]
  split
  · rename_i hends
    have hlast : path.toList.getLast? = some '/' := by simpa [hpath] using hends
    obtain ⟨text, htext⟩ := List.getLast?_eq_some_iff.1 hlast
    exact ⟨text, by simp [htext], .inr htext⟩
  · exact ⟨path.toList, by simp, .inl rfl⟩

/-! ### The last name -/

theorem splitStart_append_slash (text name : List Char) :
    (splitStart (text ++ '/' :: name)).2 = name ∨
      ∃ rest, (splitStart (text ++ '/' :: name)).2 = rest ++ '/' :: name := by
  rw [splitStart.eq_def]
  split
  · rename_i rest h
    obtain ⟨-, h⟩ | ⟨text, -, h⟩ := List.append_eq_cons_iff.1 h
    · exact .inl (List.cons.inj h).2.symm
    · exact .inr ⟨text, h⟩
  · rename_i h
    obtain ⟨-, h⟩ | ⟨text, -, h⟩ := List.append_eq_cons_iff.1 h
    · simp at h
    · simp at h
  · rename_i rest h
    obtain ⟨-, h⟩ | ⟨text, -, h⟩ := List.append_eq_cons_iff.1 h
    · simp at h
    · exact .inr ⟨text, h⟩
  · exact .inr ⟨text, rfl⟩

theorem fileName?_join (hpath : path ≠ "") (hname : IsName name) :
    (path.join name).fileName? = some name := by
  obtain ⟨text, htext, -⟩ := exists_toList_join hpath name
  have hparts : ∃ rest, parts (splitStart (path.join name).toList).2 = rest ++ [name.toList] := by
    rw [htext]
    obtain hrest | ⟨rest, hrest⟩ := splitStart_append_slash text name.toList
    · exact ⟨[], by rw [hrest, parts_of_notMem hname.not_slash]; rfl⟩
    · exact ⟨parts rest, by rw [hrest, parts_append, parts_of_notMem hname.not_slash]⟩
  obtain ⟨rest, hparts⟩ := hparts
  have hidle : dropIdle (rest ++ [name.toList]) = rest ++ [name.toList] := by
    simp [dropIdle, hname.not_idle]
  have hup : (name.toList == ['.', '.']) = false := by
    rw [beq_eq_false_iff_ne]
    intro h
    exact hname.not_up (String.toList_injective h)
  rw [fileName?]
  dsimp only
  rw [hparts, hidle]
  simp [hup]

/-! ### The names on a path -/

/-- The names on a path. -/
def names (path : Path) : List (List Char) :=
  (parts path.toList).filter fun part ↦ !isIdle part

/-- The path to a name names what the path names, and then the name. -/
theorem names_join (path : Path) (hname : IsName name) :
    (path.join name).names = path.names ++ [name.toList] := by
  have hlast : [name.toList].filter (fun part ↦ !isIdle part) = [name.toList] := by
    rw [List.filter_singleton, hname.not_idle]
    rfl
  by_cases hpath : path = ""
  · subst hpath
    have hjoin : join "" name = name := by simp [join]
    rw [hjoin, names, parts_of_notMem hname.not_slash, hlast]
    rfl
  obtain ⟨text, htext, hends⟩ := exists_toList_join hpath name
  have hnames : path.names = (parts text).filter fun part ↦ !isIdle part := by
    rcases hends with hends | hends
    · rw [names, hends]
    · rw [names, hends, parts_append, List.filter_append]
      exact List.append_nil _
  rw [names, htext, parts_append, parts_of_notMem hname.not_slash, List.filter_append,
    hlast, hnames]

/-- The name of a file is the last one on its path, unless it leads up. -/
theorem fileName?_of_absolute (habsolute : path.toList.head? = some '/') :
    path.fileName? = path.names.getLast?.bind fun name ↦
      if name = ['.', '.'] then none else some (String.ofList name) := by
  have hlast : ∀ pieces, (dropIdle pieces).getLast? =
      (pieces.filter fun piece ↦ !isIdle piece).getLast? := by
    intro pieces
    rw [dropIdle, List.getLast?_reverse, ← List.find?_not_eq_head?_dropWhile,
      List.getLast?_eq_head?_reverse, ← List.filter_reverse, List.head?_filter]
  cases hpath : path.toList with
  | nil => simp [hpath] at habsolute
  | cons c rest =>
    obtain rfl : c = '/' := by simpa [hpath] using habsolute
    have hstart : splitStart ('/' :: rest) = (['/'], rest) := rfl
    have hnames : path.names = (parts rest).filter fun piece ↦ !isIdle piece := by
      have hparts : parts ('/' :: rest) = [] :: parts rest := parts_append [] rest
      rw [names, hpath, hparts]
      exact List.filter_cons_of_neg (by decide)
    rw [fileName?, hpath, hstart, hnames, ← hlast]
    dsimp only
    cases (dropIdle (parts rest)).getLast? with
    | none => rfl
    | some name => simp [beq_iff_eq]

/-! ### The extension of a name -/

/-- A text with a dot has a last one. -/
theorem exists_append_dot {text : List Char} (h : '.' ∈ text) :
    ∃ stem extension, text = stem ++ '.' :: extension ∧ '.' ∉ extension := by
  obtain ⟨last, rest, hreverse, hlast⟩ := List.eq_append_cons_of_mem (List.mem_reverse.2 h)
  refine ⟨rest.reverse, last.reverse, ?_, by simpa using hlast⟩
  simpa using congrArg List.reverse hreverse

/-- What follows the last dot. -/
theorem takeWhile_reverse_append_dot {stem extension : List Char} (h : '.' ∉ extension) :
    ((stem ++ '.' :: extension).reverse.takeWhile (· != '.')).reverse = extension := by
  rw [List.reverse_append, List.reverse_cons, List.append_assoc, List.singleton_append,
    List.takeWhile_append_of_pos fun x hx ↦ ?_]
  · simp
  · have hx := ne_of_mem_of_not_mem (List.mem_reverse.1 hx) h
    simpa using hx

theorem extensionOfName?_append {stem extension : List Char} (h : '.' ∉ extension) :
    extensionOfName? (stem ++ '.' :: extension) = if stem = [] then none else some extension := by
  rw [extensionOfName?, if_pos (by simp)]
  dsimp only
  rw [takeWhile_reverse_append_dot h]
  cases stem with
  | nil => simp
  | cons x stem =>
    rw [if_pos (by rw [List.length_append, List.length_cons, List.length_cons]; omega),
      if_neg (List.cons_ne_nil x stem)]

theorem extensionOfName?_eq_some_iff {name extension : List Char} (h : '.' ∉ extension) :
    extensionOfName? name = some extension ↔ ∃ stem ≠ [], name = stem ++ '.' :: extension := by
  constructor
  · intro hname
    have hdot : '.' ∈ name := by
      rw [extensionOfName?] at hname
      split at hname
      · simpa using ‹name.contains '.' = true›
      · cases hname
    obtain ⟨stem, last, rfl, hlast⟩ := exists_append_dot hdot
    rw [extensionOfName?_append hlast] at hname
    split at hname
    · cases hname
    · exact ⟨stem, ‹_›, by rw [Option.some.inj hname]⟩
  · rintro ⟨stem, hstem, rfl⟩
    rw [extensionOfName?_append h, if_neg hstem]

theorem extension?_of_fileName? (hname : path.fileName? = some name) :
    path.extension? = (extensionOfName? name.toList).map String.ofList := by
  rw [extension?, hname]
  cases h : extensionOfName? name.toList with
  | none => simp [h]
  | some extension => simp [h]

/-- An extension is that of a dialect just if it is the identifier of the dialect. -/
theorem bind_ofExtension?_eq_some_iff {extension : Option (List Char)} {dialect : Dialect} :
    (extension.map String.ofList).bind Dialect.ofExtension? = some dialect ↔
      extension = some dialect.id.toList := by
  constructor
  · intro h
    obtain ⟨_, hmap, hdialect⟩ := Option.bind_eq_some_iff.1 h
    obtain ⟨extension, rfl, rfl⟩ := Option.map_eq_some_iff.1 hmap
    rw [Dialect.id_of_ofExtension? hdialect, String.toList_ofList]
  · rintro rfl
    rw [Option.map_some, String.ofList_toList, Option.bind_some, Dialect.ofExtension?_id]

end Path

namespace FileTree

open RuleLint.Path

/-! ### Names of rule files -/

/-- The name has an extension that is one of a dialect. -/
def IsRuleName (name : String) : Prop :=
  ∃ stem : String, stem ≠ "" ∧ ∃ dialect : Dialect, name = stem ++ "." ++ dialect.id

theorem isHidden_join (hpath : path ≠ "") (hname : IsName name) :
    isHidden (path.join name) = name.startsWith "." := by
  rw [isHidden, fileName?_join hpath hname, Option.any_some]

theorem isRulePath_join (hpath : path ≠ "") (hname : IsName name) :
    isRulePath (path.join name) = true ↔ IsRuleName name := by
  have hextension : ∀ dialect : Dialect,
      extensionOfName? name.toList = some dialect.id.toList ↔
        ∃ stem : String, stem ≠ "" ∧ name = stem ++ "." ++ dialect.id := by
    intro dialect
    rw [extensionOfName?_eq_some_iff (by cases dialect <;> decide)]
    constructor
    · rintro ⟨stem, hstem, hname⟩
      refine ⟨String.ofList stem, by simpa using hstem, String.toList_injective ?_⟩
      simp [hname]
    · rintro ⟨stem, hstem, rfl⟩
      exact ⟨stem.toList, by simpa using hstem, by simp⟩
  rw [isRulePath, extension?_of_fileName? (fileName?_join hpath hname), Option.isSome_iff_exists]
  constructor
  · rintro ⟨dialect, hdialect⟩
    rw [bind_ofExtension?_eq_some_iff, hextension] at hdialect
    obtain ⟨stem, hstem, hname⟩ := hdialect
    exact ⟨stem, hstem, dialect, hname⟩
  · rintro ⟨stem, hstem, dialect, hname⟩
    refine ⟨dialect, ?_⟩
    rw [bind_ofExtension?_eq_some_iff, hextension]
    exact ⟨stem, hstem, hname⟩

/-! ### Where paths lead -/

variable {tree : FileTree} {target place : Place} {links : Nat}

/-- The path leads to a place and follows that many links. -/
def PathLeads (tree : FileTree) (path : Path) (links : Nat) (target : Place) : Prop :=
  tree.Leads (originOf tree.current path) (namesOf path) links target

theorem pathLeads_of_leads {names : List String} (horigin : originOf tree.current path = place)
    (hnames : namesOf path = names) (h : tree.Leads place names links target) :
    tree.PathLeads path links target := by
  rwa [PathLeads, horigin, hnames]

/-- A path is resolved to where it leads if it is within the limits. -/
theorem resolve_eq_ok_iff :
    tree.resolve path = .ok target ↔ '\x00' ∉ path.toList ∧ path ≠ "" ∧
      path.utf8ByteSize ≤ pathLimit ∧ ∃ links ≤ linkLimit, tree.PathLeads path links target := by
  rw [resolve]
  split
  · simp_all
  split
  · simp_all
  split
  · rename_i hlong
    simp [Nat.not_le_of_lt hlong]
  · rename_i hnull hempty hlong
    have hfits := Nat.le_of_not_lt hlong
    rw [← originOf, resolveFrom_eq_ok_iff]
    simp_all [PathLeads]

/-- A path that leads to a text is read as that text. -/
theorem read_of_resolve {text : String} (hresolve : tree.resolve path = .ok target)
    (hentry : tree.entry? target = some (.file text.toUTF8)) : tree.read path = .ok text := by
  have htext : String.fromUTF8? text.toUTF8 = some text := dif_pos text.isValidUTF8
  rw [read, hresolve]
  dsimp only [bind, Except.bind]
  rw [hentry]
  dsimp only
  rw [htext]
  rfl

theorem originOf_join (hpath : path ≠ "") :
    originOf place (path.join name) = originOf place path := by
  obtain ⟨text, htext, hends⟩ := exists_toList_join hpath name
  have hsame : (path.join name).startsWith "/" = path.startsWith "/" := by
    rw [Bool.eq_iff_iff, String.startsWith_string_iff, String.startsWith_string_iff, htext]
    rcases hends with hends | hends <;> rw [hends] <;> cases text <;> simp_all
  rw [originOf, originOf, hsame]

/-- The path to a name that is below a path leads where the name leads from where the path leads. -/
theorem PathLeads.join_iff {first : Nat} (h : tree.PathLeads path first place) (hpath : path ≠ "")
    (hname : IsName name) :
    tree.PathLeads (path.join name) links target ↔
      ∃ second, links = first + second ∧ tree.Leads place [name] second target := by
  have horigin : originOf tree.current (path.join name) = originOf tree.current path :=
    originOf_join hpath
  -- the names of the path, without the empty one after a slash at its end
  have hnames : ∃ names, (namesOf path = names ∨ namesOf path = names ++ [""]) ∧
      namesOf (path.join name) = names ++ [name] := by
    obtain ⟨text, htext, hends⟩ := exists_toList_join hpath name
    refine ⟨(parts text).map String.ofList, ?_, ?_⟩
    · rcases hends with hends | hends
      · exact .inl (by rw [namesOf, hends])
      · exact .inr (by rw [namesOf, hends, parts_append]; simp [parts_of_notMem])
    · rw [namesOf, htext, parts_append, parts_of_notMem hname.not_slash]
      simp
  obtain ⟨names, hpath, hjoin⟩ := hnames
  have hnames : tree.Leads (originOf tree.current path) names first place := by
    rw [PathLeads] at h
    rcases hpath with hpath | hpath <;> rw [hpath] at h
    · exact h
    · obtain ⟨first', second, middle, rfl, hfirst, hsecond⟩ := h.split
      obtain ⟨rfl, rfl⟩ := hsecond.eq_of_empty
      exact hfirst
  rw [PathLeads, horigin, hjoin]
  constructor
  · intro hleads
    obtain ⟨first', second, middle, rfl, hfirst, hsecond⟩ := hleads.split
    obtain ⟨rfl, rfl⟩ := hnames.unique hfirst
    exact ⟨second, rfl, hsecond⟩
  · rintro ⟨second, rfl, hsecond⟩
    exact hnames.append hsecond

end FileTree

end RuleLint
