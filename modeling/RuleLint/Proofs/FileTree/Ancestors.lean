import Mathlib.Data.List.TakeDrop
import RuleLint.Proofs.FileTree.Paths

/-!
# The ancestors of a path

The parent of a path is a first part of its text (`Path.prefix_of_parent?`) and names what the path
names but for the last name (`Path.exists_parent?_eq`). That is a matter of the text, and the
directory above is one of the file tree: two dots at the end of a path are taken off like any other
name, and so is the name of a link.

So the parents climb through the directories above for as long as the last names lead down, one
below the other, without a link among them (`FileTree.Spells`). They then go through all the
directories on the way to the top of these names, from below (`FileTree.Spells.exists_rungs`). What
is above the top is not said, unless the whole path leads down: then its ancestors end there.
-/

namespace RuleLint

open FileTree

namespace Path

variable {path parent : Path} {name : String} {pieces more : List (List Char)}

theorem splitStart_append_eq (text : List Char) :
    (splitStart text).1 ++ (splitStart text).2 = text := by
  rw [splitStart.eq_def]
  split <;> rfl

/-! ### Pieces with slashes between them -/

theorem joinParts_splitOnFrom (piece text : List Char) :
    joinParts (splitOnFrom '/' piece text) = piece.reverse ++ text := by
  induction text generalizing piece with
  | nil => rw [splitOnFrom, List.append_nil, joinParts]
  | cons c text ih =>
    rw [splitOnFrom]
    split
    · rename_i hc
      obtain ⟨next, pieces, hpieces⟩ := List.exists_cons_of_ne_nil
        (List.ne_nil_of_length_eq_add_one (length_splitOnFrom '/' [] text))
      rw [hpieces, joinParts_cons_cons, ← hpieces, ih, hc]
      rfl
    · rw [ih, List.reverse_cons, List.append_assoc, List.singleton_append]

theorem joinParts_parts (text : List Char) : joinParts (parts text) = text :=
  joinParts_splitOnFrom [] text

theorem notMem_of_mem_splitOnFrom {piece text part : List Char} (hpiece : '/' ∉ piece)
    (h : part ∈ splitOnFrom '/' piece text) : '/' ∉ part := by
  induction text generalizing piece with
  | nil =>
    rw [List.mem_singleton.1 h, List.mem_reverse]
    exact hpiece
  | cons c text ih =>
    rw [splitOnFrom] at h
    split at h
    · rcases List.mem_cons.1 h with rfl | h
      · rwa [List.mem_reverse]
      · exact ih List.not_mem_nil h
    · rename_i hc
      exact ih (List.not_mem_cons_of_ne_of_not_mem (Ne.symm hc) hpiece) h

theorem notMem_of_mem_parts {text part : List Char} (h : part ∈ parts text) : '/' ∉ part :=
  notMem_of_mem_splitOnFrom List.not_mem_nil h

theorem joinParts_append (hpieces : pieces ≠ []) (hmore : more ≠ []) :
    joinParts (pieces ++ more) = joinParts pieces ++ '/' :: joinParts more := by
  induction pieces with
  | nil => exact absurd rfl hpieces
  | cons piece pieces ih =>
    cases pieces with
    | nil =>
      obtain ⟨next, more, rfl⟩ := List.exists_cons_of_ne_nil hmore
      rfl
    | cons next pieces =>
      rw [List.cons_append, List.cons_append, joinParts_cons_cons, joinParts_cons_cons,
        ← List.cons_append, ih (List.cons_ne_nil _ _), List.append_assoc, List.cons_append]

theorem prefix_joinParts (h : pieces <+: more) : joinParts pieces <+: joinParts more := by
  obtain ⟨rest, rfl⟩ := h
  by_cases hpieces : pieces = []
  · rw [hpieces]
    exact List.nil_prefix
  by_cases hrest : rest = []
  · simp only [hrest, List.append_nil, List.prefix_refl]
  · rw [joinParts_append hpieces hrest]
    exact List.prefix_append _ _

theorem exists_dropIdle_append (pieces : List (List Char)) :
    ∃ idle, pieces = dropIdle pieces ++ idle ∧ ∀ part ∈ idle, isIdle part = true := by
  refine ⟨(pieces.reverse.takeWhile isIdle).reverse, ?_, fun part hpart ↦ ?_⟩
  · rw [dropIdle, ← List.reverse_append, List.takeWhile_append_dropWhile, List.reverse_reverse]
  · exact List.mem_takeWhile_imp (List.mem_reverse.1 hpart)

theorem prefix_dropIdle (pieces : List (List Char)) : dropIdle pieces <+: pieces := by
  obtain ⟨idle, heq, -⟩ := exists_dropIdle_append pieces
  exact ⟨idle, heq.symm⟩

theorem filter_dropIdle (pieces : List (List Char)) :
    (dropIdle pieces).filter (fun part ↦ !isIdle part) = pieces.filter fun part ↦ !isIdle part := by
  obtain ⟨idle, heq, hidle⟩ := exists_dropIdle_append pieces
  have hnone : idle.filter (fun part ↦ !isIdle part) = [] :=
    List.filter_eq_nil_iff.2 fun part hpart ↦ by simp [hidle part hpart]
  conv_rhs => rw [heq, List.filter_append, hnone, List.append_nil]

/-- The last part of what is left names something. -/
theorem dropIdle_eq_concat {last : List Char} (h : dropIdle pieces = more ++ [last]) :
    isIdle last = false := by
  have hreverse : pieces.reverse.dropWhile isIdle = last :: more.reverse := by
    rw [dropIdle] at h
    simpa using congrArg List.reverse h
  have hhead : isIdle ((pieces.reverse.dropWhile isIdle).head (by simp [hreverse])) = false :=
    List.head_dropWhile_not _ _
  simpa only [hreverse, List.head_cons] using hhead

/-! ### Parents -/

theorem filter_parts_joinParts (h : ∀ piece ∈ pieces, '/' ∉ piece) :
    (parts (joinParts pieces)).filter (fun part ↦ !isIdle part) =
      pieces.filter fun part ↦ !isIdle part := by
  by_cases hpieces : pieces = []
  · rw [hpieces]
    rfl
  · rw [parts_joinParts hpieces h]

/-- A dot before a slash names nothing. -/
theorem filter_parts_dot (h : ∀ piece ∈ pieces, '/' ∉ piece)
    (hhead : ∀ piece ∈ pieces.head?, piece = []) :
    (parts ('.' :: joinParts pieces)).filter (fun part ↦ !isIdle part) =
      pieces.filter fun part ↦ !isIdle part := by
  match pieces with
  | [] => rfl
  | [piece] =>
    rw [hhead piece rfl]
    rfl
  | piece :: next :: pieces =>
    rw [hhead piece rfl, joinParts_cons_cons, List.nil_append]
    have hparts : parts ('.' :: '/' :: joinParts (next :: pieces)) =
        ['.'] :: parts (joinParts (next :: pieces)) := parts_append ['.'] _
    rw [hparts, parts_joinParts (List.cons_ne_nil next pieces) (List.forall_mem_cons.1 h).2]
    rfl

/-- The first parts of a path, with its start before them, name what they name. -/
theorem prefix_names {text : List Char} (h : pieces <+: parts (splitStart text).2) :
    names (String.ofList ((splitStart text).1 ++ joinParts pieces)) =
      pieces.filter fun part ↦ !isIdle part := by
  have hslash : ∀ piece ∈ pieces, '/' ∉ piece :=
    fun piece hpiece ↦ notMem_of_mem_parts (h.subset hpiece)
  have hhead : ∀ {rest : List (List Char)}, pieces <+: [] :: rest →
      ∀ piece ∈ pieces.head?, piece = [] := by
    intro rest hprefix piece hpiece
    obtain ⟨more, rfl⟩ := List.head?_eq_some_iff.1 hpiece
    exact (List.cons_prefix_cons.1 hprefix).1
  rw [names, String.toList_ofList]
  rw [splitStart.eq_def] at h ⊢
  split at h
  · have hparts : parts ('/' :: joinParts pieces) = [] :: parts (joinParts pieces) :=
      parts_append [] _
    exact (congrArg _ hparts).trans (filter_parts_joinParts hslash)
  · exact filter_parts_dot hslash (hhead h)
  · rename_i rest
    have hparts : parts ('/' :: rest) = [] :: parts rest := parts_append [] rest
    rw [hparts] at h
    exact filter_parts_dot hslash (hhead h)
  · exact filter_parts_joinParts hslash

theorem names_eq (path : Path) :
    path.names = (parts (splitStart path.toList).2).filter fun part ↦ !isIdle part := by
  rw [← prefix_names (List.prefix_refl _), joinParts_parts, splitStart_append_eq,
    String.ofList_toList]

/-- A path that names nothing has no parent, unless it starts from the current directory. -/
theorem parent?_of_names_eq_nil (h : path.names = []) :
    path.parent? = if (splitStart path.toList).1 = ['.'] then some "" else none := by
  have hidle : dropIdle (parts (splitStart path.toList).2) = [] := by
    rw [names_eq, ← filter_dropIdle] at h
    rcases List.eq_nil_or_concat' (dropIdle (parts (splitStart path.toList).2)) with
      hnil | ⟨init, last, hconcat⟩
    · exact hnil
    · rw [hconcat, List.filter_append, List.filter_singleton, dropIdle_eq_concat hconcat] at h
      simp at h
  rw [parent?]
  dsimp only
  rw [hidle]
  simp

/-- The parent of a path that names something names all of it but the last name. -/
theorem exists_parent?_eq {names : List (List Char)} {last : List Char}
    (h : path.names = names ++ [last]) :
    ∃ pieces, pieces <+: parts (splitStart path.toList).2 ∧
      pieces.filter (fun part ↦ !isIdle part) = names ∧
      path.parent? = some (String.ofList ((splitStart path.toList).1 ++ joinParts pieces)) := by
  rw [names_eq, ← filter_dropIdle] at h
  rcases List.eq_nil_or_concat' (dropIdle (parts (splitStart path.toList).2)) with
    hnil | ⟨init, last', hconcat⟩
  · rw [hnil] at h
    simp at h
  rw [hconcat, List.filter_append, List.filter_singleton, dropIdle_eq_concat hconcat] at h
  refine ⟨dropIdle init, ?_, ?_, ?_⟩
  · refine (prefix_dropIdle init).trans (.trans ?_ (prefix_dropIdle _))
    exact ⟨[last'], hconcat.symm⟩
  · rw [filter_dropIdle]
    exact (List.append_inj' h rfl).1
  · rw [parent?]
    dsimp only
    rw [hconcat]
    split
    · rename_i hnil
      exact absurd hnil (by simp)
    · rw [List.dropLast_concat]

/-- The parent of a path is a first part of it, which is shorter. -/
theorem prefix_of_parent? (h : path.parent? = some parent) :
    parent.toList <+: path.toList ∧ parent.length < path.length := by
  rcases List.eq_nil_or_concat' path.names with hnames | ⟨names, last, hnames⟩
  · rw [parent?_of_names_eq_nil hnames, Option.ite_none_right_eq_some] at h
    obtain ⟨hdot, hempty⟩ := h
    obtain rfl := Option.some.inj hempty
    have hpath := splitStart_append_eq path.toList
    rw [hdot] at hpath
    refine ⟨List.nil_prefix, ?_⟩
    rw [← String.length_toList, ← String.length_toList, ← hpath]
    exact Nat.succ_pos _
  · obtain ⟨pieces, hprefix, hfilter, hparent⟩ := exists_parent?_eq hnames
    obtain rfl := Option.some.inj (h.symm.trans hparent)
    have htext : (splitStart path.toList).1 ++ joinParts pieces <+: path.toList := by
      conv_rhs => rw [← splitStart_append_eq path.toList, ← joinParts_parts (splitStart _).2]
      exact (List.prefix_append_right_inj _).2 (prefix_joinParts hprefix)
    rw [String.toList_ofList]
    refine ⟨htext, ?_⟩
    rw [← String.length_toList, ← String.length_toList, String.toList_ofList]
    refine lt_of_le_of_ne htext.length_le fun hlength ↦ ?_
    -- the whole path would name as much as its parent
    have hsame := prefix_names hprefix
    rw [htext.eq_of_length hlength, String.ofList_toList, hfilter, hnames] at hsame
    simp at hsame

/-- A parent leads on from where the path does. -/
theorem originOf_parent? (h : path.parent? = some parent) (place : Place) :
    originOf place parent = originOf place path := by
  have hsame : parent.startsWith "/" = path.startsWith "/" := by
    rw [Bool.eq_iff_iff, String.startsWith_string_iff, String.startsWith_string_iff]
    refine ⟨fun hroot ↦ hroot.trans (prefix_of_parent? h).1, fun hroot ↦ ?_⟩
    obtain ⟨rest, hpath⟩ := hroot
    have hstart : (splitStart path.toList).1 = ['/'] := by
      rw [← hpath]
      rfl
    rcases List.eq_nil_or_concat' path.names with hnames | ⟨names, last, hnames⟩
    · rw [parent?_of_names_eq_nil hnames, hstart] at h
      cases h
    · obtain ⟨pieces, -, -, hparent⟩ := exists_parent?_eq hnames
      rw [← Option.some.inj (hparent.symm.trans h), hstart]
      exact ⟨joinParts pieces, String.toList_ofList.symm⟩
  rw [originOf, originOf, hsame]

theorem names_eq_nil_of_parent? (h : path.parent? = none) : path.names = [] := by
  rcases List.eq_nil_or_concat' path.names with hnames | ⟨names, last, hnames⟩
  · exact hnames
  · obtain ⟨pieces, -, -, heq⟩ := exists_parent?_eq hnames
    cases h.symm.trans heq

/-- Each of the ancestors of a path is a first part of it. -/
theorem prefix_of_mem_ancestorsFrom {fuel : Nat} {ancestor : Path}
    (h : ancestor ∈ ancestorsFrom fuel path) : ancestor.toList <+: path.toList := by
  induction fuel generalizing path with
  | zero =>
    obtain rfl := List.mem_singleton.1 h
    exact List.prefix_refl _
  | succ fuel ih =>
    rw [ancestorsFrom] at h
    split at h
    · rename_i parent hparent
      rcases List.mem_cons.1 h with rfl | h
      · exact List.prefix_refl _
      · exact (ih h).trans (prefix_of_parent? hparent).1
    · obtain rfl := List.mem_singleton.1 h
      exact List.prefix_refl _

end Path

namespace FileTree

open RuleLint.Path

variable {tree : FileTree} {path parent : Path} {place target : Place} {name : String}
  {names : List String} {links : Nat}

/-! ### Names that name nothing -/

theorem isIdle_toList : isIdle name.toList = true ↔ name = "" ∨ name = "." := by
  have hdot : name.toList = ['.'] ↔ name = "." :=
    ⟨fun h ↦ String.toList_injective h, fun h ↦ by rw [h]; rfl⟩
  rw [isIdle, Bool.or_eq_true, List.isEmpty_iff, beq_iff_eq, String.toList_eq_nil_iff, hdot]

/-- What a path names, as texts. -/
def namedBy (path : Path) : List String :=
  path.names.map String.ofList

theorem namedBy_eq (path : Path) :
    namedBy path = (namesOf path).filter fun name ↦ !isIdle name.toList := by
  rw [namedBy, namesOf, List.filter_map, Path.names]
  congr 2
  funext part
  rw [Function.comp_apply, String.toList_ofList]

theorem Leads.isDirectoryAt_of_cons (h : tree.Leads place (name :: names) links target) :
    tree.isDirectoryAt place = true := by
  cases h with
  | idle hdirectory => exact hdirectory
  | up hdirectory => exact hdirectory
  | down hholds => exact hholds.isDirectoryAt
  | follow hholds => exact hholds.isDirectoryAt

theorem Leads.isDirectoryAt_start (h : tree.Leads place names links target)
    (htarget : tree.isDirectoryAt target = true) : tree.isDirectoryAt place = true := by
  cases names with
  | nil =>
    cases h
    exact htarget
  | cons name names => exact h.isDirectoryAt_of_cons

theorem Leads.of_isIdle (hidle : isIdle name.toList = true)
    (h : tree.Leads place (name :: names) links target) : tree.Leads place names links target := by
  have hname := isIdle_toList.1 hidle
  cases h with
  | idle _ _ hrest => exact hrest
  | up => simp at hname
  | down hholds => exact absurd hname hholds.not_idle
  | follow hholds => exact absurd hname hholds.not_idle

theorem leads_cons_iff : tree.Leads place (name :: names) links target ↔
    ∃ first second middle, first + second = links ∧ tree.Leads place [name] first middle ∧
      tree.Leads middle names second target := by
  refine ⟨fun h ↦ ?_, ?_⟩
  · rw [← List.singleton_append] at h
    exact h.split
  · rintro ⟨first, second, middle, rfl, hfirst, hsecond⟩
    exact hfirst.append hsecond

/-- What names nothing can be left out, and it can be put in on the way to a directory. -/
theorem leads_filter_iff (htarget : tree.isDirectoryAt target = true) :
    tree.Leads place (names.filter fun name ↦ !isIdle name.toList) links target ↔
      tree.Leads place names links target := by
  induction names generalizing place links with
  | nil => rfl
  | cons name names ih =>
    by_cases hidle : isIdle name.toList = true
    · rw [List.filter_cons_of_neg (by simp [hidle]), ih]
      refine ⟨fun h ↦ ?_, Leads.of_isIdle hidle⟩
      exact .idle (h.isDirectoryAt_start htarget) (isIdle_toList.1 hidle) h
    · rw [List.filter_cons_of_pos (by simp [hidle])]
      constructor
      · intro h
        obtain ⟨first, second, middle, hsum, hfirst, hsecond⟩ := leads_cons_iff.1 h
        exact leads_cons_iff.2 ⟨first, second, middle, hsum, hfirst, ih.1 hsecond⟩
      · intro h
        obtain ⟨first, second, middle, hsum, hfirst, hsecond⟩ := leads_cons_iff.1 h
        exact leads_cons_iff.2 ⟨first, second, middle, hsum, hfirst, ih.2 hsecond⟩

/-- Names that do not lead up lead down. -/
theorem Leads.prefix_of_notMem (h : tree.Leads place names 0 target) (hup : ".." ∉ names) :
    place <+: target := by
  generalize hlinks : 0 = links at h
  induction h with
  | here place => exact List.prefix_refl place
  | idle _ _ _ ih => exact ih (mt (List.mem_cons_of_mem _) hup) hlinks
  | up => exact absurd List.mem_cons_self hup
  | down _ _ _ ih =>
    exact (List.prefix_append _ _).trans (ih (mt (List.mem_cons_of_mem _) hup) hlinks)
  | follow => cases hlinks

/-- The last of such names is that of an entry. -/
theorem Leads.exists_of_concat {last : String} (h : tree.Leads place (names ++ [last]) 0 target)
    (hup : last ≠ "..") (hidle : isIdle last.toList = false) :
    ∃ above entry, target = above ++ [last] ∧ tree.Leads place names 0 above ∧
      tree.Holds above last entry ∧ ∀ path, entry ≠ .link path := by
  obtain ⟨first, second, above, hsum, hfirst, hsecond⟩ := h.split
  obtain ⟨rfl, rfl⟩ := Nat.add_eq_zero_iff.1 hsum
  cases hsecond with
  | idle _ hname => exact absurd (isIdle_toList.2 hname) (by simp [hidle])
  | up => exact absurd rfl hup
  | down hholds hlink hrest =>
    cases hrest
    exact ⟨above, _, rfl, hfirst, hholds, hlink⟩

/-! ### Climbing -/

/-- The first names of a path lead to the directory at `top` and follow that many links. From there
the other names lead down to a place, one below the other: none of them leads up, and none is that
of a link. -/
structure Spells (tree : FileTree) (head : List String) (links : Nat) (top : Place) (path : Path)
    (place : Place) : Prop where
  isDirectoryAt_top : tree.isDirectoryAt top = true
  leads_head : tree.Leads (originOf tree.current path) head links top
  exists_tail : ∃ tail, namedBy path = head ++ tail ∧ ".." ∉ tail ∧ tree.Leads top tail 0 place

namespace Spells

variable {head : List String} {top : Place}

theorem pathLeads (h : tree.Spells head links top path place)
    (hplace : tree.isDirectoryAt place = true) : tree.PathLeads path links place := by
  obtain ⟨tail, hnames, -, htail⟩ := h.exists_tail
  rw [PathLeads, ← leads_filter_iff hplace, ← namedBy_eq, hnames]
  exact h.leads_head.append htail

theorem top_prefix (h : tree.Spells head links top path place) : top <+: place := by
  obtain ⟨tail, -, hup, htail⟩ := h.exists_tail
  exact htail.prefix_of_notMem hup

theorem namedBy_empty : namedBy "" = [] := rfl

/-- A path to a name leads where the name leads from where the path leads. -/
theorem join_iff {more : Nat} (h : tree.Spells head links top path place)
    (hplace : tree.isDirectoryAt place = true) (hname : IsName name) :
    tree.PathLeads (path.join name) more target ↔
      ∃ second, more = links + second ∧ tree.Leads place [name] second target := by
  by_cases hpath : path = ""
  · subst hpath
    have hjoin : Path.join "" name = name := by simp [Path.join]
    have horigin : originOf tree.current name = tree.current :=
      originOf_of_relative fun hroot ↦ hname.not_slash (hroot.subset (List.mem_singleton_self _))
    obtain ⟨tail, hnames, -, htail⟩ := h.exists_tail
    obtain ⟨rfl, rfl⟩ := List.append_eq_nil_iff.1 (hnames.symm.trans namedBy_empty)
    have hhead := h.leads_head
    cases hhead
    cases htail
    have hempty : originOf tree.current "" = tree.current := rfl
    rw [hjoin, PathLeads, horigin, namesOf, parts_of_notMem hname.not_slash, List.map_singleton,
      String.ofList_toList, hempty]
    simp only [Nat.zero_add, exists_eq_left']
  · exact (h.pathLeads hplace).join_iff hpath hname

/-- The last name of a path below the top is that of an entry. -/
theorem exists_of_names {names : List (List Char)} {last : List Char}
    (h : tree.Spells head links top path place) (hnames : path.names = names ++ [last]) :
    (place = top ∧ head ≠ []) ∨ ∃ above entry tail, place = above ++ [String.ofList last] ∧
      names.map String.ofList = head ++ tail ∧ ".." ∉ tail ∧ tree.Leads top tail 0 above ∧
      tree.Holds above (String.ofList last) entry ∧ ∀ target, entry ≠ .link target := by
  obtain ⟨tail, hnamed, hup, htail⟩ := h.exists_tail
  rcases List.eq_nil_or_concat' tail with rfl | ⟨tail, last', rfl⟩
  · cases htail
    refine .inl ⟨rfl, ?_⟩
    rintro rfl
    simp [namedBy, hnames] at hnamed
  rw [namedBy, hnames, List.map_append, List.map_singleton, ← List.append_assoc] at hnamed
  obtain ⟨hnames', hlast⟩ := List.append_inj' hnamed rfl
  obtain rfl := (List.cons.inj hlast).1
  have hidle : isIdle last = false := by
    have hmem : last ∈ path.names := by simp [hnames]
    simpa using (List.mem_filter.1 hmem).2
  simp only [List.mem_append, List.mem_singleton, not_or] at hup
  obtain ⟨above, entry, hplace, habove, hholds, hlink⟩ :=
    htail.exists_of_concat (Ne.symm hup.2) (by rwa [String.toList_ofList])
  exact .inr ⟨above, entry, tail, hplace, hnames', hup.1, habove, hholds, hlink⟩

theorem eq_top (h : tree.Spells head links top path place) (hnames : path.names = []) :
    place = top := by
  obtain ⟨tail, hnamed, -, htail⟩ := h.exists_tail
  rw [namedBy, hnames] at hnamed
  obtain ⟨-, rfl⟩ := List.append_eq_nil_iff.1 hnamed.symm
  cases htail
  rfl

/-- The parent of a path below the top leads to the directory above. -/
theorem spells_parent? (h : tree.Spells head links top path place)
    (hparent : path.parent? = some parent) :
    (∃ above last, place = above ++ [last] ∧ tree.isDirectoryAt above = true ∧
        tree.Spells head links top parent above) ∨
      place = top ∧ (head = [] → tree.Spells head links top parent top) := by
  have hhead : tree.Leads (originOf tree.current parent) head links top := by
    rw [originOf_parent? hparent]
    exact h.leads_head
  rcases List.eq_nil_or_concat' path.names with hnames | ⟨names, last, hnames⟩
  · rw [parent?_of_names_eq_nil hnames, Option.ite_none_right_eq_some] at hparent
    obtain rfl := Option.some.inj hparent.2
    refine .inr ⟨h.eq_top hnames, fun hnil ↦ ⟨h.isDirectoryAt_top, hhead, [], ?_, nofun, .here _⟩⟩
    rw [hnil]
    rfl
  · obtain ⟨pieces, hprefix, hfilter, heq⟩ := exists_parent?_eq hnames
    obtain rfl := Option.some.inj (hparent.symm.trans heq)
    have hparent := (prefix_names hprefix).trans hfilter
    rcases h.exists_of_names hnames with ⟨htop, hne⟩ |
      ⟨above, entry, tail, hplace, htail, hup, habove, hholds, -⟩
    · exact .inr ⟨htop, fun hnil ↦ absurd hnil hne⟩
    · refine .inl ⟨above, _, hplace, hholds.isDirectoryAt,
        ⟨h.isDirectoryAt_top, hhead, tail, ?_, hup, habove⟩⟩
      rw [namedBy, hparent, htail]

/-- **The ancestors of a path climb through the directories above.** Up to the top they lead to the
directories from that of the path upwards, to all of them, and never down again. If the whole path
leads down, there are no others. -/
theorem exists_rungs {fuel : Nat} (h : tree.Spells head links top path place)
    (hplace : tree.isDirectoryAt place = true) (hfuel : path.length < fuel) :
    ∃ lower upper rungs, ancestorsFrom fuel path = lower ++ upper ∧ (head = [] → upper = []) ∧
      List.Forall₂ (fun path place ↦ tree.Spells head links top path place ∧
        tree.isDirectoryAt place = true) lower rungs ∧
      (∀ rung, rung ∈ rungs ↔ top <+: rung ∧ rung <+: place) ∧
      rungs.Pairwise fun lower upper ↦ upper <+: lower := by
  have htop : ∀ {rung : Place}, rung = top ↔ top <+: rung ∧ rung <+: top :=
    ⟨fun h ↦ h ▸ ⟨List.prefix_refl _, List.prefix_refl _⟩,
      fun ⟨hge, hle⟩ ↦ hle.eq_of_length_le hge.length_le⟩
  induction fuel generalizing path place with
  | zero => exact absurd hfuel (Nat.not_lt_zero _)
  | succ fuel ih =>
    rw [ancestorsFrom]
    split
    · rename_i parent hparent
      have hlength := (prefix_of_parent? hparent).2
      rcases h.spells_parent? hparent with ⟨above, last, rfl, habove, hspells⟩ | ⟨rfl, hspells⟩
      · obtain ⟨lower, upper, rungs, heq, hupper, hrungs, hmem, hpairwise⟩ :=
          ih hspells habove (by omega)
        refine ⟨path :: lower, upper, (above ++ [last]) :: rungs, by rw [heq, List.cons_append],
          hupper, .cons ⟨h, hplace⟩ hrungs, fun rung ↦ ?_,
          hpairwise.cons fun rung hrung ↦ ((hmem rung).1 hrung).2.trans (List.prefix_append _ _)⟩
        rw [List.mem_cons, hmem, List.prefix_concat_iff, and_or_left]
        refine or_congr_left ⟨?_, And.right⟩
        rintro rfl
        exact ⟨h.top_prefix, rfl⟩
      · by_cases hhead : head = []
        · obtain ⟨lower, upper, rungs, heq, hupper, hrungs, hmem, hpairwise⟩ :=
            ih (hspells hhead) hplace (by omega)
          refine ⟨path :: lower, upper, place :: rungs, by rw [heq, List.cons_append],
            hupper, .cons ⟨h, hplace⟩ hrungs, fun rung ↦ ?_,
            hpairwise.cons fun rung hrung ↦ ((hmem rung).1 hrung).2⟩
          rw [List.mem_cons, hmem, htop, or_self]
        -- At the top the ancestors go on by the names of the head, of which nothing is known.
        · exact ⟨[path], ancestorsFrom fuel parent, [place], rfl, fun hnil ↦ absurd hnil hhead,
            .cons ⟨h, hplace⟩ .nil, fun rung ↦ by rw [List.mem_singleton, htop],
            List.pairwise_singleton _ _⟩
    · rename_i hparent
      obtain rfl := h.eq_top (names_eq_nil_of_parent? hparent)
      exact ⟨[path], [], [place], rfl, fun _ ↦ rfl, .cons ⟨h, hplace⟩ .nil,
        fun rung ↦ by rw [List.mem_singleton, htop], List.pairwise_singleton _ _⟩

end Spells

end FileTree

end RuleLint
