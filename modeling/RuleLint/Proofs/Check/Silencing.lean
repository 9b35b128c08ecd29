import RuleLint.Proofs.Check.BlockJoints

/-!
# Directives only silence

A directive at the end of a line is a comment, so it should silence findings and add none. It does
so for each rule for which the end of the line cuts nothing (`LineEnd.Clear`): what the rule finds
or reads in the text, it finds or reads above the end of the line and below. Then every finding of
the rule with the directive was there without it (`LineEnd.Clear.covered`), and `lint_remarked` adds
what the configuration and the directives take away. For most rules the characters at both sides of
the end of the line tell that it cuts nothing (`LineEnd.Separates.clear`,
`LineEnd.EndsStatement.clear`).

**Some rules do not know comments.** The declaration of a key goes on to the end of its line, so a
directive there becomes a part of the key, and calls that were right are found
(`lint_remarked_declaration`). This is why the condition is there, and why it is one for each rule.
-/

namespace RuleLint

open Cursor Check

namespace LineEnd

variable {cut : LineEnd} {context : Context}

/-! ### Searches of a text with a remark -/

section Searches

variable {remark : Remark}

/-- The name that a text with a remark declares. -/
theorem declaredName_remarked :
    declaredName (cut.remarked remark) = (declaredName cut.above).or (declaredName cut.below) := by
  have hpass := @LineEnd.findAllFrom_lineStart cut remark _ nameDeclaration
    (fun c hc ↦ by rw [nameDeclaration, hc]; rfl) (fun before after ↦ by
      rw [nameDeclaration]
      split <;> rfl) cut.above.reverse cut.below
  rw [← List.append_assoc, ← List.reverse_append] at hpass
  have hfinds := findAll_more (ignoresEndings_nameDeclaration []).advances
    (fun c _ _ ↦ carries_nameDeclaration rfl (cut.apart_remark remark) c)
    (fun outer houter ↦ carries_nameDeclaration houter apart_nil) hpass
  rw [declaredName, cut.remarked_eq, findFirst, hfinds, List.head?_append, List.head?_map,
    List.head?_map, Option.map_or, Option.map_map, Option.map_map]
  rfl

theorem firstGrade_remarked {name : String}
    (hname : name ∈ [importanceVariable, severityVariable]) :
    firstGrade name (cut.remarked remark) = (firstGrade name cut.above).or
      ((firstGrade name cut.below).map (Prod.map id (Position.down cut.lines))) := by
  obtain ⟨hhead, hblank, -⟩ := grade_name hname
  rw [cut.remarked_eq]
  exact firstGrade_more hname remark.feed_notMem
    (fun c _ ↦ carries_gradeAssignment hblank (cut.apart_remark remark) c)
    (cut.pass_remark (mute_gradeAssignment hhead) remark)

/-- The key of a text with a remark. -/
theorem declaredKey_remarked (h : cut.KeepsKey) :
    declaredKey (cut.remarked remark) = declaredKey cut.text := by
  rcases h with ⟨found, hfound, hends⟩ | hnone
  · rw [remarked, text, declaredKey_append hfound hends, declaredKey_append hfound hends]
  · have htext : ∀ passed x rest, cut.above = passed ++ x :: rest →
        keyOpening ⟨passed.reverse, x :: (rest ++ (cut.ending ++ cut.below))⟩ = none := by
      intro passed x rest hparts
      rw [Option.eq_none_iff_forall_not_mem]
      intro d hd
      have hlow := hnone ⟨passed.reverse, x :: (rest ++ (cut.ending ++ cut.below))⟩
        (by rw [Cursor.text, text, hparts]; simp) (by rw [Option.mem_def.1 hd]; rfl)
      have hpos : 0 < x.utf8Size := x.utf8Size_pos
      rw [hparts, byteLength_append, byteLength_cons, offset, byteLength_reverse] at hlow
      omega
    -- what does not begin with the rest of the text does not begin with the remark either
    have hremarked : ∀ passed x rest, cut.above = passed ++ x :: rest →
        keyOpening ⟨passed.reverse, x :: (rest ++ ((remark.chars ++ cut.ending) ++ cut.below))⟩ =
          none := by
      intro passed x rest hparts
      have hpart : keyOpening ⟨passed.reverse, x :: rest⟩ = none := by
        rw [Option.eq_none_iff_forall_not_mem]
        intro d hd
        have hwithin := @keyOpening_within _ (cut.ending ++ cut.below) (atStart [])
          (mem_after_of_keyOpening (Option.mem_def.1 hd))
        rw [Option.mem_def.1 hd, within_atStart] at hwithin
        exact absurd ((htext passed x rest hparts).symm.trans hwithin) (by simp)
      have hcarries := @carries_keyOpening (atStart []) _ (cut.apart_remark remark)
        ⟨passed.reverse, x :: rest⟩
      rw [hpart, within_atStart] at hcarries
      exact hcarries
    rw [cut.remarked_eq, text,
      declaredKey_of_none hremarked (cut.pass_remark mute_keyAssignment remark),
      declaredKey_of_none htext (cut.pass_ending mute_keyAssignment)]

end Searches

/-! ### The rules -/

section Rules

variable {α : Type} {rule : Rule} {remark : Remark}

theorem covered_flatMap {ι : Type} {l : List ι} {f g : ι → List Diagnostic}
    (h : ∀ x ∈ l, Covered (f x) (g x)) : Covered (l.flatMap f) (l.flatMap g) := by
  intro d hd
  obtain ⟨x, hx, hd⟩ := List.mem_flatMap.1 hd
  obtain ⟨d', hd', heq⟩ := h x hx d hd
  exact ⟨d', List.mem_flatMap.2 ⟨x, hx, hd'⟩, heq⟩

/-- A loop over the whole text. -/
theorem KeepsParts.covered {loop : Loop α} {findings : Context → List Diagnostic}
    (h : cut.KeepsParts context findings) (hsound : loop.Sound) (hmute : Mute loop.recognise)
    (hfindings : ∀ context, findings context = (loop.marks context.chars).map (findingAt rule))
    (habove : loop.Carries (atStart []) ((remark.chars ++ cut.ending) ++ cut.below) cut.above)
    (hbelow : ∀ outer : Cursor, outer.atLineStart = true → loop.Carries outer [] cut.below) :
    Covered ((findings (context.withText (cut.remarked remark))).take context.limit)
      ((findings context).take context.limit) := by
  have hremarked := @Loop.findings_remarked cut remark _ rule loop hsound hmute habove hbelow
  rw [KeepsParts] at h
  rw [hfindings (context.withText (cut.remarked remark)), Context.chars_withText, hremarked]
  rw [hfindings (context.withText cut.above), hfindings (context.withText cut.below),
    Context.chars_withText, Context.chars_withText] at h
  exact h

/-- The assignments in a block with a remark: those above the end of the line and those below. -/
theorem assignmentFindings_remarked {block : Block} {head tail before rest : List Char}
    (htext : context.chars = cut.text) (hin : cut.InBody block head tail)
    (hvalued : ∀ c : Cursor, c.text = head → Valued c)
    (habove : cut.above = before.reverse ++ head) (hbelow : cut.below = tail ++ rest)
    (hrest : rest ≠ []) :
    assignmentFindings (context.withText (cut.remarked remark))
        { block with body := head ++ (remark.chars ++ (cut.ending ++ tail)) } =
      assignmentFindings context (block.part [] head) ++
        assignmentFindings context (block.part (head ++ cut.ending) tail) := by
  have hne : cut.below ≠ [] := by
    rw [hbelow]
    exact List.append_ne_nil_of_right_ne_nil _ hrest
  have hfeed := cut.feed_mem_ending hne
  have hbase := hin.base_eq habove
  have hchars : (context.withText (cut.remarked remark)).chars =
      before.reverse ++ (head ++ ((remark.chars ++ cut.ending) ++ (tail ++ rest))) := by
    rw [Context.chars_withText, cut.remarked_eq, habove, hbelow]
    simp
  have hchars' : context.chars = before.reverse ++ (head ++ (cut.ending ++ (tail ++ rest))) := by
    rw [htext, text, habove, hbelow]
    simp
  have hpass := @LineEnd.findAllFrom_lineStart cut remark _ assignment
    (fun c hc ↦ by rw [assignment, hc]; rfl) (fun before after ↦ by
      rw [assignment]
      split <;> rfl) head.reverse tail
  rw [← List.append_assoc, ← List.reverse_append] at hpass
  have hlineStart :
      (Cursor.mk (head ++ (remark.chars ++ cut.ending)).reverse []).atLineStart = true := by
    rw [← List.append_assoc]
    exact cut.atLineStart_ending hne _ _
  have hapart : Apart ((remark.chars ++ cut.ending) ++ tail) := by
    rw [List.append_assoc]
    exact cut.apart remark fun hending ↦ absurd (cut.below_eq_nil hending) hne
  have hmarks := (assignmentLoop block.header).marks_append (sound_assignmentLoop block.header)
    (carries_assignmentLoop block.header rfl hapart (.inr hvalued))
    (carries_assignmentLoop block.header hlineStart apart_nil (.inl rfl)) hpass
  have happend := searches_assignmentFindings.append hchars hbase hmarks
  rw [List.append_assoc] at happend
  rw [happend]
  refine congrArg₂ (· ++ ·) ?_ ?_
  · refine searches_assignmentFindings.part_congr hchars hbase
      hchars' hbase rfl fun m _ c _ ↦ ?_
    exact (abreast_of_before rfl).within c
  · refine searches_assignmentFindings.part_congr (by simpa using hchars)
      hbase (by simpa using hchars') hbase rfl fun m _ c _ ↦ Abreast.within ?_ c
    have hlines := @abreast_of_feed cut.ending.reverse remark.chars.reverse (head.reverse ++ before)
      (tail ++ rest) (tail ++ rest) (by simpa using hfeed) (by simpa using remark.feed_notMem)
    simpa using hlines.symm

/-- A subject that begins in a remark ends with it: what comes after the remark are the blanks
before the sign. -/
theorem eq_gap_of_subject {passed rest tail blanks subject gap after : List Char} {x sign : Char}
    (hparts : remark.chars = passed ++ x :: rest) (htail : ∀ y ∈ tail.head?, isBlank y = true)
    (hblanks : ∀ y ∈ blanks, isBlank y = true) (hsubject : ∀ y ∈ subject, isSolid y = true)
    (hgap : ∀ y ∈ gap, isBlank y = true) (hsign : sign ∉ remark.chars)
    (h : (x :: rest) ++ tail = (blanks ++ subject) ++ (gap ++ sign :: after)) :
    tail = gap ++ sign :: after := by
  have hnil : ∀ cs ds, x :: rest = cs ++ ds → (∀ y ∈ ds, isBlank y = true) → ds = [] :=
    fun cs ds hsplit ↦ @Remark.eq_nil_of_blank remark (passed ++ cs) ds
      (by rw [hparts, hsplit, List.append_assoc])
  rcases List.append_eq_append_iff.1 h with ⟨us, hus, htail'⟩ | ⟨us, hus, hgap'⟩
  · -- the subject is not cut by the end of the remark, since a blank comes after it
    cases us with
    | nil => exact htail'
    | cons y us =>
      have hy : isBlank y = true := htail y (by rw [htail']; rfl)
      rcases List.append_eq_append_iff.1 hus with ⟨vs, -, hvs⟩ | ⟨vs, hvs, -⟩
      · have hsolid := hsubject y (by rw [hvs]; simp)
        rw [isSolid, hy] at hsolid
        cases hsolid
      · cases hnil [] (x :: rest) rfl fun z hz ↦ hblanks z (hvs ▸ List.mem_append_left _ hz)
  · -- neither the blanks before the sign nor the sign begin in the remark
    have hus_nil : us = [] := by
      rcases List.append_eq_append_iff.1 hgap' with ⟨vs, hvs, hrest⟩ | ⟨vs, hvs, -⟩
      · cases vs with
        | nil =>
          rw [List.append_nil] at hvs
          exact hnil _ us hus (hvs ▸ hgap)
        | cons z vs =>
          obtain rfl : sign = z := (List.cons.inj hrest).1
          refine absurd ?_ hsign
          rw [hparts, hus, hvs]
          simp
      · exact hnil _ us hus fun z hz ↦ hgap z (hvs ▸ List.mem_append_left _ hz)
    rw [hus_nil] at hgap'
    exact hgap'.symm

/-- Where an equation begins in a remark, the lines below go on with it. -/
theorem equation_eq_none {passed rest before tail : List Char} {x : Char}
    (hparts : remark.chars = passed ++ x :: rest)
    (htail : ∀ y ∈ tail.head?, isBlank y = true) (hrest : equationRest (atStart tail) = none) :
    equation ⟨before, x :: (rest ++ tail)⟩ = none := by
  rw [Option.eq_none_iff_forall_not_mem]
  rintro ⟨found, d⟩ hanswer
  rw [Option.mem_def, Check.equation_eq] at hanswer
  obtain ⟨start, hstart, hanswer⟩ := Option.bind_eq_some_iff.1 hanswer
  obtain ⟨stop, hstop, hanswer⟩ := Option.bind_eq_some_iff.1 hanswer
  have hoperator := equationRest_of_operator hanswer
  obtain ⟨blanks, hblanks, -, hblank, -⟩ := reads_run hstart
  obtain ⟨subject, hsubject, -, hsolid, -⟩ := reads_run hstop
  obtain ⟨operator, hgap, hsign⟩ := Option.bind_eq_some_iff.1 hoperator
  obtain ⟨operatorEnd, hsigns, -⟩ := Option.bind_eq_some_iff.1 hsign
  obtain ⟨gap, hgap, -, hgapBlank, -⟩ := reads_run hgap
  obtain ⟨signs, hsigns, hsignsNe, hsignsAll, -⟩ := reads_run hsigns
  obtain ⟨sign, signs, rfl⟩ := List.exists_cons_of_ne_nil hsignsNe
  obtain rfl : sign = '=' := by simpa using hsignsAll sign List.mem_cons_self
  have hafter : tail = gap ++ '=' :: (signs ++ operatorEnd.after) := by
    refine eq_gap_of_subject hparts htail hblank hsolid hgapBlank
      (Remark.not_mem_chars (by decide)) ?_
    have hsame := ((hblanks.trans hsubject).trans (hgap.trans hsigns)).after_eq
    simpa using hsame
  have hstopAfter : stop.after = tail := by
    rw [hafter, (hgap.trans hsigns).after_eq, List.append_assoc]
    rfl
  have hcarries := carries_equationRest ⟨stop.before, []⟩ (atStart tail)
  rw [hrest, Cursor.within, atStart, List.append_nil, List.nil_append, ← hstopAfter] at hcarries
  exact absurd (hoperator.symm.trans hcarries) (by simp)

/-- The subject of an equation begins after its blanks. -/
theorem head_subject {c d : Cursor} {found : Equation} (h : equation c = some (found, d)) :
    ∀ x ∈ found.subject.start.after.head?, isBlank x = false := by
  obtain ⟨start, hstart, h⟩ := Option.bind_eq_some_iff.1 h
  obtain ⟨stop, -, h⟩ := Option.bind_eq_some_iff.1 h
  obtain ⟨operator, -, h⟩ := Option.bind_eq_some_iff.1 h
  obtain ⟨operatorEnd, -, h⟩ := Option.bind_eq_some_iff.1 h
  obtain ⟨literal, -, h⟩ := Option.bind_eq_some_iff.1 h
  obtain ⟨answer, -, h⟩ := Option.bind_eq_some_iff.1 h
  obtain ⟨rfl, rfl⟩ := Prod.mk.inj (Option.some.inj h)
  obtain ⟨-, -, -, -, hhead⟩ := reads_run hstart
  exact hhead

/-- The marks of equations on the lines below are not on the line itself. -/
theorem feed_mem_before {tail : List Char} (hfeed : '\n' ∈ cut.ending) {m : Piece × String}
    (hm : m ∈ equationLoop.marks (cut.ending ++ tail)) :
    '\n' ∈ m.1.start.before ∧ '\n' ∈ m.1.stop.before := by
  obtain ⟨found, hfound, hm⟩ := List.mem_filterMap.1 hm
  obtain ⟨htext, hanswer⟩ := of_mem_findAll (fun c value d h ↦ text_equation h) hfound
  obtain ⟨-, hm⟩ := Option.ite_none_right_eq_some.1 hm
  obtain rfl := Option.some.inj hm
  obtain ⟨hblanks, cs, -, hreads⟩ := spells_equation hanswer
  have hstart : '\n' ∈ found.value.subject.start.before := by
    by_contra hnot
    have hparts : cut.ending ++ tail = found.value.subject.start.before.reverse ++
        found.value.subject.start.after := htext.symm.trans hblanks.text_eq.symm
    rcases List.append_eq_append_iff.1 hparts with ⟨us, hus, -⟩ | ⟨us, hus, hafter⟩
    · refine hnot (List.mem_reverse.1 ?_)
      rw [hus]
      exact List.mem_append_left _ hfeed
    · cases us with
      | nil =>
        rw [List.append_nil] at hus
        exact hnot (List.mem_reverse.1 (hus ▸ hfeed))
      | cons y us =>
        have hy := head_subject hanswer y (by rw [hafter]; rfl)
        rcases cut.mem_ending (x := y) (by rw [hus]; simp) with rfl | rfl <;>
          exact absurd hy (by decide)
  refine ⟨hstart, ?_⟩
  rw [hreads.before_eq]
  exact List.mem_append_right _ hstart

/-- The equations in a block with a remark: those above the end of the line and those below. -/
theorem equationFindings_remarked {block : Block} {head tail before rest : List Char}
    (htext : context.chars = cut.text) (hin : cut.InBody block head tail)
    (hbegun : equationRest (atStart (cut.ending ++ tail)) = none)
    (habove : cut.above = before.reverse ++ head) (hbelow : cut.below = tail ++ rest)
    (hrest : rest ≠ []) :
    equationFindings (context.withText (cut.remarked remark))
        { block with body := head ++ (remark.chars ++ (cut.ending ++ tail)) } =
      equationFindings context (block.part [] head) ++
        equationFindings context (block.part head (cut.ending ++ tail)) := by
  have hne : cut.below ≠ [] := by
    rw [hbelow]
    exact List.append_ne_nil_of_right_ne_nil _ hrest
  have hending : cut.ending = [] → tail = [] := fun hnil ↦ absurd (cut.below_eq_nil hnil) hne
  have hfeed := cut.feed_mem_ending hne
  have hbase := hin.base_eq habove
  have hchars : (context.withText (cut.remarked remark)).chars =
      before.reverse ++ (head ++ (remark.chars ++ ((cut.ending ++ tail) ++ rest))) := by
    rw [Context.chars_withText, remarked, habove, hbelow]
    simp
  have hchars' : context.chars = before.reverse ++ (head ++ ((cut.ending ++ tail) ++ rest)) := by
    rw [htext, text, habove, hbelow]
    simp
  have hblank : ∀ x ∈ (cut.ending ++ tail).head?, isBlank x = true := by
    intro x hx
    rcases cut.head_ending tail hending x hx with rfl | rfl <;> decide
  have hpass := @findAllFrom_pass _ equation head.reverse remark.chars (cut.ending ++ tail)
    fun passed x rest hparts ↦ equation_eq_none hparts hblank hbegun
  rw [← List.reverse_append] at hpass
  have hmarks := equationLoop.marks_append sound_equationLoop
    (carries_equationLoop (cut.apart remark hending))
    (carries_equationLoop apart_nil) hpass
  rw [searches_equationFindings.append hchars hbase hmarks]
  refine congrArg₂ (· ++ ·) ?_ ?_
  · refine searches_equationFindings.part_congr hchars hbase
      hchars' hbase rfl fun m _ c _ ↦ ?_
    exact (abreast_of_before rfl).within c
  · refine searches_equationFindings.part_congr (by simpa using hchars)
      hbase hchars' hbase rfl fun m hm c hc ↦ ?_
    have hbefore : '\n' ∈ c.before := by
      obtain ⟨hstart, hstop⟩ := feed_mem_before hfeed hm
      rcases hc with rfl | rfl
      · exact hstart
      · exact hstop
    have hlines := @abreast_of_feed c.before remark.chars.reverse (head.reverse ++ before)
      (c.after ++ rest) (c.after ++ rest) hbefore (by simpa using remark.feed_notMem)
    simpa [Cursor.within] using hlines.symm

/-- The grades of a text are judged by the first grade of each variable, wherever they are. -/
theorem covered_grade (h : ∀ name ∈ [importanceVariable, severityVariable],
      firstGrade name (cut.remarked remark) = firstGrade name context.chars) :
    Covered (gradeFinding (context.withText (cut.remarked remark))).toList
      (gradeFinding context).toList := by
  intro d hd
  rw [Option.mem_toList, gradeFinding_eq, Context.chars_withText] at hd
  obtain ⟨m, hm, rfl⟩ := Option.map_eq_some_iff.1 (Option.mem_def.1 hd)
  obtain ⟨importance, himportance, hm⟩ := Option.bind_eq_some_iff.1 hm
  obtain ⟨severity, hseverity, hm⟩ := Option.bind_eq_some_iff.1 hm
  have hfirst : ∀ name ∈ [importanceVariable, severityVariable], ∀ found,
      findFirst (gradeAssignment name) (cut.remarked remark) = some found →
        ∃ found', findFirst (gradeAssignment name) context.chars = some found' ∧
          found'.value = found.value ∧ found'.start.position = found.start.position := by
    intro name hname found hfound
    have hsame := h name hname
    rw [firstGrade, hfound, Option.map_some, eq_comm, firstGrade, Option.map_eq_some_iff] at hsame
    obtain ⟨found', hfound', hsame⟩ := hsame
    obtain ⟨hvalue, hposition⟩ := Prod.mk.inj hsame
    exact ⟨found', hfound', hvalue, hposition⟩
  obtain ⟨importance', himportance', hvalue, -⟩ :=
    hfirst importanceVariable (by simp) importance himportance
  obtain ⟨severity', hseverity', hvalue', hposition⟩ :=
    hfirst severityVariable (by simp) severity hseverity
  obtain ⟨hdiffer, hm⟩ := Option.ite_none_left_eq_some.1 hm
  obtain rfl := Option.some.inj hm
  let mark : Piece × String :=
    (⟨severity'.start, severity'.stop⟩, gradeMessage importance.value severity.value)
  have hmark : gradeMark context.chars = some mark := by
    rw [gradeMark, himportance', Option.bind_some, hseverity', Option.bind_some, severityMark,
      hvalue, hvalue', if_neg hdiffer]
  refine ⟨findingAt .importanceSeverityMismatch mark, ?_, rfl, hposition⟩
  rw [Option.mem_toList, gradeFinding_eq, hmark]
  rfl

/-- A limit leaves a single finding or nothing. -/
theorem covered_take_toList {finding known : Option Diagnostic}
    (h : Covered finding.toList known.toList) (limit : Nat) :
    Covered (finding.toList.take limit) (known.toList.take limit) := by
  have hlength : ∀ finding : Option Diagnostic, finding.toList.length ≤ 1 := by
    intro finding
    cases finding <;> simp
  cases limit with
  | zero => exact covered_of_subset (List.Subset.refl _)
  | succ n =>
    have htake : ∀ finding : Option Diagnostic, finding.toList.take (n + 1) = finding.toList :=
      fun finding ↦ List.take_of_length_le ((hlength finding).trans (Nat.le_add_left 1 n))
    rw [htake, htake]
    exact h

theorem KeepsBlocks.covered {header : Cursor → Option Cursor} {language : Language Char}
    {loop : List Char → Loop α} {findings : Context → Block → List Diagnostic}
    {KeepsBody : Block → List Char → List Char → Prop}
    (h : cut.KeepsBlocks context header findings KeepsBody) (hheader : IsHeader header language)
    (hfindings : Searches rule loop findings) (htext : context.chars = cut.text)
    (hbody : ∀ block head tail before rest, KeepsBody block head tail → cut.InBody block head tail →
      cut.above = List.reverse before ++ head → cut.below = tail ++ rest → rest ≠ [] →
        Covered
          ((findings (context.withText (cut.remarked remark))
            { block with body := head ++ (remark.chars ++
              (cut.ending ++ tail)) }).take context.limit)
          ((findings context block).take context.limit)) :
    Covered (blockFindings header findings (context.withText (cut.remarked remark)))
      (blockFindings header findings context) :=
  covered_blocks hheader hfindings htext
    (fun block hblock head tail before rest hin habove hbelow hrest ↦
      hbody block head tail before rest (h.inside block hblock head tail hin) hin habove hbelow
        hrest)
    h.apart

theorem covered_key (hclear : cut.Clear context .whitelistKeyMismatch)
    (htext : context.chars = cut.text) :
    Covered ((loops .whitelistKeyMismatch (context.withText (cut.remarked remark))).flatMap
        (List.take context.limit))
      ((loops .whitelistKeyMismatch context).flatMap (List.take context.limit)) := by
  obtain ⟨hkey, hparts⟩ := hclear
  rw [loops, loops, Context.chars_withText, declaredKey_remarked hkey, htext]
  cases hdeclared : (declaredKey cut.text).filter (· != inheritedKey) with
  | none =>
    rw [Option.toList_none, List.map_nil, List.map_nil]
    exact covered_of_subset (List.Subset.refl _)
  | some declared =>
    obtain ⟨hdeclared, hinherited⟩ := Option.filter_eq_some_iff.1 hdeclared
    obtain ⟨hends, hparts⟩ := hparts declared hdeclared (by simpa using hinherited)
    rw [Option.toList_some, List.map_singleton, List.map_singleton, List.flatMap_singleton,
      List.flatMap_singleton]
    exact hparts.covered (sound_keyLoop declared) mute_whitelistCall
      (fun _ ↦ keyFindings_eq declared)
      (carries_keyLoop declared (cut.apart_remark remark) (.inr hends))
      fun outer _ ↦ carries_keyLoop declared apart_nil (.inl rfl)

theorem covered_name (hclear : cut.Clear context .whitelistRuleNameMismatch)
    (htext : context.chars = cut.text) :
    Covered ((loops .whitelistRuleNameMismatch (context.withText (cut.remarked remark))).flatMap
        (List.take context.limit))
      ((loops .whitelistRuleNameMismatch context).flatMap (List.take context.limit)) := by
  obtain ⟨hname, hparts⟩ := hclear
  rw [loops, loops, Context.chars_withText, declaredName_remarked, ← hname, htext]
  cases hdeclared : declaredName cut.text with
  | none =>
    rw [Option.toList_none, List.map_nil, List.map_nil]
    exact covered_of_subset (List.Subset.refl _)
  | some declared =>
    rw [Option.toList_some, List.map_singleton, List.map_singleton, List.flatMap_singleton,
      List.flatMap_singleton]
    exact (hparts declared hdeclared).covered (sound_nameLoop declared) mute_whitelistCall
      (fun _ ↦ nameFindings_eq declared)
      (carries_nameLoop declared (cut.apart_remark remark))
      fun outer _ ↦ carries_nameLoop declared apart_nil

theorem covered_grades (hclear : cut.Clear context .importanceSeverityMismatch)
    (htext : context.chars = cut.text) :
    Covered ((loops .importanceSeverityMismatch (context.withText (cut.remarked remark))).flatMap
        (List.take context.limit))
      ((loops .importanceSeverityMismatch context).flatMap (List.take context.limit)) := by
  have hfirst : ∀ name ∈ [importanceVariable, severityVariable],
      firstGrade name (cut.remarked remark) = firstGrade name context.chars := by
    intro name hname
    rw [firstGrade_remarked hname, htext]
    exact (hclear name hname).symm
  have hgrades := covered_grade hfirst
  simp only [loops, List.flatMap_singleton]
  exact covered_take_toList hgrades context.limit

/-- **Nothing new is found after a remark at the end of a line that cuts nothing.** -/
theorem Clear.covered (h : cut.Clear context rule) (htext : context.chars = cut.text) :
    Covered ((loops rule (context.withText (cut.remarked remark))).flatMap
        (List.take context.limit))
      ((loops rule context).flatMap (List.take context.limit)) := by
  have hapart := cut.apart_remark remark
  have hword := @atWordBoundary_of_atLineStart
  cases rule with
  | lowerComparisonCase =>
    simp only [loops, List.flatMap_singleton]
    exact KeepsParts.covered h sound_comparisonLoop mute_comparison
      (fun _ ↦ lowerComparisonFindings_eq) (carries_comparisonLoop rfl hapart)
      fun outer houter ↦ carries_comparisonLoop (hword houter) apart_nil
  | nestedLowerCase =>
    simp only [loops, List.flatMap_map]
    exact covered_flatMap fun function hfunction ↦
      (h function hfunction).covered (sound_callLoop hfunction) (mute_loweredCall hfunction)
        (fun _ ↦ loweredCallFindings_eq hfunction) (carries_callLoop hfunction rfl hapart)
        fun outer houter ↦ carries_callLoop hfunction (hword houter) apart_nil
  | fieldAssignmentInBlock =>
    simp only [loops, List.flatMap_map]
    refine KeepsBlocks.covered h isHeader_eventHeader searches_assignmentFindings htext ?_
    intro block head tail before rest hkeeps hin habove hbelow hrest
    rw [assignmentFindings_remarked htext hin hkeeps.valued habove hbelow hrest]
    exact hkeeps.parts
  | numberToStringConcat =>
    simp only [loops, List.flatMap_singleton]
    exact KeepsParts.covered h sound_concatenationLoop mute_concatenation
      (fun _ ↦ concatenationFindings_eq) (carries_concatenationLoop rfl hapart)
      fun outer houter ↦ carries_concatenationLoop (hword houter) apart_nil
  | filterSingleEquals =>
    simp only [loops, List.flatMap_map]
    refine KeepsBlocks.covered h isHeader_filter searches_equationFindings htext ?_
    intro block head tail before rest hkeeps hin habove hbelow hrest
    rw [equationFindings_remarked htext hin hkeeps.begun habove hbelow hrest]
    exact hkeeps.parts
  | whitelistKeyMismatch => exact covered_key h htext
  | whitelistRuleNameMismatch => exact covered_name h htext
  | importanceSeverityMismatch => exact covered_grades h htext

end Rules

end LineEnd

/-! ### Runs -/

/-- The document with a remark at the end of a line. -/
def Document.remarked (document : Document) (cut : LineEnd) (remark : Remark) : Document :=
  { document with text := String.ofList (cut.remarked remark) }

/-- **A directive only silences where its line cuts nothing.** Put at the end of a line without a
comment, a directive leaves no finding in the document that was not there before, of any rule for
which the end of the line cuts nothing: every finding has the rule and the start of one that the
document has without the directive. -/
theorem lint_remarked {document : Document} {settings : Settings} {config : Config} {cut : LineEnd}
    (remark : Remark) (htext : document.chars = cut.text) (hcomment : findComment cut.line = none)
    {d : Diagnostic}
    (hd : d ∈ (lint .standard (document.remarked cut remark) settings config).diagnostics)
    (hclear : cut.Clear
      { document, limit := (config.settingsOver settings).normalized.limit } d.rule) :
    ∃ d' ∈ (lint .standard document settings config).diagnostics,
      d'.rule = d.rule ∧ d'.range.start = d.range.start := by
  have hlimit := Settings.normalized_pos (config.settingsOver settings)
  obtain ⟨found, hfound, rfl⟩ := List.mem_map.1 hd
  obtain ⟨hfound, hsilent⟩ := List.mem_filter.1 hfound
  obtain ⟨hfound, henabled⟩ := List.mem_filter.1 hfound
  obtain ⟨check, hcheck, happlies, hrule, hfound⟩ := (Suite.mem_run_standard hlimit).1 hfound
  rw [config.rule_regrade] at hclear
  obtain ⟨known, hknown, hsame, hstart⟩ := hclear.covered htext found hfound
  have hsilences : (Suppressions.ofText document.chars).silences known = false := by
    rw [← Bool.not_eq_true]
    intro hsilences
    have hlarger := (cut.within_remarked remark hcomment).silences (htext ▸ hsilences)
    have hkept :
        (Suppressions.ofText (document.remarked cut remark).chars).silences found = false := by
      simpa using hsilent
    rw [Suppressions.silences, hsame, hstart] at hlarger
    rw [Document.remarked, Document.chars, String.toList_ofList] at hkept
    exact absurd (hlarger.symm.trans hkept) (by simp)
  refine ⟨config.regrade known, ?_, ?_, ?_⟩
  · refine List.mem_map.2 ⟨known, List.mem_filter.2 ⟨List.mem_filter.2 ⟨?_, ?_⟩, ?_⟩, rfl⟩
    · refine (Suite.mem_run_standard hlimit).2 ⟨check, hcheck, happlies, hrule.trans hsame.symm, ?_⟩
      rw [hsame]
      exact hknown
    · rw [hsame]
      exact henabled
    · rw [hsilences]
      rfl
  · rw [config.rule_regrade, config.rule_regrade, hsame]
  · rw [config.range_regrade, config.range_regrade, hstart]

/-- A block of two assignments with a directive between them: the second one is silenced, and the
first one is found where it was. -/
theorem lint_remarked_block :
    let document : Document := ⟨"file:///a.co", "co", 1, "on e \x7b\n\ta = 1\n\tb = 2\n\x7d"⟩
    let cut : LineEnd := ⟨"on e \x7b\n\ta = 1".toList, ['\n'], "\tb = 2\n\x7d".toList,
      .inr (.inl ⟨rfl, by decide⟩)⟩
    let remark : Remark := ⟨true, [.fieldAssignmentInBlock]⟩
    let finding (line : UInt32) (field : String) : Diagnostic :=
      ⟨.fieldAssignmentInBlock, .error, ⟨⟨line, 1⟩, ⟨line, 6⟩⟩,
        assignmentMessage field.toList "on e".toList⟩
    (lint .standard document .standard .empty).diagnostics = [finding 1 "a", finding 2 "b"] ∧
      (lint .standard (document.remarked cut remark) .standard .empty).diagnostics =
        [finding 1 "a"] ∧
      ∃ d' ∈ (lint .standard document .standard .empty).diagnostics,
        d'.rule = .fieldAssignmentInBlock ∧ d'.range.start = ⟨1, 1⟩ := by
  intro document cut remark finding
  have hremarked : (lint .standard (document.remarked cut remark) .standard .empty).diagnostics =
      [finding 1 "a"] := by decide +kernel
  have hends : cut.EndsStatement :=
    ⟨⟨by decide, by decide⟩, by decide, by decide, by decide, by decide⟩
  refine ⟨by decide +kernel, hremarked, ?_⟩
  exact lint_remarked (d := finding 1 "a") remark (by decide) (by decide)
    (hremarked ▸ List.mem_singleton.2 rfl) (hends.clear (by decide) (by decide))

/-- A directive on the line that declares the key becomes a part of the key, so a call that has the
key for its argument is found. -/
theorem lint_remarked_declaration :
    let document : Document := ⟨"file:///a.co", "co", 1,
      "rule r: e\n$alert.key = $user\nfilter::CheckWL_A(\"r\", $user)\n"⟩
    let cut : LineEnd := ⟨"rule r: e\n$alert.key = $user".toList, ['\n'],
      "filter::CheckWL_A(\"r\", $user)\n".toList, .inr (.inl ⟨rfl, by decide⟩)⟩
    let remark : Remark := ⟨false, [.filterSingleEquals]⟩
    document.chars = cut.text ∧ findComment cut.line = none ∧
      QuoteState.steps .outside cut.line = .outside ∧
      (lint .standard document .standard .empty).diagnostics = [] ∧
      (lint .standard (document.remarked cut remark) .standard .empty).diagnostics.map
        (fun d ↦ (d.rule, d.range.start)) = [(.whitelistKeyMismatch, ⟨2, 23⟩)] := by
  decide +kernel

end RuleLint
