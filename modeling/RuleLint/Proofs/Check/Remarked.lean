import RuleLint.Proofs.Check.Openings
import RuleLint.Proofs.Check.Remarks
import RuleLint.Proofs.Check.Shifted
import RuleLint.Proofs.Text.LineEnd

/-!
# Findings and remarks

In a text with a remark at the end of a line a loop has the findings of what is above and those of
what is below, each part by itself, since nothing begins in the remark and nothing goes over it
(`Loop.findings_remarked`). The text without the remark may have fewer: there something can go over
the end of the line and hide what begins after it.

For blocks there are two cases (`covered_blocks`). If the end of the line is in no block, they are
the blocks above and those below. Otherwise one block has both ends of the line in its body, and
what is said about the text is to be said about that body.
-/

namespace RuleLint

open Cursor Construct

/-- What a search sees of another text. -/
def Context.withText (context : Context) (text : List Char) : Context where
  document := { context.document with text := String.ofList text }
  limit := context.limit

theorem Context.chars_withText (context : Context) (text : List Char) :
    (context.withText text).chars = text :=
  String.toList_ofList

theorem Context.withText_chars (context : Context) : context.withText context.chars = context := by
  obtain ⟨document, limit, chars, lines, rfl, rfl⟩ := context
  have hdocument : { document with text := String.ofList document.chars } = document := by
    rw [Document.chars, String.ofList_toList]
  show Context.ofDocument { document with text := String.ofList document.chars } limit = _
  rw [hdocument]
  rfl

/-- Whether the findings of a list have their rules and starts from another list. -/
def Covered (findings known : List Diagnostic) : Prop :=
  ∀ d ∈ findings, ∃ d' ∈ known, d'.rule = d.rule ∧ d'.range.start = d.range.start

instance (findings known : List Diagnostic) : Decidable (Covered findings known) :=
  inferInstanceAs (Decidable (∀ _ ∈ findings, ∃ _ ∈ known, _ ∧ _))

theorem covered_of_subset {findings known : List Diagnostic} (h : findings ⊆ known) :
    Covered findings known :=
  fun d hd ↦ ⟨d, h hd, rfl, rfl⟩

theorem Covered.append {findings findings' known known' : List Diagnostic}
    (h : Covered findings known) (h' : Covered findings' known') :
    Covered (findings ++ findings') (known ++ known') := by
  intro d hd
  rcases List.mem_append.1 hd with hd | hd
  · obtain ⟨d', hd', heq⟩ := h d hd
    exact ⟨d', List.mem_append_left _ hd', heq⟩
  · obtain ⟨d', hd', heq⟩ := h' d hd
    exact ⟨d', List.mem_append_right _ hd', heq⟩

theorem atWordBoundary_of_atLineStart {c : Cursor} (h : c.atLineStart = true) :
    c.before.head?.any isWord = false := by
  obtain ⟨before, after⟩ := c
  cases before with
  | nil => rfl
  | cons x before =>
    obtain rfl : x = '\n' := by simpa [atLineStart] using h
    show isWord '\n' = false
    decide

namespace LineEnd

variable (cut : LineEnd) {remark : Remark} {α : Type} {rule : Rule} {loop : Check.Loop α}

/-- Whether the end of a line is in the body of a block, after `head` and before `tail`. -/
structure InBody (block : Check.Block) (head tail : List Char) : Prop where
  body_eq : block.body = head ++ (cut.ending ++ tail)
  base_add : block.base + byteLength head = byteLength cut.above

/-- The cursor at the start of the lines below, after something more at the end of the line. -/
def afterMore (more : List Char) : Cursor :=
  ⟨(cut.above ++ (more ++ cut.ending)).reverse, []⟩

theorem atLineStart_afterMore (more : List Char) (h : cut.below ≠ []) :
    (cut.afterMore more).atLineStart = true := by
  rw [afterMore, ← List.append_assoc]
  exact cut.atLineStart_ending h _ _

theorem line_afterMore {more : List Char} (hmore : '\n' ∉ more) :
    (cut.afterMore more).line = cut.lines := by
  rw [afterMore, Cursor.line, lines, List.count_reverse]
  simp only [List.count_append, List.count_eq_zero_of_not_mem hmore, Nat.zero_add]

/-- The cursor at the start of the lines below, after a remark. -/
def afterRemark (remark : Remark) : Cursor :=
  cut.afterMore remark.chars

theorem remarked_eq (remark : Remark) :
    cut.remarked remark = cut.above ++ ((remark.chars ++ cut.ending) ++ cut.below) := by
  rw [remarked, List.append_assoc]

theorem apart_remark (remark : Remark) : Apart ((remark.chars ++ cut.ending) ++ cut.below) := by
  rw [List.append_assoc]
  exact cut.apart remark cut.below_eq_nil

/-- A search for what begins in no remark passes over the end of a line. -/
theorem pass_ending {recognise : Recogniser α} (h : Mute recognise) :
    findAllFrom recognise cut.above.reverse (([] ++ cut.ending) ++ cut.below) =
      findAllFrom recognise (cut.afterMore []).before cut.below := by
  rw [afterMore, List.reverse_append]
  exact h.findAllFrom_ending (fun x hx ↦ cut.mem_ending hx) cut.above.reverse cut.below

/-- It passes over a remark there, too. -/
theorem pass_remark {recognise : Recogniser α} (h : Mute recognise) (remark : Remark) :
    findAllFrom recognise cut.above.reverse ((remark.chars ++ cut.ending) ++ cut.below) =
      findAllFrom recognise (cut.afterRemark remark).before cut.below := by
  rw [List.append_assoc, cut.findAllFrom_mute h _ _ cut.below_eq_nil, afterRemark, afterMore,
    ← List.reverse_append]

end LineEnd

namespace Check

variable {cut : LineEnd} {remark : Remark} {α : Type} {rule : Rule}

/-! ### Loops over the whole text -/

theorem findingAt_atStart (rest : List Char) (m : Piece × String) :
    findingAt rule (markWithin (atStart []) rest m) = findingAt rule m := by
  have habreast : ∀ c : Cursor, ((atStart []).within rest c).Abreast c := fun c ↦
    abreast_of_before (by rw [within_atStart])
  exact findingAt_congr rule (habreast m.1.start) (habreast m.1.stop) rfl

/-- The findings of a loop in a text with something more at the end of a line: those above the end
of the line and those below, each part by itself, if nothing begins between them. -/
theorem Loop.findings_append {loop : Loop α} {more : List Char} (hsound : loop.Sound)
    (hmore : '\n' ∉ more)
    (habove : loop.Carries (atStart []) ((more ++ cut.ending) ++ cut.below) cut.above)
    (hbelow : ∀ outer : Cursor, outer.atLineStart = true → loop.Carries outer [] cut.below)
    (hpass : findAllFrom loop.recognise cut.above.reverse ((more ++ cut.ending) ++ cut.below) =
      findAllFrom loop.recognise (cut.afterMore more).before cut.below) :
    (loop.marks (cut.above ++ ((more ++ cut.ending) ++ cut.below))).map (findingAt rule) =
      (loop.marks cut.above).map (findingAt rule) ++
        ((loop.marks cut.below).map (findingAt rule)).map (Diagnostic.down cut.lines) := by
  have hcarries : loop.Carries (cut.afterMore more) [] cut.below := by
    by_cases hnil : cut.below = []
    · rw [hnil]
      exact loop.carries_nil _ _
    · exact hbelow _ (cut.atLineStart_afterMore more hnil)
  rw [loop.marks_append hsound habove hcarries hpass, List.map_append, List.map_map, List.map_map,
    List.map_map]
  refine congrArg₂ (· ++ ·) (List.map_congr_left fun m _ ↦ findingAt_atStart _ m)
    (List.map_congr_left fun m hm ↦ ?_)
  have hne : cut.below ≠ [] := by
    intro hnil
    rw [hnil, marks, findAll, findAllFrom_nil] at hm
    cases hm
  have hfinding := @findingAt_within rule _ [] (cut.atLineStart_afterMore more hne) m
  rw [cut.line_afterMore hmore] at hfinding
  exact hfinding

/-- The findings of a loop in a text with a remark: those above the end of the line and those
below, each part by itself. -/
theorem Loop.findings_remarked {loop : Loop α} (hsound : loop.Sound) (hmute : Mute loop.recognise)
    (habove : loop.Carries (atStart []) ((remark.chars ++ cut.ending) ++ cut.below) cut.above)
    (hbelow : ∀ outer : Cursor, outer.atLineStart = true → loop.Carries outer [] cut.below) :
    (loop.marks (cut.remarked remark)).map (findingAt rule) =
      (loop.marks cut.above).map (findingAt rule) ++
        ((loop.marks cut.below).map (findingAt rule)).map (Diagnostic.down cut.lines) := by
  rw [cut.remarked_eq]
  exact findings_append hsound remark.feed_notMem habove hbelow (cut.pass_remark hmute remark)

/-! ### Blocks -/

/-- What the blocks with a header rest on. -/
structure IsHeader (header : Cursor → Option Cursor) (language : Language Char) : Prop where
  spells : ∀ c d, header c = some d → c.Spells language d
  advances : Advances (block header)
  avoids : Avoids '\x7b' header
  carries : ∀ outer rest, outer.before.head?.any isWord = false → Apart rest →
    HeaderCarries outer rest header
  mute : Mute (opening header)

theorem isHeader_filter : IsHeader (Cursor.word "filter") (said "filter") where
  spells _ _ := spells_word
  advances := (ignoresEndings_block headerImage_filter []).advances
  avoids := avoids_word (by decide)
  carries _ _ := carries_opening_filter
  mute := mute_opening_filter

theorem isHeader_eventHeader : IsHeader eventHeader Construct.eventHeader where
  spells _ _ := spells_eventHeader
  advances := (ignoresEndings_block headerImage_eventHeader []).advances
  avoids := avoids_eventHeader
  carries _ _ := carries_opening_eventHeader
  mute := mute_opening_eventHeader

section Blocks

variable {header : Cursor → Option Cursor} {language : Language Char} {loop : List Char → Loop α}
  {findings : Context → Block → List Diagnostic} {context context' : Context} {block : Block}
  {outer outer' : Cursor} {rest : List Char}

/-- The blocks of a part that begins where no word goes on. -/
theorem blocksFrom_eq_map (hheader : IsHeader header language)
    (houter : outer.before.head?.any isWord = false) (text : List Char) :
    blocksFrom header outer.before text = (blocksFrom header [] text).map (Block.within outer) := by
  have hfinds := findAllFrom_eq_map hheader.advances
    (carries_block (hheader.carries outer [] houter apart_nil)) text
  rw [blocksFrom, hfinds, List.map_map, blocksFrom, List.map_map]
  rfl

/-- The findings in a block of a text stay as they are when the text goes on. -/
theorem Searches.eq_above (hfindings : Searches rule loop findings)
    (hheader : IsHeader header language) (hchars : context'.chars = context.chars ++ rest)
    (h : block ∈ blocks header context) : findings context' block = findings context block := by
  obtain ⟨first, last, hfirst, hbase, hreads, -⟩ := exists_body hheader.spells h
  have hbefore : ((atStart []).within rest first).before = first.before := by rw [within_atStart]
  refine (hfindings.congr hfirst hreads hbase ?_ (hreads.within (atStart []) rest) ?_ rfl rfl
    fun m _ c _ ↦ (abreast_of_before hbefore.symm).within c).symm
  · rw [hchars, ← hfirst, within_atStart, text, text, List.append_assoc]
  · rw [offset, hbefore]
    exact hbase

/-- The findings in a block of what comes after two texts that end abreast. -/
theorem Searches.eq_rest (hfindings : Searches rule loop findings)
    (hheader : IsHeader header language) (habreast : outer.Abreast outer')
    (hchars : context.chars = outer.before.reverse ++ rest)
    (hchars' : context'.chars = outer'.before.reverse ++ rest)
    (h : block ∈ blocksFrom header [] rest) :
    findings context' (block.within outer') = findings context (block.within outer) := by
  have hmem : block ∈ blocks header (context.withText rest) := by
    rw [blocks, Context.chars_withText]
    exact h
  obtain ⟨first, last, hfirst, hbase, hreads, -⟩ := exists_body hheader.spells hmem
  rw [Context.chars_withText] at hfirst
  have htext : ∀ outer : Cursor, (outer.within [] first).text = outer.before.reverse ++ rest := by
    intro outer
    rw [← hfirst]
    simp [text, Cursor.within]
  have hoffset : ∀ outer : Cursor, (outer.within [] first).offset = (block.within outer).base := by
    intro outer
    rw [offset_within, hbase]
    rfl
  have hwithin : ∀ outer : Cursor, (outer.within [] first).Reads (block.within outer).body
      (outer.within [] last) := fun outer ↦ hreads.within outer []
  exact (hfindings.congr ((htext outer).trans hchars.symm) (hwithin outer) (hoffset outer)
    ((htext outer').trans hchars'.symm) (hwithin outer') (hoffset outer') rfl rfl
    fun m _ c _ ↦ (habreast.within first).within c).symm

/-- The findings that are reported in the blocks of a text. -/
def blockFindings (header : Cursor → Option Cursor) (findings : Context → Block → List Diagnostic)
    (context : Context) : List Diagnostic :=
  (blocks header context).flatMap fun block ↦ (findings context block).take context.limit

/-- A part of a block, after some of its body. -/
def Block.part (block : Block) (passed body : List Char) : Block :=
  { block with body, base := block.base + byteLength passed }

theorem blocks_withText (text : List Char) :
    blocks header (context.withText text) = blocksFrom header [] text := by
  rw [blocks, Context.chars_withText]
  rfl

/-- The blocks above the end of a line, in a text that goes on. -/
theorem Searches.eq_withText_above (hfindings : Searches rule loop findings)
    (hheader : IsHeader header language) {above : List Char}
    (hchars : context'.chars = above ++ rest)
    (h : block ∈ blocksFrom header [] above) :
    findings context' block = findings (context.withText above) block := by
  rw [← blocks_withText] at h
  exact hfindings.eq_above hheader (by rw [hchars, Context.chars_withText]) h

/-- The blocks below the end of a line, if none begins at the end of the line itself. -/
theorem blocksFrom_below {more : List Char} (hheader : IsHeader header language)
    (hpass : findAllFrom (Check.block header) cut.above.reverse
        ((more ++ cut.ending) ++ cut.below) =
      findAllFrom (Check.block header) (cut.afterMore more).before cut.below) :
    blocksFrom header cut.above.reverse ((more ++ cut.ending) ++ cut.below) =
      (blocksFrom header [] cut.below).map (Block.within (cut.afterMore more)) := by
  by_cases hnil : cut.below = []
  · rw [blocksFrom, hpass, hnil, findAllFrom_nil, blocksFrom_nil]
    rfl
  · rw [blocksFrom, hpass]
    exact blocksFrom_eq_map hheader
      (atWordBoundary_of_atLineStart (cut.atLineStart_afterMore more hnil)) cut.below

/-- If no block is open at the end of a line, the findings in blocks of the text with something more
there are those above and those below, each part by itself. -/
theorem blockFindings_settled {more : List Char} (hheader : IsHeader header language)
    (hfindings : Searches rule loop findings) (hsettled : Settled header [] cut.above)
    (hmore : '\n' ∉ more)
    (hcarries : CarriesIn cut.above ((more ++ cut.ending) ++ cut.below)
      (Prod.map ((atStart []).within ((more ++ cut.ending) ++ cut.below))
        ((atStart []).within ((more ++ cut.ending) ++ cut.below))) (opening header))
    (hpass : findAllFrom (Check.block header) cut.above.reverse
        ((more ++ cut.ending) ++ cut.below) =
      findAllFrom (Check.block header) (cut.afterMore more).before cut.below) :
    blockFindings header findings
        (context.withText (cut.above ++ ((more ++ cut.ending) ++ cut.below))) =
      blockFindings header findings (context.withText cut.above) ++
        (blockFindings header findings (context.withText cut.below)).map
          (Diagnostic.down cut.lines) := by
  let whole : List Char := cut.above ++ ((more ++ cut.ending) ++ cut.below)
  have happend := hsettled.append _ hcarries
  rw [List.append_nil, blocksFrom_below hheader hpass] at happend
  have hlast : ∀ block ∈ blocksFrom header [] cut.below,
      findings (context.withText whole) (block.within (cut.afterMore more)) =
        (findings (context.withText cut.below) block).map (Diagnostic.down cut.lines) := by
    intro block hblock
    have hne : cut.below ≠ [] := by
      intro hnil
      rw [hnil, blocksFrom_nil] at hblock
      cases hblock
    rw [← blocks_withText] at hblock
    have hchars : (context.withText whole).chars =
        (cut.afterMore more).before.reverse ++ (context.withText cut.below).chars := by
      rw [Context.chars_withText, Context.chars_withText, LineEnd.afterMore, List.reverse_reverse]
      simp only [whole, List.append_assoc]
    rw [hfindings.down hheader.spells (cut.atLineStart_afterMore more hne) hchars hblock,
      cut.line_afterMore hmore]
  simp only [blockFindings, blocks_withText, happend, List.flatMap_append, List.flatMap_map,
    List.map_flatMap]
  refine congrArg₂ (· ++ ·) (List.flatMap_congr fun block hblock ↦ ?_)
    (List.flatMap_congr fun block hblock ↦ ?_)
  · rw [hfindings.eq_withText_above hheader (Context.chars_withText _ _) hblock]
    rfl
  · rw [List.map_take, ← hlast block hblock]
    rfl

/-- The same with a remark, which begins no block. -/
theorem blockFindings_remarked (hheader : IsHeader header language)
    (hfindings : Searches rule loop findings) (hsettled : Settled header [] cut.above) :
    blockFindings header findings (context.withText (cut.remarked remark)) =
      blockFindings header findings (context.withText cut.above) ++
        (blockFindings header findings (context.withText cut.below)).map
          (Diagnostic.down cut.lines) := by
  rw [cut.remarked_eq]
  exact blockFindings_settled hheader hfindings hsettled remark.feed_notMem
    (Carries.carriesIn (hheader.carries (atStart []) _ rfl (cut.apart_remark remark)))
    (cut.pass_remark (mute_block hheader.mute) remark)

/-- If no block is open at the end of a line, it is in no block. -/
theorem not_inBody_of_settled (hsettled : Settled header [] cut.above)
    (htext : context.chars = cut.text) (h : block ∈ blocks header context) (head tail : List Char) :
    ¬ cut.InBody block head tail := by
  intro hin
  rw [blocks, htext] at h
  have hends := hsettled.apart _ block h
  have hbase := hin.base_add
  rw [hin.body_eq, byteLength_append, List.reverse_nil, List.nil_append] at hends
  omega

section Parts

variable {before before' rest rest' passed passed' head between tail body : List Char}
  {block' : Block}

/-- The findings in parts of two blocks at the same positions. -/
theorem Searches.part_congr (hfindings : Searches rule loop findings)
    (hchars : context.chars = before.reverse ++ (passed ++ (body ++ rest)))
    (hbase : block.base = byteLength before)
    (hchars' : context'.chars = before'.reverse ++ (passed' ++ (body ++ rest')))
    (hbase' : block'.base = byteLength before') (hheader : block.header = block'.header)
    (h : ∀ m ∈ (loop block.header).marks body, ∀ c, c = m.1.start ∨ c = m.1.stop →
      (within ⟨passed.reverse ++ before, body ++ rest⟩ rest c).Abreast
        (within ⟨passed'.reverse ++ before', body ++ rest'⟩ rest' c)) :
    findings context (block.part passed body) = findings context' (block'.part passed' body) := by
  have hreads : ∀ before rest : List Char,
      Reads ⟨before, body ++ rest⟩ body ⟨body.reverse ++ before, rest⟩ := fun _ _ ↦ ⟨rfl, rfl⟩
  refine hfindings.congr ?_
    (hreads _ rest) ?_ ?_ (hreads _ rest') ?_ hheader rfl h
  · rw [hchars, text]
    simp
  · rw [offset, byteLength_append, byteLength_reverse, Block.part, hbase, Nat.add_comm]
  · rw [hchars', text]
    simp
  · rw [offset, byteLength_append, byteLength_reverse, Block.part, hbase', Nat.add_comm]

/-- The findings in a block of two parts with something between them. -/
theorem Searches.append (hfindings : Searches rule loop findings)
    (hchars : context.chars = before.reverse ++ (head ++ (between ++ (tail ++ rest))))
    (hbase : block.base = byteLength before)
    (hmarks : (loop block.header).marks (head ++ (between ++ tail)) =
      ((loop block.header).marks head).map (markWithin (atStart []) (between ++ tail)) ++
        ((loop block.header).marks tail).map (markWithin ⟨(head ++ between).reverse, []⟩ [])) :
    findings context { block with body := head ++ (between ++ tail) } =
      findings context (block.part [] head) ++
        findings context (block.part (head ++ between) tail) := by
  have hreads : ∀ before body rest : List Char,
      Reads ⟨before, body ++ rest⟩ body ⟨body.reverse ++ before, rest⟩ := fun _ _ _ ↦ ⟨rfl, rfl⟩
  have hwhole := hfindings context { block with body := head ++ (between ++ tail) }
    ⟨before, (head ++ (between ++ tail)) ++ rest⟩ _ (by rw [hchars, text]; simp) (hreads _ _ _)
    hbase.symm
  have hhead := hfindings context (block.part [] head) ⟨before, head ++ (between ++ (tail ++ rest))⟩
    _ hchars.symm (hreads _ _ _) hbase.symm
  have htail := hfindings context (block.part (head ++ between) tail)
    ⟨(head ++ between).reverse ++ before, tail ++ rest⟩ _ (by rw [hchars, text]; simp)
    (hreads _ _ _)
    (by rw [offset, byteLength_append, byteLength_reverse, Block.part, hbase, Nat.add_comm])
  rw [hwhole, hhead, htail]
  dsimp only [Block.part]
  rw [hmarks, List.map_append, List.map_map, List.map_map]
  refine congrArg₂ (· ++ ·) (List.map_congr_left fun m _ ↦ ?_) (List.map_congr_left fun m _ ↦ ?_)
  · have hbefore : ∀ c : Cursor, c.before ++ (atStart []).before ++ before = c.before ++ before :=
      fun c ↦ congrArg (· ++ before) (List.append_nil _)
    exact findingAt_congr rule (abreast_of_before (hbefore m.1.start))
      (abreast_of_before (hbefore m.1.stop)) rfl
  · exact findingAt_congr rule (abreast_of_before (List.append_assoc ..))
      (abreast_of_before (List.append_assoc ..)) rfl

end Parts

theorem OpenFrom.start_text {above : List Char} {start : Cursor} {opened : Cursor × Cursor}
    (hopen : OpenFrom header [] above start opened) : start.text = above := by
  obtain ⟨cs, hcs⟩ := hopen.reads
  exact hcs.text_eq

/-- The text up to the end of the line, from the body of the open block on. -/
theorem OpenFrom.above_eq {above : List Char} {start : Cursor} {opened : Cursor × Cursor}
    (hheader : IsHeader header language) (hopen : OpenFrom header [] above start opened) :
    above = opened.2.before.reverse ++ opened.2.after := by
  obtain ⟨cs, hcs, -⟩ := reads_opening hheader.avoids hopen.opening_eq
  rw [← hopen.start_text, ← hcs.text_eq]
  rfl

theorem brace_notMem_ending (cut : LineEnd) : '\x7d' ∉ cut.ending := by
  intro hmem
  rcases cut.mem_ending hmem with h | h <;> exact absurd h (by decide)

/-- The findings from an open block on, if it is closed below the end of the line. -/
theorem covered_openFrom (hheader : IsHeader header language)
    (hfindings : Searches rule loop findings) (htext : context.chars = cut.text) {start : Cursor}
    {opened : Cursor × Cursor} (hopen : OpenFrom header [] cut.above start opened)
    {tail rest : List Char} (hbelow : cut.below = tail ++ '\x7d' :: rest) (htail : '\x7d' ∉ tail)
    (hinside : Covered
      ((findings (context.withText (cut.remarked remark)) ⟨start.upTo opened.1,
        opened.2.after ++ (remark.chars ++ (cut.ending ++ tail)),
        opened.2.offset⟩).take context.limit)
      ((findings context ⟨start.upTo opened.1, opened.2.after ++ (cut.ending ++ tail),
        opened.2.offset⟩).take context.limit)) :
    Covered
      ((blocksFrom header start.before
        (start.after ++ (remark.chars ++ (cut.ending ++ cut.below)))).flatMap fun block ↦
          (findings (context.withText (cut.remarked remark)) block).take context.limit)
      ((blocksFrom header start.before (start.after ++ (cut.ending ++ cut.below))).flatMap
        fun block ↦ (findings context block).take context.limit) := by
  have hremark : '\x7d' ∉ remark.chars := Remark.not_mem_chars (by decide)
  have hbody := List.not_mem_append (brace_notMem_ending cut) htail
  have hblocks := blocksFrom_open hheader.advances hheader.avoids hopen.opening_eq hopen.unclosed
    hbody rest
  have hremarked := blocksFrom_open hheader.advances hheader.avoids hopen.opening_eq hopen.unclosed
    (List.not_mem_append hremark hbody) rest
  simp only [List.append_assoc, ← hbelow, hopen.start_text] at hblocks hremarked
  let outer : Cursor := ⟨'\x7d' :: ((cut.ending ++ tail).reverse ++ cut.above.reverse), []⟩
  let outer' : Cursor :=
    ⟨'\x7d' :: ((remark.chars ++ (cut.ending ++ tail)).reverse ++ cut.above.reverse), []⟩
  have habreast : outer.Abreast outer' := by
    have hfeed := cut.feed_mem_ending (by rw [hbelow]; simp)
    have hlines := @abreast_of_feed ('\x7d' :: (cut.ending ++ tail).reverse) remark.chars.reverse
      cut.above.reverse [] [] (by simp [hfeed]) (by simp [remark.feed_notMem])
    simpa only [outer, outer', List.reverse_append, List.append_assoc, List.cons_append]
      using hlines
  have hchars : context.chars = outer.before.reverse ++ rest := by
    rw [htext, LineEnd.text, hbelow]
    simp [outer]
  have hchars' :
      (context.withText (cut.remarked remark)).chars = outer'.before.reverse ++ rest := by
    rw [Context.chars_withText, LineEnd.remarked, hbelow]
    simp [outer']
  have hword : isWord '\x7d' = false := by decide
  have houter : outer.before.head?.any isWord = false := hword
  have houter' : outer'.before.head?.any isWord = false := hword
  rw [hblocks, hremarked, blocksFrom_eq_map hheader houter, blocksFrom_eq_map hheader houter',
    List.flatMap_cons, List.flatMap_cons, List.flatMap_map, List.flatMap_map]
  refine hinside.append (covered_of_subset ?_)
  refine List.flatMap_congr (fun block hblock ↦ ?_) ▸ List.Subset.refl _
  rw [hfindings.eq_rest hheader habreast hchars hchars' hblock]

/-- The findings from an open block on, if it is closed nowhere: there are none. -/
theorem covered_openFrom_unclosed (hheader : IsHeader header language) {start : Cursor}
    {opened : Cursor × Cursor} (hopen : OpenFrom header [] cut.above start opened)
    (hunclosed : '\x7d' ∉ cut.below) (find : Block → List Diagnostic) (findings : List Diagnostic) :
    Covered ((blocksFrom header start.before
      (start.after ++ (remark.chars ++ (cut.ending ++ cut.below)))).flatMap find) findings := by
  have hremark : '\x7d' ∉ remark.chars := Remark.not_mem_chars (by decide)
  rw [blocksFrom_open_nil hheader.avoids hopen.opening_eq hopen.unclosed
    (List.not_mem_append hremark (List.not_mem_append (brace_notMem_ending cut) hunclosed))]
  exact covered_of_subset (List.nil_subset _)

/-- The blocks of a text in whose first part a block is open. -/
theorem OpenFrom.blocks_eq {above rest : List Char} {start : Cursor} {opened : Cursor × Cursor}
    (hopen : OpenFrom header [] above start opened) (hchars : context.chars = above ++ rest) :
    blocks header context =
      blocksFrom header [] above ++ blocksFrom header start.before (start.after ++ rest) := by
  rw [blocks, hchars]
  exact hopen.append _

/-- The end of the line is in the body of the open block, if the block is closed below. -/
theorem OpenFrom.inBody (hheader : IsHeader header language) (htext : context.chars = cut.text)
    {start : Cursor} {opened : Cursor × Cursor}
    (hopen : OpenFrom header [] cut.above start opened) {tail rest : List Char}
    (hbelow : cut.below = tail ++ '\x7d' :: rest) (htail : '\x7d' ∉ tail) :
    ∃ block ∈ blocks header context,
      block = ⟨start.upTo opened.1, opened.2.after ++ (cut.ending ++ tail), opened.2.offset⟩ ∧
        cut.InBody block opened.2.after tail := by
  have hblock := blocksFrom_open hheader.advances hheader.avoids hopen.opening_eq hopen.unclosed
    (List.not_mem_append (brace_notMem_ending cut) htail) rest
  rw [List.append_assoc, ← hbelow] at hblock
  refine ⟨_, ?_, rfl, rfl, ?_⟩
  · rw [hopen.blocks_eq htext, hblock]
    exact List.mem_append_right _ List.mem_cons_self
  · rw [hopen.above_eq hheader, byteLength_append, byteLength_reverse]
    rfl

/-- **The findings in the blocks of a text with a remark.** If the end of the line is in the body of
a block, it is enough to look at this block; otherwise the findings are those of the blocks above
and of the blocks below, each part by itself. -/
theorem covered_blocks (hheader : IsHeader header language)
    (hfindings : Searches rule loop findings)
    (htext : context.chars = cut.text)
    (hinside : ∀ block ∈ blocks header context, ∀ head tail before rest : List Char,
      cut.InBody block head tail → cut.above = before.reverse ++ head → cut.below = tail ++ rest →
        rest ≠ [] → Covered
          ((findings (context.withText (cut.remarked remark))
            { block with body := head ++ (remark.chars ++
              (cut.ending ++ tail)) }).take context.limit)
          ((findings context block).take context.limit))
    (hapart : (∀ block ∈ blocks header context, ∀ head tail, ¬ cut.InBody block head tail) →
      Covered (blockFindings header findings (context.withText cut.above) ++
          (blockFindings header findings (context.withText cut.below)).map
            (Diagnostic.down cut.lines))
        (blockFindings header findings context)) :
    Covered (blockFindings header findings (context.withText (cut.remarked remark)))
      (blockFindings header findings context) := by
  rcases settled_or_openFrom hheader.advances hheader.avoids [] cut.above with
    hsettled | ⟨start, opened, hopen⟩
  · rw [blockFindings_remarked hheader hfindings hsettled]
    exact hapart fun block hblock ↦ not_inBody_of_settled hsettled htext hblock
  · have habove : ∀ block ∈ blocksFrom header [] cut.above,
        findings (context.withText (cut.remarked remark)) block = findings context block := by
      intro block hblock
      have hsame : findings context block = findings (context.withText cut.above) block :=
        hfindings.eq_withText_above hheader htext hblock
      exact (hfindings.eq_withText_above hheader (Context.chars_withText _ _) hblock).trans
        hsame.symm
    have hremarked : blocks header (context.withText (cut.remarked remark)) =
        blocksFrom header [] cut.above ++ blocksFrom header start.before
          (start.after ++ (remark.chars ++ (cut.ending ++ cut.below))) :=
      hopen.blocks_eq (Context.chars_withText _ _)
    rw [blockFindings, hremarked, List.flatMap_append, blockFindings, hopen.blocks_eq htext,
      List.flatMap_append]
    refine .append (covered_of_subset ?_) ?_
    · refine List.flatMap_congr (fun block hblock ↦ ?_) ▸ List.Subset.refl _
      rw [habove block hblock]
      rfl
    · by_cases hclosed : '\x7d' ∈ cut.below
      · obtain ⟨tail, rest, hbelow, htail⟩ := List.eq_append_cons_of_mem hclosed
        obtain ⟨block, hblock, rfl, hin⟩ := hopen.inBody hheader htext hbelow htail
        exact covered_openFrom hheader hfindings htext hopen hbelow htail
          (hinside _ hblock _ _ opened.2.before _ hin (hopen.above_eq hheader) hbelow
            (List.cons_ne_nil _ _))
      · exact covered_openFrom_unclosed hheader hopen hclosed _ _

end Blocks

end Check

end RuleLint
