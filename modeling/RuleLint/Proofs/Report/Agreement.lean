import RuleLint.Proofs.Check.Displays
import RuleLint.Proofs.Config.Layers
import RuleLint.Proofs.FileTree.Listing
import RuleLint.Proofs.Report.Decoding

/-!
# Status, totals and findings

The status of an order to lint, the totals of its report, the findings in the report and the
findings in the JSON form of the report are computed apart from each other. Here is that they agree
(`outcome_agrees`), as long as there is a JSON form: for a path that is no text there is none, and
then the status is 1, whatever the findings (`outcomes_differ`).

Each of them is a fact about the findings that a report shows (`FileResult.shown`). A report has no
findings of a file that could not be read, the JSON form has all that there are, and the two are the
same since such a file has none (`Linted.shown_eq`). The totals are counts over what is shown, by
induction over the results with any totals before them (`Totals.foldl_add`), and the errors among
them decide the status result by result (`FileResult.hasErrors_iff`).
-/

namespace RuleLint

/-! ### What a report shows -/

namespace FileResult

variable (result : FileResult)

/-- The findings of a result that a report shows. -/
def shown : List Diagnostic :=
  if result.error.isSome then [] else result.diagnostics

/-- What a report says of a result before its findings. There is nothing to say of a file that was
read and has no findings. -/
def heading : List String :=
  if result.error.isNone && result.diagnostics.isEmpty then [] else [result.title]

theorem lines_eq : result.lines =
    result.heading ++ result.shown.map fun d ↦ indentLines d.render := by
  obtain ⟨location, diagnostics, error⟩ := result
  cases error with
  | some error => rfl
  | none => cases diagnostics <;> rfl

theorem hasErrors_iff : result.hasErrors = true ↔
    result.error.isSome = true ∨ 0 < result.shown.countP (·.severity = .error) := by
  rw [hasErrors, Bool.or_eq_true, decide_eq_true_iff, shown, count]
  split
  · rename_i herror
    exact iff_of_true (.inl herror) (.inl herror)
  · rfl

end FileResult

/-- The findings that a report shows. -/
def shownFindings (results : List FileResult) : List Diagnostic :=
  results.flatMap FileResult.shown

/-! ### Totals -/

namespace Totals

theorem add_eq (totals : Totals) (result : FileResult) : totals.add result =
    ⟨totals.files + 1,
      totals.errors + ((if result.error.isSome then 1 else 0) +
        result.shown.countP (·.severity = .error)),
      totals.warnings + result.shown.countP (·.severity = .warning)⟩ := by
  rw [add, FileResult.shown]
  split
  · rfl
  · rw [Nat.zero_add]
    rfl

/-- The induction is on the results, with the totals before them generalized. -/
theorem foldl_add (totals : Totals) (results : List FileResult) : results.foldl add totals =
    ⟨totals.files + results.length,
      totals.errors + (results.countP (·.error.isSome) +
        (shownFindings results).countP (·.severity = .error)),
      totals.warnings + (shownFindings results).countP (·.severity = .warning)⟩ := by
  induction results generalizing totals with
  | nil => rfl
  | cons result results ih =>
    rw [List.foldl_cons, ih, add_eq]
    simp only [shownFindings, List.flatMap_cons, List.countP_append, List.countP_cons,
      List.length_cons, mk.injEq]
    omega

theorem ofResults_eq (results : List FileResult) : ofResults results =
    ⟨results.length,
      results.countP (·.error.isSome) + (shownFindings results).countP (·.severity = .error),
      (shownFindings results).countP (·.severity = .warning)⟩ := by
  rw [ofResults, foldl_add]
  simp only [zero, Nat.zero_add]

end Totals

/-- The status is one if and only if there are errors in the totals. -/
theorem LintOrder.statusOf_eq (results : List FileResult) :
    statusOf results = if 0 < (Totals.ofResults results).errors then 1 else 0 := by
  have hany : results.any FileResult.hasErrors = true ↔ 0 < (Totals.ofResults results).errors := by
    rw [Totals.ofResults_eq, List.any_eq_true, Nat.add_pos_iff_pos_or_pos, List.countP_pos_iff,
      List.countP_pos_iff]
    simp only [FileResult.hasErrors_iff, List.countP_pos_iff, shownFindings, List.mem_flatMap]
    constructor
    · rintro ⟨result, hmem, herror | ⟨d, hd, hseverity⟩⟩
      · exact .inl ⟨result, hmem, herror⟩
      · exact .inr ⟨d, ⟨result, hmem, hd⟩, hseverity⟩
    · rintro (⟨result, hmem, herror⟩ | ⟨d, ⟨result, hmem, hd⟩, hseverity⟩)
      · exact ⟨result, hmem, .inl herror⟩
      · exact ⟨result, hmem, .inr ⟨d, hd, hseverity⟩⟩
  rw [statusOf]
  simp only [hany]

/-! ### Results of linting -/

/-- The results of linting a file, or several files one after the other, under a configuration.
`read` tells what reading the file at a path gives. The files below a directory are such files
(`linted_of_lintDirectory`); which ones they are, and in what order, makes no difference here. -/
inductive Linted (read : SystemPath → Except FileFault String) (config : Config) :
    List FileResult → Prop
  | file {path : SystemPath} {noted : Noted FileResult}
    (h : lintRead .standard config path (read path) = .ok noted) :
    Linted read config [noted.value]
  | files (paths : List SystemPath) : Linted read config
      (paths.map fun path ↦ (lintReadListed .standard config path (read path)).value)

/-- Whether the file of a result cannot be read. -/
def FileResult.isUnreadable (read : SystemPath → Except FileFault String) (result : FileResult) :
    Bool :=
  !(read result.location).isOk

/-- What reading a file of a tree gives. All names in a tree are texts. -/
def FileTree.readSystem (tree : FileTree) : SystemPath → Except FileFault String
  | .text path => tree.read path
  | .raw .. => .error .missing

section Linted

variable {tree : FileTree} {read : SystemPath → Except FileFault String} {config : Config}
  {path : Path} {results : List FileResult} {result : FileResult} {order : LintOrder}
  {d : Diagnostic}

theorem linted_of_lintFile {noted : Noted FileResult}
    (h : lintFile tree .standard config path = .ok noted) :
    Linted tree.readSystem config [noted.value] :=
  .file h

theorem linted_of_lintDirectory {noted : Noted (List FileResult)}
    (h : lintDirectory tree .standard config path = .ok noted) :
    Linted tree.readSystem config noted.value := by
  rw [lintDirectory] at h
  cases hpaths : tree.ruleFiles path with
  | error fault =>
    rw [hpaths] at h
    cases h
  | ok paths =>
    rw [hpaths] at h
    obtain rfl := Except.ok.inj h
    have hlisted := @Linted.files tree.readSystem config (paths.map SystemPath.text)
    rw [List.map_map] at hlisted
    rw [List.map_map]
    exact hlisted

theorem linted_of_lintPath {noted : Noted (List FileResult)}
    (h : lintPath tree .standard config path = .ok noted) :
    Linted tree.readSystem config noted.value := by
  rw [lintPath] at h
  split at h
  · exact linted_of_lintDirectory h
  · cases hfile : lintFile tree .standard config path with
    | error fault =>
      rw [hfile] at h
      cases h
    | ok found =>
      rw [hfile] at h
      obtain rfl := Except.ok.inj h
      exact linted_of_lintFile hfile

theorem Linted.exists_paths (h : Linted read config results) : ∃ paths : List SystemPath,
    results = paths.map fun path ↦ (lintReadListed .standard config path (read path)).value := by
  cases h with
  | @file path noted h => exact ⟨[path], by rw [List.map_singleton, lintReadListed, h]⟩
  | files paths => exact ⟨paths, rfl⟩

/-- A file that can be read has the findings in it, one that cannot has an error and no findings. -/
theorem Linted.of_mem (h : Linted read config results) (hresult : result ∈ results) :
    (∃ text, read result.location = .ok text ∧ result.error = none ∧ result.diagnostics =
        (lint .standard (documentOfFile result.path text) .standard config).diagnostics) ∨
      ∃ fault, read result.location = .error fault ∧ result.error.isSome = true ∧
        result.diagnostics = [] := by
  obtain ⟨paths, rfl⟩ := h.exists_paths
  obtain ⟨path, -, rfl⟩ := List.mem_map.1 hresult
  cases hread : read path with
  | ok text => exact .inl ⟨text, hread, rfl, rfl⟩
  | error fault => exact .inr ⟨fault, hread, rfl, rfl⟩

theorem Linted.isSome_error (h : Linted read config results) (hresult : result ∈ results) :
    result.error.isSome = result.isUnreadable read := by
  rw [FileResult.isUnreadable]
  rcases h.of_mem hresult with ⟨text, hread, herror, -⟩ | ⟨fault, hread, herror, -⟩
  · rw [hread, herror]
    rfl
  · rw [hread, herror]
    rfl

/-- A report leaves out no findings. -/
theorem Linted.shown_eq (h : Linted read config results) (hresult : result ∈ results) :
    result.shown = result.diagnostics := by
  rw [FileResult.shown]
  rcases h.of_mem hresult with ⟨text, -, herror, -⟩ | ⟨fault, -, herror, hnone⟩
  · rw [herror]
    rfl
  · rw [if_pos herror, hnone]

/-- What a report shows is about rules that are switched on, with the severities that the
configuration gives. -/
theorem Linted.severity_eq (h : Linted read config results) (hd : d ∈ shownFindings results) :
    config.disabled d.rule = false ∧
      d.severity = (config.severity d.rule).getD d.rule.severity := by
  obtain ⟨result, hresult, hd⟩ := List.mem_flatMap.1 hd
  rw [h.shown_eq hresult] at hd
  rcases h.of_mem hresult with ⟨text, -, -, hfindings⟩ | ⟨fault, -, -, hnone⟩
  · exact severity_of_mem_lint (hfindings ▸ hd)
  · rw [hnone] at hd
    cases hd

/-- The results of an order are results of linting, under the configuration from the file with the
switches of the command line on top of it. -/
theorem LintOrder.exists_linted (h : order.results tree = .ok results) :
    ∃ lower upper, order.lowerConfig tree = .ok lower ∧ order.upperConfig = .ok upper ∧
      Linted tree.readSystem (lower.merge upper) results := by
  cases hlower : order.lowerConfig tree with
  | error fault =>
    rw [LintOrder.results, hlower] at h
    cases h
  | ok lower =>
    cases hupper : order.upperConfig with
    | error fault =>
      rw [LintOrder.results, hlower, hupper] at h
      cases h
    | ok upper =>
      refine ⟨lower, upper, rfl, rfl, ?_⟩
      rw [results_eq hlower hupper] at h
      cases hlint : lintPath tree .standard (lower.merge upper) order.path with
      | error fault =>
        rw [hlint] at h
        cases h
      | ok noted =>
        rw [hlint] at h
        obtain rfl := Except.ok.inj h
        exact linted_of_lintPath hlint

end Linted

/-! ### Agreement -/

/-- **Status, totals, report and JSON form agree.** Let results come from linting files under a
configuration, on any system. A report on them has the findings that are shown, each with the
severity that the configuration gives it or else that of its rule, and its last line has the totals:
the number of results, that of the files that cannot be read and the errors shown, and that of the
warnings shown. The status is 1 if there are errors in the totals and 0 if not. If all paths are
texts, the JSON form goes with the same status and has the same findings file by file. If one is
not, nothing is printed instead of the JSON form, and the status is 1. An order that leads to these
results comes to the same. -/
theorem outcome_agrees {read : SystemPath → Except FileFault String} {config : Config}
    {results : List FileResult} (h : Linted read config results) :
    let shown := shownFindings results
    let errors := results.countP (FileResult.isUnreadable read) +
      shown.countP (·.severity = .error)
    let warnings := shown.countP (·.severity = .warning)
    let totals := Totals.render ⟨results.length, errors, warnings⟩
    let status := if 0 < errors then 1 else 0
    (∀ d ∈ shown, config.disabled d.rule = false ∧
      d.severity = (config.severity d.rule).getD d.rule.severity) ∧
    report results = unlines ((results.flatMap fun result ↦
      result.heading ++ result.shown.map fun d ↦ indentLines d.render) ++ [totals]) ∧
    (∃ before, splitOnChar '\n' (report results).toList = before ++ [totals.toList, []]) ∧
    LintOrder.outcomeOf false results = ⟨status, report results, ""⟩ ∧
    (results.all FileResult.isWritable = true →
      ∃ text, LintOrder.outcomeOf true results = ⟨status, text, ""⟩ ∧
        readReport? text =
          some (results.map fun result ↦ { result with diagnostics := result.shown })) ∧
    (results.all FileResult.isWritable = false → LintOrder.outcomeOf true results =
      ⟨1, "", "JSON serialization error: path contains invalid UTF-8 characters\n"⟩) ∧
    ∀ (tree : FileTree) (order : LintOrder), order.results tree = .ok results → ∀ json : Bool,
      { order with json }.run tree = LintOrder.outcomeOf json results := by
  intro shown errors warnings totals status
  have htotals : Totals.ofResults results = ⟨results.length, errors, warnings⟩ := by
    rw [Totals.ofResults_eq, List.countP_congr fun result hresult ↦ by rw [h.isSome_error hresult]]
  have hstatus : LintOrder.statusOf results = status := by
    rw [LintOrder.statusOf_eq, htotals]
  have hlines : results.flatMap FileResult.lines = results.flatMap fun result ↦
      result.heading ++ result.shown.map fun d ↦ indentLines d.render :=
    List.flatMap_congr fun result _ ↦ result.lines_eq
  have hshown : results.map (fun result ↦ { result with diagnostics := result.shown }) =
      results := by
    refine (List.map_congr_left fun result hresult ↦ ?_).trans (List.map_id results)
    rw [h.shown_eq hresult]
    rfl
  refine ⟨fun d hd ↦ h.severity_eq hd, ?_, ?_, ?_, fun hwritable ↦ ?_, fun hraw ↦ ?_,
    fun tree order horder json ↦ ?_⟩
  · rw [report, htotals, hlines]
  · exact ⟨_, by rw [splitOnChar_report, htotals]⟩
  · rw [← hstatus]
    rfl
  · refine ⟨writtenJson results, ?_, ?_⟩
    · rw [LintOrder.outcomeOf, if_pos rfl, reportJson_eq, if_pos hwritable, hstatus]
    · rw [readReport?_writtenJson hwritable, hshown]
  · rw [LintOrder.outcomeOf, if_pos rfl, reportJson_eq, hraw]
    rfl
  · have hresults : { order with json }.results tree = .ok results := horder
    rw [LintOrder.run, hresults]

/-- The name `.co` after a byte that belongs to no text. -/
def rawName : SystemPath :=
  .raw [0xff, 0x2e, 0x63, 0x6f] (dif_neg (by decide))

/-- **A path that is no text has a status of its own in JSON.** There is nothing in the file, so
there are no errors. -/
theorem outcomes_differ :
    let results : List FileResult := [⟨.ofBytes [0xff, 0x2e, 0x63, 0x6f], [], none⟩]
    Linted (fun _ ↦ .ok "") .empty results ∧
      LintOrder.outcomeOf false results =
        ⟨0, "Checked 1 file(s): 0 error(s), 0 warning(s)\n", ""⟩ ∧
      LintOrder.outcomeOf true results =
        ⟨1, "", "JSON serialization error: path contains invalid UTF-8 characters\n"⟩ := by
  intro results
  have hname : SystemPath.ofBytes [0xff, 0x2e, 0x63, 0x6f] = rawName :=
    SystemPath.ofBytes_of_eq_none (dif_neg (by decide))
  have hresults : results = [⟨rawName, [], none⟩] := by rw [← hname]
  have hnone : (lint .standard (documentOfFile rawName.shown "") .standard .empty).diagnostics =
      [] := by decide +kernel
  have hlinted := @Linted.files (fun _ ↦ .ok "") .empty [rawName]
  simp only [List.map_singleton, lintReadListed, lintRead, hnone] at hlinted
  rw [hresults]
  exact ⟨hlinted, by decide +kernel, rfl⟩

/-! ### A directory with files of all kinds -/

section Mixed

open FileTree

/-- A directory with a file that has findings, one that is not text, a configuration and an empty
file. -/
def mixedTree : FileTree where
  entries := [(["a.co"], .file flaggedText.toUTF8), (["b.co"], .file ⟨#[0xff]⟩),
    (["c.yml"], .file switchedText.toUTF8), (["d.co"], .file ⟨#[]⟩)]
  current := []

/-- The order to lint the directory under the configuration in it. -/
def mixedOrder : LintOrder :=
  ⟨"/", false, none, some "/c.yml", []⟩

/-- What comes of it. -/
def mixedResults : List FileResult :=
  [⟨"/a.co", [⟨.lowerComparisonCase, .error, ⟨⟨0, 0⟩, ⟨0, 15⟩⟩, Check.comparisonMessage⟩,
      ⟨.numberToStringConcat, .hint, ⟨⟨1, 0⟩, ⟨1, 11⟩⟩, Check.concatenationMessage⟩,
      ⟨.numberToStringConcat, .hint, ⟨⟨2, 0⟩, ⟨2, 14⟩⟩, Check.concatenationMessage⟩], none⟩,
    ⟨"/b.co", [], some "error reading file: IO error: stream did not contain valid UTF-8"⟩,
    ⟨"/d.co", [], none⟩]

theorem pathLeads_mixedTree : mixedTree.PathLeads "/" 0 [] :=
  pathLeads_of_leads (originOf_root _) (by decide)
    (.idle (by decide) (.inl rfl) (.idle (by decide) (.inl rfl) (.here _)))

theorem resolve_root_mixedTree : mixedTree.resolve "/" = .ok [] :=
  resolve_eq_ok_iff.2 ⟨by decide, by decide, by decide, 0, by decide, pathLeads_mixedTree⟩

theorem resolve_mixedTree (name : String) (hname : name ∈ ["a.co", "b.co", "c.yml", "d.co"]) :
    mixedTree.resolve (Path.join "/" name) = .ok [name] := by
  have hholds : Path.IsName name ∧ ∃ content, mixedTree.Holds [] name (.file content) := by
    fin_cases hname <;> exact ⟨by decide, _, by decide, by decide, by decide, by decide, rfl⟩
  obtain ⟨hisName, content, hholds⟩ := hholds
  have hleads : mixedTree.PathLeads (Path.join "/" name) 0 [name] :=
    (pathLeads_mixedTree.join_iff (by decide) hisName).2 ⟨0, rfl, .down hholds nofun (.here _)⟩
  refine resolve_eq_ok_iff.2 ⟨?_, ?_, ?_, 0, Nat.zero_le _, hleads⟩ <;> fin_cases hname <;> decide

theorem directory?_mixedTree (name : String) (hname : name ∈ ["a.co", "b.co", "c.yml", "d.co"]) :
    mixedTree.directory? (Path.join "/" name) = none := by
  rw [directory?, resolve_mixedTree name hname]
  fin_cases hname <;> rfl

theorem ruleFiles_mixedTree : mixedTree.ruleFiles "/" = .ok ["/a.co", "/b.co", "/d.co"] := by
  have hbelow : mixedTree.pathsBelow "/" [] = ["/a.co", "/b.co", "/c.yml", "/d.co"] := by
    have hnames : mixedTree.namesBelow [] = ["a.co", "b.co", "c.yml", "d.co"] := by decide
    rw [pathsBelow, hnames, List.mergeSort_of_pairwise (by decide)]
    decide
  have ha : mixedTree.directory? "/a.co" = none := directory?_mixedTree "a.co" (by decide)
  have hb : mixedTree.directory? "/b.co" = none := directory?_mixedTree "b.co" (by decide)
  have hc : mixedTree.directory? "/c.yml" = none := directory?_mixedTree "c.yml" (by decide)
  have hd : mixedTree.directory? "/d.co" = none := directory?_mixedTree "d.co" (by decide)
  have hrule : isRulePath "/a.co" = true ∧ isRulePath "/b.co" = true ∧
      isRulePath "/c.yml" = false ∧ isRulePath "/d.co" = true := by decide +kernel
  rw [ruleFiles, resolve_root_mixedTree]
  dsimp only
  rw [if_pos (by decide), hbelow]
  simp [ruleFilesFrom, ha, hb, hc, hd, hrule]

theorem read_mixedTree : mixedTree.read "/a.co" = .ok flaggedText ∧
    mixedTree.read "/b.co" = .error .notText ∧ mixedTree.read "/c.yml" = .ok switchedText ∧
    mixedTree.read "/d.co" = .ok "" := by
  refine ⟨read_of_resolve (resolve_mixedTree "a.co" (by decide)) rfl, ?_,
    read_of_resolve (resolve_mixedTree "c.yml" (by decide)) rfl,
    read_of_resolve (resolve_mixedTree "d.co" (by decide)) rfl⟩
  have hresolve : mixedTree.resolve "/b.co" = .ok ["b.co"] := resolve_mixedTree "b.co" (by decide)
  have hentry : mixedTree.entry? ["b.co"] = some (.file ⟨#[0xff]⟩) := rfl
  have htext : String.fromUTF8? ⟨#[0xff]⟩ = none := dif_neg (by decide)
  rw [FileTree.read, hresolve]
  dsimp only [bind, Except.bind]
  rw [hentry]
  dsimp only
  rw [htext]

theorem lowerConfig_mixedTree : mixedOrder.lowerConfig mixedTree = .ok switchedConfig :=
  LintOrder.lowerConfig_of_read rfl read_mixedTree.2.2.1 ofText_switchedText

theorem results_mixedTree : mixedOrder.results mixedTree = .ok mixedResults := by
  obtain ⟨ha, hb, -, hd⟩ := read_mixedTree
  have hdirectory : (mixedTree.directory? mixedOrder.path).isSome = true := by
    have hroot : mixedOrder.path = "/" := rfl
    rw [hroot, directory?, resolve_root_mixedTree]
    rfl
  have hpaths : mixedTree.ruleFiles mixedOrder.path = .ok ["/a.co", "/b.co", "/d.co"] :=
    ruleFiles_mixedTree
  have hflagged : (lint .standard (documentOfFile "/a.co" flaggedText) .standard
      switchedConfig).diagnostics = mixedResults.flatMap FileResult.diagnostics := by
    decide +kernel
  have hempty : (lint .standard (documentOfFile "/d.co" "") .standard
      switchedConfig).diagnostics = [] := by decide +kernel
  have hupper : mixedOrder.upperConfig = .ok .empty := rfl
  rw [LintOrder.results_eq lowerConfig_mixedTree hupper, Config.merge_empty, lintPath,
    if_pos hdirectory, lintDirectory, hpaths]
  simp only [Except.map, Except.mapError, List.map_cons, List.map_nil,
    value_lintListed_of_read _ _ ha, value_lintListed_of_fault _ _ hb,
    value_lintListed_of_read _ _ hd, hflagged, hempty]
  rfl

/-- A file that cannot be read and a finding are two errors; the findings that the configuration
makes hints are no warnings. -/
theorem outcome_agrees_mixed :
    Linted mixedTree.readSystem switchedConfig mixedResults ∧
      mixedOrder.results mixedTree = .ok mixedResults ∧
      (∃ before, splitOnChar '\n' (report mixedResults).toList =
        before ++ ["Checked 3 file(s): 2 error(s), 0 warning(s)".toList, []]) ∧
      (∃ text, LintOrder.outcomeOf true mixedResults = ⟨1, text, ""⟩ ∧
        readReport? text = some mixedResults) ∧
      ∀ json : Bool, ({ mixedOrder with json }.run mixedTree).status = 1 := by
  obtain ⟨lower, upper, hlower, hupper, hlinted⟩ := LintOrder.exists_linted results_mixedTree
  obtain rfl : lower = switchedConfig := Except.ok.inj (hlower.symm.trans lowerConfig_mixedTree)
  obtain rfl : upper = .empty := Except.ok.inj hupper.symm
  rw [Config.merge_empty] at hlinted
  have hunreadable :
      mixedResults.countP (FileResult.isUnreadable mixedTree.readSystem) = 1 := by
    obtain ⟨ha, hb, -, hd⟩ := read_mixedTree
    simp [mixedResults, FileResult.isUnreadable, FileTree.readSystem, ha, hb, hd, Except.isOk,
      Except.toBool]
  obtain ⟨-, -, hlast, hreport, hjson, -, hrun⟩ := outcome_agrees hlinted
  rw [hunreadable] at hlast hreport hjson
  obtain ⟨text, houtcome, hread⟩ := hjson rfl
  refine ⟨hlinted, results_mixedTree, hlast, ⟨text, houtcome, hread⟩, fun json ↦ ?_⟩
  rw [hrun mixedTree mixedOrder results_mixedTree json]
  cases json with
  | false => rw [hreport]; rfl
  | true => rw [houtcome]; rfl

end Mixed

end RuleLint
