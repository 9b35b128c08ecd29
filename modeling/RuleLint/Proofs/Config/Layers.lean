import RuleLint.Command.Run
import RuleLint.Proofs.Check.Instances
import RuleLint.Proofs.FileTree.Paths

/-!
# Configurations on top of each other

Putting one configuration on top of another is the same as using the first one and then the second:
for the settings of a document, and for the findings that are left (`merging_composes`). So
configurations form a monoid in which nothing is gained by using one twice, and the switches of the
command line are a configuration that is used after the one from the file.

That the two orders agree for findings rests on what a configuration does not change: the severity
that the lower one gives is neither asked by what the upper one switches off nor by the directives
of the document, which go by the rule and the place of a finding.

A limit of zero is read as one where a configuration is used, and since the uppermost limit decides,
it does not matter in which layer it stands.
-/

namespace RuleLint

namespace Config

/-! ### Merging -/

section Merge

variable (a b c lower upper config : Config)

theorem merge_assoc : (a.merge b).merge c = a.merge (b.merge c) := by
  simp only [merge, Bool.or_assoc, Option.or_assoc]

theorem empty_merge : empty.merge a = a := by
  simp only [merge, empty, Bool.false_or, Option.or_none]

theorem merge_empty : a.merge empty = a := by
  simp only [merge, empty, Bool.or_false, Option.none_or]

theorem merge_self : a.merge a = a := by
  simp only [merge, Bool.or_self, Option.or_self]

/-! ### Settings -/

/-- The uppermost limit that is set decides. -/
theorem settingsOver_merge (settings : Settings) :
    (lower.merge upper).settingsOver settings =
      upper.settingsOver (lower.settingsOver settings) := by
  rw [settingsOver, settingsOver, merge]
  cases upper.limit <;> rfl

theorem settingsOver_zero (settings : Settings) :
    { config with limit := some 0 }.settingsOver settings =
      { config with limit := some 1 }.settingsOver settings := rfl

/-! ### Findings -/

theorem regrade_eq (d : Diagnostic) :
    config.regrade d = { d with severity := (config.severity d.rule).getD d.severity } := by
  rw [regrade]
  cases config.severity d.rule <;> rfl

/-- Of two severities the upper one is given. -/
theorem regrade_merge (d : Diagnostic) :
    (lower.merge upper).regrade d = upper.regrade (lower.regrade d) := by
  simp only [regrade_eq, merge, Option.getD_or]

theorem silences_regrade (suppressions : Suppressions) (d : Diagnostic) :
    suppressions.silences (config.regrade d) = suppressions.silences d := by
  rw [Suppressions.silences, Suppressions.silences, rule_regrade, range_regrade]

/-- Whether a finding stays under a configuration and the directives of a document. -/
def Keeps (suppressions : Suppressions) (d : Diagnostic) : Prop :=
  config.disabled d.rule = false ∧ suppressions.silences d = false

instance (suppressions : Suppressions) : DecidablePred (config.Keeps suppressions) :=
  fun _ ↦ inferInstanceAs (Decidable (_ ∧ _))

theorem apply_eq (suppressions : Suppressions) (findings : List Diagnostic) :
    config.apply suppressions findings =
      (findings.filter (config.Keeps suppressions)).map config.regrade := by
  rw [apply, List.filter_filter]
  congr 2
  funext d
  simp [Keeps, and_comm]

/-- What a configuration keeps does not depend on the severity of a finding. -/
theorem keeps_regrade (suppressions : Suppressions) (d : Diagnostic) :
    upper.Keeps suppressions (lower.regrade d) ↔ upper.Keeps suppressions d := by
  rw [Keeps, Keeps, rule_regrade, silences_regrade]

theorem keeps_merge (suppressions : Suppressions) (d : Diagnostic) :
    (lower.merge upper).Keeps suppressions d ↔
      lower.Keeps suppressions d ∧ upper.Keeps suppressions d := by
  simp only [Keeps, merge, Bool.or_eq_false_iff]
  tauto

/-- Findings go through the lower configuration and then through the upper one. -/
theorem apply_merge (suppressions : Suppressions) (findings : List Diagnostic) :
    (lower.merge upper).apply suppressions findings =
      upper.apply suppressions (lower.apply suppressions findings) := by
  rw [apply_eq, apply_eq, apply_eq, List.filter_map, List.map_map, List.filter_filter]
  have hregrade : (lower.merge upper).regrade = upper.regrade ∘ lower.regrade :=
    funext (regrade_merge lower upper)
  rw [hregrade]
  congr 2
  funext d
  simp only [Function.comp_apply, keeps_regrade, keeps_merge, Bool.decide_and, Bool.and_comm]

end Merge

end Config

/-! ### Linting -/

section Lint

variable (suite : Suite) (document : Document) (settings : Settings) (lower upper : Config)

/-- Linting under one configuration on top of another: the settings and the findings go through the
lower one first. -/
theorem lint_merge :
    let limit := (upper.settingsOver (lower.settingsOver settings)).normalized.limit
    lint suite document settings (lower.merge upper) =
      { suite.run document limit with
        diagnostics := upper.apply (.ofText document.chars)
          (lower.apply (.ofText document.chars) (suite.run document limit).diagnostics) } := by
  rw [lint, Config.settingsOver_merge]
  simp only [Config.apply_merge]

/-- Configurations that say the same about rules and lead to the same settings find the same. -/
theorem lint_congr_limit {config config' : Config} (hdisabled : config.disabled = config'.disabled)
    (hseverity : config.severity = config'.severity)
    (hsettings : config.settingsOver settings = config'.settingsOver settings) :
    lint suite document settings config = lint suite document settings config' := by
  have happly : config.apply = config'.apply := by
    have hregrade : config.regrade = config'.regrade := by
      funext d
      rw [Config.regrade, Config.regrade, hseverity]
    funext suppressions findings
    rw [Config.apply, Config.apply, hregrade, hdisabled]
  rw [lint, lint, hsettings, happly]

/-- In every layer a limit of zero acts as one. -/
theorem lint_merge_zero (config : Config) :
    lint suite document settings ((lower.merge { config with limit := some 0 }).merge upper) =
      lint suite document settings ((lower.merge { config with limit := some 1 }).merge upper) := by
  refine lint_congr_limit suite document settings rfl rfl ?_
  rw [Config.settingsOver_merge, Config.settingsOver_merge, Config.settingsOver_merge,
    Config.settingsOver_merge, Config.settingsOver_zero]

theorem lint_settings_zero (config : Config) :
    lint suite document ⟨0⟩ config = lint suite document ⟨1⟩ config := by
  have hsettings : (config.settingsOver ⟨0⟩).normalized = (config.settingsOver ⟨1⟩).normalized := by
    rw [Config.settingsOver, Config.settingsOver]
    cases config.limit <;> rfl
  rw [lint, lint, hsettings]

end Lint

/-! ### The command line -/

section Command

variable {tree : FileTree} {suite : Suite} {config config' lower upper : Config} {path : Path}
  {order : LintOrder} {results : List FileResult} {result : FileResult}

/-- The codes of the command line amount to a configuration if each of them is the code of a
rule. -/
theorem LintOrder.disablingAll_eq_ok_iff {codes : List String} :
    LintOrder.disablingAll codes = .ok config ↔ (∀ code ∈ codes, ∃ rule : Rule, rule.code = code) ∧
      config = ⟨fun rule ↦ codes.contains rule.code, fun _ ↦ none, none⟩ := by
  induction codes generalizing config with
  | nil =>
    rw [disablingAll, Except.ok.injEq, eq_comm]
    simp [Config.empty]
  | cons code codes ih =>
    rw [disablingAll]
    cases hrule : Rule.ofCode? code with
    | none =>
      refine iff_of_false nofun fun ⟨hcodes, _⟩ ↦ ?_
      obtain ⟨rule, rfl⟩ := hcodes code List.mem_cons_self
      rw [Rule.ofCode?_code] at hrule
      cases hrule
    | some rule =>
      obtain rfl := Rule.code_of_ofCode? hrule
      have hmerge : (Config.disabling rule).merge
          ⟨fun rule ↦ codes.contains rule.code, fun _ ↦ none, none⟩ =
            ⟨fun other ↦ (rule.code :: codes).contains other.code, fun _ ↦ none, none⟩ := by
        have hsame : ∀ other : Rule, other = rule ↔ other.code = rule.code :=
          fun other ↦ ⟨congrArg Rule.code, Rule.code_injective⟩
        simp only [Config.merge, Config.disabling, Config.empty, hsame, List.contains_cons]
        rfl
      have hmap : (disablingAll codes).map (Config.disabling rule).merge = .ok config ↔
          ∃ rest, disablingAll codes = .ok rest ∧ (Config.disabling rule).merge rest = config := by
        cases disablingAll codes <;> simp [Except.map]
      rw [hmap, List.forall_mem_cons]
      constructor
      · rintro ⟨rest, hrest, rfl⟩
        obtain ⟨hcodes, rfl⟩ := ih.1 hrest
        exact ⟨⟨⟨rule, rfl⟩, hcodes⟩, hmerge⟩
      · rintro ⟨⟨-, hcodes⟩, rfl⟩
        exact ⟨_, ih.2 ⟨hcodes, rfl⟩, hmerge⟩

/-- The configuration of the command line switches off the rules that are named, and sets the
limit. -/
theorem LintOrder.upperConfig_eq_ok_iff :
    order.upperConfig = .ok upper ↔ (∀ code ∈ order.disabled, ∃ rule : Rule, rule.code = code) ∧
      upper = ⟨fun rule ↦ order.disabled.contains rule.code, fun _ ↦ none, order.limit⟩ := by
  have hmap : order.upperConfig = .ok upper ↔ ∃ config, disablingAll order.disabled = .ok config ∧
      { config with limit := order.limit } = upper := by
    rw [upperConfig]
    cases disablingAll order.disabled <;> simp [Except.map]
  rw [hmap]
  constructor
  · rintro ⟨config, hconfig, rfl⟩
    obtain ⟨hcodes, rfl⟩ := disablingAll_eq_ok_iff.1 hconfig
    exact ⟨hcodes, rfl⟩
  · rintro ⟨hcodes, rfl⟩
    exact ⟨_, disablingAll_eq_ok_iff.2 ⟨hcodes, rfl⟩, rfl⟩

/-- The result of a file with the findings that are left when one configuration is used and then
another. A file that cannot be read has none. -/
def FileResult.under (tree : FileTree) (suite : Suite) (lower upper : Config)
    (result : FileResult) : FileResult :=
  match tree.read result.path with
  | .ok text =>
    let document := documentOfFile result.path text
    let limit := (upper.settingsOver (lower.settingsOver .standard)).normalized.limit
    { result with
      diagnostics := upper.apply (.ofText document.chars)
        (lower.apply (.ofText document.chars) (suite.run document limit).diagnostics) }
  | .error _ => result

theorem FileResult.under_of_read {text : String} (h : tree.read path = .ok text)
    (findings : List Diagnostic) (error : Option String) :
    FileResult.under tree suite lower upper ⟨path, findings, error⟩ =
      ⟨path, (lint suite (documentOfFile path text) .standard (lower.merge upper)).diagnostics,
        error⟩ := by
  have hread : tree.read (FileResult.path ⟨path, findings, error⟩) = .ok text := h
  rw [under, hread, lint_merge]
  rfl

theorem FileResult.under_of_fault {fault : FileFault} (h : tree.read path = .error fault)
    (findings : List Diagnostic) (error : Option String) :
    FileResult.under tree suite lower upper ⟨path, findings, error⟩ = ⟨path, findings, error⟩ := by
  have hread : tree.read (FileResult.path ⟨path, findings, error⟩) = .error fault := h
  rw [under, hread]

theorem map_value_lintFile_merge :
    (lintFile tree suite (lower.merge upper) path).map Noted.value =
      (lintFile tree suite lower path).map fun noted ↦
        noted.value.under tree suite lower upper := by
  rw [lintFile, lintFile]
  cases hread : tree.read path with
  | ok text => exact congrArg Except.ok (FileResult.under_of_read hread _ _).symm
  | error fault => rfl

theorem value_lintListed_merge :
    (lintListed tree suite (lower.merge upper) path).value =
      (lintListed tree suite lower path).value.under tree suite lower upper := by
  rw [lintListed, lintListed]
  cases hread : tree.read path with
  | ok text => exact (FileResult.under_of_read hread _ _).symm
  | error fault => exact (FileResult.under_of_fault hread _ _).symm

/-- Linting what is at a path under one configuration on top of another has the results that it has
under the first, with the findings that the second leaves as well. -/
theorem map_value_lintPath_merge :
    (lintPath tree suite (lower.merge upper) path).map Noted.value =
      (lintPath tree suite lower path).map fun noted ↦
        noted.value.map (FileResult.under tree suite lower upper) := by
  rw [lintPath, lintPath]
  split
  · rw [lintDirectory, lintDirectory]
    cases tree.ruleFiles path with
    | error fault => rfl
    | ok paths =>
      simp only [Except.map, List.map_map]
      congr 2
      funext path
      exact value_lintListed_merge
  · have hfile := @map_value_lintFile_merge tree suite lower upper path
    cases hmerged : lintFile tree suite (lower.merge upper) path <;>
      cases hlower : lintFile tree suite lower path <;>
      simp_all [Except.map]

theorem lintRead_congr {path : SystemPath} {read : Except FileFault String}
    (h : ∀ document, lint suite document .standard config =
      lint suite document .standard config') :
    lintRead suite config path read = lintRead suite config' path read := by
  cases read with
  | error fault => rfl
  | ok text =>
    rw [lintRead, lintRead]
    simp only [h]

theorem lintPath_congr (h : ∀ document, lint suite document .standard config =
    lint suite document .standard config') :
    lintPath tree suite config path = lintPath tree suite config' path := by
  have hfile : lintFile tree suite config = lintFile tree suite config' := by
    funext path
    rw [lintFile, lintFile, lintRead_congr h]
  have hlisted : lintListed tree suite config = lintListed tree suite config' := by
    funext path
    rw [lintListed, lintListed, lintReadListed, lintReadListed, lintRead_congr h]
  rw [lintPath, lintPath, lintDirectory, lintDirectory, hfile, hlisted]

theorem LintOrder.results_eq (hlower : order.lowerConfig tree = .ok lower)
    (hupper : order.upperConfig = .ok upper) :
    order.results tree =
      ((lintPath tree .standard (lower.merge upper) order.path).map Noted.value).mapError
        (.lint order.path) := by
  rw [results, hlower, hupper]
  cases hlint : lintPath tree .standard (lower.merge upper) order.path <;>
    simp [bind, Except.bind, hlint, Except.mapError, Except.map, pure, Except.pure]

/-- The configuration in the file that the command line names. -/
theorem LintOrder.lowerConfig_of_read {text : String} (hconfig : order.config = some path)
    (hread : tree.read path = .ok text) (htext : Config.ofText text = .ok config) :
    order.lowerConfig tree = .ok config := by
  have hload : Config.load tree path = .ok config := by
    rw [Config.load, hread]
    simp only [htext, Except.mapError]
  simp only [LintOrder.lowerConfig, hconfig, Option.some_or, hload, Except.mapError]

/-- A limit of zero on the command line acts as one. -/
theorem LintOrder.results_zero (tree : FileTree) (order : LintOrder) :
    { order with limit := some 0 }.results tree = { order with limit := some 1 }.results tree := by
  have hlint : ∀ lower config : Config,
      lintPath tree .standard (lower.merge { config with limit := some 0 }) order.path =
        lintPath tree .standard (lower.merge { config with limit := some 1 }) order.path := by
    intro lower config
    refine lintPath_congr fun document ↦ ?_
    have hzero := lint_merge_zero .standard document .standard lower .empty config
    rwa [Config.merge_empty, Config.merge_empty] at hzero
  rw [results, results, upperConfig, upperConfig]
  show (lowerConfig tree order >>= _) = (lowerConfig tree order >>= _)
  cases disablingAll order.disabled with
  | error fault => rfl
  | ok config => simp only [Except.map, bind, Except.bind, hlint]

end Command

/-! ### Composition -/

/-- **Merging configurations is composing them.** Merging is associative, and the configuration that
says nothing changes nothing on either side. Findings go through a merged configuration as they go
through the lower one and then the upper one, and so do settings; using a configuration twice is
using it once; and a limit of zero acts as one in the settings and in every layer. The switches of
the command line are such a layer: the results are those under the configuration from the file, with
what the switches as a second configuration leave of the findings. -/
theorem Config.merging_composes (a b c : Config) (suppressions : Suppressions)
    (findings : List Diagnostic) (settings : Settings) :
    ((a.merge b).merge c = a.merge (b.merge c) ∧ empty.merge a = a ∧ a.merge empty = a) ∧
    (a.merge b).apply suppressions findings =
      b.apply suppressions (a.apply suppressions findings) ∧
    (a.merge b).settingsOver settings = b.settingsOver (a.settingsOver settings) ∧
    (a.merge a = a ∧
      a.apply suppressions (a.apply suppressions findings) = a.apply suppressions findings ∧
      a.settingsOver (a.settingsOver settings) = a.settingsOver settings) ∧
    (∀ suite document,
      lint suite document settings ((a.merge { b with limit := some 0 }).merge c) =
          lint suite document settings ((a.merge { b with limit := some 1 }).merge c) ∧
        lint suite document ⟨0⟩ a = lint suite document ⟨1⟩ a) ∧
    ∀ (tree : FileTree) (order : LintOrder),
      { order with limit := some 0 }.results tree = { order with limit := some 1 }.results tree ∧
        ∀ lower, order.lowerConfig tree = .ok lower →
          (∀ code ∈ order.disabled, ∃ rule : Rule, rule.code = code) →
            order.results tree = ((lintPath tree .standard lower order.path).map fun noted ↦
              noted.value.map (FileResult.under tree .standard lower
                ⟨fun rule ↦ order.disabled.contains rule.code, fun _ ↦ none, order.limit⟩)).mapError
                  (.lint order.path) := by
  have htwice := apply_merge a a suppressions findings
  have hover := settingsOver_merge a a settings
  rw [merge_self] at htwice hover
  refine ⟨⟨merge_assoc a b c, empty_merge a, merge_empty a⟩, apply_merge a b suppressions findings,
    settingsOver_merge a b settings, ⟨merge_self a, htwice.symm, hover.symm⟩,
    fun suite document ↦ ⟨lint_merge_zero suite document settings a c b,
      lint_settings_zero suite document a⟩,
    fun tree order ↦ ⟨LintOrder.results_zero tree order, fun lower hlower hcodes ↦ ?_⟩⟩
  rw [LintOrder.results_eq hlower (LintOrder.upperConfig_eq_ok_iff.2 ⟨hcodes, rfl⟩),
    map_value_lintPath_merge]

/-! ### Switches -/

section Switches

/-- A configuration that has a limit and makes the findings of one rule hints. -/
def switchedText : String :=
  "max_number_of_problems: 5\nseverity_overrides:\n  number_to_string_concat: hint\n"

/-- A document with findings of two rules. -/
def flaggedText : String :=
  "lower(a) == \"A\"\ncount + \"x\"\n\"y\" + duration"

/-- A tree with both. -/
def switchedTree : FileTree where
  entries := [(["c.yml"], .file switchedText.toUTF8), (["a.co"], .file flaggedText.toUTF8)]
  current := []

/-- An order that switches one of the rules off and sets a limit of zero. -/
def switchedOrder : LintOrder :=
  ⟨"/a.co", false, some 0, some "/c.yml", ["lower_comparison_case"]⟩

/-- The configuration in the tree. -/
def switchedConfig : Config :=
  { Config.regrading .numberToStringConcat .hint with limit := some 5 }

theorem resolve_switchedTree {name : String} (hname : name = "c.yml" ∨ name = "a.co") :
    switchedTree.resolve ("/" ++ name) = .ok [name] := by
  have hleads : switchedTree.PathLeads ("/" ++ name) 0 [name] := by
    have hfile : ∃ content, switchedTree.Holds [] name (.file content) := by
      rcases hname with rfl | rfl
      · exact ⟨_, by decide, by decide, by decide, by decide, rfl⟩
      · exact ⟨_, by decide, by decide, by decide, by decide, rfl⟩
    obtain ⟨content, hfile⟩ := hfile
    have hroot : switchedTree.Leads [] ["", name] 0 [name] :=
      .idle (by decide) (.inl rfl) (.down hfile (by simp) (.here _))
    rcases hname with rfl | rfl <;>
      exact FileTree.pathLeads_of_leads (FileTree.originOf_root _) (by decide) hroot
  refine FileTree.resolve_eq_ok_iff.2 ⟨?_, ?_, ?_, 0, Nat.zero_le _, hleads⟩ <;>
    rcases hname with rfl | rfl <;> decide

theorem read_switchedTree {name text : String}
    (h : name = "c.yml" ∧ text = switchedText ∨ name = "a.co" ∧ text = flaggedText) :
    switchedTree.read ("/" ++ name) = .ok text := by
  refine FileTree.read_of_resolve (resolve_switchedTree (h.imp And.left And.left)) ?_
  rcases h with ⟨rfl, rfl⟩ | ⟨rfl, rfl⟩ <;> rfl

theorem ofText_switchedText : Config.ofText switchedText = .ok switchedConfig := by
  -- a configuration holds functions, which are compared rule by rule
  have hfields : (Config.ofText switchedText).toOption.any (fun config ↦ config.limit = some 5 ∧
      ∀ rule ∈ Rule.all, config.disabled rule = false ∧
        config.severity rule = switchedConfig.severity rule) = true := by
    decide +kernel
  cases hconfig : Config.ofText switchedText with
  | error fault =>
    rw [hconfig] at hfields
    cases hfields
  | ok config =>
    rw [hconfig] at hfields
    obtain ⟨hlimit, hrules⟩ := of_decide_eq_true hfields
    obtain ⟨disabled, severity, limit⟩ := config
    obtain rfl : limit = some 5 := hlimit
    obtain rfl : disabled = fun _ ↦ false := funext fun rule ↦ (hrules rule rule.mem_all).1
    obtain rfl : severity = switchedConfig.severity :=
      funext fun rule ↦ (hrules rule rule.mem_all).2
    rfl

theorem lowerConfig_switchedTree : switchedOrder.lowerConfig switchedTree = .ok switchedConfig :=
  LintOrder.lowerConfig_of_read rfl (read_switchedTree (.inl ⟨rfl, rfl⟩)) ofText_switchedText

/-- The rule that the command line switches off has no finding, the other one has hints, and the
limit of zero leaves one of the two. -/
theorem Config.merging_composes_switches :
    switchedOrder.lowerConfig switchedTree = .ok switchedConfig ∧
      (∀ code ∈ switchedOrder.disabled, ∃ rule : Rule, rule.code = code) ∧
      switchedOrder.results switchedTree = .ok [⟨"/a.co",
        [⟨.numberToStringConcat, .hint, ⟨⟨1, 0⟩, ⟨1, 11⟩⟩, Check.concatenationMessage⟩],
        none⟩] := by
  have hcodes : ∀ code ∈ switchedOrder.disabled, ∃ rule : Rule, rule.code = code := by
    simp only [switchedOrder, List.forall_mem_singleton]
    exact ⟨.lowerComparisonCase, rfl⟩
  have hread : switchedTree.read "/a.co" = .ok flaggedText := read_switchedTree (.inr ⟨rfl, rfl⟩)
  have hresolve : switchedTree.resolve "/a.co" = .ok ["a.co"] := resolve_switchedTree (.inr rfl)
  have hfile : switchedTree.directory? "/a.co" = none := by
    rw [FileTree.directory?, hresolve]
    rfl
  have hlint : lintPath switchedTree .standard switchedConfig "/a.co" = .ok ⟨[⟨"/a.co",
      (lint .standard (documentOfFile "/a.co" flaggedText) .standard switchedConfig).diagnostics,
      none⟩], (lint .standard (documentOfFile "/a.co" flaggedText) .standard
        switchedConfig).failures.map .checkFailed⟩ := by
    rw [lintPath, hfile, lintFile, hread]
    rfl
  obtain ⟨-, -, -, -, -, hcommand⟩ := merging_composes .empty .empty .empty .none [] .standard
  have hpath : switchedOrder.path = "/a.co" := rfl
  refine ⟨lowerConfig_switchedTree, hcodes, ?_⟩
  rw [(hcommand switchedTree switchedOrder).2 _ lowerConfig_switchedTree hcodes, hpath, hlint]
  simp only [Except.map, List.map_cons, List.map_nil, FileResult.under_of_read hread,
    Except.mapError]
  congr 3
  decide +kernel

end Switches

end RuleLint
