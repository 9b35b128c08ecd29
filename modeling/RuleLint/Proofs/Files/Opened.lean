import RuleLint.Files
import RuleLint.Proofs.Check.Instances
import RuleLint.Proofs.Uri.Written
import RuleLint.Server.Basic

/-!
# A file and its document in an editor

A file is linted in the dialect of its extension, and a document in an editor in the dialect that
the editor names or, if that is none, in that of the end of its URI. What a document says and the
language it is linted in decide what is found (`lint_congr`), so a file and its document in an
editor have the same findings whenever the two ways lead to the same dialect.

They do, whatever the path of the file, but for two names: a file whose whole name is a dot and the
extension of a dialect has no extension, and yet its URI ends like one that has
(`lintFile_eq_opened`).
-/

namespace RuleLint

/-! ### What decides the findings -/

section Findings

variable {document document' : Document} {settings : Settings} {config : Config}

/-- The dialect that a language is linted in. No check is made for normalization, so it stands for
the languages that are no dialect. -/
def lintedIn (language : String) : Dialect :=
  (Dialect.ofExtension? language).getD .normalization

theorem lintedIn_id (dialect : Dialect) : lintedIn dialect.id = dialect := by
  rw [lintedIn, Dialect.ofExtension?_id, Option.getD_some]

theorem not_mem_dialects {check : Check} (hcheck : check ∈ Suite.standard) :
    .normalization ∉ check.dialects := by
  simp only [Suite.standard, List.mem_cons, List.not_mem_nil, or_false] at hcheck
  rcases hcheck with rfl | rfl | rfl | rfl | rfl | rfl | rfl | rfl <;> decide

theorem languages_eq {check : Check} (hcheck : check ∈ Suite.standard) :
    check.languages = check.dialects.map Dialect.id := by
  simp only [Suite.standard, List.mem_cons, List.not_mem_nil, or_false] at hcheck
  rcases hcheck with rfl | rfl | rfl | rfl | rfl | rfl | rfl | rfl <;> rfl

/-- The built-in checks go by the dialect that a language is linted in. -/
theorem appliesTo_iff {check : Check} (hcheck : check ∈ Suite.standard) (language : String) :
    check.appliesTo language = true ↔ lintedIn language ∈ check.dialects := by
  rw [Check.appliesTo, languages_eq hcheck, List.contains_iff_mem, List.mem_map]
  constructor
  · rintro ⟨dialect, hdialect, rfl⟩
    rwa [lintedIn_id]
  · intro h
    refine ⟨_, h, ?_⟩
    cases hread : Dialect.ofExtension? language with
    | none => exact absurd (by simpa [lintedIn, hread] using h) (not_mem_dialects hcheck)
    | some dialect => simp [lintedIn, hread, Dialect.id_of_ofExtension? hread]

/-- The built-in checks find the same in documents that say the same. -/
theorem search_congr {check : Check} (hcheck : check ∈ Suite.standard) (limit : Nat)
    (htext : document.text = document'.text) :
    check.search { document, limit } = check.search { document := document', limit } := by
  obtain ⟨uri, language, version, text⟩ := document
  obtain ⟨uri', language', version', text'⟩ := document'
  obtain rfl : text = text' := htext
  simp only [Suite.standard, List.mem_cons, List.not_mem_nil, or_false] at hcheck
  rcases hcheck with rfl | rfl | rfl | rfl | rfl | rfl | rfl | rfl <;> rfl

theorem validate_congr {check : Check} (hcheck : check ∈ Suite.standard) (limit : Nat)
    (htext : document.text = document'.text)
    (hdialect : lintedIn document.language = lintedIn document'.language) :
    check.validate document limit = check.validate document' limit := by
  have happlies : check.appliesTo document.language = check.appliesTo document'.language := by
    rw [Bool.eq_iff_iff, appliesTo_iff hcheck, appliesTo_iff hcheck, hdialect]
  rw [Check.validate, Check.validate, happlies, search_congr hcheck limit htext]

theorem run_diagnostics_congr {suite : Suite} (hsuite : ∀ check ∈ suite, check ∈ Suite.standard)
    (limit : Nat) (htext : document.text = document'.text)
    (hdialect : lintedIn document.language = lintedIn document'.language) :
    (suite.run document limit).diagnostics = (suite.run document' limit).diagnostics := by
  induction suite with
  | nil => rfl
  | cons check suite ih =>
    obtain ⟨hcheck, hsuite⟩ := List.forall_mem_cons.1 hsuite
    rw [Suite.run, Suite.run, validate_congr hcheck limit htext hdialect]
    cases check.validate document' limit with
    | ok diagnostics => exact congrArg (diagnostics ++ ·) (ih hsuite)
    | error failure => exact ih hsuite

/-- **The findings are decided by the text and the dialect.** -/
theorem lint_congr (htext : document.text = document'.text)
    (hdialect : lintedIn document.language = lintedIn document'.language) :
    (lint .standard document settings config).diagnostics =
      (lint .standard document' settings config).diagnostics := by
  have hchars : document.chars = document'.chars := by rw [Document.chars, Document.chars, htext]
  rw [lint, lint]
  dsimp only
  rw [run_diagnostics_congr (fun _ h ↦ h) _ htext hdialect, hchars]

/-- Nothing is found in normalization sources. -/
theorem lint_of_normalization (hdialect : lintedIn document.language = .normalization) :
    (lint .standard document settings config).diagnostics = [] := by
  refine List.eq_nil_iff_forall_not_mem.2 fun d hd ↦ ?_
  obtain ⟨check, hcheck, happlies, -⟩ := exists_search_of_mem_lint hd
  rw [appliesTo_iff hcheck, hdialect] at happlies
  exact not_mem_dialects hcheck happlies

end Findings

/-! ### The dialects of a path and of its URI -/

section Names

variable {path : Path} {dialect : Dialect}

/-- The dialect of a file is told by the end of its name, which has more before it. -/
theorem dialect_path_iff (habsolute : path.toList.head? = some '/') :
    path.extension?.bind Dialect.ofExtension? = some dialect ↔
      ∃ last, path.names.getLast? = some last ∧ last ≠ ['.', '.'] ∧
        '.' :: dialect.id.toList <:+ last ∧ last ≠ '.' :: dialect.id.toList := by
  have hid : '.' ∉ dialect.id.toList := by cases dialect <;> decide
  have hextension : ∀ last, (∃ stem ≠ [], last = stem ++ '.' :: dialect.id.toList) ↔
      '.' :: dialect.id.toList <:+ last ∧ last ≠ '.' :: dialect.id.toList := by
    intro last
    constructor
    · rintro ⟨stem, hstem, rfl⟩
      exact ⟨List.suffix_append stem _, by simpa using hstem⟩
    · rintro ⟨⟨stem, rfl⟩, hne⟩
      exact ⟨stem, by simpa using hne, rfl⟩
  have hname := Path.fileName?_of_absolute habsolute
  cases hnames : path.names.getLast? with
  | none =>
    rw [hnames, Option.bind_none] at hname
    simp [Path.extension?, hname]
  | some last =>
    rw [hnames, Option.bind_some] at hname
    by_cases hup : last = ['.', '.']
    · rw [if_pos hup] at hname
      simp [Path.extension?, hname, hup]
    · rw [if_neg hup] at hname
      rw [Path.extension?_of_fileName? hname, Path.bind_ofExtension?_eq_some_iff,
        String.toList_ofList, Path.extensionOfName?_eq_some_iff hid, hextension]
      constructor
      · intro h
        exact ⟨last, rfl, hup, h⟩
      · rintro ⟨_, heq, -, h⟩
        exact Option.some.inj heq ▸ h

/-- A file whose whole name is a dot and the extension of a dialect has no extension. -/
theorem dialectOf_of_bare (hname : path.fileName? = some ("." ++ dialect.id)) :
    dialectOf path = .normalization := by
  have hextension : Path.extensionOfName? ("." ++ dialect.id).toList = none := by
    cases dialect <;> decide
  rw [dialectOf, Path.extension?_of_fileName? hname, hextension]
  rfl

/-- The dialect of the file at a path and that of its URI are told by the same name. They differ
just if that name is a dot and the extension of a dialect, which only the URI has then. -/
theorem dialect_uri_iff_path (writer : Uri.Writer) (habsolute : path.toList.head? = some '/') :
    ((Uri.ofText? (writer.uri path)).bind fun uri ↦ uri.extension?.bind Dialect.ofExtension?) =
        some dialect ↔
      path.extension?.bind Dialect.ofExtension? = some dialect ∨
        path.fileName? = some ("." ++ dialect.id) := by
  have hid : String.ofList ('.' :: dialect.id.toList) = "." ++ dialect.id := by
    cases dialect <;> decide
  rw [Uri.dialect_uri_iff, dialect_path_iff habsolute, Path.fileName?_of_absolute habsolute]
  constructor
  · rintro ⟨last, hlast, hup, hsuffix⟩
    by_cases hwhole : last = '.' :: dialect.id.toList
    · exact .inr (by rw [hlast, Option.bind_some, if_neg hup, hwhole, hid])
    · exact .inl ⟨last, hlast, hup, hsuffix, hwhole⟩
  · rintro (⟨last, hlast, hup, hsuffix, -⟩ | hname)
    · exact ⟨last, hlast, hup, hsuffix⟩
    · obtain ⟨last, hlast, hname⟩ := Option.bind_eq_some_iff.1 hname
      split at hname
      · cases hname
      · rename_i hup
        rw [← hid] at hname
        have hwhole := String.ofList_injective (Option.some.inj hname)
        exact ⟨last, hlast, hup, hwhole ▸ List.suffix_rfl⟩

end Names

/-! ### Both ways to lint a file -/

section Opened

variable (writer : Uri.Writer) {tree : FileTree} {config : Config} {path : Path}
  {text language : String}

/-- The document that the server keeps when an editor opens a file. -/
def Uri.Writer.opened (path : Path) (language : String) (version : Int) (text : String) :
    Document where
  uri := writer.uri path
  language := Server.languageOf language (writer.uri path)
  version := version
  text := text

/-- In a language that is no dialect, a document is linted in the dialect of its URI. -/
theorem lintedIn_languageOf (hlanguage : Dialect.ofExtension? language = none) (uri : String) :
    lintedIn (Server.languageOf language uri) =
      ((Uri.ofText? uri).bind fun uri ↦ uri.extension?.bind Dialect.ofExtension?).getD
        .normalization := by
  rw [Server.languageOf, hlanguage]
  dsimp only
  split
  · rename_i dialect huri
    rw [huri, lintedIn_id, Option.getD_some]
  · rename_i huri
    rw [huri, lintedIn, hlanguage]

theorem lintedIn_opened (hlanguage : Dialect.ofExtension? language = none)
    (habsolute : path.toList.head? = some '/') (version : Int) (text : String)
    (hname : ∀ dialect ∈ [Dialect.correlation, .enrichment],
      path.fileName? ≠ some ("." ++ dialect.id)) :
    lintedIn (writer.opened path language version text).language = dialectOf path := by
  rw [Uri.Writer.opened, lintedIn_languageOf hlanguage, dialectOf]
  cases huri : (Uri.ofText? (writer.uri path)).bind fun uri ↦
      uri.extension?.bind Dialect.ofExtension? with
  | none =>
    cases hpath : path.extension?.bind Dialect.ofExtension? with
    | none => rfl
    | some dialect =>
      rw [(dialect_uri_iff_path writer habsolute).2 (.inl hpath)] at huri
      cases huri
  | some dialect =>
    rcases (dialect_uri_iff_path writer habsolute).1 huri with hpath | hbare
    · rw [hpath]
    · -- without an extension the file is linted as a normalization source
      rw [← dialectOf, dialectOf_of_bare hbare, Option.getD_some]
      cases dialect with
      | correlation => exact absurd hbare (hname _ (by decide))
      | enrichment => exact absurd hbare (hname _ (by decide))
      | normalization => rfl

/-- **A file and its document in an editor have the same findings**, whatever characters the editor
escapes, unless the whole name of the file is a dot and the extension of a dialect with checks. In
such a file nothing is found, and its document is linted in that dialect. -/
theorem lintFile_eq_opened (version : Int) (habsolute : path.toList.head? = some '/')
    (hread : tree.read path = .ok text) (hlanguage : ∀ dialect : Dialect, dialect.id ≠ language) :
    ∃ result, lintFile tree .standard config path = .ok result ∧
      ((∀ dialect ∈ [Dialect.correlation, .enrichment],
          path.fileName? ≠ some ("." ++ dialect.id)) →
        result.value.diagnostics =
          (lint .standard (writer.opened path language version text) .standard
            config).diagnostics) ∧
      ∀ dialect : Dialect, path.fileName? = some ("." ++ dialect.id) →
        result.value.diagnostics = [] ∧
          (writer.opened path language version text).language = dialect.id := by
  have hnone : Dialect.ofExtension? language = none := by
    refine Option.eq_none_iff_forall_ne_some.2 fun dialect h ↦ ?_
    exact hlanguage dialect (Dialect.id_of_ofExtension? h)
  obtain ⟨result, hlint, hfindings⟩ : ∃ result, lintFile tree .standard config path = .ok result ∧
      result.value.diagnostics =
        (lint .standard (documentOfFile path text) .standard config).diagnostics := by
    rw [lintFile, hread]
    exact ⟨_, rfl, rfl⟩
  refine ⟨result, hlint, fun hname ↦ ?_, fun dialect hname ↦ ⟨?_, ?_⟩⟩
  · rw [hfindings]
    refine lint_congr rfl ?_
    rw [lintedIn_opened writer hnone habsolute version text hname, documentOfFile, lintedIn_id]
  · rw [hfindings]
    exact lint_of_normalization (by rw [documentOfFile, lintedIn_id, dialectOf_of_bare hname])
  · rw [Uri.Writer.opened, Server.languageOf, hnone,
      (dialect_uri_iff_path writer habsolute).2 (.inr hname)]

/-- A tree with a file that has an extension and one that is nothing but an extension. Both say the
same, and a finding is in it for correlation rules. -/
def bareTree : FileTree where
  entries := [([".co"], .file "lower(x) == \"A\"".toUTF8),
    (["a.co"], .file "lower(x) == \"A\"".toUTF8)]
  current := []

theorem read_bareTree {name : String} (hname : name = "a.co" ∨ name = ".co") :
    bareTree.read ("/" ++ name) = .ok "lower(x) == \"A\"" := by
  have hleads : bareTree.PathLeads ("/" ++ name) 0 [name] := by
    have hfile : bareTree.Holds [] name (.file "lower(x) == \"A\"".toUTF8) := by
      rcases hname with rfl | rfl
      · exact ⟨by decide, by decide, by decide, by decide, rfl⟩
      · exact ⟨by decide, by decide, by decide, by decide, rfl⟩
    have hroot : bareTree.Leads [] ["", name] 0 [name] :=
      .idle (by decide) (.inl rfl) (.down hfile (by simp) (.here _))
    rcases hname with rfl | rfl <;>
      exact FileTree.pathLeads_of_leads (FileTree.originOf_root _) (by decide) hroot
  have hresolve : bareTree.resolve ("/" ++ name) = .ok [name] := by
    refine FileTree.resolve_eq_ok_iff.2 ⟨?_, ?_, ?_, 0, Nat.zero_le _, hleads⟩ <;>
      rcases hname with rfl | rfl <;> decide
  refine FileTree.read_of_resolve hresolve ?_
  rcases hname with rfl | rfl <;> rfl

theorem lintFile_eq_opened_bareTree :
    bareTree.read "/a.co" = .ok "lower(x) == \"A\"" ∧
      (∀ dialect : Dialect, dialect.id ≠ "plaintext") ∧
      ∃ result, lintFile bareTree .standard .empty "/a.co" = .ok result ∧
        result.value.diagnostics =
          (lint .standard (Uri.Writer.unreserved.opened "/a.co" "plaintext" 1 "lower(x) == \"A\"")
            .standard .empty).diagnostics := by
  have hread : bareTree.read "/a.co" = .ok "lower(x) == \"A\"" := read_bareTree (.inl rfl)
  have hlanguage : ∀ dialect : Dialect, dialect.id ≠ "plaintext" := by
    intro dialect
    cases dialect <;> decide
  obtain ⟨result, hlint, hsame, -⟩ := lintFile_eq_opened .unreserved 1 (by decide) hread hlanguage
  exact ⟨hread, hlanguage, result, hlint, hsame (by decide +kernel)⟩

/-- **A file that is nothing but an extension is linted in two ways.** Nothing is found in it, and
in its document in an editor something is. -/
theorem lintFile_ne_opened :
    Uri.Writer.unreserved.uri "/.co" = "file:///.co" ∧
      bareTree.read "/.co" = .ok "lower(x) == \"A\"" ∧
      (∃ result, lintFile bareTree .standard .empty "/.co" = .ok result ∧
        result.value.diagnostics = []) ∧
      (lint .standard (Uri.Writer.unreserved.opened "/.co" "plaintext" 1 "lower(x) == \"A\"")
        .standard .empty).diagnostics.map Diagnostic.range = [⟨⟨0, 0⟩, ⟨0, 15⟩⟩] := by
  have hread : bareTree.read "/.co" = .ok "lower(x) == \"A\"" := read_bareTree (.inr rfl)
  refine ⟨by decide +kernel, hread, ?_, ?_⟩
  · rw [lintFile, hread]
    exact ⟨_, rfl, lint_of_normalization (by decide +kernel)⟩
  · decide +kernel

end Opened

end RuleLint
