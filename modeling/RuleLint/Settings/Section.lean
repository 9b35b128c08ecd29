import RuleLint.Json
import RuleLint.Settings
import RuleLint.Text.Number

/-!
# Settings as JSON

Editors keep the settings of this program in a section of theirs and hand it over as JSON. A
section is an object, in which the limit goes by name, or an array, in which it goes by place. What
a section leaves out has its standard value, and so does all of a section that is absent or null.
-/

namespace RuleLint.Settings

/-- The name of the section. -/
def sectionName : String := "xplint"

/-- The name of the limit within the section. -/
def limitName : String := "maxNumberOfProblems"

/-- The settings with the limit that a JSON value gives: a whole number that a 64-bit word can
hold. -/
def ofLimitJson? : Json → Option Settings
  | .whole (.ofNat limit) => if limit < wordLimit then some ⟨limit⟩ else none
  | _ => none

/-- The settings in a section. -/
def ofSection? : Option Json → Option Settings
  | none => some standard
  | some .null => some standard
  | some (.object members) =>
    match members.lookup limitName with
    | some value => ofLimitJson? value
    | none => some standard
  | some (.array []) => some standard
  | some (.array [value]) => ofLimitJson? value
  | some _ => none

end RuleLint.Settings
