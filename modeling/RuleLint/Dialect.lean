/-!
# Dialects of rule source

Rule source comes in three dialects. A dialect is known to editors by a short identifier, which is
also the extension of its files. Documents carry an identifier that need not be one of the three;
no built-in check applies to any other.
-/

namespace RuleLint

/-- The dialects of rule source. -/
inductive Dialect where
  | correlation
  | enrichment
  | normalization
deriving DecidableEq, Repr

namespace Dialect

/-- Every dialect. -/
def all : List Dialect :=
  [.correlation, .enrichment, .normalization]

/-- The identifier of a dialect. -/
def id : Dialect → String
  | .correlation => "co"
  | .enrichment => "en"
  | .normalization => "xp"

/-- The dialect of the files with an extension, which is given without its dot. -/
def ofExtension? (extension : String) : Option Dialect :=
  all.find? fun dialect ↦ dialect.id = extension

theorem ofExtension?_id (dialect : Dialect) : ofExtension? dialect.id = some dialect := by
  cases dialect <;> decide

theorem id_of_ofExtension? {extension : String} {dialect : Dialect}
    (h : ofExtension? extension = some dialect) : dialect.id = extension := by
  simpa using List.find?_some h

end Dialect

end RuleLint
