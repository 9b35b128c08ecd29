import RuleLint.Settings.Cache

/-!
# Settings shared by all documents

A source of settings that has one value for every document. It serves editors that announce a new
value whenever it changes and cannot be asked.
-/

namespace RuleLint

/-- One value for every document. -/
structure SharedSettings where
  /-- The value. -/
  current : Settings
deriving DecidableEq, Repr

namespace SharedSettings

/-- The source with a value. -/
def of (settings : Settings) : SharedSettings :=
  ⟨settings.normalized⟩

/-- The source at the start. -/
def standard : SharedSettings :=
  .of .standard

/-- Announce a new value. -/
def announce (_ : SharedSettings) (settings : Settings) : SharedSettings :=
  .of settings

/-- The answer for a document. -/
def answer (shared : SharedSettings) (_uri : String) : Answer :=
  .ok shared.current

end SharedSettings

end RuleLint
