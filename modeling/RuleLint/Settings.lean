/-!
# Settings of a document

The one setting of a document is its limit: the most findings that one loop of a check may report.
A limit is positive; zero is read as one (`Settings.normalized`).
-/

namespace RuleLint

/-- The settings of a document. -/
structure Settings where
  limit : Nat
deriving DecidableEq, Repr

namespace Settings

/-- The limit when nobody sets one. -/
def defaultLimit : Nat := 1000

/-- The settings when nobody sets any. -/
def standard : Settings :=
  ⟨defaultLimit⟩

/-- The settings with a positive limit. -/
def normalized (settings : Settings) : Settings :=
  ⟨max settings.limit 1⟩

/-- The settings with a limit, zero being read as one. -/
def ofLimit (limit : Nat) : Settings :=
  normalized ⟨limit⟩

@[simp] theorem normalized_normalized (settings : Settings) :
    settings.normalized.normalized = settings.normalized := by
  simp [normalized]

theorem normalized_pos (settings : Settings) : 0 < settings.normalized.limit :=
  Nat.le_max_right settings.limit 1

end Settings

end RuleLint
