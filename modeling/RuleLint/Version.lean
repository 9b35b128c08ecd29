/-!
# Version

The version that the program reports of itself.
-/

namespace RuleLint

/-- The version of the program. -/
def version : String := "0.1.0"

end RuleLint
