/-!
# Sets of code points

A property of characters that a standard lays down is stored as the list of the intervals of code
points that have it. Membership is a search through the list, so a table is data and nothing else,
and a character whose code point is in one of the intervals has the property by
`mem_of_interval`.
-/

namespace RuleLint

/-- A set of code points, as closed intervals. -/
abbrev CodePoints := List (Nat × Nat)

namespace CodePoints

/-- Whether the character's code point lies in one of the intervals. -/
def has (table : CodePoints) (c : Char) : Bool :=
  table.any fun interval ↦ interval.1 ≤ c.toNat && c.toNat ≤ interval.2

variable {table : CodePoints} {c : Char}

theorem has_iff : table.has c = true ↔ ∃ i ∈ table, i.1 ≤ c.toNat ∧ c.toNat ≤ i.2 := by
  simp [has]

theorem mem_of_interval {lo hi : Nat} (mem : (lo, hi) ∈ table) (low : lo ≤ c.toNat)
    (high : c.toNat ≤ hi) : table.has c = true :=
  has_iff.2 ⟨(lo, hi), mem, low, high⟩

end CodePoints

end RuleLint
