/-!
# Binary search for the end of a run

`bisect p lo hi` is the first index from `lo` on, below `hi`, at which `p` fails, when `p` holds on
a first part of the interval and fails on the rest. Each probe halves the interval.
-/

namespace RuleLint

/-- The end of the run of indices with `p` in the interval from `lo` to `hi`. -/
def bisect (p : Nat → Bool) (lo hi : Nat) : Nat :=
  if lo < hi then
    let mid := (lo + hi) / 2
    if p mid then bisect p (mid + 1) hi else bisect p lo mid
  else
    lo
termination_by hi - lo

/-- If `p` holds exactly below `k`, the search finds `k`. -/
theorem bisect_eq {p : Nat → Bool} {lo hi k : Nat} (low : lo ≤ k) (high : k ≤ hi)
    (below : ∀ i, lo ≤ i → i < hi → (p i = true ↔ i < k)) : bisect p lo hi = k := by
  fun_induction bisect p lo hi with
  | case1 lo hi lt mid holds ih =>
    have midLt : mid < k := (below mid (by omega) (by omega)).1 holds
    exact ih (by omega) high fun i hi₁ hi₂ ↦ below i (by omega) hi₂
  | case2 lo hi lt mid fails ih =>
    have le : k ≤ mid := by
      have := mt (below mid (by omega) (by omega)).2 (by simpa using fails)
      omega
    exact ih low le fun i hi₁ hi₂ ↦ below i hi₁ (by omega)
  | case3 lo hi ge => omega

end RuleLint
