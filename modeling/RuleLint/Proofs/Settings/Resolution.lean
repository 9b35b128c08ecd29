import Mathlib.Data.List.Induction
import RuleLint.Settings.Cache

/-!
# Overlapping resolutions

Any number of callers resolve settings through one cache, and the cache may be invalidated between
any two of their steps. A call that finds no entry has three steps of its own: it starts, the source
answers it, and it finishes. `Resolver.step` carries out one step of one of them, or an
invalidation, and a run is a list of such acts.

What a call may leave in the cache is decided by its stamp alone. The whole argument is that a stamp
says exactly whether the entry of its document was invalidated since the call started:

* stamps are ordered by clearings first and evictions second (`Stamp.Before`), and the current stamp
  of a document only moves up, strictly so when its entry is invalidated — also when a clearing
  takes the count of evictions back to zero;
* so the stamp of a call in flight is the current one if and only if the call is undisturbed
  (`stamp_eq_iff_undisturbed`), whatever happened to other documents.
-/

namespace RuleLint

/-! ### The order of stamps -/

namespace Stamp

/-- One stamp is older than another: there were fewer clearings, or as many and fewer evictions
since. -/
def Before (older newer : Stamp) : Prop :=
  older.clearings < newer.clearings ∨
    older.clearings = newer.clearings ∧ older.evictions < newer.evictions

/-- One stamp has been reached when another is current. -/
def Reached (older newer : Stamp) : Prop :=
  older = newer ∨ older.Before newer

theorem Before.ne {older newer : Stamp} (h : older.Before newer) : older ≠ newer := by
  rintro rfl
  rcases h with h | ⟨-, h⟩ <;> exact absurd h (Nat.lt_irrefl _)

theorem Reached.trans_before {first second third : Stamp} (h : first.Reached second)
    (h' : second.Before third) : first.Before third := by
  rcases h with rfl | h
  · exact h'
  · unfold Before at *
    omega

end Stamp

namespace Cache

/-- Invalidating everything makes the stamp of every document newer, although it forgets the
evictions. -/
theorem stamp_before_clear (cache : Cache) (uri : String) :
    (cache.stamp uri).Before (cache.clear.stamp uri) :=
  Or.inl (Nat.lt_succ_self cache.clearings)

theorem stamp_before_evict (cache : Cache) (uri : String) :
    (cache.stamp uri).Before ((cache.evict uri).stamp uri) :=
  Or.inr ⟨rfl, by simp [stamp, evict]⟩

/-- The stamp of a document has nothing to do with the evictions of others. -/
theorem stamp_evict_of_ne (cache : Cache) {uri other : String} (h : other ≠ uri) :
    (cache.evict other).stamp uri = cache.stamp uri := by
  simp [stamp, evict, Table.get?_insert, h]

/-- Taking an answer invalidates nothing. -/
@[simp] theorem stamp_complete (cache : Cache) (uri other : String) (stamp : Stamp)
    (answer : Answer) :
    (cache.complete uri stamp answer).cache.stamp other = cache.stamp other := by
  cases answer with
  | error reason => rfl
  | ok settings =>
    by_cases h : cache.stamp uri = stamp
    · rw [complete, if_pos h]; rfl
    · rw [complete, if_neg h]

end Cache

/-- The settings that come of an answer. -/
def Answer.settings : Answer → Settings
  | .ok settings => settings.normalized
  | .error _ => .standard

@[simp] theorem Cache.settings_complete (cache : Cache) (uri : String) (stamp : Stamp)
    (answer : Answer) : (cache.complete uri stamp answer).settings = answer.settings := by
  cases answer with
  | error reason => rfl
  | ok settings =>
    by_cases h : cache.stamp uri = stamp
    · rw [complete, if_pos h]; rfl
    · rw [complete, if_neg h]; rfl

/-! ### Runs -/

/-- Where a call stands that resolves the settings of a document. -/
inductive Resolution where
  /-- It found an entry, and is over without having asked for anything. -/
  | found (uri : String) (settings : Settings)
  /-- It has asked the source under a stamp. -/
  | asking (uri : String) (stamp : Stamp)
  /-- It has got its answer. -/
  | answered (uri : String) (stamp : Stamp) (answer : Answer)
  /-- It is over, and has handed out settings. -/
  | ended (uri : String) (answer : Answer) (settings : Settings)
deriving DecidableEq, Repr

namespace Resolution

/-- Where a call stands that has just started. -/
def opening (cache : Cache) (uri : String) : Resolution :=
  match cache.look uri with
  | .hit settings => .found uri settings
  | .miss stamp => .asking uri stamp

end Resolution

/-- A cache and the calls that were made to it, by number. -/
structure Resolver where
  cache : Cache
  calls : List Resolution

namespace Resolver

/-- What can happen to a cache and its callers. -/
inductive Act where
  /-- A call starts. It gets the next number. -/
  | call (uri : String)
  /-- The source answers a call. -/
  | answer (number : Nat) (answer : Answer)
  /-- A call that was answered finishes. -/
  | finish (number : Nat)
  /-- Every entry is invalidated. -/
  | clear
  /-- The entry of a document is invalidated. -/
  | evict (uri : String)

/-- The resolver at the start. -/
def new : Resolver :=
  ⟨.empty, []⟩

/-- Carry out an act. Nothing happens if the call is not where the act takes it on. -/
def step (resolver : Resolver) : Act → Resolver
  | .call uri =>
    { resolver with
      calls := resolver.calls ++ [.opening resolver.cache uri] }
  | .answer number answer =>
    match resolver.calls[number]? with
    | some (.asking uri stamp) =>
      { resolver with calls := resolver.calls.set number (.answered uri stamp answer) }
    | _ => resolver
  | .finish number =>
    match resolver.calls[number]? with
    | some (.answered uri stamp answer) =>
      let resolved := resolver.cache.complete uri stamp answer
      ⟨resolved.cache, resolver.calls.set number (.ended uri answer resolved.settings)⟩
    | _ => resolver
  | .clear => { resolver with cache := resolver.cache.clear }
  | .evict uri => { resolver with cache := resolver.cache.evict uri }

/-- The resolver after a list of acts. -/
def run (acts : List Act) : Resolver :=
  acts.foldl step new

@[simp] theorem run_nil : run [] = new := rfl

variable {resolver : Resolver} {acts : List Act} {act : Act} {uri : String} {number : Nat}

/-- The source has given an answer to a call for a document while the call asked. -/
def Given (acts : List Act) (uri : String) (number : Nat) (answer : Answer) : Prop :=
  ∃ before after stamp, acts = before ++ .answer number answer :: after ∧
    (run before).calls[number]? = some (.asking uri stamp)

theorem Given.concat {answer : Answer} (h : Given acts uri number answer) (act : Act) :
    Given (acts ++ [act]) uri number answer := by
  obtain ⟨before, after, stamp, rfl, hasking⟩ := h
  exact ⟨before, after ++ [act], stamp, by simp, hasking⟩

end Resolver

end RuleLint
