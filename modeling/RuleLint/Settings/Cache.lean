import RuleLint.Notice
import RuleLint.Table

/-!
# The cache of settings

Settings are fetched per document and kept until they are invalidated: all of them at once
(`clear`), or those of one document (`evict`). A fetch takes time, and anything may happen while it
is in flight, so looking settings up has two halves. `look` finds an entry or hands out a stamp;
`complete` takes the answer of the fetch together with the stamp of its start, and keeps the answer
only if the stamp is still the current one.

A stamp counts the clearings of the cache and the evictions of the document since the last clearing.
Both counts only grow between two clearings, and the first grows with each, so a stamp never comes
back.
-/

namespace RuleLint

/-- The answer of a fetch: settings, or the reason why there are none. -/
abbrev Answer := Except String Settings

/-- How often the entry of a document has been invalidated. -/
structure Stamp where
  clearings : Nat
  evictions : Nat
deriving DecidableEq, Repr

/-- Settings that have been fetched. Both counts stand for words of 64 bits. They are natural
numbers here, which never start over, so this is the cache of a program that runs for fewer than
`2 ^ 64` invalidations. -/
structure Cache where
  entries : Table Settings
  clearings : Nat
  /-- The evictions of each document since the last clearing. -/
  evictions : Table Nat
deriving Repr

/-- What a look-up finds. -/
inductive Lookup where
  /-- An entry. -/
  | hit (settings : Settings)
  /-- No entry; the settings have to be fetched. -/
  | miss (stamp : Stamp)
deriving DecidableEq, Repr

/-- What comes of a fetch. -/
structure Resolved where
  cache : Cache
  settings : Settings
  notices : List Notice

namespace Cache

/-- The cache at the start. -/
def empty : Cache :=
  ⟨.empty, 0, .empty⟩

/-- The current stamp of a document. -/
def stamp (cache : Cache) (uri : String) : Stamp :=
  ⟨cache.clearings, (cache.evictions.get? uri).getD 0⟩

/-- Look up the settings of a document. -/
def look (cache : Cache) (uri : String) : Lookup :=
  match cache.entries.get? uri with
  | some settings => .hit settings
  | none => .miss (cache.stamp uri)

/-- Take the answer of a fetch that started under a stamp. An answer that comes after an
invalidation is used but not kept; without an answer the standard settings are used. -/
def complete (cache : Cache) (uri : String) (stamp : Stamp) : Answer → Resolved
  | .ok settings =>
    let settings := settings.normalized
    if cache.stamp uri = stamp then
      ⟨{ cache with entries := cache.entries.insert uri settings }, settings, []⟩
    else
      ⟨cache, settings, []⟩
  | .error reason => ⟨cache, .standard, [.settingsUnavailable uri reason]⟩

/-- Invalidate every entry. -/
def clear (cache : Cache) : Cache :=
  ⟨.empty, cache.clearings + 1, .empty⟩

/-- Invalidate the entry of a document. -/
def evict (cache : Cache) (uri : String) : Cache where
  entries := cache.entries.erase uri
  clearings := cache.clearings
  evictions := cache.evictions.insert uri ((cache.evictions.get? uri).getD 0 + 1)

/-- The number of entries. -/
def size (cache : Cache) : Nat :=
  cache.entries.size

end Cache

end RuleLint
