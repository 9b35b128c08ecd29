/-!
# Tables

A table maps names to values and lists them in the order of the names. Inserting and erasing are
described by what `get?` answers afterwards.
-/

namespace RuleLint

/-- A finite map from names, with its entries in the order of the names. -/
structure Table (α : Type) where
  entries : List (String × α)
deriving Repr

namespace Table

variable {α : Type}

/-- The table without entries. -/
def empty : Table α :=
  ⟨[]⟩

/-- The value of a name in a list of entries. -/
def find? (name : String) : List (String × α) → Option α
  | [] => none
  | (key, value) :: entries => if key = name then some value else find? name entries

/-- The entries with a value for a name. -/
def put (name : String) (value : α) : List (String × α) → List (String × α)
  | [] => [(name, value)]
  | (key, old) :: entries =>
    if key = name then (name, value) :: entries
    else if name < key then (name, value) :: (key, old) :: entries
    else (key, old) :: put name value entries

/-- The value of a name. -/
def get? (table : Table α) (name : String) : Option α :=
  find? name table.entries

/-- Whether a name has a value. -/
def contains (table : Table α) (name : String) : Bool :=
  (table.get? name).isSome

/-- The table in which a name has the given value. -/
def insert (table : Table α) (name : String) (value : α) : Table α :=
  ⟨put name value table.entries⟩

/-- The table in which a name has no value. -/
def erase (table : Table α) (name : String) : Table α :=
  ⟨table.entries.filter fun entry ↦ entry.1 ≠ name⟩

/-- The names with values, in order. -/
def names (table : Table α) : List String :=
  table.entries.map Prod.fst

/-- The number of names with values. -/
def size (table : Table α) : Nat :=
  table.entries.length

@[simp] theorem get?_empty (name : String) : (empty : Table α).get? name = none := rfl

theorem find?_put (name other : String) (value : α) (entries : List (String × α)) :
    find? other (put name value entries) =
      if name = other then some value else find? other entries := by
  induction entries with
  | nil => simp [put, find?]
  | cons entry entries ih =>
    obtain ⟨key, old⟩ := entry
    grind [put, find?]

theorem find?_filter_ne (name other : String) (entries : List (String × α)) :
    find? other (entries.filter fun entry ↦ entry.1 ≠ name) =
      if name = other then none else find? other entries := by
  induction entries with
  | nil => simp [find?]
  | cons entry entries ih =>
    obtain ⟨key, value⟩ := entry
    grind [find?]

theorem get?_insert (table : Table α) (name other : String) (value : α) :
    (table.insert name value).get? other =
      if name = other then some value else table.get? other :=
  find?_put name other value table.entries

@[simp] theorem get?_insert_self (table : Table α) (name : String) (value : α) :
    (table.insert name value).get? name = some value := by
  simp [get?_insert]

theorem get?_erase (table : Table α) (name other : String) :
    (table.erase name).get? other = if name = other then none else table.get? other :=
  find?_filter_ne name other table.entries

@[simp] theorem get?_erase_self (table : Table α) (name : String) :
    (table.erase name).get? name = none := by
  simp [get?_erase]

theorem isSome_find?_iff (name : String) (entries : List (String × α)) :
    (find? name entries).isSome ↔ name ∈ entries.map Prod.fst := by
  induction entries with
  | nil => simp [find?]
  | cons entry entries ih =>
    obtain ⟨key, value⟩ := entry
    by_cases h : key = name
    · simp [find?, h]
    · simp [find?, h, ih, Ne.symm h]

theorem mem_names_iff (table : Table α) (name : String) :
    name ∈ table.names ↔ ∃ value, table.get? name = some value := by
  rw [names, ← isSome_find?_iff, Option.isSome_iff_exists]
  rfl

end Table

end RuleLint
