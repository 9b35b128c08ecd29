/-!
# Byte offsets into text

Offsets into a text count the bytes of its UTF-8 form, while the text itself is a list of
characters. This module measures lists of characters in bytes and in UTF-16 units, and cuts a text
after so many bytes. A cut never falls inside a character: `takeBytes` leaves out the character that
no longer fits.
-/

namespace RuleLint

/-- The number of bytes of the UTF-8 form. -/
def byteLength : List Char → Nat
  | [] => 0
  | c :: cs => c.utf8Size + byteLength cs

/-- The number of UTF-16 units of a character: two outside the basic plane, one within it. -/
def utf16Units (c : Char) : Nat :=
  if c.toNat < 0x10000 then 1 else 2

/-- The number of UTF-16 units of a text. -/
def utf16Length : List Char → Nat
  | [] => 0
  | c :: cs => utf16Units c + utf16Length cs

@[simp] theorem byteLength_nil : byteLength [] = 0 := rfl

@[simp] theorem byteLength_cons (c : Char) (cs : List Char) :
    byteLength (c :: cs) = c.utf8Size + byteLength cs := rfl

@[simp] theorem byteLength_append (cs ds : List Char) :
    byteLength (cs ++ ds) = byteLength cs + byteLength ds := by
  induction cs with
  | nil => simp
  | cons c cs ih => simp [ih, Nat.add_assoc]

@[simp] theorem byteLength_reverse (cs : List Char) : byteLength cs.reverse = byteLength cs := by
  induction cs with
  | nil => rfl
  | cons c cs ih => simp [ih, Nat.add_comm]

@[simp] theorem utf16Length_nil : utf16Length [] = 0 := rfl

@[simp] theorem utf16Length_cons (c : Char) (cs : List Char) :
    utf16Length (c :: cs) = utf16Units c + utf16Length cs := rfl

@[simp] theorem utf16Length_append (cs ds : List Char) :
    utf16Length (cs ++ ds) = utf16Length cs + utf16Length ds := by
  induction cs with
  | nil => simp
  | cons c cs ih => simp [ih, Nat.add_assoc]

/-- The longest first part of a text that takes at most so many bytes. -/
def takeBytes : List Char → Nat → List Char
  | [], _ => []
  | c :: cs, n => if c.utf8Size ≤ n then c :: takeBytes cs (n - c.utf8Size) else []

theorem byteLength_takeBytes_le (cs : List Char) (n : Nat) : byteLength (takeBytes cs n) ≤ n := by
  induction cs generalizing n with
  | nil => simp [takeBytes]
  | cons c cs ih =>
    by_cases fits : c.utf8Size ≤ n
    · have := ih (n - c.utf8Size)
      simp only [takeBytes, fits, ↓reduceIte, byteLength_cons]
      omega
    · simp [takeBytes, fits]

/-- A cut gives a first part of the text. -/
theorem exists_takeBytes_append (cs : List Char) (n : Nat) :
    ∃ rest, takeBytes cs n ++ rest = cs := by
  induction cs generalizing n with
  | nil => exact ⟨[], rfl⟩
  | cons c cs ih =>
    by_cases fits : c.utf8Size ≤ n
    · obtain ⟨rest, eq⟩ := ih (n - c.utf8Size)
      exact ⟨rest, by simp [takeBytes, fits, eq]⟩
    · exact ⟨c :: cs, by simp [takeBytes, fits]⟩

end RuleLint
