import Mathlib

/-!
# Numbers written in digits

A number is written as one digit or more, so its digits are read back from any text that goes on
with something else.
-/

namespace RuleLint

theorem isDigit_of_mem_toString {x : Char} {n : Nat} (h : x ∈ (toString n).toList) :
    x.isDigit = true := by
  have hrepr : (toString n).toList = Nat.toDigits 10 n := Nat.toList_repr
  rw [hrepr] at h
  exact Nat.isDigit_of_mem_toDigits (by decide) (by decide) h

theorem notMem_toString {x : Char} (hx : x.isDigit = false) (n : Nat) :
    x ∉ (toString n).toList := by
  intro hmem
  rw [isDigit_of_mem_toString hmem] at hx
  cases hx

theorem toNat?_ofList_toString (n : Nat) :
    (String.ofList (toString n).toList).toNat? = some n := by
  rw [String.ofList_toList]
  exact Nat.toNat?_repr n

theorem exists_toString_eq_cons (n : Nat) :
    ∃ x digits, (toString n).toList = x :: digits ∧ x.isDigit = true := by
  have hrepr : (toString n).toList = Nat.toDigits 10 n := Nat.toList_repr
  have hne : (toString n).toList ≠ [] := hrepr ▸ Nat.toDigits_ne_nil
  obtain ⟨x, digits, hdigits⟩ := List.exists_cons_of_ne_nil hne
  exact ⟨x, digits, hdigits, isDigit_of_mem_toString (hdigits ▸ List.mem_cons_self)⟩

/-! ### Where the digits end -/

/-- Whether a text does not go on with a digit. -/
def NoDigitAhead (text : List Char) : Prop :=
  ∀ x ∈ text.head?, x.isDigit = false

theorem noDigitAhead_cons {x : Char} (hx : x.isDigit = false) (text : List Char) :
    NoDigitAhead (x :: text) := by
  rintro _ ⟨⟩
  exact hx

section

variable {text : List Char} (h : NoDigitAhead text) (n : Nat)

include h

theorem takeWhile_isDigit_toString :
    ((toString n).toList ++ text).takeWhile Char.isDigit = (toString n).toList := by
  rw [List.takeWhile_append_of_pos fun _ ↦ isDigit_of_mem_toString]
  cases text with
  | nil => rw [List.takeWhile_nil, List.append_nil]
  | cons x text => rw [List.takeWhile_cons_of_neg (by rw [h x rfl]; nofun), List.append_nil]

theorem dropWhile_isDigit_toString :
    ((toString n).toList ++ text).dropWhile Char.isDigit = text := by
  rw [List.dropWhile_append_of_pos fun _ ↦ isDigit_of_mem_toString]
  cases text with
  | nil => rfl
  | cons x text => rw [List.dropWhile_cons_of_neg (by rw [h x rfl]; nofun)]

end

end RuleLint
