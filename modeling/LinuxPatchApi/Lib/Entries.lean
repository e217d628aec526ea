/-
Lists as tables with numbered entries: a new entry comes after the last one, and an entry is replaced
under its number. What stands in the table afterwards stood there before, or is the new entry.
-/
import Mathlib.Tactic

namespace Entries

variable {α : Type} {l l' : List α} {new old x : α} {i n : Nat}

/-- An entry keeps its number when others come after it. -/
theorem append_kept (h : l[i]? = some x) : (l ++ l')[i]? = some x :=
  (List.getElem?_append_left (List.getElem?_eq_some_iff.1 h).1).trans h

theorem append_cases (h : (l ++ [new])[i]? = some x) : l[i]? = some x ∨ (i = l.length ∧ x = new) := by
  by_cases hi : i < l.length
  · rw [List.getElem?_append_left hi] at h
    exact .inl h
  · rw [List.getElem?_append_right (by omega), List.getElem?_singleton] at h
    split at h
    · cases h
      exact .inr ⟨by omega, rfl⟩
    · cases h

theorem set_cases (h : (l.set n new)[i]? = some x) : (i = n ∧ x = new) ∨ (i ≠ n ∧ l[i]? = some x) := by
  rw [List.getElem?_set] at h
  by_cases hi : n = i
  · simp only [hi, if_true] at h
    split at h
    · cases h
      exact .inl ⟨hi.symm, rfl⟩
    · cases h
  · simp only [hi, if_false] at h
    exact .inr ⟨fun he => hi he.symm, h⟩

theorem set_self (h : l[n]? = some old) : (l.set n new)[n]? = some new :=
  List.getElem?_set_self (List.getElem?_eq_some_iff.1 h).1

theorem set_ne (hi : i ≠ n) : (l.set n new)[i]? = l[i]? := List.getElem?_set_ne hi.symm

end Entries
