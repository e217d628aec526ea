/-
Checks in a row, each of which may give the final answer at once. The proof rule is a precondition: what the answer
has that is given at once, and what holds of the value that is found otherwise.
-/
import Mathlib.Tactic

namespace Checks

variable {ε α β : Type}

/-- The answer is given at once unless the condition holds. -/
def require (c : Bool) (answer : ε) : Except ε Unit := if c then .ok () else .error answer

/-- An answer that is given at once has `E`, and a value that is found has `Q`. -/
def Ends (E : ε → Prop) (Q : α → Prop) : Except ε α → Prop
  | .error e => E e
  | .ok a => Q a

variable {E : ε → Prop} {Q : α → Prop} {m : Except ε α}

@[simp] theorem ends_ok {a : α} : Ends E Q (.ok a) ↔ Q a := Iff.rfl

@[simp] theorem ends_error {e : ε} : Ends E Q (.error e) ↔ E e := Iff.rfl

@[simp] theorem ends_pure {a : α} : Ends E Q (pure a) ↔ Q a := Iff.rfl

theorem ends_bind {f : α → Except ε β} {R : β → Prop} : Ends E R (m >>= f) ↔ Ends E (fun a => Ends E R (f a)) m := by
  cases m <;> rfl

theorem Ends.bind {f : α → Except ε β} {R : β → Prop} (h : Ends E (fun _ => True) m) (hf : ∀ a, Ends E R (f a)) :
    Ends E R (m >>= f) := by
  cases m with
  | error e => exact h
  | ok a => exact hf a

theorem ends_require {c : Bool} {answer : ε} {P : Unit → Prop} :
    Ends E P (require c answer) ↔ (c = true ∧ P ()) ∨ (c = false ∧ E answer) := by
  cases c <;> simp [require]

theorem ends_true_iff : Ends E (fun _ => True) m ↔ ∀ e, m = .error e → E e := by
  cases m <;> simp

/-- Where no answer that is given at once will do, a value has to be found. -/
theorem ends_of_never (h : ∀ e, m = .error e → ¬ E e) : Ends E Q m ↔ ∃ a, m = .ok a ∧ Q a := by
  cases m with
  | error e => simpa using h e rfl
  | ok a => simp

theorem bind_eq_ok {f : α → Except ε β} {b : β} : m >>= f = .ok b ↔ ∃ a, m = .ok a ∧ f a = .ok b := by
  cases m with
  | error e => simp [bind, Except.bind]
  | ok a => simp [bind, Except.bind]

theorem require_eq_ok {c : Bool} {answer : ε} {u : Unit} : require c answer = .ok u ↔ c = true := by
  cases c <;> simp [require]

end Checks
