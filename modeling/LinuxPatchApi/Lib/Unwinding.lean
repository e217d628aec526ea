/-
Noninterference by unwinding. A machine answers every action. An observer sees some of the actions with
their answers, and a part of the state. When the actions it does not see leave that part alone, and the
others answer and go on by that part only, then what it sees of any run is what it would see had the
hidden actions never happened.
-/
import Mathlib.Tactic

namespace Unwinding

variable {σ α β ο : Type}

/-- The actions with their answers. -/
def answers (step : σ → α → β × σ) : σ → List α → List (α × β)
  | _, [] => []
  | s, a :: as => (a, (step s a).1) :: answers step (step s a).2 as

/-- The state after the actions. -/
def after (step : σ → α → β × σ) (s : σ) (as : List α) : σ := as.foldl (fun s a => (step s a).2) s

/-- The view is closed under what the observer sees. -/
structure Unwinds (step : σ → α → β × σ) (view : σ → ο) (visible : α → Bool) : Prop where
  hidden : ∀ s a, visible a = false → view (step s a).2 = view s
  answer : ∀ s t a, visible a = true → view s = view t → (step s a).1 = (step t a).1
  next : ∀ s t a, visible a = true → view s = view t → view (step s a).2 = view (step t a).2

section Purge

variable {step : σ → α → β × σ} {view : σ → ο} {visible : α → Bool}

theorem Unwinds.answers_eq (h : Unwinds step view visible) (as : List α) {s t : σ} (hview : view s = view t) :
    (answers step s as).filter (fun p => visible p.1) = answers step t (as.filter visible) := by
  induction as generalizing s t with
  | nil => rfl
  | cons a as ih =>
    cases hv : visible a with
    | false =>
      rw [answers, List.filter_cons_of_neg (by simp [hv]), List.filter_cons_of_neg (by simp [hv])]
      exact ih ((h.hidden s a hv).trans hview)
    | true =>
      rw [answers, List.filter_cons_of_pos hv, answers, ← h.answer s t a hv hview, ← ih (h.next s t a hv hview)]
      exact List.filter_cons_of_pos hv

/-- Taking the hidden actions out changes nothing that is seen. -/
theorem Unwinds.purge (h : Unwinds step view visible) (s : σ) (as : List α) :
    (answers step s as).filter (fun p => visible p.1) = answers step s (as.filter visible) := h.answers_eq as rfl

end Purge

theorem answers_append (step : σ → α → β × σ) (as bs : List α) (s : σ) :
    answers step s (as ++ bs) = answers step s as ++ answers step (after step s as) bs := by
  induction as generalizing s with
  | nil => rfl
  | cons a as ih => simp only [List.cons_append, answers, ih, after, List.foldl_cons]

theorem answers_length (step : σ → α → β × σ) (as : List α) (s : σ) : (answers step s as).length = as.length := by
  induction as generalizing s with
  | nil => rfl
  | cons a as ih => simp only [answers, List.length_cons, ih]

/-- The answer to one of the actions is given in the state that those before it have made. -/
theorem getElem?_answers (step : σ → α → β × σ) (s : σ) (pre post : List α) (a : α) :
    (answers step s (pre ++ a :: post))[pre.length]? = some (a, (step (after step s pre) a).1) := by
  rw [answers_append, List.getElem?_append_right (by rw [answers_length]), answers_length, Nat.sub_self]
  rfl

end Unwinding
