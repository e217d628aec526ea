/-
Loops that overwrite: an element may set the result anew whatever it was, so that the last element that does decides it.
-/
import Mathlib.Tactic

namespace Overwrite

variable {α β σ : Type}

/-- What is left in the end; `f` is what an element sets the result to, if it does. -/
def run (f : α → Option β) (b : β) (l : List α) : β := l.foldl (fun b a => (f a).getD b) b

/-- The last element of the list with the property. -/
def Last (p : α → Prop) (l : List α) (a : α) : Prop := ∃ pre post, l = pre ++ a :: post ∧ p a ∧ ∀ c ∈ post, ¬ p c

section Run

variable {f : α → Option β} {b : β} {l : List α} {a : α} {p : α → Prop}

/-- A part of a state that each step of a loop sets or leaves. -/
theorem observe {step : σ → α → σ} {v : σ → β} (h : ∀ s a, v (step s a) = (f a).getD (v s)) (s : σ) (l : List α) :
    v (l.foldl step s) = run f (v s) l := by
  unfold run
  induction l generalizing s with
  | nil => rfl
  | cons a l ih => rw [List.foldl_cons, ih, h, List.foldl_cons]

theorem run_append (f : α → Option β) (b : β) (l l' : List α) : run f b (l ++ l') = run f (run f b l) l' :=
  List.foldl_append

theorem run_unset (h : ∀ a ∈ l, f a = none) : run f b l = b := by
  unfold run
  induction l with
  | nil => rfl
  | cons a l ih =>
    rw [List.foldl_cons, h a List.mem_cons_self, Option.getD_none]
    exact ih fun c hc => h c (List.mem_cons_of_mem a hc)

theorem Last.mem (h : Last p l a) : a ∈ l := by
  obtain ⟨pre, post, rfl, _⟩ := h
  simp

theorem Last.prop (h : Last p l a) : p a := by
  obtain ⟨_, _, _, ha, _⟩ := h
  exact ha

theorem exists_last (p : α → Prop) (l : List α) : (∀ a ∈ l, ¬ p a) ∨ ∃ a, Last p l a := by
  induction l using List.reverseRecOn with
  | nil => exact .inl (by simp)
  | append_singleton l a ih =>
    by_cases ha : p a
    · exact .inr ⟨a, l, [], rfl, ha, by simp⟩
    · rcases ih with hnone | ⟨c, pre, post, rfl, hc, hpost⟩
      · refine .inl fun c hc => ?_
        rcases List.mem_append.1 hc with hc | hc
        · exact hnone c hc
        · rwa [List.mem_singleton.1 hc]
      · refine .inr ⟨c, pre, post ++ [a], by simp, hc, fun d hd => ?_⟩
        rcases List.mem_append.1 hd with hd | hd
        · exact hpost d hd
        · rwa [List.mem_singleton.1 hd]

theorem Last.getLast? {q : α → Bool} (h : Last (fun a => q a = true) l a) : (l.filter q).getLast? = some a := by
  obtain ⟨pre, post, rfl, ha, hpost⟩ := h
  have hnil : post.filter q = [] := List.filter_eq_nil_iff.2 hpost
  rw [List.filter_append, List.filter_cons_of_pos ha, hnil, List.getLast?_concat]

/-- The last element that sets the result decides it. -/
theorem run_last {b' : β} (h : Last p l a) (hunset : ∀ c, ¬ p c → f c = none) (ha : f a = some b') :
    run f b l = b' := by
  obtain ⟨pre, post, rfl, _, hpost⟩ := h
  rw [run_append, show a :: post = [a] ++ post from rfl, run_append,
    run_unset fun c hc => hunset c (hpost c hc)]
  show (f a).getD (run f b pre) = b'
  rw [ha, Option.getD_some]

theorem run_ite {q : α → Bool} {g : α → β} : run (fun a => if q a then some (g a) else none) b l =
    ((l.filter q).getLast?.map g).getD b := by
  induction l using List.reverseRecOn with
  | nil => rfl
  | append_singleton l a ih =>
    rw [run_append, ih, List.filter_append, List.filter_singleton]
    cases hq : q a with
    | true => simp [run, hq]
    | false => simp [run, hq]

/-- Elements that set the result from what `g` finds in them. -/
theorem run_map {γ : Type} {g : α → Option γ} {h : γ → β} :
    run (fun a => (g a).map h) b l = ((l.filterMap g).getLast?.map h).getD b := by
  induction l using List.reverseRecOn with
  | nil => rfl
  | append_singleton l a ih =>
    rw [run_append, ih, List.filterMap_append, List.filterMap_cons]
    cases hg : g a with
    | none => simp [run, hg]
    | some c => simp [run, hg]

end Run

end Overwrite
