/-
Event logs. A machine keeps a log of what can be observed of it, and some of its states show nothing.
When every step either leaves log and observation alone, or hides what was observed, or appends exactly
what is observed after it, the log ends with the present observation and reads, up to repetitions, like
the observations of the states that the run went through.
-/
import LinuxPatchApi.Lib.Transition
import Mathlib.Data.List.Destutter

namespace Transition

variable {σ α β : Type}

/-- Repetitions removed: a new last element counts unless it repeats the one before it. -/
theorem destutter_snoc [DecidableEq β] (l : List β) (x : β) :
    (l ++ [x]).destutter (· ≠ ·) =
      if l.getLast? = some x then l.destutter (· ≠ ·) else l.destutter (· ≠ ·) ++ [x] := by
  cases l with
  | nil => rfl
  | cons a l =>
    rw [List.cons_append, List.destutter_cons', List.destutter_cons']
    induction l generalizing a with
    | nil => by_cases h : a = x <;> simp [h]
    | cons b l ih =>
      rw [List.getLast?_cons_cons, List.cons_append]
      by_cases h : a = b
      · subst h
        rw [List.destutter'_cons_neg _ (not_not.2 rfl), List.destutter'_cons_neg _ (not_not.2 rfl), ih]
      · rw [List.destutter'_cons_pos _ h, List.destutter'_cons_pos _ h, ih]
        split <;> rfl

/-! ## Logged changes -/

section Logged

variable (log : σ → List β) (obs : σ → Option β)

/-- Neither the log nor the observation changes. -/
structure Silent (s s' : σ) : Prop where
  log_eq : log s' = log s
  obs_eq : obs s' = obs s

/-- The change is in the log. -/
inductive Logged (s s' : σ) : Prop
  | silent : Silent log obs s s' → Logged s s'
  | hidden : log s' = log s → obs s' = none → Logged s s'
  | told (b : β) : log s' = log s ++ [b] → obs s' = some b → Logged s s'

variable {log obs} {s t u : σ}

theorem Silent.refl (s : σ) : Silent log obs s s := ⟨rfl, rfl⟩

theorem Silent.trans (h : Silent log obs s t) (h' : Silent log obs t u) : Silent log obs s u :=
  ⟨h'.log_eq.trans h.log_eq, h'.obs_eq.trans h.obs_eq⟩

theorem Silent.logged (h : Silent log obs s t) (h' : Logged log obs t u) : Logged log obs s u := by
  cases h' with
  | silent h' => exact .silent (h.trans h')
  | hidden hl ho => exact .hidden (hl.trans h.log_eq) ho
  | told b hl ho => exact .told b (by rw [hl, h.log_eq]) ho

theorem Logged.silent_after (h : Logged log obs s t) (h' : Silent log obs t u) : Logged log obs s u := by
  cases h with
  | silent h => exact .silent (h.trans h')
  | hidden hl ho => exact .hidden (h'.log_eq.trans hl) (h'.obs_eq.trans ho)
  | told b hl ho => exact .told b (h'.log_eq.trans hl) (h'.obs_eq.trans ho)

/-- A coarser observation of a logged change is logged. -/
theorem Logged.map {γ : Type} (f : β → γ) (h : Logged log obs s t) :
    Logged (fun s => (log s).map f) (fun s => (obs s).map f) s t := by
  cases h with
  | silent h => exact .silent ⟨by rw [h.log_eq], by rw [h.obs_eq]⟩
  | hidden hl ho => exact .hidden (by rw [hl]) (by rw [ho]; rfl)
  | told b hl ho => exact .told (f b) (by rw [hl, List.map_append]; rfl) (by rw [ho]; rfl)

/-- Part of a state is logged. -/
theorem Logged.comap {τ : Type} {s t : τ} (g : τ → σ) (h : Logged log obs (g s) (g t)) :
    Logged (fun s => log (g s)) (fun s => obs (g s)) s t := by
  cases h with
  | silent h => exact .silent ⟨h.log_eq, h.obs_eq⟩
  | hidden hl ho => exact .hidden hl ho
  | told b hl ho => exact .told b hl ho

/-! ## Logged runs -/

/-- The log tells what is observed now and everything that was observed before. -/
theorem Run.logged [DecidableEq β] {M : Machine σ α} {s s' : σ} {tr : List (Fired σ α)} (h : Run M s tr s')
    (hstep : ∀ f ∈ tr, Logged log obs f.pre f.post) (hlog : log s = []) (hobs : obs s = none) :
    (∀ b, obs s' = some b → (log s').getLast? = some b) ∧
      (log s').destutter (· ≠ ·) = ((states s tr).filterMap obs).destutter (· ≠ ·) := by
  -- the last observation of the run, which a hidden state does not erase, is the last entry of the log
  have hlast : (∀ b, obs s' = some b → (log s').getLast? = some b) ∧
      ((states s tr).filterMap obs).getLast? = (log s').getLast? ∧
      (log s').destutter (· ≠ ·) = ((states s tr).filterMap obs).destutter (· ≠ ·) := by
    induction h with
    | nil => simp [states, hlog, hobs]
    | @snoc tr t t' a _ _ ih =>
      obtain ⟨hnow, hend, hsame⟩ := ih fun f hf => hstep f (List.mem_append_left _ hf)
      have hl : Logged log obs t t' := hstep ⟨t, a, t'⟩ (by simp)
      rw [states_snoc, List.filterMap_append]
      cases hl with
      | silent hl =>
        rw [hl.log_eq]
        cases ho : obs t' with
        | none =>
          simp only [List.filterMap_cons, ho, List.filterMap_nil, List.append_nil]
          exact ⟨fun b hb => (by cases hb), hend, hsame⟩
        | some b =>
          have hb := hnow b (hl.obs_eq ▸ ho)
          simp only [List.filterMap_cons, ho, List.filterMap_nil, List.getLast?_concat]
          refine ⟨fun b' hb' => by cases hb'; exact hb, hb.symm, ?_⟩
          rw [destutter_snoc, if_pos (hend.trans hb), hsame]
      | hidden hl ho =>
        simp only [hl, List.filterMap_cons, ho, List.filterMap_nil, List.append_nil]
        exact ⟨fun b hb => (by cases hb), hend, hsame⟩
      | told b hl ho =>
        simp only [hl, List.filterMap_cons, ho, List.filterMap_nil, List.getLast?_concat]
        refine ⟨fun b' hb' => hb', trivial, ?_⟩
        rw [destutter_snoc, destutter_snoc, hend, hsame]
  exact ⟨hlast.1, hlast.2.2⟩

end Logged

end Transition
