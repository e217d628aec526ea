/-
Machines whose step is a partial function of a state and an action, the runs they make, and the
proof rules for safety properties of those runs: an invariant that every fired step preserves
(possibly only the steps that meet a side condition) holds all along the run, and a transitive
relation that holds across every step holds between the states of the run in order.
-/
import Mathlib.Tactic

namespace Transition

/-- A step that was taken: the state before it, the action, the state after it. -/
structure Fired (σ α : Type) where
  pre : σ
  act : α
  post : σ

/-- A machine: the states it may start in and a step that is undefined where an action is not
enabled. All the nondeterminism is in the choice of the action. -/
structure Machine (σ α : Type) where
  init : σ → Prop
  step : σ → α → Option σ

variable {σ α : Type} {M : Machine σ α}

/-- `Run M s tr s'`: from `s` the machine takes the steps `tr`, oldest first, and ends in `s'`. -/
inductive Run (M : Machine σ α) (s : σ) : List (Fired σ α) → σ → Prop
  | nil : Run M s [] s
  | snoc {tr : List (Fired σ α)} {t t' : σ} {a : α} :
      Run M s tr t → M.step t a = some t' → Run M s (tr ++ [⟨t, a, t'⟩]) t'

/-- A step of the machine. -/
def IsStep (M : Machine σ α) (f : Fired σ α) : Prop := M.step f.pre f.act = some f.post

/-! ## Taking runs apart -/

theorem Run.step_of_mem {s s' : σ} {tr : List (Fired σ α)} (h : Run M s tr s') :
    ∀ f ∈ tr, IsStep M f := by
  induction h with
  | nil => simp
  | snoc _ hs ih =>
    intro f hf
    rcases List.mem_append.1 hf with hf | hf
    · exact ih f hf
    · rw [List.mem_singleton.1 hf]; exact hs

theorem Run.append {s t u : σ} {tr tr' : List (Fired σ α)} (h : Run M s tr t) (h' : Run M t tr' u) :
    Run M s (tr ++ tr') u := by
  induction h' with
  | nil => simpa using h
  | snoc _ hs ih => rw [← List.append_assoc]; exact .snoc ih hs

theorem Run.cons {s t u : σ} {a : α} {tr : List (Fired σ α)} (hs : M.step s a = some t)
    (h : Run M t tr u) : Run M s (⟨s, a, t⟩ :: tr) u := by
  have h₁ : Run M s ([] ++ [⟨s, a, t⟩]) t := .snoc .nil hs
  exact h₁.append h

/-- A run through a step splits into the run before it and the run after it. -/
theorem Run.split {s s' : σ} {tr : List (Fired σ α)} (h : Run M s tr s') :
    ∀ {pre f post}, tr = pre ++ f :: post → Run M s pre f.pre ∧ Run M f.post post s' := by
  induction h with
  | nil => intro pre f post he; simp at he
  | @snoc tr t t' a hr hs ih =>
    intro pre f post he
    rcases List.eq_nil_or_concat post with rfl | ⟨post', g, rfl⟩
    · obtain ⟨rfl, hf⟩ := List.append_inj' he rfl
      cases hf
      exact ⟨hr, .nil⟩
    · rw [List.concat_eq_append, ← List.cons_append, ← List.append_assoc] at he
      obtain ⟨he', hg⟩ := List.append_inj' he rfl
      cases hg
      obtain ⟨h₁, h₂⟩ := ih he'
      rw [List.concat_eq_append]
      exact ⟨h₁, .snoc h₂ hs⟩

theorem Run.split_of_mem {s s' : σ} {tr : List (Fired σ α)} (h : Run M s tr s') {f : Fired σ α}
    (hf : f ∈ tr) : ∃ pre post, tr = pre ++ f :: post ∧ Run M s pre f.pre ∧ Run M f.post post s' := by
  obtain ⟨pre, post, rfl⟩ := List.append_of_mem hf
  exact ⟨pre, post, rfl, h.split rfl⟩

/-! ## Running a list of actions -/

/-- The steps that a list of actions fires, or `none` when one of them is not enabled. -/
def trace (M : Machine σ α) : σ → List α → Option (List (Fired σ α))
  | _, [] => some []
  | s, a :: as => match M.step s a with
    | none => none
    | some t => (trace M t as).map (⟨s, a, t⟩ :: ·)

/-- The state after the last step. -/
def endState (s : σ) (tr : List (Fired σ α)) : σ := (tr.map Fired.post).getLastD s

theorem endState_cons (s : σ) (f : Fired σ α) (tr : List (Fired σ α)) :
    endState s (f :: tr) = endState f.post tr := by
  simp only [endState, List.map_cons, List.getLastD_cons]

theorem run_of_trace : ∀ {as : List α} {s : σ} {tr : List (Fired σ α)}, trace M s as = some tr →
    Run M s tr (endState s tr)
  | [], s, tr, h => by
    cases h; exact .nil
  | a :: as, s, tr, h => by
    simp only [trace] at h
    split at h
    next => cases h
    next t ht =>
      obtain ⟨tr', htr, rfl⟩ := Option.map_eq_some_iff.1 h
      rw [endState_cons]
      exact (run_of_trace htr).cons ht

/-- The run that a list of enabled actions makes. -/
theorem run_trace (M : Machine σ α) (s : σ) (as : List α) (h : (trace M s as).isSome = true) :
    Run M s ((trace M s as).getD []) (endState s ((trace M s as).getD [])) := by
  obtain ⟨tr, htr⟩ := Option.isSome_iff_exists.1 h
  rw [htr]
  exact run_of_trace htr

/-! ## Invariants along a run -/

section Invariant

variable {I : σ → Prop} {G : Fired σ α → Prop}

/-- The invariant rule: what holds at the start, and is preserved by every fired step that meets
`G`, holds at the end of every run all of whose steps meet `G`. -/
theorem Run.invariant {s s' : σ} {tr : List (Fired σ α)} (h : Run M s tr s')
    (hstep : ∀ f, IsStep M f → G f → I f.pre → I f.post) (h0 : I s) (hG : ∀ f ∈ tr, G f) :
    I s' := by
  induction h with
  | nil => exact h0
  | snoc _ hs ih =>
    exact hstep ⟨_, _, _⟩ hs (hG _ (by simp)) (ih fun f hf => hG f (by simp [hf]))

/-- The invariant rule for each step of the run instead of its last state. -/
theorem Run.invariant_at {s s' : σ} {tr : List (Fired σ α)} (h : Run M s tr s')
    (hstep : ∀ f, IsStep M f → G f → I f.pre → I f.post) (h0 : I s) (hG : ∀ f ∈ tr, G f) :
    ∀ f ∈ tr, I f.pre ∧ I f.post := by
  intro f hf
  obtain ⟨pre, post, rfl, hpre, _⟩ := h.split_of_mem hf
  have hi : I f.pre := hpre.invariant hstep h0 fun g hg => hG g (by simp [hg])
  exact ⟨hi, hstep f (h.step_of_mem f hf) (hG f hf) hi⟩

/-- The invariant rule without a side condition. -/
theorem Run.always {s s' : σ} {tr : List (Fired σ α)} (h : Run M s tr s')
    (hstep : ∀ f, IsStep M f → I f.pre → I f.post) (h0 : I s) : I s' :=
  h.invariant (G := fun _ => True) (fun f hs _ => hstep f hs) h0 fun _ _ => trivial

theorem Run.always_at {s s' : σ} {tr : List (Fired σ α)} (h : Run M s tr s')
    (hstep : ∀ f, IsStep M f → I f.pre → I f.post) (h0 : I s) :
    ∀ f ∈ tr, I f.pre ∧ I f.post :=
  h.invariant_at (G := fun _ => True) (fun f hs _ => hstep f hs) h0 fun _ _ => trivial

end Invariant

/-! ## Relations between the states of a run -/

/-- The states that a run goes through, the first one included. -/
def states (s : σ) (tr : List (Fired σ α)) : List σ := s :: tr.map Fired.post

theorem states_snoc (s : σ) (tr : List (Fired σ α)) (f : Fired σ α) :
    states s (tr ++ [f]) = states s tr ++ [f.post] := by
  simp [states]

theorem Run.end_mem {s s' : σ} {tr : List (Fired σ α)} (h : Run M s tr s') : s' ∈ states s tr := by
  cases h with
  | nil => simp [states]
  | snoc _ _ => simp [states]

/-- Every step of a run starts and ends in a state of the run. -/
theorem Run.mem_states {s s' : σ} {tr : List (Fired σ α)} (h : Run M s tr s') {f : Fired σ α}
    (hf : f ∈ tr) : f.pre ∈ states s tr ∧ f.post ∈ states s tr := by
  obtain ⟨pre, post, rfl, hpre, _⟩ := h.split_of_mem hf
  refine ⟨?_, by simp [states]⟩
  have hm := hpre.end_mem
  simp only [states, List.map_append, List.mem_cons, List.mem_append] at hm ⊢
  tauto

/-- What holds at the start and after every step holds in every state of the run. -/
theorem forall_states {P : σ → Prop} {s : σ} {tr : List (Fired σ α)} (h0 : P s)
    (h : ∀ f ∈ tr, P f.post) : ∀ t ∈ states s tr, P t := by
  intro t ht
  rcases List.mem_cons.1 ht with rfl | ht
  · exact h0
  · obtain ⟨f, hf, rfl⟩ := List.mem_map.1 ht
    exact h f hf

/-- A transitive relation that holds across every step holds between any two states of the run, in
the order in which the run goes through them. -/
theorem Run.pairwise {R : σ → σ → Prop} (htrans : ∀ {a b c}, R a b → R b c → R a c) {s s' : σ}
    {tr : List (Fired σ α)} (h : Run M s tr s') (hR : ∀ f ∈ tr, R f.pre f.post) :
    (states s tr).Pairwise R ∧ ∀ t ∈ states s tr, t = s' ∨ R t s' := by
  induction h with
  | nil => simp [states]
  | @snoc tr t t' a _ _ ih =>
    obtain ⟨hp, hl⟩ := ih fun f hf => hR f (List.mem_append_left _ hf)
    have hlast : R t t' := hR ⟨t, a, t'⟩ (by simp)
    have hall : ∀ u ∈ states s tr, R u t' := by
      intro u hu
      rcases hl u hu with rfl | hu
      · exact hlast
      · exact htrans hu hlast
    rw [states_snoc]
    refine ⟨List.pairwise_append.2 ⟨hp, List.pairwise_singleton _ _, ?_⟩, ?_⟩
    · intro u hu v hv
      rw [List.mem_singleton.1 hv]; exact hall u hu
    · intro u hu
      rcases List.mem_append.1 hu with hu | hu
      · exact .inr (hall u hu)
      · exact .inl (List.mem_singleton.1 hu)

/-- Conversely, a relation between all states of a run in order holds across each of its steps. -/
theorem Run.of_pairwise {R : σ → σ → Prop} {s s' : σ} {tr : List (Fired σ α)} (h : Run M s tr s')
    (hp : (states s tr).Pairwise R) : ∀ f ∈ tr, R f.pre f.post := by
  induction h with
  | nil => simp
  | @snoc tr t t' a hr hs ih =>
    rw [states_snoc, List.pairwise_append] at hp
    intro f hf
    rcases List.mem_append.1 hf with hf | hf
    · exact ih hp.1 f hf
    · rw [List.mem_singleton.1 hf]
      exact hp.2.2 t hr.end_mem t' (by simp)

/-! ## A machine inside another -/

/-- The steps that a part of the machine takes; `act` says which of the actions are the part's. -/
def project {τ β : Type} (π : σ → τ) (act : α → Option β) (tr : List (Fired σ α)) : List (Fired τ β) :=
  tr.filterMap fun f => (act f.act).map fun b => ⟨π f.pre, b, π f.post⟩

/-- A run makes a run of the part, when the other steps leave the part as it is. -/
theorem Run.project {τ β : Type} {N : Machine τ β} {π : σ → τ} {act : α → Option β} {s s' : σ}
    {tr : List (Fired σ α)} (h : Run M s tr s')
    (hown : ∀ f b, IsStep M f → act f.act = some b → N.step (π f.pre) b = some (π f.post))
    (hother : ∀ f, IsStep M f → act f.act = none → π f.post = π f.pre) :
    Run N (π s) (project π act tr) (π s') := by
  induction h with
  | nil => exact .nil
  | @snoc tr t t' a _ hs ih =>
    rw [Transition.project, List.filterMap_append]
    cases ha : act a with
    | none =>
      have hsame : π t' = π t := hother ⟨t, a, t'⟩ hs ha
      simp only [List.filterMap_cons, ha, Option.map_none, List.filterMap_nil, List.append_nil, hsame]
      exact ih
    | some b =>
      simp only [List.filterMap_cons, ha, Option.map_some, List.filterMap_nil]
      exact .snoc ih (hown ⟨t, a, t'⟩ b hs ha)

/-- An invariant holds in every state of a run whose steps are all allowed. -/
theorem Run.invariant_states {I : σ → Prop} {G : Fired σ α → Prop} {s s' : σ} {tr : List (Fired σ α)}
    (h : Run M s tr s') (hstep : ∀ f, IsStep M f → G f → I f.pre → I f.post) (h0 : I s) (hG : ∀ f ∈ tr, G f) :
    ∀ t ∈ states s tr, I t :=
  forall_states h0 fun f hf => (h.invariant_at hstep h0 hG f hf).2

/-- A property that each step of the run keeps exactly when the step meets `G` holds in every state of the run
exactly when every step meets `G`. -/
theorem Run.forall_states_iff {P : σ → Prop} {G : Fired σ α → Prop} {s s' : σ} {tr : List (Fired σ α)}
    (h : Run M s tr s') (hstep : ∀ f ∈ tr, IsStep M f → P f.pre → (P f.post ↔ G f)) (h0 : P s) :
    (∀ t ∈ states s tr, P t) ↔ ∀ f ∈ tr, G f := by
  constructor
  · intro hall f hf
    obtain ⟨hpre, hpost⟩ := h.mem_states hf
    exact (hstep f hf (h.step_of_mem f hf) (hall _ hpre)).1 (hall _ hpost)
  · intro hG
    refine h.invariant_states (G := fun f => f ∈ tr ∧ G f) (fun f hf hg hp => ?_) h0 fun f hf => ⟨hf, hG f hf⟩
    exact (hstep f hg.1 hf hp).2 hg.2

/-! ## Since -/

/-- `start` held at the beginning of the run, or some step of it did `P`; and every step since then did `Q`. -/
def Since (start : Prop) (P Q : Fired σ α → Prop) (tr : List (Fired σ α)) : Prop :=
  (start ∧ ∀ f ∈ tr, Q f) ∨ ∃ before f after, tr = before ++ f :: after ∧ P f ∧ ∀ g ∈ after, Q g

section Since

variable {start : Prop} {P Q : Fired σ α → Prop} {I : σ → Prop}

theorem since_nil : Since start P Q [] ↔ start := by
  constructor
  · rintro (⟨hstart, _⟩ | ⟨before, f, after, h, _⟩)
    · exact hstart
    · simp at h
  · intro hstart
    exact .inl ⟨hstart, by simp⟩

theorem since_snoc {tr : List (Fired σ α)} {f : Fired σ α} :
    Since start P Q (tr ++ [f]) ↔ P f ∨ (Q f ∧ Since start P Q tr) := by
  constructor
  · rintro (⟨hstart, hall⟩ | ⟨before, g, after, h, hg, hall⟩)
    · exact .inr ⟨hall f (by simp), .inl ⟨hstart, fun g hg => hall g (by simp [hg])⟩⟩
    · rcases List.eq_nil_or_concat after with rfl | ⟨after, e, rfl⟩
      · obtain ⟨_, he⟩ := List.append_inj' h rfl
        cases he
        exact .inl hg
      · rw [List.concat_eq_append, ← List.cons_append, ← List.append_assoc] at h
        obtain ⟨rfl, he⟩ := List.append_inj' h rfl
        cases he
        refine .inr ⟨hall f (by simp), .inr ⟨before, g, after, rfl, hg, fun e he => hall e (by simp [he])⟩⟩
  · rintro (hf | ⟨hf, ⟨hstart, hall⟩ | ⟨before, g, after, rfl, hg, hall⟩⟩)
    · exact .inr ⟨tr, f, [], rfl, hf, by simp⟩
    · exact .inl ⟨hstart, by simpa [or_imp, forall_and] using ⟨hall, hf⟩⟩
    · exact .inr ⟨before, g, after ++ [f], by simp, hg, by simpa [or_imp, forall_and] using ⟨hall, hf⟩⟩

theorem Since.exists_mem {tr : List (Fired σ α)} (h : Since False P Q tr) : ∃ f ∈ tr, P f := by
  obtain ⟨hstart, _⟩ | ⟨before, f, after, rfl, hf, _⟩ := h
  · exact hstart.elim
  · exact ⟨f, by simp, hf⟩

/-- A property that a step establishes by doing `P` and keeps as long as it does `Q` is one that holds since then. -/
theorem Run.since_iff {s s' : σ} {tr : List (Fired σ α)} (h : Run M s tr s')
    (hstep : ∀ f ∈ tr, IsStep M f → (I f.post ↔ P f ∨ (Q f ∧ I f.pre))) : I s' ↔ Since (I s) P Q tr := by
  induction h with
  | nil => exact since_nil.symm
  | @snoc tr t t' a _ hs ih =>
    rw [since_snoc, ← ih fun f hf => hstep f (List.mem_append_left _ hf), hstep ⟨t, a, t'⟩ (by simp) hs]

end Since

end Transition
