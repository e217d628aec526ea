/-
Programs that interact with their surroundings: trees of calls of effects, the traces that they
leave for all answers to the calls, and proof rules for all traces of a program, for what holds
at every call (given the calls before it), for the sum of the costs of the calls, and for what a
trace keeps when another one follows it.
-/
import Mathlib.Tactic

namespace Interaction

/-- A program that calls effects of `E`, each answered by an element of `R e`. -/
inductive Prog (E : Type) (R : E → Type) (α : Type) : Type where
  | pure (a : α)
  | call (e : E) (k : R e → Prog E R α)

variable {E : Type} {R : E → Type} {α β ε : Type}

namespace Prog

def bind : Prog E R α → (α → Prog E R β) → Prog E R β
  | .pure a, f => f a
  | .call e k, f => .call e fun r => (k r).bind f

instance : Monad (Prog E R) where
  pure := .pure
  bind := bind

/-- The program that calls one effect. -/
def perform (e : E) : Prog E R (R e) := .call e .pure

end Prog

/-! ## Traces -/

/-- A call with the answer it got. -/
abbrev Event (R : E → Type) := Sigma R

/-- `Runs p t a`: with the answers in `t` the program makes the calls of `t` and returns `a`. -/
inductive Runs : Prog E R α → List (Event R) → α → Prop
  | pure (a : α) : Runs (.pure a) [] a
  | call (e : E) (k : R e → Prog E R α) (r : R e) {t : List (Event R)} {a : α} :
      Runs (k r) t a → Runs (.call e k) (⟨e, r⟩ :: t) a

theorem runs_pure {t : List (Event R)} {a b : α} : Runs (.pure a : Prog E R α) t b ↔ t = [] ∧ b = a := by
  constructor
  · intro h; cases h; exact ⟨rfl, rfl⟩
  · rintro ⟨rfl, rfl⟩; exact .pure b

theorem runs_bind {f : α → Prog E R β} : ∀ {p : Prog E R α} {t : List (Event R)} {b : β},
    Runs (p >>= f) t b ↔ ∃ t₁ t₂ a, t = t₁ ++ t₂ ∧ Runs p t₁ a ∧ Runs (f a) t₂ b
  | .pure a, t, b => by
    constructor
    · intro h
      exact ⟨[], t, a, rfl, .pure a, h⟩
    · rintro ⟨t₁, t₂, a', rfl, h₁, h₂⟩
      cases h₁
      exact h₂
  | .call e k, t, b => by
    constructor
    · intro h
      cases h with
      | call _ _ r h =>
        obtain ⟨t₁, t₂, a, rfl, h₁, h₂⟩ := runs_bind.1 h
        exact ⟨⟨e, r⟩ :: t₁, t₂, a, rfl, .call e k r h₁, h₂⟩
    · rintro ⟨t₁, t₂, a, rfl, h₁, h₂⟩
      cases h₁ with
      | call _ _ r h₁ => exact .call e _ r (runs_bind.2 ⟨_, t₂, a, rfl, h₁, h₂⟩)

/-- The run of a program in surroundings that answer every call from a table. -/
def exec (o : (e : E) → R e) : Prog E R α → List (Event R) × α
  | .pure a => ([], a)
  | .call e k => (⟨e, o e⟩ :: (exec o (k (o e))).1, (exec o (k (o e))).2)

theorem runs_exec (o : (e : E) → R e) : ∀ p : Prog E R α, Runs p (exec o p).1 (exec o p).2
  | .pure a => .pure a
  | .call e k => .call e k (o e) (runs_exec o (k (o e)))

/-- The answers of a run in such surroundings are those of the table. -/
theorem mem_exec {o : (e : E) → R e} {x : Event R} : ∀ {p : Prog E R α}, x ∈ (exec o p).1 → x.2 = o x.1
  | .pure _, h => by simp [exec] at h
  | .call e k, h => by
    rcases List.mem_cons.1 h with rfl | h
    · rfl
    · exact mem_exec h

/-! ## What holds at every call -/

section Safe

variable {P : List (Event R) → E → Prop}

/-- `P` holds at every call that the program can make, of the events before it and the effect. -/
def Safe (P : List (Event R) → E → Prop) : List (Event R) → Prog E R α → Prop
  | _, .pure _ => True
  | h, .call e k => P h e ∧ ∀ r, Safe P (h ++ [⟨e, r⟩]) (k r)

theorem Safe.bind {f : α → Prog E R β} : ∀ {p : Prog E R α} {h : List (Event R)}, Safe P h p →
    (∀ t a, Runs p t a → Safe P (h ++ t) (f a)) → Safe P h (p >>= f)
  | .pure a, h, _, hf => by
    have ha := hf [] a (.pure a)
    rw [List.append_nil] at ha
    exact ha
  | .call e k, h, hp, hf => by
    refine ⟨hp.1, fun r => Safe.bind (hp.2 r) fun t a ht => ?_⟩
    rw [List.append_assoc, List.singleton_append]
    exact hf _ a (.call e k r ht)

theorem Safe.perform {h : List (Event R)} {e : E} (he : P h e) :
    Safe P h (Prog.perform e : Prog E R (R e)) := ⟨he, fun _ => trivial⟩

/-- A safe program's traces have the property at every event. -/
theorem Safe.at_event {p : Prog E R α} {t : List (Event R)} {a : α} (ht : Runs p t a) :
    ∀ {h : List (Event R)}, Safe P h p → ∀ {pre e post}, t = pre ++ e :: post → P (h ++ pre) e.1 := by
  induction ht with
  | pure a => intro h _ pre e post he; simp at he
  | call e k r _ ih =>
    intro h hs pre e' post he
    cases pre with
    | nil => cases he; simpa using hs.1
    | cons x pre =>
      cases he
      have := ih (hs.2 r) rfl
      simpa using this

/-- What holds at a call given some events holds given more events before them. -/
theorem Safe.prepend (hP : ∀ g h e, P h e → P (g ++ h) e) (g : List (Event R)) :
    ∀ {p : Prog E R α} {h : List (Event R)}, Safe P h p → Safe P (g ++ h) p
  | .pure _, _, _ => trivial
  | .call e k, h, hs => by
    refine ⟨hP g h e hs.1, fun r => ?_⟩
    rw [List.append_assoc]
    exact Safe.prepend hP g (hs.2 r)

/-- Under a property that only grows with the events, a program that is safe from the start is safe
after any events. -/
theorem Safe.after (hP : ∀ g h e, P h e → P (g ++ h) e) (h : List (Event R)) {p : Prog E R α}
    (hs : Safe P [] p) : Safe P h p := by
  have := Safe.prepend hP h hs
  rwa [List.append_nil] at this

end Safe

/-! ## The cost of the calls -/

section Cost

/-- The sum of the costs of the calls, if every call has a cost. -/
def total (cost : E → Option Nat) : List (Event R) → Option Nat
  | [] => some 0
  | e :: t => (cost e.1).bind fun c => (total cost t).map (c + ·)

variable {cost : E → Option Nat}

theorem total_append {t t' : List (Event R)} {n m : Nat} (h : total cost t = some n)
    (h' : total cost t' = some m) : total cost (t ++ t') = some (n + m) := by
  induction t generalizing n with
  | nil =>
    have hn : n = 0 := by simpa [total] using h.symm
    rw [hn, Nat.zero_add, List.nil_append, h']
  | cons e t ih =>
    simp only [total, Option.bind_eq_some_iff, Option.map_eq_some_iff] at h
    obtain ⟨c, hc, k, hk, rfl⟩ := h
    simp only [List.cons_append, total, hc, ih hk, Option.bind_some, Option.map_some, Nat.add_assoc]

/-- On every trace of the program each call has a cost, and together they cost at most `n`. -/
def Bound (cost : E → Option Nat) (n : Nat) (p : Prog E R α) : Prop :=
  ∀ t a, Runs p t a → ∃ c, total cost t = some c ∧ c ≤ n

theorem Bound.mono {n m : Nat} {p : Prog E R α} (h : Bound cost n p) (hnm : n ≤ m) : Bound cost m p := by
  intro t a ht
  obtain ⟨c, hc, hle⟩ := h t a ht
  exact ⟨c, hc, hle.trans hnm⟩

theorem Bound.pure (a : α) (n : Nat) : Bound cost n (.pure a : Prog E R α) := by
  intro t b ht
  obtain ⟨rfl, _⟩ := runs_pure.1 ht
  exact ⟨0, rfl, Nat.zero_le n⟩

theorem Bound.perform {e : E} {n : Nat} (h : cost e = some n) : Bound cost n (Prog.perform e : Prog E R (R e)) := by
  intro t a ht
  cases ht with
  | call _ _ r ht =>
    cases ht
    exact ⟨n, by simp [total, h], Nat.le_refl n⟩

theorem Bound.bind {n m : Nat} {p : Prog E R α} {f : α → Prog E R β} (hp : Bound cost n p)
    (hf : ∀ a, Bound cost m (f a)) : Bound cost (n + m) (p >>= f) := by
  intro t b ht
  obtain ⟨t₁, t₂, a, rfl, h₁, h₂⟩ := runs_bind.1 ht
  obtain ⟨c₁, hc₁, hle₁⟩ := hp t₁ a h₁
  obtain ⟨c₂, hc₂, hle₂⟩ := hf a t₂ b h₂
  exact ⟨c₁ + c₂, total_append hc₁ hc₂, by omega⟩

/-- Some run of the program returns `a`, and its calls cost `n`. -/
def Attains (cost : E → Option Nat) (n : Nat) (p : Prog E R α) (a : α) : Prop :=
  ∃ t, Runs p t a ∧ total cost t = some n

theorem Attains.pure (a : α) : Attains cost 0 (.pure a : Prog E R α) a := ⟨[], .pure a, rfl⟩

theorem Attains.perform {e : E} {n : Nat} (h : cost e = some n) (r : R e) :
    Attains cost n (Prog.perform e : Prog E R (R e)) r :=
  ⟨[⟨e, r⟩], .call e _ r (.pure r), by simp [total, h]⟩

theorem Attains.bind {n m : Nat} {p : Prog E R α} {f : α → Prog E R β} {a : α} {b : β}
    (hp : Attains cost n p a) (hf : Attains cost m (f a) b) : Attains cost (n + m) (p >>= f) b := by
  obtain ⟨t₁, h₁, hc₁⟩ := hp
  obtain ⟨t₂, h₂, hc₂⟩ := hf
  exact ⟨t₁ ++ t₂, runs_bind.2 ⟨t₁, t₂, a, rfl, h₁, h₂⟩, total_append hc₁ hc₂⟩

/-- A bound is at least every cost that is attained. -/
theorem Bound.le {n m : Nat} {p : Prog E R α} {a : α} (h : Bound cost m p) (hp : Attains cost n p a) : n ≤ m := by
  obtain ⟨t, ht, hn⟩ := hp
  obtain ⟨c, hc, hle⟩ := h t a ht
  rw [hn] at hc
  cases hc
  exact hle

end Cost

/-! ## Programs that can fail -/

/-- A program whose result is an error or a value. -/
abbrev Fallible (ε : Type) (E : Type) (R : E → Type) := ExceptT ε (Prog E R)

namespace Fallible

/-- Runs a fallible program and hands on what it returned, an error too. -/
def attempt (x : Fallible ε E R α) : Fallible ε E R (Except ε α) := ExceptT.mk (Except.ok <$> x.run)

def perform (e : E) : Fallible ε E R (R e) := ExceptT.lift (Prog.perform e)

end Fallible

variable {P : List (Event R) → E → Prop} {cost : E → Option Nat}

theorem Safe.bindE {h : List (Event R)} {x : Fallible ε E R α} {f : α → Fallible ε E R β}
    (hx : Safe P h x.run) (hf : ∀ t a, Runs x.run t (.ok a) → Safe P (h ++ t) (f a).run) :
    Safe P h (x >>= f).run := by
  refine Safe.bind hx fun t r ht => ?_
  cases r with
  | ok a => exact hf t a ht
  | error e => trivial

theorem Safe.attempt {h : List (Event R)} {x : Fallible ε E R α} (hx : Safe P h x.run) :
    Safe P h (Fallible.attempt x).run :=
  Safe.bind hx fun _ _ _ => trivial

theorem Safe.performE {h : List (Event R)} {e : E} (he : P h e) :
    Safe P h (Fallible.perform e : Fallible ε E R (R e)).run :=
  Safe.bind (Safe.perform he) fun _ _ _ => trivial

theorem Bound.pureE (a : α) (n : Nat) : Bound cost n (Pure.pure a : Fallible ε E R α).run := .pure _ n

theorem Bound.throwE (e : ε) (n : Nat) : Bound cost n (throw e : Fallible ε E R α).run := .pure _ n

theorem Bound.bindE {n m : Nat} {x : Fallible ε E R α} {f : α → Fallible ε E R β}
    (hx : Bound cost n x.run) (hf : ∀ a, Bound cost m (f a).run) : Bound cost (n + m) (x >>= f).run := by
  refine Bound.bind hx fun r => ?_
  cases r with
  | ok a => exact hf a
  | error e => exact .pure _ m

theorem Bound.attempt {n : Nat} {x : Fallible ε E R α} (hx : Bound cost n x.run) :
    Bound cost n (Fallible.attempt x).run :=
  (Bound.bind hx fun _ => Bound.pure _ 0).mono (Nat.le_refl n)

theorem Bound.performE {e : E} {n : Nat} (h : cost e = some n) :
    Bound cost n (Fallible.perform e : Fallible ε E R (R e)).run :=
  (Bound.bind (Bound.perform h) fun _ => Bound.pure _ 0).mono (Nat.le_refl n)

theorem Attains.pureE (a : α) : Attains cost 0 (Pure.pure a : Fallible ε E R α).run (.ok a) := .pure _

theorem Attains.throwE (e : ε) : Attains cost 0 (throw e : Fallible ε E R α).run (.error e) := .pure _

theorem Attains.bindE {n m : Nat} {x : Fallible ε E R α} {f : α → Fallible ε E R β} {a : α} {r : Except ε β}
    (hx : Attains cost n x.run (.ok a)) (hf : Attains cost m (f a).run r) :
    Attains cost (n + m) (x >>= f).run r := Attains.bind hx hf

/-- A failure of the first part is a failure of the sequence. -/
theorem Attains.failE {n : Nat} {x : Fallible ε E R α} {f : α → Fallible ε E R β} {e : ε}
    (hx : Attains cost n x.run (.error e)) : Attains cost n (x >>= f).run (.error e) := by
  refine Attains.bind (m := 0) hx ?_
  exact .pure _

theorem Attains.attempt {n : Nat} {x : Fallible ε E R α} {r : Except ε α} (hx : Attains cost n x.run r) :
    Attains cost n (Fallible.attempt x).run (.ok r) := by
  refine Attains.bind (m := 0) hx ?_
  exact .pure _

theorem Attains.performE {e : E} {n : Nat} (h : cost e = some n) (r : R e) :
    Attains cost n (Fallible.perform e : Fallible ε E R (R e)).run (.ok r) := by
  refine Attains.bind (m := 0) (.perform h r) ?_
  exact .pure _

/-- What a fallible sequence ran: its first part failed, or both parts ran. -/
theorem runs_bindE {x : Fallible ε E R α} {f : α → Fallible ε E R β} {t : List (Event R)} {r : Except ε β} :
    Runs (x >>= f).run t r ↔ (∃ e, Runs x.run t (.error e) ∧ r = .error e) ∨
      ∃ t₁ t₂ a, t = t₁ ++ t₂ ∧ Runs x.run t₁ (.ok a) ∧ Runs (f a).run t₂ r := by
  constructor
  · intro h
    obtain ⟨t₁, t₂, s, rfl, h₁, h₂⟩ := runs_bind.1 h
    cases s with
    | ok a => exact .inr ⟨t₁, t₂, a, rfl, h₁, h₂⟩
    | error e =>
      obtain ⟨rfl, rfl⟩ := runs_pure.1 h₂
      rw [List.append_nil]
      exact .inl ⟨e, h₁, rfl⟩
  · rintro (⟨e, h, rfl⟩ | ⟨t₁, t₂, a, rfl, h₁, h₂⟩)
    · exact runs_bind.2 ⟨t, [], .error e, by simp, h, .pure _⟩
    · exact runs_bind.2 ⟨t₁, t₂, .ok a, rfl, h₁, h₂⟩

theorem runs_attempt {x : Fallible ε E R α} {t : List (Event R)} {r : Except ε (Except ε α)} :
    Runs (Fallible.attempt x).run t r ↔ ∃ s, r = .ok s ∧ Runs x.run t s := by
  constructor
  · intro h
    obtain ⟨t₁, t₂, s, rfl, h₁, h₂⟩ := runs_bind.1 h
    obtain ⟨rfl, rfl⟩ := runs_pure.1 h₂
    rw [List.append_nil]
    exact ⟨s, rfl, h₁⟩
  · rintro ⟨s, rfl, h⟩
    exact runs_bind.2 ⟨t, [], s, by simp, h, .pure _⟩

theorem runs_performE {e : E} {t : List (Event R)} {r : Except ε (R e)} :
    Runs (Fallible.perform e : Fallible ε E R (R e)).run t r ↔ ∃ s, r = .ok s ∧ t = [⟨e, s⟩] := by
  constructor
  · intro h
    obtain ⟨t₁, t₂, s, rfl, h₁, h₂⟩ := runs_bind.1 h
    obtain ⟨rfl, rfl⟩ := runs_pure.1 h₂
    cases h₁ with
    | call _ _ s h => cases h; exact ⟨s, rfl, rfl⟩
  · rintro ⟨s, rfl, rfl⟩
    exact runs_bind.2 ⟨[⟨e, s⟩], [], s, rfl, .call _ _ _ (.pure _), .pure _⟩

/-- The answers determine the run: of two complete runs neither goes on after the other has ended. -/
theorem Runs.unique {p : Prog E R α} {t s : List (Event R)} {a : α} (h : Runs p t a) :
    ∀ {t' s' : List (Event R)} {a' : α}, Runs p t' a' → t ++ s = t' ++ s' → t = t' ∧ a = a' ∧ s = s' := by
  induction h with
  | pure a =>
    intro t' s' a' h' heq
    obtain ⟨rfl, rfl⟩ := runs_pure.1 h'
    exact ⟨rfl, rfl, heq⟩
  | call e k r _ ih =>
    intro t' s' a' h' heq
    cases h' with
    | call _ _ r' h' =>
      cases (List.cons.inj heq).1
      obtain ⟨rfl, rfl, rfl⟩ := ih h' (List.cons.inj heq).2
      exact ⟨rfl, rfl, rfl⟩

/-! ## What holds of every trace -/

section Traced

variable {Q : List (Event R) → Prop}

/-- What holds of two traces holds of one after the other. -/
structure Composes (Q : List (Event R) → Prop) : Prop where
  nil : Q []
  append : ∀ {t t' : List (Event R)}, Q t → Q t' → Q (t ++ t')

/-- What holds of every event composes. -/
theorem Composes.forall_mem (S : Event R → Prop) : Composes fun t : List (Event R) => ∀ e ∈ t, S e :=
  ⟨by simp, fun h h' => by simpa [or_imp, forall_and] using ⟨h, h'⟩⟩

/-- Every trace of the program has the property. -/
def Traced (Q : List (Event R) → Prop) (p : Prog E R α) : Prop := ∀ t a, Runs p t a → Q t

theorem Traced.pure (hQ : Composes Q) (a : α) : Traced Q (.pure a : Prog E R α) := by
  intro t b h
  obtain ⟨rfl, _⟩ := runs_pure.1 h
  exact hQ.nil

theorem Traced.bind (hQ : Composes Q) {p : Prog E R α} {f : α → Prog E R β} (hp : Traced Q p)
    (hf : ∀ a, Traced Q (f a)) : Traced Q (p >>= f) := by
  intro t b h
  obtain ⟨t₁, t₂, a, rfl, h₁, h₂⟩ := runs_bind.1 h
  exact hQ.append (hp t₁ a h₁) (hf a t₂ b h₂)

theorem Traced.bindE (hQ : Composes Q) {x : Fallible ε E R α} {f : α → Fallible ε E R β} (hx : Traced Q x.run)
    (hf : ∀ a, Traced Q (f a).run) : Traced Q (x >>= f).run := by
  refine Traced.bind hQ hx fun r => ?_
  cases r with
  | ok a => exact hf a
  | error e => exact .pure hQ _

theorem Traced.attempt (hQ : Composes Q) {x : Fallible ε E R α} (hx : Traced Q x.run) :
    Traced Q (Fallible.attempt x).run := Traced.bind hQ hx fun _ => .pure hQ _

theorem Traced.performE (hQ : Composes Q) {e : E} (h : ∀ r, Q [⟨e, r⟩]) :
    Traced Q (Fallible.perform e : Fallible ε E R (R e)).run := by
  intro t r ht
  obtain ⟨t₁, t₂, s, rfl, h₁, h₂⟩ := runs_bind.1 ht
  obtain ⟨rfl, _⟩ := runs_pure.1 h₂
  cases h₁ with
  | call _ _ s h₁ =>
    cases h₁
    exact hQ.append (h s) hQ.nil

end Traced

/-! ## What is returned -/

section Returns

variable {Q : α → Prop} {S : β → Prop}

/-- Every value that the program can return, whatever it is answered, has the property. -/
def Ensures (Q : α → Prop) (p : Prog E R α) : Prop := ∀ t a, Runs p t a → Q a

theorem Ensures.pure {a : α} (h : Q a) : Ensures Q (.pure a : Prog E R α) := by
  intro t b ht
  obtain ⟨_, rfl⟩ := runs_pure.1 ht
  exact h

theorem Ensures.bind {p : Prog E R α} {f : α → Prog E R β} (hp : Ensures Q p) (hf : ∀ a, Q a → Ensures S (f a)) :
    Ensures S (p >>= f) := by
  intro t b ht
  obtain ⟨t₁, t₂, a, _, h₁, h₂⟩ := runs_bind.1 ht
  exact hf a (hp t₁ a h₁) t₂ b h₂

/-- Every value that the program can return if it does not fail has the property. -/
def Returns (Q : α → Prop) (x : Fallible ε E R α) : Prop := Ensures (fun r => ∀ a, r = Except.ok a → Q a) x.run

theorem Returns.pure {a : α} (h : Q a) : Returns Q (Pure.pure a : Fallible ε E R α) :=
  Ensures.pure fun _ hb => Except.ok.inj hb ▸ h

theorem Returns.throw (e : ε) : Returns Q (throw e : Fallible ε E R α) :=
  Ensures.pure fun _ hb => nomatch hb

theorem Returns.bind {x : Fallible ε E R α} {f : α → Fallible ε E R β} (hx : Returns Q x)
    (hf : ∀ a, Q a → Returns S (f a)) : Returns S (x >>= f) := by
  refine Ensures.bind hx fun r hr => ?_
  cases r with
  | ok a => exact hf a (hr a rfl)
  | error e => exact Ensures.pure fun _ hb => nomatch hb

/-- Nothing is known of what the first part returns. -/
theorem Returns.andThen {x : Fallible ε E R α} {f : α → Fallible ε E R β} (hf : ∀ a, Returns S (f a)) :
    Returns S (x >>= f) :=
  Returns.bind (Q := fun _ => True) (fun _ _ _ _ _ => trivial) fun a _ => hf a

theorem Returns.attempt {x : Fallible ε E R α} (hx : Returns Q x) :
    Returns (fun r => ∀ a, r = Except.ok a → Q a) (Fallible.attempt x) :=
  Ensures.bind hx fun _ hr => Ensures.pure fun _ hs => Except.ok.inj hs ▸ hr

/-- The program never fails. -/
def Total (x : Fallible ε E R α) : Prop := Ensures (fun r => ∃ a, r = Except.ok a) x.run

theorem Total.pure (a : α) : Total (Pure.pure a : Fallible ε E R α) := Ensures.pure ⟨a, rfl⟩

theorem Total.performE (e : E) : Total (Fallible.perform e : Fallible ε E R (R e)) := by
  intro t r h
  obtain ⟨s, rfl, _⟩ := runs_performE.1 h
  exact ⟨s, rfl⟩

theorem Total.bind {x : Fallible ε E R α} {f : α → Fallible ε E R β} (hx : Total x) (hf : ∀ a, Total (f a)) :
    Total (x >>= f) := by
  refine Ensures.bind hx ?_
  rintro _ ⟨a, rfl⟩
  exact hf a

end Returns

/-! ## Fixed surroundings -/

section Exec

variable (o : (e : E) → R e)

/-- What the program returns in surroundings that answer every call from a table. -/
def outcome (p : Prog E R α) : α := (exec o p).2

@[simp] theorem outcome_pure (a : α) : outcome o (.pure a : Prog E R α) = a := rfl

@[simp] theorem outcome_perform (e : E) : outcome o (Prog.perform e : Prog E R (R e)) = o e := rfl

@[simp] theorem outcome_bind (f : α → Prog E R β) : ∀ p : Prog E R α,
    outcome o (p >>= f) = outcome o (f (outcome o p))
  | .pure _ => rfl
  | .call e k => outcome_bind f (k (o e))

@[simp] theorem outcome_attempt (x : Fallible ε E R α) :
    outcome o (Fallible.attempt x).run = .ok (outcome o x.run) := outcome_bind o _ x.run

@[simp] theorem outcome_performE (e : E) :
    outcome o (Fallible.perform e : Fallible ε E R (R e)).run = .ok (o e) := rfl

/-- A sequence goes on with what its first part returned. -/
theorem outcome_bindE {x : Fallible ε E R α} {a : α} (h : outcome o x.run = .ok a) (f : α → Fallible ε E R β) :
    outcome o (x >>= f).run = outcome o (f a).run := by
  have hbind : outcome o (x >>= f).run = _ := outcome_bind o _ x.run
  rw [hbind, h]
  rfl

/-- A sequence stops at the error of its first part. -/
theorem outcome_bindE_error {x : Fallible ε E R α} {e : ε} (h : outcome o x.run = .error e) (f : α → Fallible ε E R β) :
    outcome o (x >>= f).run = .error e := by
  have hbind : outcome o (x >>= f).run = _ := outcome_bind o _ x.run
  rw [hbind, h]
  rfl

/-- A program that never fails returns a value. -/
theorem Total.outcome {x : Fallible ε E R α} (h : Total x) : ∃ a, outcome o x.run = .ok a := h _ _ (runs_exec o x.run)

end Exec

end Interaction
