/-
Programs that work on files: what is at each path, operations each of which may fail and leave part of what it
wrote, and actions that stop at the first error. The proof rules are inversion of sequences, and which paths an
action can change at all.
-/
import Mathlib.Tactic

namespace Disk

variable {π κ : Type}

/-- What is at each path. -/
abbrev Files (π κ : Type) := π → Option κ

/-- An operation of the file system; `writeAll` and `flush` are on the file that `createNew` opened. -/
inductive Op (π κ : Type)
  | createDirAll (dir : π)
  | metadata (p : π)
  | setPermissions (p : π) (mode : Nat)
  | copy (src dst : π)
  | createNew (p : π) (mode : Nat) (blank : κ)
  | writeAll (p : π) (c : κ)
  | flush (p : π)
  | write (p : π) (c : κ)
  | rename (src dst : π)
  | remove (p : π)
  deriving DecidableEq, Repr

/-- An operation that fails may have written a part of the content. -/
inductive Outcome (κ : Type)
  | done
  | failed (error : String) (residue : Option κ)
  deriving DecidableEq, Repr

/-- What the file system makes of each operation. -/
structure Surroundings (π κ : Type) where
  dirExists : π → Bool
  outcome : Op π κ → Outcome κ

/-- A file system on which nothing fails. -/
def Surroundings.sound : Surroundings π κ := ⟨fun _ => true, fun _ => .done⟩

section Ops

variable [DecidableEq π]

/-- The paths whose content the operation is about to change. -/
def Op.changes : Op π κ → List π
  | .copy _ dst => [dst]
  | .createNew p _ _ | .writeAll p _ | .write p _ | .remove p => [p]
  | .rename src dst => [src, dst]
  | .createDirAll _ | .metadata _ | .setPermissions _ _ | .flush _ => []

/-- Why the files as they are rule the operation out. -/
def Op.refusal (s : Files π κ) : Op π κ → Option String
  | .copy src _ | .rename src _ | .remove src =>
    if s src = none then some "No such file or directory (os error 2)" else none
  | .createNew p _ _ => if s p = none then none else some "File exists (os error 17)"
  | _ => none

def Op.effect (s : Files π κ) : Op π κ → Files π κ
  | .copy src dst => Function.update s dst (s src)
  | .createNew p _ c | .writeAll p c | .write p c => Function.update s p (some c)
  | .rename src dst => Function.update (Function.update s src none) dst (s src)
  | .remove p => Function.update s p none
  | .createDirAll _ | .metadata _ | .setPermissions _ _ | .flush _ => s

/-- What a failed operation leaves. -/
def Op.leave (s : Files π κ) (residue : Option κ) : Op π κ → Files π κ
  | .copy _ p | .writeAll p _ | .write p _ => match residue with
    | some c => Function.update s p (some c)
    | none => s
  | _ => s

theorem Op.effect_of_not_mem {o : Op π κ} {p : π} (s : Files π κ) (h : p ∉ o.changes) : o.effect s p = s p := by
  cases o with
  | rename src dst =>
    simp only [changes, List.mem_cons, List.not_mem_nil, or_false, not_or] at h
    rw [effect, Function.update_of_ne h.2, Function.update_of_ne h.1]
  | copy | createNew | writeAll | write | remove =>
    simp only [changes, List.mem_singleton] at h
    exact Function.update_of_ne h _ _
  | createDirAll | metadata | setPermissions | flush => rfl

theorem Op.leave_of_not_mem {o : Op π κ} {p : π} (s : Files π κ) (residue : Option κ) (h : p ∉ o.changes) :
    o.leave s residue p = s p := by
  cases o with
  | copy | writeAll | write =>
    simp only [changes, List.mem_singleton] at h
    cases residue with
    | none => rfl
    | some c => exact Function.update_of_ne h _ _
  | createDirAll | metadata | setPermissions | flush | createNew | rename | remove => rfl

theorem Op.leave_none (o : Op π κ) (s : Files π κ) : o.leave s none = s := by cases o <;> rfl

end Ops

/-! ## Actions -/

/-- A program on files; it returns a value or an error, and leaves files in either case. -/
structure Action (π κ ε α : Type) where
  run : Surroundings π κ → Files π κ → Except ε α × Files π κ

namespace Action

variable {ε ε' α β : Type}

instance : Monad (Action π κ ε) where
  pure a := ⟨fun _ s => (.ok a, s)⟩
  bind m f := ⟨fun env s => match m.run env s with
    | (.ok a, t) => (f a).run env t
    | (.error e, t) => (.error e, t)⟩

def fail (e : ε) : Action π κ ε α := ⟨fun _ s => (.error e, s)⟩

/-- Whether there is something at the path, and what. -/
def content (p : π) : Action π κ ε (Option κ) := ⟨fun _ s => (.ok (s p), s)⟩

def dirExists (p : π) : Action π κ ε Bool := ⟨fun env s => (.ok (env.dirExists p), s)⟩

def mapError (g : ε → ε') (m : Action π κ ε α) : Action π κ ε' α :=
  ⟨fun env s => match m.run env s with
    | (.ok a, t) => (.ok a, t)
    | (.error e, t) => (.error (g e), t)⟩

/-- The error is let pass. -/
def ignore (m : Action π κ ε Unit) : Action π κ ε Unit := ⟨fun env s => (.ok (), (m.run env s).2)⟩

/-- The error is looked at. -/
def attempt (m : Action π κ ε α) : Action π κ ε' (Except ε α) := ⟨fun env s => (.ok (m.run env s).1, (m.run env s).2)⟩

/-- One operation, with its error text. -/
def perform [DecidableEq π] (o : Op π κ) : Action π κ String Unit :=
  ⟨fun env s => match o.refusal s, env.outcome o with
    | some text, _ => (.error text, s)
    | none, .done => (.ok (), o.effect s)
    | none, .failed text residue => (.error text, o.leave s residue)⟩

/-! ## Inversion -/

variable {env : Surroundings π κ} {s t : Files π κ}

@[simp] theorem run_pure (a : α) : (pure a : Action π κ ε α).run env s = (.ok a, s) := rfl

@[simp] theorem run_fail (e : ε) : (fail e : Action π κ ε α).run env s = (.error e, s) := rfl

@[simp] theorem run_content_bind (p : π) (f : Option κ → Action π κ ε β) :
    (content p >>= f).run env s = (f (s p)).run env s := rfl

@[simp] theorem run_dirExists_bind (p : π) (f : Bool → Action π κ ε β) :
    (dirExists p >>= f).run env s = (f (env.dirExists p)).run env s := rfl

@[simp] theorem run_ignore_bind (m : Action π κ ε Unit) (f : Unit → Action π κ ε β) :
    (ignore m >>= f).run env s = (f ()).run env (m.run env s).2 := rfl

@[simp] theorem run_attempt_bind (m : Action π κ ε' α) (f : Except ε' α → Action π κ ε β) :
    (attempt m >>= f).run env s = (f (m.run env s).1).run env (m.run env s).2 := rfl

theorem run_bind (m : Action π κ ε α) (f : α → Action π κ ε β) : (m >>= f).run env s = match m.run env s with
    | (.ok a, t) => (f a).run env t
    | (.error e, t) => (.error e, t) := rfl

instance : LawfulMonad (Action π κ ε) := LawfulMonad.mk' _
  (fun m => by
    show (⟨_⟩ : Action π κ ε _) = m
    congr 1
    funext env s
    rcases m.run env s with ⟨e | a, t⟩ <;> rfl)
  (fun _ _ => rfl)
  (fun m f g => by
    show (⟨_⟩ : Action π κ ε _) = ⟨_⟩
    congr 1
    funext env s
    simp only [run_bind]
    rcases m.run env s with ⟨e | a, t⟩ <;> rfl)

theorem bind_ok {m : Action π κ ε α} {f : α → Action π κ ε β} {b : β} :
    (m >>= f).run env s = (.ok b, t) ↔ ∃ a u, m.run env s = (.ok a, u) ∧ (f a).run env u = (.ok b, t) := by
  rw [run_bind]
  rcases m.run env s with ⟨e | a, u⟩
  · constructor
    · intro h
      cases h
    · rintro ⟨_, _, h, _⟩
      cases h
  · constructor
    · intro h
      exact ⟨a, u, rfl, h⟩
    · rintro ⟨_, _, h, hf⟩
      cases h
      exact hf

theorem bind_error {m : Action π κ ε α} {f : α → Action π κ ε β} {e : ε} : (m >>= f).run env s = (.error e, t) ↔
    m.run env s = (.error e, t) ∨ ∃ a u, m.run env s = (.ok a, u) ∧ (f a).run env u = (.error e, t) := by
  rw [run_bind]
  rcases m.run env s with ⟨e' | a, u⟩
  · constructor
    · intro h
      cases h
      exact .inl rfl
    · rintro (h | ⟨_, _, h, _⟩)
      · cases h
        rfl
      · cases h
  · constructor
    · intro h
      exact .inr ⟨a, u, rfl, h⟩
    · rintro (h | ⟨_, _, h, hf⟩)
      · cases h
      · cases h
        exact hf

/-- A sequence stops at the error of the first action, or is finished by the second. -/
theorem bind_cases {m : Action π κ ε α} {f : α → Action π κ ε β} {r : Except ε β}
    (h : (m >>= f).run env s = (r, t)) : (∃ e, m.run env s = (.error e, t) ∧ r = .error e) ∨
      ∃ a u, m.run env s = (.ok a, u) ∧ (f a).run env u = (r, t) := by
  cases r with
  | ok b => exact .inr (bind_ok.1 h)
  | error e => exact (bind_error.1 h).imp_left fun hm => ⟨e, hm, rfl⟩

theorem run_mapError (g : ε → ε') (m : Action π κ ε α) : (mapError g m).run env s = match m.run env s with
    | (.ok a, t) => (.ok a, t)
    | (.error e, t) => (.error (g e), t) := rfl

theorem mapError_ok {g : ε → ε'} {m : Action π κ ε α} {a : α} :
    (mapError g m).run env s = (.ok a, t) ↔ m.run env s = (.ok a, t) := by
  rw [run_mapError]
  rcases m.run env s with ⟨e | b, u⟩ <;> simp

theorem mapError_error {g : ε → ε'} {m : Action π κ ε α} {e' : ε'} :
    (mapError g m).run env s = (.error e', t) ↔ ∃ e, m.run env s = (.error e, t) ∧ g e = e' := by
  rw [run_mapError]
  rcases m.run env s with ⟨e | b, u⟩ <;> simp [and_comm]

theorem mapError_snd (g : ε → ε') (m : Action π κ ε α) : ((mapError g m).run env s).2 = (m.run env s).2 := by
  rw [run_mapError]
  rcases m.run env s with ⟨e | b, u⟩ <;> rfl

/-- The files rule the operation in, and the file system carries it out. -/
def Succeeds [DecidableEq π] (env : Surroundings π κ) (s : Files π κ) (o : Op π κ) : Prop :=
  o.refusal s = none ∧ env.outcome o = .done

theorem run_perform [DecidableEq π] (o : Op π κ) :
    (perform o : Action π κ String Unit).run env s = match o.refusal s, env.outcome o with
      | some text, _ => (.error text, s)
      | none, .done => (.ok (), o.effect s)
      | none, .failed text residue => (.error text, o.leave s residue) := rfl

theorem perform_ok [DecidableEq π] {o : Op π κ} {a : Unit} :
    (perform o).run env s = (.ok a, t) ↔ Succeeds env s o ∧ o.effect s = t := by
  rw [run_perform, Succeeds]
  cases o.refusal s with
  | some text => simp
  | none => cases env.outcome o <;> simp

/-- An operation succeeds, or it leaves a part of what it writes. -/
theorem perform_cases [DecidableEq π] {o : Op π κ} {r : Except String Unit} (h : (perform o).run env s = (r, t)) :
    (Succeeds env s o ∧ r = .ok () ∧ t = o.effect s) ∨
      ¬ Succeeds env s o ∧ (∃ e, r = .error e) ∧ ∃ residue, t = o.leave s residue := by
  rw [run_perform] at h
  unfold Succeeds
  cases hrefusal : o.refusal s with
  | some text =>
    rw [hrefusal] at h
    cases h
    refine .inr ⟨fun hs => ?_, ⟨text, rfl⟩, none, (o.leave_none s).symm⟩
    cases hs.1
  | none =>
    rw [hrefusal] at h
    cases houtcome : env.outcome o with
    | done =>
      rw [houtcome] at h
      cases h
      exact .inl ⟨⟨rfl, rfl⟩, rfl, rfl⟩
    | failed text residue =>
      rw [houtcome] at h
      cases h
      refine .inr ⟨fun hs => ?_, ⟨text, rfl⟩, residue, rfl⟩
      cases hs.2

/-- A rename that fails changes nothing. -/
theorem perform_rename_error [DecidableEq π] {src dst : π} {e : String}
    (h : (perform (.rename src dst)).run env s = (.error e, t)) : t = s := by
  rw [run_perform] at h
  split at h <;> cases h <;> rfl

/-! ## Which paths can change -/

/-- The action changes nothing but paths in `T`, whether it succeeds or not. -/
def Confined (T : π → Prop) (m : Action π κ ε α) : Prop := ∀ env s p, ¬ T p → (m.run env s).2 p = s p

variable {T : π → Prop}

theorem Confined.kept {m : Action π κ ε α} (hm : Confined T m) {r : Except ε α} (h : m.run env s = (r, t)) {p : π}
    (hp : ¬ T p) : t p = s p := by
  have hkeep := hm env s p hp
  rwa [h] at hkeep

theorem confined_pure (a : α) : Confined T (pure a : Action π κ ε α) := fun _ _ _ _ => rfl

theorem confined_fail (e : ε) : Confined T (fail e : Action π κ ε α) := fun _ _ _ _ => rfl

theorem confined_content (p : π) : Confined T (content p : Action π κ ε (Option κ)) := fun _ _ _ _ => rfl

theorem confined_dirExists (p : π) : Confined T (dirExists p : Action π κ ε Bool) := fun _ _ _ _ => rfl

theorem Confined.bind {m : Action π κ ε α} {f : α → Action π κ ε β} (hm : Confined T m) (hf : ∀ a, Confined T (f a)) :
    Confined T (m >>= f) := by
  intro env s p hp
  rw [run_bind]
  have h := hm env s p hp
  rcases hr : m.run env s with ⟨e | a, u⟩
  · rw [hr] at h
    exact h
  · rw [hr] at h
    exact (hf a env u p hp).trans h

theorem Confined.mapError {g : ε → ε'} {m : Action π κ ε α} (hm : Confined T m) : Confined T (mapError g m) :=
  fun env s p hp => by
    rw [mapError_snd]
    exact hm env s p hp

theorem Confined.ignore {m : Action π κ ε Unit} (hm : Confined T m) : Confined T (ignore m) := hm

theorem Confined.mono {T' : π → Prop} {m : Action π κ ε α} (hm : Confined T m) (h : ∀ p, T p → T' p) : Confined T' m :=
  fun env s p hp => hm env s p fun ht => hp (h p ht)

theorem confined_perform [DecidableEq π] {o : Op π κ} (ho : ∀ p ∈ o.changes, T p) : Confined T (perform o) := by
  intro env s p hp
  have hnot : p ∉ o.changes := fun hmem => hp (ho p hmem)
  rw [run_perform]
  split
  · rfl
  · exact o.effect_of_not_mem s hnot
  · exact o.leave_of_not_mem s _ hnot

end Action

end Disk
