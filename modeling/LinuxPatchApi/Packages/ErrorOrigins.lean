/-
Where the error of an operation comes from: the runner's answer to one of its commands, or a text of the agent, inside
of the contexts that the operation adds; and what that is for `apply_patches` of each backend.
-/
import LinuxPatchApi.Packages.Deadlines

namespace LinuxPatchApi.Packages

open Text Interaction

/-- The error inside of further contexts. -/
def AnyhowError.within (own : List String) (e : AnyhowError) : AnyhowError := ⟨own ++ e.contexts, e.root⟩

/-- The answer to a command keeps the runner's contract. -/
def EventKept : Event Response → Prop
  | ⟨.run _ _ _, answer⟩ => KeepsContract answer
  | _ => True

theorem RunnerContract.eventKept {o : (e : Effect) → Response e} (h : RunnerContract o) {α : Type}
    {p : Prog Effect Response α} : ∀ event ∈ (exec o p).1, EventKept event := by
  intro ⟨e, answer⟩ hevent
  have hanswer : answer = o e := mem_exec hevent
  rw [hanswer]
  cases e with
  | run program args timeout => exact h program args timeout
  | _ => trivial

/-- The error is `cause` inside of the contexts `own`, and `cause` is the runner's answer to a command of the trace, or
a text of the agent that has the property. -/
structure Origin (said : String → Prop) (t : List (Event Response)) (own : List String) (cause e : AnyhowError) :
    Prop where
  within : e = cause.within own
  source : (∃ program args timeout, (⟨.run program args timeout, .error cause⟩ : Event Response) ∈ t) ∨
    ∃ s, said s ∧ cause = anyhow s

section Rules

variable {added said : String → Prop} {α β : Type}

theorem Silent.never_fails {op : Op α} (h : Silent op) (t : List (Event Response)) (e : AnyhowError) :
    ¬ Runs op.run t (.error e) := by
  intro ht
  obtain ⟨⟨_, he⟩, _⟩ := h _ _ ht
  cases he

/-- The error comes from the trace, inside of contexts that have the property. -/
def ComesFrom (added said : String → Prop) (t : List (Event Response)) (e : AnyhowError) : Prop :=
  ∃ own cause, (∀ c ∈ own, added c) ∧ Origin said t own cause e

theorem ComesFrom.mono {t t' : List (Event Response)} {e : AnyhowError} (h : ComesFrom added said t e)
    (hsub : t ⊆ t') : ComesFrom added said t' e := by
  obtain ⟨own, cause, hown, hwithin, hsource⟩ := h
  refine ⟨own, cause, hown, hwithin, hsource.imp_left ?_⟩
  rintro ⟨program, args, timeout, hmem⟩
  exact ⟨program, args, timeout, hsub hmem⟩

/-- Every error of the operation comes from its trace, when the answers to its commands keep the contract. -/
def Explained (added said : String → Prop) (op : Op α) : Prop :=
  ∀ t e, Runs op.run t (.error e) → (∀ event ∈ t, EventKept event) → ComesFrom added said t e

theorem Explained.pure (a : α) : Explained added said (pure a : Op α) := by
  intro t e h
  obtain ⟨_, he⟩ := runs_pure.1 h
  cases he

theorem Explained.throw {s : String} (hs : said s) : Explained added said (throw (anyhow s) : Op α) := by
  intro t e h _
  obtain ⟨rfl, he⟩ := runs_pure.1 h
  cases he
  exact ⟨[], anyhow s, by simp, rfl, .inr ⟨s, hs, rfl⟩⟩

theorem Explained.silent {op : Op α} (h : Silent op) : Explained added said op :=
  fun t e ht _ => absurd ht (h.never_fails t e)

theorem Explained.bind {op : Op α} {f : α → Op β} (h : Explained added said op)
    (hf : ∀ a, Explained added said (f a)) : Explained added said (op >>= f) := by
  intro t e ht hkept
  rcases runs_bindE.1 ht with ⟨e', h₁, he⟩ | ⟨t₁, t₂, a, rfl, h₁, h₂⟩
  · cases he
    exact h t e h₁ hkept
  · have hafter := hf a t₂ e h₂ fun event hevent => hkept event (List.mem_append_right t₁ hevent)
    exact hafter.mono (List.subset_append_right t₁ t₂)

theorem Explained.handOn {op : Op α} (h : Explained added said op) (f : α → β) :
    Explained added said (do let a ← op; return f a : Op β) := h.bind fun _ => .pure _

theorem Explained.command (program : String) (args : List Arg) (timeout : Nat) :
    Explained added said (runCommandTimed program args timeout) := by
  intro t e h _
  obtain ⟨s, hs, rfl⟩ := runs_runCommandTimed.1 h
  cases s with
  | ok output => cases hs
  | error cause =>
    cases hs
    exact ⟨[], e, by simp, rfl, .inl ⟨program, args, some timeout, by simp⟩⟩

/-- What goes on from an error raises it again inside of contexts, or fails with an error of its own trace. -/
def Reraises (added said : String → Prop) (e : AnyhowError) (op : Op β) : Prop :=
  ∀ t e', Runs op.run t (.error e') → (∀ event ∈ t, EventKept event) →
    (∃ own, (∀ c ∈ own, added c) ∧ e' = e.within own) ∨ ComesFrom added said t e'

theorem Reraises.context (e : AnyhowError) {c : String} (hc : added c) :
    Reraises added said e (throw (e.context c) : Op β) := by
  intro t e' h _
  obtain ⟨rfl, he⟩ := runs_pure.1 h
  cases he
  exact .inl ⟨[c], by simpa using hc, rfl⟩

theorem Reraises.throw (e : AnyhowError) : Reraises added said e (throw e : Op β) := by
  intro t e' h _
  obtain ⟨rfl, he⟩ := runs_pure.1 h
  cases he
  exact .inl ⟨[], by simp, rfl⟩

theorem Reraises.own {e : AnyhowError} {op : Op β} (h : Explained added said op) : Reraises added said e op :=
  fun t e' ht hkept => .inr (h t e' ht hkept)

/-- What comes before it does not fail. -/
theorem Reraises.after {e : AnyhowError} {op : Op α} {f : α → Op β}
    (hnever : ∀ t e', ¬ Runs op.run t (.error e')) (h : ∀ a, Reraises added said e (f a)) :
    Reraises added said e (op >>= f) := by
  intro t e' ht hkept
  rcases runs_bindE.1 ht with ⟨e'', h₁, _⟩ | ⟨t₁, t₂, a, rfl, _, h₂⟩
  · exact absurd h₁ (hnever t e'')
  refine (h a t₂ e' h₂ fun event hevent => hkept event (List.mem_append_right t₁ hevent)).imp_right fun hafter => ?_
  exact hafter.mono (List.subset_append_right t₁ t₂)

/-- An operation of which a failure is looked at does not fail. -/
theorem attempt_never_fails {op : Op α} (t : List (Event Response)) (e : AnyhowError) :
    ¬ Runs (Fallible.attempt op).run t (.error e) := by
  intro h
  obtain ⟨_, he, _⟩ := runs_attempt.1 h
  cases he

theorem Explained.attempt {op : Op α} {f : Except AnyhowError α → Op β} (h : Explained added said op)
    (hok : ∀ a, Explained added said (f (.ok a))) (herror : ∀ e, Reraises added said e (f (.error e))) :
    Explained added said (do let r ← Fallible.attempt op; f r : Op β) := by
  intro t e ht hkept
  obtain ⟨t₁, t₂, s, rfl, h₁, h₂⟩ := runs_attempt_bind.1 ht
  have hkept₁ : ∀ event ∈ t₁, EventKept event := fun event hevent => hkept event (List.mem_append_left t₂ hevent)
  have hkept₂ : ∀ event ∈ t₂, EventKept event := fun event hevent => hkept event (List.mem_append_right t₁ hevent)
  cases s with
  | ok a => exact (hok a t₂ e h₂ hkept₂).mono (List.subset_append_right t₁ t₂)
  | error cause =>
    rcases herror cause t₂ e h₂ hkept₂ with ⟨own, hown, rfl⟩ | hafter
    · obtain ⟨own', cause', hown', rfl, hsource⟩ := (h t₁ cause h₁ hkept₁).mono (List.subset_append_left t₁ t₂)
      refine ⟨own ++ own', cause', fun c hc => ?_, by simp [AnyhowError.within], hsource⟩
      exact (List.mem_append.1 hc).elim (hown c) (hown' c)
    · exact hafter.mono (List.subset_append_right t₁ t₂)

end Rules

/-! ## Applying patches -/

namespace AptBackend

/-- The contexts around the errors of `apply_patches`. -/
def patchContexts : List String := [
  "dpkg --configure -a failed: package manager is in a broken state that requires manual intervention",
  "Failed to execute apt command",
  "Pre-upgrade fix-broken failed — resolve dependency issues before retrying",
  "fix-broken failed on retry — dependency issues remain unresolved",
  "held-package fallback (apt-get upgrade) failed — dist-upgrade was blocked by held packages and " ++
    "the fallback upgrade also failed",
  "held-package fallback (apt-get upgrade) failed on dist-upgrade retry — blocked by held packages " ++
    "and the fallback upgrade also failed"]

theorem failed_mem : "Failed to execute apt command" ∈ patchContexts := by simp [patchContexts]

/-- The errors of the operation are explained by its trace and the contexts of `apply_patches`. -/
abbrev Explains {α : Type} (op : Op α) : Prop := Explained (· ∈ patchContexts) (fun _ => BackendKind.apt = .apt) op

theorem explains_ensureDpkgClean : Explains ensureDpkgClean := by
  refine .bind (.silent (silent_cleanupLocks lockFiles)) fun _ => ?_
  exact .attempt (.command _ _ _) (fun _ => .pure _) fun e => .context e (by simp [patchContexts])

theorem explains_verifyDpkgClean : Explains verifyDpkgClean := by
  refine .bind (.command _ _ _) fun output => ?_
  split
  · exact .pure _
  refine .bind explains_ensureDpkgClean fun _ => .bind (.command _ _ _) fun recheck => ?_
  split
  · exact .pure _
  · exact .throw rfl

/-- An `apt-get` that fails is answered with an error, by the contract. -/
theorem explains_aptGet (args : List Arg) (timeout : Option Nat) :
    Explains (do let r ← Fallible.attempt (runWithTimeout "apt-get" args timeout); afterAptGet args r : Op String) := by
  intro t e ht hkept
  obtain ⟨t₁, t₂, s, rfl, h₁, h₂⟩ := runs_attempt_bind.1 ht
  rw [runs_runWithTimeout.1 h₁] at hkept ⊢
  have hkept₂ : ∀ event ∈ t₂, EventKept event := fun event hevent => hkept event (List.mem_append_right _ hevent)
  cases s with
  | error cause =>
    have hfailed : Reraises (· ∈ patchContexts) (fun _ => BackendKind.apt = .apt) cause
        (afterAptGet args (.error cause)) :=
      .after attempt_never_fails fun _ => .context cause failed_mem
    rcases hfailed t₂ e h₂ hkept₂ with ⟨own, hown, rfl⟩ | hafter
    · exact ⟨own, cause, hown, rfl, .inl ⟨"apt-get", args, timeout, by simp⟩⟩
    · exact hafter.mono (List.subset_append_right _ t₂)
  | ok output =>
    have hsuccess : output.success = true := hkept _ (List.mem_append_left _ (List.mem_singleton_self _))
    unfold afterAptGet at h₂
    simp only [hsuccess, if_true] at h₂
    have hverify := (explains_verifyDpkgClean.handOn fun _ => output.stdout) t₂ e h₂ hkept₂
    exact hverify.mono (List.subset_append_right _ t₂)

theorem explains_runApt (args : List Arg) : Explains (runApt args) := by
  refine .bind (.silent (.ask rfl)) fun locked => ?_
  split
  · exact .bind explains_ensureDpkgClean fun _ => explains_aptGet args _
  · exact .throw rfl

theorem explains_fixBroken {failure : String} (h : failure ∈ patchContexts) : Explains (fixBroken failure) :=
  .attempt (explains_runApt _) (fun _ => .pure _) fun e => .context e h

theorem explains_heldFallback {failure : String} (h : failure ∈ patchContexts) : Explains (heldFallback failure) := by
  have hheld : Explains (unwrapOr "" (runCommandTimed "apt-mark" ["showhold"] quickOpTimeout)) := by
    intro t e ht
    obtain ⟨_, he, _⟩ := runs_unwrapOr.1 ht
    cases he
  have hfallback : Explains fallbackToHoldRespectingUpgrade :=
    .bind hheld fun held => .handOn (explains_runApt _) fun _ => trim held
  exact .attempt hfallback (fun held => .throw rfl) fun e => .context e h

theorem explains_retryPatches (packages : Option (List String)) (args : List Arg) :
    Explains (retryPatches packages args) := by
  refine .bind (explains_fixBroken (by simp [patchContexts])) fun _ => ?_
  refine .attempt (explains_runApt args) (fun _ => .pure _) fun e => ?_
  dsimp only
  split
  · exact .own (explains_heldFallback (by simp [patchContexts]))
  · exact .throw e

theorem explains_attemptPatches (packages : Option (List String)) (args : List Arg) :
    Explains (attemptPatches packages args) := by
  refine .attempt (explains_runApt args) (fun _ => .pure _) fun e => ?_
  dsimp only
  split
  · exact .own (explains_heldFallback (by simp [patchContexts]))
  split
  · exact .own (explains_retryPatches packages args)
  · exact .throw e

theorem explains_applyPatches (packages : Option (List String)) : Explains (applyPatches packages) := by
  refine .bind ?_ fun _ => explains_attemptPatches _ _
  cases packages with
  | none => exact explains_fixBroken (by simp [patchContexts])
  | some _ => exact .pure _

end AptBackend

namespace PacmanBackend

theorem explained_runPacman {added said : String → Prop} (args : List Arg) : Explained added said (runPacman args) := by
  refine .bind (.silent silent_waitWhileLocked) fun _ => .attempt ?_ (fun _ => .pure _) fun e => ?_
  · intro t e h _
    obtain ⟨s, hs, rfl⟩ := runs_acceptableExit.1 h
    rw [acceptExit_error hs.symm]
    exact ⟨[], e, by simp, rfl, .inl ⟨"pacman", args, _, List.mem_singleton_self _⟩⟩
  · exact .after (silent_removeLockAfterTimeout e).never_fails fun _ => .throw e

end PacmanBackend

/-- The contexts that a backend adds to an error while it applies patches. -/
def BackendKind.patchContexts : BackendKind → List String
  | .apt => AptBackend.patchContexts
  | _ => []

/-- No backend but APT adds a context, or fails with a text of its own. -/
theorem explained_applyPatches (kind : BackendKind) (packages : Option (List String)) :
    Explained (· ∈ kind.patchContexts) (fun _ => kind = .apt) (kind.backend.applyPatches packages) := by
  cases kind with
  | apt => exact AptBackend.explains_applyPatches packages
  | pacman => cases packages <;> exact (PacmanBackend.explained_runPacman _).handOn _
  | dnf | yum | apk => cases packages <;> exact (Explained.command _ _ _).handOn _

end LinuxPatchApi.Packages
