/-
Commands that were killed at their deadline. Most operations hand on the failure, except that a helper with acceptable
exit codes looks only at the exit code of the error; the queries take many failures for an answer, and `apply_patches`
of APT tries again.
-/
import LinuxPatchApi.Packages.AptSteps

namespace LinuxPatchApi.Packages

open Text Interaction

/-! ## Answers to commands with a deadline -/

/-- The exit codes that an operation accepts from its commands. -/
abbrev Acceptable := String → List Arg → List Int

/-- The command was killed at its deadline. -/
def TimedOut (e : Event Response) : Prop :=
  ∃ program args timeout err ce, e = ⟨.run program args (some timeout), .error err⟩ ∧
    extractCommandOutput err = some ce ∧ ce.timedOut = true

/-- If a command was killed at its deadline, the operation fails and no refresh is recorded. -/
def DeadlineHonored {α : Type} (t : List (Event Response)) (r : Except AnyhowError α) : Prop :=
  (∃ e ∈ t, TimedOut e) → (∃ err, r = .error err) ∧ ∀ e ∈ t, e.1 ≠ .updateSuccess

/-- How an operation takes the failures of its commands: the exit codes that it accepts, and the commands whose failure
is an answer like another. -/
structure Reading where
  accepts : Acceptable := fun _ _ => []
  optional : String → List Arg → Prop := fun _ _ => False

/-- The command was killed at its deadline, and its failure is an answer or it exited with a code that is accepted. -/
def Forgiven (reading : Reading) (e : Event Response) : Prop :=
  ∃ program args timeout err ce, e = ⟨.run program args (some timeout), .error err⟩ ∧
    extractCommandOutput err = some ce ∧ ce.timedOut = true ∧
      (reading.optional program args ∨ ∃ code, ce.exitCode = some code ∧ code ∈ reading.accepts program args)

/-- The command failed, with no code that is accepted, and its failure is no answer. -/
def HandedOn (reading : Reading) (e : Event Response) : Prop :=
  ∃ program args timeout err, e = ⟨.run program args timeout, .error err⟩ ∧ ¬ reading.optional program args ∧
    (acceptExit (reading.accepts program args) (.error err)).isOk = false

/-- A command was killed at its deadline and is forgiven, and no other command failed for good. -/
def Overlooks (reading : Reading) (t : List (Event Response)) : Prop :=
  (∃ e ∈ t, Forgiven reading e) ∧ ∀ e ∈ t, ¬ HandedOn reading e

section Events

variable {reading : Reading} {e : Event Response}

theorem acceptExit_isOk {codes : List Int} {err : AnyhowError} :
    (acceptExit codes (.error err)).isOk = true ↔
      ∃ ce code, extractCommandOutput err = some ce ∧ ce.exitCode = some code ∧ code ∈ codes := by
  constructor
  · intro h
    unfold acceptExit at h
    simp only at h
    split at h
    · cases h
    next ce hce =>
    split at h
    · cases h
    next code hcode =>
    split at h
    next hmem => exact ⟨ce, code, hce, hcode, by simpa using hmem⟩
    next => cases h
  · rintro ⟨ce, code, hce, hcode, hmem⟩
    simp [acceptExit, hce, hcode, hmem, Except.isOk, Except.toBool]

theorem Forgiven.timedOut (h : Forgiven reading e) : TimedOut e := by
  obtain ⟨program, args, timeout, err, ce, he, hce, htimed, _⟩ := h
  exact ⟨program, args, timeout, err, ce, he, hce, htimed⟩

/-- A killed command is forgiven or its failure is handed on. -/
theorem TimedOut.forgiven (h : TimedOut e) (hon : ¬ HandedOn reading e) : Forgiven reading e := by
  obtain ⟨program, args, timeout, err, ce, rfl, hce, htimed⟩ := h
  refine ⟨program, args, timeout, err, ce, rfl, hce, htimed, ?_⟩
  by_cases hopt : reading.optional program args
  · exact .inl hopt
  · have hok : (acceptExit (reading.accepts program args) (.error err)).isOk = true := by
      by_contra hno
      exact hon ⟨program, args, some timeout, err, rfl, hopt, Bool.eq_false_iff.2 hno⟩
    obtain ⟨ce', code, hce', hcode, hmem⟩ := acceptExit_isOk.1 hok
    rw [hce] at hce'
    cases hce'
    exact .inr ⟨code, hcode, hmem⟩

/-- Events that are no commands are neither handed on nor forgiven. -/
theorem HandedOn.command (h : HandedOn reading e) : ∃ program args timeout, e.1 = .run program args timeout := by
  obtain ⟨program, args, timeout, _, rfl, _⟩ := h
  exact ⟨program, args, timeout, rfl⟩

theorem Forgiven.command (h : Forgiven reading e) : ∃ program args timeout, e.1 = .run program args timeout := by
  obtain ⟨program, args, timeout, _, _, rfl, _⟩ := h
  exact ⟨program, args, _, rfl⟩

theorem not_handedOn_question (h : e.1.isQuestion = true) : ¬ HandedOn reading e := by
  intro hon
  obtain ⟨program, args, timeout, he⟩ := hon.command
  rw [he] at h
  cases h

theorem not_recorded_question (h : e.1.isQuestion = true) : e.1 ≠ .updateSuccess := by
  intro he
  rw [he] at h
  cases h

/-- The answer to a command whose failure is an answer. -/
theorem not_handedOn_optional {program : String} {args : List Arg} {timeout : Option Nat}
    {s : Except AnyhowError CommandOutput} (h : reading.optional program args) :
    ¬ HandedOn reading ⟨.run program args timeout, s⟩ := by
  rintro ⟨_, _, _, _, he, hopt, _⟩
  cases he
  exact hopt h

/-- The answer to another command: it is handed on exactly if it does not count as success. -/
theorem not_handedOn_answer {program : String} {args : List Arg} {timeout : Option Nat}
    {s : Except AnyhowError CommandOutput} (h : ¬ reading.optional program args) :
    ¬ HandedOn reading ⟨.run program args timeout, s⟩ ↔ (acceptExit (reading.accepts program args) s).isOk = true := by
  constructor
  · intro hon
    cases s with
    | ok output => rfl
    | error err =>
      by_contra hno
      exact hon ⟨program, args, timeout, err, rfl, h, Bool.eq_false_iff.2 hno⟩
  · rintro hok ⟨_, _, _, err, he, _, hfails⟩
    cases he
    rw [hok] at hfails
    cases hfails

end Events

/-! ## Operations that stand by their commands -/

section Rules

variable {α β : Type} {reading : Reading}

/-- The operation succeeds only if no failure is handed on. -/
def Strict (reading : Reading) (op : Op α) : Prop :=
  ∀ t r, Runs op.run t r → r.isOk = true → ∀ e ∈ t, ¬ HandedOn reading e

/-- The operation is strict, it succeeds when it overlooks a killed command, and when it records success. -/
structure Honors (reading : Reading) (op : Op α) : Prop where
  strict : Strict reading op
  overlooks : ∀ {t r}, Runs op.run t r → Overlooks reading t → r.isOk = true
  recorded : ∀ {t r}, Runs op.run t r → (∃ e ∈ t, e.1 = .updateSuccess) → r.isOk = true

/-- So it honours its deadlines exactly if it overlooks no killed command. -/
theorem Honors.deadline_iff {op : Op α} (h : Honors reading op) {t : List (Event Response)}
    {r : Except AnyhowError α} (hr : Runs op.run t r) : DeadlineHonored t r ↔ ¬ Overlooks reading t := by
  constructor
  · intro hhonored hover
    obtain ⟨e, he, hforgiven⟩ := hover.1
    obtain ⟨⟨err, rfl⟩, _⟩ := hhonored ⟨e, he, hforgiven.timedOut⟩
    have hok := h.overlooks hr hover
    cases hok
  · rintro hnot ⟨e, he, htimed⟩
    have hfails : r.isOk ≠ true := by
      intro hok
      have hnone := h.strict t r hr hok
      exact hnot ⟨⟨e, he, htimed.forgiven (hnone e he)⟩, hnone⟩
    refine ⟨?_, fun e' he' hrecord => hfails (h.recorded hr ⟨e', he', hrecord⟩)⟩
    cases r with
    | ok a => exact absurd rfl hfails
    | error err => exact ⟨err, rfl⟩

/-- The operation succeeds exactly if no failure is handed on, and it records no refresh. -/
def Exact (reading : Reading) (op : Op α) : Prop :=
  ∀ t r, Runs op.run t r →
    (r.isOk = true ↔ ∀ e ∈ t, ¬ HandedOn reading e) ∧ ∀ e ∈ t, e.1 ≠ .updateSuccess

theorem Exact.honors {op : Op α} (h : Exact reading op) : Honors reading op where
  strict t r hr := (h t r hr).1.1
  overlooks {t r} hr hover := (h t r hr).1.2 hover.2
  recorded {t r} hr hrecord := by
    obtain ⟨e, he, hsuccess⟩ := hrecord
    exact absurd hsuccess ((h t r hr).2 e he)

theorem isOk_map {f : α → β} {s : Except AnyhowError α} : (s.map f).isOk = s.isOk := by
  cases s <;> rfl

theorem Exact.pure (a : α) : Exact reading (pure a : Op α) := by
  intro t r h
  obtain ⟨rfl, rfl⟩ := runs_pure.1 h
  simp [Except.isOk, Except.toBool]

theorem Exact.silent {op : Op α} (h : Silent op) : Exact reading op := by
  intro t r hr
  obtain ⟨⟨a, rfl⟩, hquiet⟩ := h t r hr
  exact ⟨iff_of_true rfl fun e he => not_handedOn_question (hquiet e he),
    fun e he => not_recorded_question (hquiet e he)⟩

theorem Exact.bind {op : Op α} {f : α → Op β} (h : Exact reading op) (hf : ∀ a, Exact reading (f a)) :
    Exact reading (op >>= f) := by
  intro t r ht
  rcases runs_bindE.1 ht with ⟨err, h₁, rfl⟩ | ⟨t₁, t₂, a, rfl, h₁, h₂⟩
  · exact h t _ h₁
  · obtain ⟨hok₁, hno₁⟩ := h t₁ _ h₁
    obtain ⟨hok₂, hno₂⟩ := hf a t₂ r h₂
    have hfirst := hok₁.1 rfl
    constructor
    · rw [hok₂]
      constructor
      · intro hsecond e he
        exact (List.mem_append.1 he).elim (hfirst e) (hsecond e)
      · intro hall e he
        exact hall e (List.mem_append_right _ he)
    · intro e he
      exact (List.mem_append.1 he).elim (hno₁ e) (hno₂ e)

theorem Exact.handOn {op : Op α} (h : Exact reading op) (f : α → β) :
    Exact reading (do let a ← op; return f a : Op β) := .bind h fun _ => .pure _

theorem exact_acceptableExit {program : String} {args : List Arg} {codes : List Int} {timeout : Option Nat}
    (hcodes : reading.accepts program args = codes) (hopt : ¬ reading.optional program args) :
    Exact reading (runCommandWithAcceptableExit program args codes timeout) := by
  intro t r h
  obtain ⟨s, rfl, rfl⟩ := runs_acceptableExit.1 h
  constructor
  · simp only [List.forall_mem_singleton, not_handedOn_answer hopt, hcodes]
  · simp

theorem exact_runCommandTimed {program : String} {args : List Arg} {timeout : Nat}
    (hcodes : reading.accepts program args = []) (hopt : ¬ reading.optional program args) :
    Exact reading (runCommandTimed program args timeout) := by
  intro t r h
  obtain ⟨s, rfl, rfl⟩ := runs_runCommandTimed.1 h
  constructor
  · simp only [List.forall_mem_singleton, not_handedOn_answer hopt, hcodes, isOk_map]
    cases s with
    | ok output => simp [acceptExit, Except.isOk, Except.toBool]
    | error err =>
      have hnone : (acceptExit [] (.error err)).isOk ≠ true := by
        intro hok
        obtain ⟨_, _, _, _, hmem⟩ := acceptExit_isOk.1 hok
        cases hmem
      exact iff_of_false Bool.false_ne_true hnone
  · simp

/-- Tidying up after a failure does not change it. -/
theorem Exact.tidied {op : Op α} (h : Exact reading op) {tidy : AnyhowError → Op β}
    (htidy : ∀ err, Silent (tidy err)) {f : Except AnyhowError α → Op α} (hok : ∀ a, f (.ok a) = Pure.pure a)
    (herr : ∀ err, f (.error err) = do let _ ← tidy err; throw err) :
    Exact reading (do let s ← Fallible.attempt op; f s : Op α) := by
  intro t r hr
  obtain ⟨t₁, t₂, s, rfl, h₁, h₂⟩ := runs_attempt_bind.1 hr
  have hrest : r.isOk = s.isOk ∧ Quiet t₂ := by
    cases s with
    | ok a =>
      rw [hok] at h₂
      obtain ⟨rfl, rfl⟩ := runs_pure.1 h₂
      exact ⟨rfl, by simp [Quiet]⟩
    | error err =>
      rw [herr] at h₂
      rcases runs_bindE.1 h₂ with ⟨err', h₃, rfl⟩ | ⟨t₃, t₄, _, rfl, h₃, h₄⟩
      · obtain ⟨⟨_, he⟩, _⟩ := htidy err _ _ h₃
        cases he
      · obtain ⟨rfl, rfl⟩ := runs_pure.1 h₄
        exact ⟨rfl, by simpa using (htidy err _ _ h₃).2⟩
  obtain ⟨hsame, hquiet⟩ := hrest
  obtain ⟨hiff, hno⟩ := h t₁ s h₁
  constructor
  · rw [hsame, hiff]
    constructor
    · intro hall e he
      exact (List.mem_append.1 he).elim (hall e) fun he => not_handedOn_question (hquiet e he)
    · intro hall e he
      exact hall e (List.mem_append_left _ he)
  · intro e he
    exact (List.mem_append.1 he).elim (hno e) fun he => not_recorded_question (hquiet e he)

/-! ### Failures that are answers -/

/-- Whatever the answers, no failure is handed on, and no refresh is recorded. -/
def Lenient (reading : Reading) (op : Op α) : Prop :=
  Traced (fun t => ∀ e ∈ t, ¬ HandedOn reading e ∧ e.1 ≠ .updateSuccess) op.run

theorem Lenient.bind {op : Op α} {f : α → Op β} (h : Lenient reading op) (hf : ∀ a, Lenient reading (f a)) :
    Lenient reading (op >>= f) := .bindE (.forall_mem _) h hf

theorem Lenient.handOn {op : Op α} (h : Lenient reading op) (f : α → β) :
    Lenient reading (do let a ← op; return f a : Op β) := h.bind fun _ => .pure (.forall_mem _) _

theorem Lenient.silent {op : Op α} (h : Silent op) : Lenient reading op :=
  fun t r hr e he => ⟨not_handedOn_question ((h t r hr).2 e he), not_recorded_question ((h t r hr).2 e he)⟩

theorem lenient_runWithTimeout {program : String} {args : List Arg} {timeout : Option Nat}
    (hopt : reading.optional program args) : Lenient reading (runWithTimeout program args timeout) := by
  intro t r h
  rw [runs_runWithTimeout.1 h]
  simpa using not_handedOn_optional hopt

theorem lenient_runCommandTimed {program : String} {args : List Arg} {timeout : Nat}
    (hopt : reading.optional program args) : Lenient reading (runCommandTimed program args timeout) :=
  (lenient_runWithTimeout hopt).handOn _

theorem lenient_acceptableExit {program : String} {args : List Arg} {codes : List Int} {timeout : Option Nat}
    (hopt : reading.optional program args) :
    Lenient reading (runCommandWithAcceptableExit program args codes timeout) := by
  intro t r h
  obtain ⟨s, _, rfl⟩ := runs_acceptableExit.1 h
  simpa using not_handedOn_optional hopt

/-- A fallback for the failure of an operation. -/
theorem Exact.unwrapOr {op : Op α} (h : Lenient reading op) (fallback : α) :
    Exact reading (unwrapOr fallback op) := by
  intro t r hr
  obtain ⟨s, rfl, hs⟩ := runs_unwrapOr.1 hr
  exact ⟨iff_of_true rfl fun e he => (h t s hs e he).1, fun e he => (h t s hs e he).2⟩

theorem exact_tryRun {program : String} {args : List Arg} (hopt : reading.optional program args) :
    Exact reading (tryRun program args) := .unwrapOr ((lenient_runWithTimeout hopt).handOn _) _

/-- What goes on after an operation whose failure is looked at. -/
theorem Exact.attempt {op : Op α} {f : Except AnyhowError α → Op β} (h : Lenient reading op)
    (hf : ∀ s, Exact reading (f s)) : Exact reading (do let s ← Fallible.attempt op; f s : Op β) := by
  intro t r hr
  obtain ⟨t₁, t₂, s, rfl, h₁, h₂⟩ := runs_attempt_bind.1 hr
  obtain ⟨hiff, hno⟩ := hf s t₂ r h₂
  constructor
  · rw [hiff]
    constructor
    · intro hall e he
      exact (List.mem_append.1 he).elim (fun he => (h t₁ s h₁ e he).1) (hall e)
    · intro hall e he
      exact hall e (List.mem_append_right _ he)
  · intro e he
    exact (List.mem_append.1 he).elim (fun he => (h t₁ s h₁ e he).2) (hno e)

/-! ### Failures that have other causes too -/

theorem Strict.pure (a : α) : Strict reading (pure a : Op α) := (Exact.pure a).honors.strict

theorem Strict.throw (err : AnyhowError) : Strict reading (throw err : Op α) := by
  intro t r h hok
  obtain ⟨_, rfl⟩ := runs_pure.1 h
  cases hok

theorem Strict.silent {op : Op α} (h : Silent op) : Strict reading op := (Exact.silent h).honors.strict

theorem Strict.bind {op : Op α} {f : α → Op β} (h : Strict reading op) (hf : ∀ a, Strict reading (f a)) :
    Strict reading (op >>= f) := by
  intro t r ht hok e he
  rcases runs_bindE.1 ht with ⟨err, _, rfl⟩ | ⟨t₁, t₂, a, rfl, h₁, h₂⟩
  · cases hok
  · rcases List.mem_append.1 he with he | he
    · exact h t₁ _ h₁ rfl e he
    · exact hf a t₂ r h₂ hok e he

/-- The failure of the first part is looked at, but then the whole fails. -/
theorem Strict.attempt {op : Op α} {f : Except AnyhowError α → Op β} (h : Strict reading op)
    (hok : ∀ a, Strict reading (f (.ok a)))
    (herr : ∀ err t r, Runs (f (.error err)).run t r → r.isOk ≠ true) :
    Strict reading (do let s ← Fallible.attempt op; f s) := by
  intro t r ht hr e he
  obtain ⟨t₁, t₂, s, rfl, h₁, h₂⟩ := runs_attempt_bind.1 ht
  cases s with
  | error err => exact absurd hr (herr err t₂ r h₂)
  | ok a =>
    rcases List.mem_append.1 he with he | he
    · exact h t₁ _ h₁ rfl e he
    · exact hok a t₂ r h₂ hr e he

theorem strict_runWithTimeout {program : String} {args : List Arg} {timeout : Option Nat} :
    Strict reading (runWithTimeout program args timeout) := by
  intro t r h hok e he
  rw [runs_runWithTimeout.1 h] at he
  rw [List.mem_singleton.1 he]
  rintro ⟨_, _, _, err, heq, _, _⟩
  cases heq
  cases hok

theorem strict_runCommandTimed {program : String} {args : List Arg} {timeout : Nat} :
    Strict reading (runCommandTimed program args timeout) :=
  .bind strict_runWithTimeout fun _ => .pure _

/-- Of every event: its command is not optional, no exit code but 0 is accepted, and no refresh is recorded. -/
def Plain (reading : Reading) (e : Event Response) : Prop :=
  e.1 ≠ .updateSuccess ∧ ∀ program args timeout, e.1 = .run program args timeout →
    ¬ reading.optional program args ∧ reading.accepts program args = []

theorem Strict.honors {op : Op α} (h : Strict reading op)
    (hplain : Traced (fun t => ∀ e ∈ t, Plain reading e) op.run) : Honors reading op where
  strict := h
  overlooks := by
    rintro t r hr ⟨⟨e, he, hforgiven⟩, _⟩
    obtain ⟨program, args, timeout, err, ce, rfl, _, _, hwhy⟩ := hforgiven
    obtain ⟨hopt, hcodes⟩ := (hplain t r hr _ he).2 program args _ rfl
    rcases hwhy with hwhy | ⟨code, _, hmem⟩
    · exact absurd hwhy hopt
    · rw [hcodes] at hmem
      cases hmem
  recorded := by
    rintro t r hr ⟨e, he, hrecord⟩
    exact absurd hrecord (hplain t r hr e he).1

theorem plain_command {program : String} {args : List Arg} {timeout : Option Nat}
    {answer : Except AnyhowError CommandOutput} (hopt : ¬ reading.optional program args)
    (hcodes : reading.accepts program args = []) : Plain reading ⟨.run program args timeout, answer⟩ := by
  constructor
  · intro he
    cases he
  · intro program' args' timeout' he
    cases he
    exact ⟨hopt, hcodes⟩

/-- An operation that fails without a command. -/
theorem honors_throw (err : AnyhowError) : Honors reading (throw err : Op α) := by
  refine (Strict.throw err).honors fun t r h => ?_
  obtain ⟨rfl, _⟩ := runs_pure.1 h
  simp

/-! ### What is done with the outcome -/

/-- What an operation does after the one that it is built on: no commands, and success is recorded only after
success. -/
def Follows (ok : Bool) (t : List (Event Response)) : Prop :=
  ∀ e ∈ t, (∀ program args timeout, e.1 ≠ .run program args timeout) ∧ (e.1 = .updateSuccess → ok = true)

theorem Honors.followed {op : Op α} {op' : Op β} (h : Honors reading op)
    (hrun : ∀ {t r}, Runs op'.run t r → ∃ t₁ t₂ s, t = t₁ ++ t₂ ∧ Runs op.run t₁ s ∧ r.isOk = s.isOk ∧
      Follows s.isOk t₂) : Honors reading op' := by
  refine ⟨?_, ?_, ?_⟩
  · intro t r hr hok e he hon
    obtain ⟨t₁, t₂, s, rfl, h₁, hrs, hfollows⟩ := hrun hr
    rcases List.mem_append.1 he with he | he
    · exact h.strict t₁ s h₁ (hrs ▸ hok) e he hon
    · obtain ⟨program, args, timeout, heq⟩ := hon.command
      exact (hfollows e he).1 program args timeout heq
  · rintro t r hr ⟨⟨e, he, hforgiven⟩, hnone⟩
    obtain ⟨t₁, t₂, s, rfl, h₁, hrs, hfollows⟩ := hrun hr
    rw [hrs]
    refine h.overlooks h₁ ⟨⟨e, ?_, hforgiven⟩, fun e' he' => hnone e' (List.mem_append_left _ he')⟩
    refine (List.mem_append.1 he).resolve_right fun he => ?_
    obtain ⟨program, args, timeout, heq⟩ := hforgiven.command
    exact (hfollows e he).1 program args timeout heq
  · rintro t r hr ⟨e, he, hrecord⟩
    obtain ⟨t₁, t₂, s, rfl, h₁, hrs, hfollows⟩ := hrun hr
    rw [hrs]
    rcases List.mem_append.1 he with he | he
    · exact h.recorded h₁ ⟨e, he, hrecord⟩
    · exact (hfollows e he).2 hrecord

theorem Honors.handOn {op : Op α} (h : Honors reading op) (f : α → β) :
    Honors reading (do let a ← op; return f a : Op β) := by
  refine h.followed fun {t r} hr => ?_
  obtain ⟨s, rfl, hs⟩ := runs_handOn.1 hr
  exact ⟨t, [], s, by simp, hs, isOk_map, by simp [Follows]⟩

/-- A refresh that records its outcome. -/
theorem Honors.recordRefresh {refresh : Op String} (h : Honors reading refresh) (label : String) :
    Honors reading (recordRefresh label refresh) := by
  refine h.followed fun {t r} hr => ?_
  obtain ⟨t₁, t₂, s, rfl, h₁, h₂⟩ := runs_attempt_bind.1 hr
  refine ⟨t₁, t₂, s, rfl, h₁, ?_⟩
  cases s with
  | ok output =>
    rcases runs_bindE.1 h₂ with ⟨_, h₃, _⟩ | ⟨t₃, t₄, _, rfl, h₃, h₄⟩
    · obtain ⟨_, he, _⟩ := runs_ask.1 h₃
      cases he
    · obtain ⟨_, _, rfl⟩ := runs_ask.1 h₃
      obtain ⟨rfl, rfl⟩ := runs_pure.1 h₄
      exact ⟨rfl, by simp [Follows, Except.isOk, Except.toBool]⟩
  | error err =>
    rcases runs_bindE.1 h₂ with ⟨_, h₃, _⟩ | ⟨t₃, t₄, _, rfl, h₃, h₄⟩
    · obtain ⟨_, he, _⟩ := runs_ask.1 h₃
      cases he
    · obtain ⟨_, _, rfl⟩ := runs_ask.1 h₃
      obtain ⟨rfl, rfl⟩ := runs_pure.1 h₄
      exact ⟨rfl, by simp [Follows]⟩

end Rules

/-! ## The helpers -/

namespace PacmanBackend

variable {reading : Reading} {args : List Arg} {codes : List Int}

theorem silent_waitRound {slept : Nat} {again : Op Unit} (h : Silent again) : Silent (waitRound slept again) := by
  refine .bind (.relay rfl) fun there => ?_
  split
  · refine .bind (.ask rfl) fun waited => ?_
    split
    · exact .bind (.ask rfl) fun _ => .pure _
    · exact .bind (.ask rfl) fun _ => h
  · exact .pure _

theorem silent_waitForLock : ∀ n : Nat, Silent (waitForLock n)
  | 0 => silent_waitRound (.pure _)
  | n + 1 => silent_waitRound (silent_waitForLock n)

theorem silent_waitWhileLocked : Silent waitWhileLocked := by
  refine .bind (.relay rfl) fun there => ?_
  split
  · exact silent_waitForLock 12
  · exact .pure _

theorem silent_removeLockAfterTimeout (err : AnyhowError) : Silent (removeLockAfterTimeout err) := by
  unfold removeLockAfterTimeout
  split
  · exact .bind (.ask rfl) fun _ => .pure _
  · exact .pure _

theorem exact_runPacman (hcodes : reading.accepts "pacman" args = codes) (hopt : ¬ reading.optional "pacman" args) :
    Exact reading (runPacmanWithAcceptableExit args codes) :=
  .bind (.silent silent_waitWhileLocked) fun _ =>
    (exact_acceptableExit hcodes hopt).tidied silent_removeLockAfterTimeout (fun _ => rfl) fun _ => rfl

theorem lenient_runPacman (hopt : reading.optional "pacman" args) :
    Lenient reading (runPacmanWithAcceptableExit args codes) := by
  refine .bind (.silent silent_waitWhileLocked) fun _ => ?_
  refine .bind (Traced.attempt (.forall_mem _) (lenient_acceptableExit hopt)) fun s => ?_
  cases s with
  | ok output => exact Traced.pure (.forall_mem _) _
  | error err => exact .bind (.silent (silent_removeLockAfterTimeout err)) fun _ => Traced.pure (.forall_mem _) _

end PacmanBackend

namespace AptBackend

variable {reading : Reading}

theorem strict_ensureDpkgClean : Strict reading ensureDpkgClean := by
  refine .bind (.silent (silent_cleanupLocks _)) fun _ => ?_
  refine .attempt strict_runCommandTimed (fun _ => .pure _) fun err t r h => ?_
  obtain ⟨_, rfl⟩ := runs_pure.1 h
  exact Bool.false_ne_true

theorem strict_verifyDpkgClean : Strict reading verifyDpkgClean := by
  refine .bind strict_runCommandTimed fun output => ?_
  split
  · exact .pure _
  refine .bind strict_ensureDpkgClean fun _ => .bind strict_runCommandTimed fun recheck => ?_
  split
  · exact .pure _
  · exact .throw _

theorem strict_runApt (args : List Arg) : Strict reading (runApt args) := by
  have hfails {err : AnyhowError} {t : List (Event Response)} {r : Except AnyhowError String}
      (h : Runs (do let _ ← Fallible.attempt ensureDpkgClean; throw err : Op String).run t r) : r.isOk ≠ true := by
    obtain ⟨t₁, t₂, s, rfl, _, h₂⟩ := runs_attempt_bind.1 h
    obtain ⟨_, rfl⟩ := runs_pure.1 h₂
    exact Bool.false_ne_true
  refine .bind (.silent (.ask rfl)) fun locked => ?_
  split
  swap
  · exact .throw _
  refine .bind strict_ensureDpkgClean fun _ => ?_
  refine .attempt strict_runWithTimeout (fun output => ?_) fun err t r h => hfails h
  unfold afterAptGet
  simp only
  split
  · exact .bind strict_verifyDpkgClean fun _ => .pure _
  · exact fun t r h hok => absurd hok (hfails h)

end AptBackend

/-! ## How the operations read failures -/

/-- The exit codes that the operations accept: `check-update` exits with 100 when there are updates, and `pacman -Qu`
with 1 when there are none. -/
def acceptableCodes : Acceptable := fun program args =>
  if program = "pacman" then if args = ["-Qu"] then [0, 1] else [0]
  else if program = "dnf" ∧ (args = ["check-update", "--refresh"] ∨ args = ["check-update", "-q"]) then [0, 100]
  else if program = "yum" ∧ args = ["check-update", "-q"] then [0, 100]
  else []

/-- No failure is an answer. -/
def plainReading : Reading where
  accepts := acceptableCodes

/-- The commands of `get_package` whose failure is its failure. -/
def decisiveQueries (name : String) : BackendKind → List (String × List Arg)
  | .apt => [("apt", ["list", .request name])]
  | .apk => [("apk", ["list", "--installed", .request name]), ("apk", ["info", "-a", .request name])]
  | .dnf | .yum => [("rpm", ["-qi", .request name])]
  | .pacman => [("pacman", ["-Qi", .request name])]

/-- `get_package` takes the failure of every other command for an answer: not installed, or no update. -/
def packageReading (kind : BackendKind) (name : String) : Reading where
  accepts := acceptableCodes
  optional program args := (program, args) ∉ decisiveQueries name kind

/-- `list_patches` of DNF and YUM looks up the installed versions with `rpm`, and an empty text stands for a failure. -/
def patchReading : Reading where
  accepts := acceptableCodes
  optional program _ := program = "rpm"

/-- The queries for versions take every failure for "no version". -/
def versionReading : Reading where
  accepts := acceptableCodes
  optional _ _ := True

section Queries

variable {name : String}

theorem exact_aptPackage : Exact (packageReading .apt name) (AptBackend.getPackage name) := by
  refine .attempt (lenient_runCommandTimed (by simp [packageReading, decisiveQueries])) fun s => ?_
  cases s with
  | error err => exact .handOn (exact_runCommandTimed rfl (by simp [packageReading, decisiveQueries])) _
  | ok dpkgInfo =>
    refine .bind (.unwrapOr (.handOn (lenient_runCommandTimed (by simp [packageReading, decisiveQueries])) _) _)
      fun upgradable => ?_
    split
    · exact .handOn (.unwrapOr (.handOn (lenient_runCommandTimed (by simp [packageReading, decisiveQueries])) _) _) _
    · exact .pure _

theorem exact_apkPackage : Exact (packageReading .apk name) (ApkBackend.lookUpPackage name) := by
  refine .bind (exact_runCommandTimed rfl (by simp [packageReading, decisiveQueries])) fun listOutput => ?_
  split
  · refine .bind (exact_runCommandTimed rfl (by simp [packageReading, decisiveQueries])) fun infoOutput => ?_
    refine .bind (.unwrapOr (.handOn (lenient_runCommandTimed (by simp [packageReading, decisiveQueries])) _) _)
      fun upgradable => ?_
    split
    · exact .handOn (.unwrapOr (.handOn (lenient_runCommandTimed (by simp [packageReading, decisiveQueries])) _) _) _
    · exact .pure _
  · exact .unwrapOr (.handOn (lenient_runCommandTimed (by simp [packageReading, decisiveQueries])) _) _

/-- DNF and YUM ask with the same commands. -/
theorem exact_rpmPackage {reading : Reading} {tool : String}
    (hcodes : reading.accepts "rpm" ["-qi", .request name] = [])
    (hopt : ∀ program args,
      reading.optional program args ↔ ¬ (program = "rpm" ∧ args = (["-qi", .request name] : List Arg))) :
    Exact reading (Rpm.lookUpPackage tool name) := by
  refine .attempt (lenient_runCommandTimed ((hopt _ _).2 (by simp))) fun s => ?_
  cases s with
  | error err =>
    refine .bind (exact_tryRun ((hopt _ _).2 (by simp))) fun output => ?_
    cases output with
    | none => exact .pure _
    | some output =>
      simp only
      split
      · exact .pure _
      · exact .pure _
  | ok _ =>
    refine .bind (exact_runCommandTimed hcodes fun h => (hopt _ _).1 h ⟨rfl, rfl⟩) fun infoOutput => ?_
    have hcheck (fullVersion : String) : Exact reading (Rpm.checkUpdate tool name fullVersion) := by
      refine .bind (exact_tryRun ((hopt _ _).2 (by simp))) fun output => ?_
      cases output with
      | none => exact .pure _
      | some output =>
        simp only
        split
        · exact .pure _
        · exact .pure _
    exact .bind (hcheck _) fun _ =>
      .handOn (.unwrapOr (.handOn (lenient_runCommandTimed ((hopt _ _).2 (by simp))) _) _) _

theorem exact_pacmanPackage : Exact (packageReading .pacman name) (PacmanBackend.lookUpPackage name) := by
  refine .attempt (PacmanBackend.lenient_runPacman (by simp [packageReading, decisiveQueries])) fun s => ?_
  cases s with
  | error err =>
    refine .bind (exact_tryRun (by simp [packageReading, decisiveQueries])) fun output => ?_
    cases output with
    | none => exact .pure _
    | some output =>
      simp only
      split
      · exact .pure _
      · exact .pure _
  | ok _ =>
    refine .bind (PacmanBackend.exact_runPacman rfl (by simp [packageReading, decisiveQueries])) fun infoOutput => ?_
    refine .bind (.unwrapOr (.handOn (PacmanBackend.lenient_runPacman (by simp [packageReading, decisiveQueries])) _) _)
      fun upgradable => ?_
    split
    · exact .handOn
        (.unwrapOr (.handOn (PacmanBackend.lenient_runPacman (by simp [packageReading, decisiveQueries])) _) _) _
    · exact .pure _

theorem honors_checkedName {reading : Reading} {query : Op (Option Package)} (h : Exact reading query) :
    Honors reading (checkedName name query) := by
  unfold checkedName
  split
  · exact honors_throw _
  · exact h.honors

theorem honors_getPackage (kind : BackendKind) : Honors (packageReading kind name) (kind.backend.getPackage name) := by
  cases kind with
  | apt => exact exact_aptPackage.honors
  | apk => exact honors_checkedName exact_apkPackage
  | dnf | yum =>
    refine honors_checkedName (exact_rpmPackage rfl fun program args => ?_)
    simp [packageReading, decisiveQueries]
  | pacman => exact honors_checkedName exact_pacmanPackage

theorem exact_rpmPatches {tool : String} (htool : tool = "dnf" ∨ tool = "yum") :
    Exact patchReading (Rpm.listPatches tool) := by
  have hline (line : String) : Exact patchReading (Rpm.patchOfLine line) := by
    unfold Rpm.patchOfLine
    split
    · exact .handOn (.unwrapOr (lenient_runCommandTimed rfl) _) _
    · exact .pure _
  have hlines (list : List String) : Exact patchReading (Rpm.patchesOfLines list) := by
    induction list with
    | nil => exact .pure _
    | cons line rest ih => exact .bind (hline line) fun _ => .handOn ih _
  refine .bind (exact_acceptableExit ?_ ?_) fun stdout => hlines _
  · rcases htool with rfl | rfl <;> rfl
  · rcases htool with rfl | rfl <;> simp [patchReading]

theorem exact_listPatches (kind : BackendKind) : Exact patchReading kind.backend.listPatches := by
  cases kind with
  | apt | apk => exact .handOn (exact_runCommandTimed rfl (by simp [patchReading])) _
  | pacman => exact .handOn (PacmanBackend.exact_runPacman rfl (by simp [patchReading])) _
  | dnf => exact exact_rpmPatches (.inl rfl)
  | yum => exact exact_rpmPatches (.inr rfl)

theorem exact_getInstalledVersion (kind : BackendKind) :
    Exact versionReading (kind.backend.getInstalledVersion name) := by
  cases kind with
  | apt | apk | dnf | yum => exact .unwrapOr (.handOn (lenient_runCommandTimed trivial) _) _
  | pacman => exact .unwrapOr (.handOn (PacmanBackend.lenient_runPacman trivial) _) _

theorem exact_getCandidateVersion (kind : BackendKind) :
    Exact versionReading (kind.backend.getCandidateVersion name) := by
  cases kind with
  | apt | apk => exact .unwrapOr (.handOn (lenient_runCommandTimed trivial) _) _
  | dnf | yum | pacman =>
    refine .bind (exact_tryRun trivial) fun output => ?_
    cases output with
    | none => exact .pure _
    | some output =>
      simp only
      split
      · exact .pure _
      · exact .pure _

end Queries

/-! ## Another attempt -/

namespace AptBackend

/-- `apt-mark showhold`, which only the fallback for held packages asks. -/
abbrev showHold : Effect := .run "apt-mark" ["showhold"] (some quickOpTimeout)

/-- A command was killed at its deadline, but the last command is an audit that found nothing, and there was no
fallback. -/
def PatchedAnyway (t : List (Event Response)) : Prop :=
  (∃ e ∈ t, TimedOut e) ∧ EndsAudited t ∧ ∀ e ∈ t, e.1 ≠ showHold

section Attempts

variable {α : Type} {t t₁ t₂ : List (Event Response)} {e : Event Response} {args : List Arg}

theorem trim_of_blank {s : String} (h : Blank s) : (trim s).isEmpty = true := by
  have hdrop : s.toList.dropWhile isWhitespace = [] := List.dropWhile_eq_nil_iff.2 h
  simp [trim, hdrop]

theorem EndsAudited.last (h : EndsAudited (t ++ [e])) :
    ∃ output : CommandOutput, e = ⟨audit, .ok output⟩ ∧ Blank output.stdout := by
  obtain ⟨front, output, heq, hblank⟩ := h
  obtain ⟨_, hlast⟩ := List.append_inj' heq rfl
  exact ⟨output, by simpa using hlast, hblank⟩

theorem endsAudited_append (hne : t₂ ≠ []) : EndsAudited (t₁ ++ t₂) ↔ EndsAudited t₂ := by
  refine ⟨fun h => ?_, EndsAudited.prepend t₁⟩
  obtain ⟨front, e, rfl⟩ := t₂.eq_nil_or_concat'.resolve_left hne
  rw [← List.append_assoc] at h
  obtain ⟨output, rfl, hblank⟩ := h.last
  exact ⟨front, output, rfl, hblank⟩

/-- The trace ends with an audit that finds nothing exactly if the outcome is a success. -/
structure Audited (t : List (Event Response)) (r : Except AnyhowError α) : Prop where
  ne_nil : t ≠ []
  isOk_iff : r.isOk = true ↔ EndsAudited t

theorem Audited.prepend {r : Except AnyhowError α} (g : List (Event Response)) (h : Audited t r) :
    Audited (g ++ t) r where
  ne_nil := by simp [h.ne_nil]
  isOk_iff := h.isOk_iff.trans (endsAudited_append h.ne_nil).symm

theorem Audited.congr {β : Type} {s : Except AnyhowError β} {r : Except AnyhowError α} (h : Audited t s)
    (hsame : r.isOk = s.isOk) : Audited t r := ⟨h.ne_nil, by rw [hsame, h.isOk_iff]⟩

/-- A failure, when the last answer is not that of an audit that found nothing. -/
theorem audited_failed {err : AnyhowError}
    (h : ∀ output : CommandOutput, e = ⟨audit, .ok output⟩ → ¬ Blank output.stdout) :
    Audited (t ++ [e]) (.error err : Except AnyhowError α) := by
  refine ⟨by simp, iff_of_false Bool.false_ne_true fun hends => ?_⟩
  obtain ⟨output, he, hblank⟩ := hends.last
  exact h output he hblank

theorem audited_configure {err : AnyhowError} (asks : List (Event Response)) (s : Except AnyhowError CommandOutput) :
    Audited (asks ++ [⟨configure, s⟩]) (.error err : Except AnyhowError α) := by
  refine audited_failed fun output he => ?_
  have heffect : configure = audit := congrArg Sigma.fst he
  simp at heffect

theorem audited_recheckDpkg {r : Except AnyhowError Unit} (h : Runs recheckDpkg.run t r) : Audited t r := by
  rcases runs_bindE.1 h with ⟨err, h₁, rfl⟩ | ⟨t₁, t₂, text, rfl, h₁, h₂⟩
  · obtain ⟨s, hs, rfl⟩ := runs_runCommandTimed.1 h₁
    refine audited_failed (t := []) fun output he => ?_
    cases he
    cases hs
  · obtain ⟨s, hs, rfl⟩ := runs_runCommandTimed.1 h₁
    split at h₂
    next hblank =>
      obtain ⟨rfl, rfl⟩ := runs_pure.1 h₂
      exact ⟨by simp, iff_of_true rfl (endsAudited_recheckDpkg h)⟩
    next hblank =>
      obtain ⟨rfl, rfl⟩ := runs_pure.1 h₂
      rw [List.append_nil]
      refine audited_failed (t := []) fun output he hempty => hblank ?_
      cases he
      cases hs
      exact trim_of_blank hempty

theorem audited_verifyDpkgClean {r : Except AnyhowError Unit} (h : Runs verifyDpkgClean.run t r) : Audited t r := by
  rcases runs_bindE.1 h with ⟨err, h₁, rfl⟩ | ⟨t₁, t₂, text, rfl, h₁, h₂⟩
  · obtain ⟨s, hs, rfl⟩ := runs_runCommandTimed.1 h₁
    refine audited_failed (t := []) fun output he => ?_
    cases he
    cases hs
  · split at h₂
    next hblank =>
      obtain ⟨rfl, rfl⟩ := runs_pure.1 h₂
      obtain ⟨s, hs, rfl⟩ := runs_runCommandTimed.1 h₁
      exact ⟨by simp, iff_of_true rfl (endsAudited_verifyDpkgClean h)⟩
    next =>
      rcases runs_bindE.1 h₂ with ⟨err, h₃, rfl⟩ | ⟨t₃, t₄, _, rfl, _, h₄⟩
      · obtain ⟨asks, s, rfl, _, _⟩ := runs_ensureDpkgClean h₃
        exact (audited_configure asks s).prepend t₁
      · exact ((audited_recheckDpkg h₄).prepend t₃).prepend t₁

/-- A call of `run_apt_safe` succeeds exactly if it ends with an audit that finds nothing. -/
theorem audited_runApt {r : Except AnyhowError String} (h : Runs (runApt args).run t r) : Audited t r := by
  rcases runs_bindE.1 h with ⟨_, h₁, _⟩ | ⟨t₁, t₂, locked, rfl, h₁, h₂⟩
  · obtain ⟨_, he, _⟩ := runs_ask.1 h₁
    cases he
  obtain ⟨s, _, rfl⟩ := runs_ask.1 h₁
  split at h₂
  swap
  · obtain ⟨rfl, rfl⟩ := runs_pure.1 h₂
    rw [List.append_nil]
    refine audited_failed (t := []) fun output he => ?_
    cases he
  refine .prepend _ ?_
  rcases runs_bindE.1 h₂ with ⟨e, h₃, rfl⟩ | ⟨t₃, t₄, _, rfl, _, h₄⟩
  · obtain ⟨asks, s, rfl, _, _⟩ := runs_ensureDpkgClean h₃
    exact audited_configure asks s
  obtain ⟨t₅, t₆, answer, rfl, _, h₆⟩ := runs_attempt_bind.1 h₄
  refine .prepend _ (.prepend _ ?_)
  rcases runs_afterAptGet h₆ with ⟨_, ⟨e, rfl⟩, asks, cleaned, rfl, _⟩ | ⟨output, s', _, _, hcheck, rfl⟩
  · exact audited_configure asks cleaned
  · exact (audited_verifyDpkgClean hcheck).congr isOk_map

/-! ### `apply_patches` -/

/-- Of every event: neither the question of the fallback nor the record of a refresh. -/
def Usual (e : Event Response) : Prop := e.1 ≠ showHold ∧ e.1 ≠ .updateSuccess

theorem usual_question (h : e.1.isQuestion = true) : Usual e := by
  constructor
  · intro he
    rw [he] at h
    cases h
  · exact not_recorded_question h

theorem usual_runApt : Traced (fun t => ∀ e ∈ t, Usual e) (runApt args).run := by
  have hdpkg : DpkgEvents Usual := ⟨fun _ => usual_question, by simp [Usual], by simp [Usual]⟩
  exact hdpkg.runApt (by simp [Usual])

/-- Success exactly with an audit that finds nothing at the end, and without the fallback. -/
structure Patching (t : List (Event Response)) (r : Except AnyhowError Unit) : Prop where
  ne_nil : t ≠ []
  isOk_iff : r.isOk = true ↔ EndsAudited t ∧ ∀ e ∈ t, e.1 ≠ showHold
  unrecorded : ∀ e ∈ t, e.1 ≠ .updateSuccess

theorem Audited.patching {s : Except AnyhowError α} {r : Except AnyhowError Unit} (h : Audited t s)
    (hsame : r.isOk = s.isOk) (husual : ∀ e ∈ t, Usual e) : Patching t r where
  ne_nil := h.ne_nil
  isOk_iff := by rw [hsame, h.isOk_iff, and_iff_left fun e he => (husual e he).1]
  unrecorded e he := (husual e he).2

theorem Patching.prepend {r : Except AnyhowError Unit} (husual : ∀ e ∈ t₁, Usual e) (h : Patching t₂ r) :
    Patching (t₁ ++ t₂) r where
  ne_nil := by simp [h.ne_nil]
  isOk_iff := by
    rw [h.isOk_iff, endsAudited_append h.ne_nil, List.forall_mem_append, and_iff_right fun e he => (husual e he).1]
  unrecorded e he := (List.mem_append.1 he).elim (fun he => (husual e he).2) (h.unrecorded e)

theorem audited_fixBroken {failure : String} {r : Except AnyhowError Unit} (h : Runs (fixBroken failure).run t r) :
    Audited t r ∧ ∀ e ∈ t, Usual e := by
  obtain ⟨t₁, t₂, s, rfl, h₁, h₂⟩ := runs_attempt_bind.1 h
  have haudited := audited_runApt h₁
  have husual := usual_runApt _ _ h₁
  have hsame : t₂ = [] ∧ r.isOk = s.isOk := by
    cases s <;> obtain ⟨rfl, rfl⟩ := runs_pure.1 h₂ <;> exact ⟨rfl, rfl⟩
  obtain ⟨rfl, hsame⟩ := hsame
  rw [List.append_nil]
  exact ⟨haudited.congr hsame, husual⟩

/-- The fallback always fails. -/
theorem patching_heldFallback {failure : String} {r : Except AnyhowError Unit}
    (h : Runs (heldFallback failure).run t r) : Patching t r := by
  obtain ⟨t₁, t₂, s, rfl, h₁, h₂⟩ := runs_attempt_bind.1 h
  have hfails : t₂ = [] ∧ r.isOk = false := by
    cases s <;> obtain ⟨rfl, rfl⟩ := runs_pure.1 h₂ <;> exact ⟨rfl, rfl⟩
  obtain ⟨rfl, hfails⟩ := hfails
  have hheld : (∃ answer : Response showHold, ⟨showHold, answer⟩ ∈ t₁) ∧ ∀ e ∈ t₁, e.1 ≠ .updateSuccess := by
    rcases runs_bindE.1 h₁ with ⟨err, h₃, _⟩ | ⟨t₃, t₄, _, rfl, h₃, h₄⟩
    · obtain ⟨_, hs, _⟩ := runs_unwrapOr.1 h₃
      cases hs
    obtain ⟨s', _, h₅⟩ := runs_unwrapOr.1 h₃
    obtain ⟨answer, _, rfl⟩ := runs_runCommandTimed.1 h₅
    obtain ⟨s'', _, h₆⟩ := runs_handOn.1 h₄
    refine ⟨⟨answer, by simp⟩, fun e he => ?_⟩
    rcases List.mem_append.1 he with he | he
    · rw [List.mem_singleton.1 he]
      simp
    · exact (usual_runApt _ _ h₆ e he).2
  obtain ⟨⟨answer, hmem⟩, hno⟩ := hheld
  rw [List.append_nil]
  refine ⟨List.ne_nil_of_mem hmem, iff_of_false (by simp [hfails]) fun hends => ?_, hno⟩
  exact hends.2 _ hmem rfl

theorem patching_retryPatches {packages : Option (List String)} {r : Except AnyhowError Unit}
    (h : Runs (retryPatches packages args).run t r) : Patching t r := by
  rcases runs_bindE.1 h with ⟨err, h₁, rfl⟩ | ⟨t₁, t₂, _, rfl, h₁, h₂⟩
  · obtain ⟨haudited, husual⟩ := audited_fixBroken h₁
    exact haudited.patching rfl husual
  refine .prepend (audited_fixBroken h₁).2 ?_
  obtain ⟨t₃, t₄, s, rfl, h₃, h₄⟩ := runs_attempt_bind.1 h₂
  have haudited := audited_runApt h₃
  have husual := usual_runApt _ _ h₃
  cases s with
  | ok _ =>
    obtain ⟨rfl, rfl⟩ := runs_pure.1 h₄
    rw [List.append_nil]
    exact haudited.patching rfl husual
  | error err =>
    simp only at h₄
    split at h₄
    · exact .prepend husual (patching_heldFallback h₄)
    · obtain ⟨rfl, rfl⟩ := runs_pure.1 h₄
      rw [List.append_nil]
      exact haudited.patching rfl husual

theorem patching_attemptPatches {packages : Option (List String)} {r : Except AnyhowError Unit}
    (h : Runs (attemptPatches packages args).run t r) : Patching t r := by
  obtain ⟨t₁, t₂, s, rfl, h₁, h₂⟩ := runs_attempt_bind.1 h
  have haudited := audited_runApt h₁
  have husual := usual_runApt _ _ h₁
  cases s with
  | ok _ =>
    obtain ⟨rfl, rfl⟩ := runs_pure.1 h₂
    rw [List.append_nil]
    exact haudited.patching rfl husual
  | error err =>
    simp only at h₂
    split at h₂
    · exact .prepend husual (patching_heldFallback h₂)
    split at h₂
    · exact .prepend husual (patching_retryPatches h₂)
    · obtain ⟨rfl, rfl⟩ := runs_pure.1 h₂
      rw [List.append_nil]
      exact haudited.patching rfl husual

theorem patching_applyPatches {packages : Option (List String)} {r : Except AnyhowError Unit}
    (h : Runs (applyPatches packages).run t r) : Patching t r := by
  cases packages with
  | some pkgs =>
    rcases runs_bindE.1 h with ⟨err, h₁, _⟩ | ⟨t₁, t₂, _, rfl, h₁, h₂⟩
    · obtain ⟨_, he⟩ := runs_pure.1 h₁
      cases he
    · obtain ⟨rfl, _⟩ := runs_pure.1 h₁
      exact patching_attemptPatches h₂
  | none =>
    rcases runs_bindE.1 h with ⟨err, h₁, rfl⟩ | ⟨t₁, t₂, _, rfl, h₁, h₂⟩
    · obtain ⟨haudited, husual⟩ := audited_fixBroken h₁
      exact haudited.patching rfl husual
    · exact .prepend (audited_fixBroken h₁).2 (patching_attemptPatches h₂)

theorem Patching.deadline_iff {r : Except AnyhowError Unit} (h : Patching t r) :
    DeadlineHonored t r ↔ ¬ PatchedAnyway t := by
  constructor
  · rintro hhonored ⟨hkilled, hends⟩
    obtain ⟨⟨err, rfl⟩, _⟩ := hhonored hkilled
    have hok := h.isOk_iff.2 hends
    cases hok
  · intro hnot hkilled
    refine ⟨?_, h.unrecorded⟩
    cases r with
    | ok _ => exact absurd ⟨hkilled, h.isOk_iff.1 rfl⟩ hnot
    | error err => exact ⟨err, rfl⟩

end Attempts

end AptBackend

/-! ## The operations -/

/-- The operations with commands that have deadlines, and when they overlook that one was killed: the helpers
themselves, with the codes that they are given; `run_apt_safe`; and the operations of every backend that the helpers
carry. -/
inductive DeadlineOp : {α : Type} → (List (Event Response) → Prop) → Op α → Prop
  | timed (program : String) (args : List Arg) (timeout : Nat) :
      DeadlineOp (Overlooks {}) (runCommandTimed program args timeout)
  | acceptableExit (program : String) (args : List Arg) (codes : List Int) (timeout : Nat) :
      DeadlineOp (Overlooks { accepts := fun _ _ => codes })
        (runCommandWithAcceptableExit program args codes (some timeout))
  | pacman (args : List Arg) (codes : List Int) :
      DeadlineOp (Overlooks { accepts := fun _ _ => codes }) (PacmanBackend.runPacmanWithAcceptableExit args codes)
  | aptSafe (args : List Arg) : DeadlineOp (Overlooks plainReading) (AptBackend.runApt args)
  | listPackages (kind : BackendKind) (filter : Option String) :
      DeadlineOp (Overlooks plainReading) (kind.backend.listPackages filter)
  | getPackage (kind : BackendKind) (name : String) :
      DeadlineOp (Overlooks (packageReading kind name)) (kind.backend.getPackage name)
  | installPackages (kind : BackendKind) (packages : List PackageSpec) (options : InstallOptions) :
      DeadlineOp (Overlooks plainReading) (kind.backend.installPackages packages options)
  | updatePackage (kind : BackendKind) (name : String) :
      DeadlineOp (Overlooks plainReading) (kind.backend.updatePackage name)
  | removePackage (kind : BackendKind) (name : String) (purge : Bool) :
      DeadlineOp (Overlooks plainReading) (kind.backend.removePackage name purge)
  | listPatches (kind : BackendKind) : DeadlineOp (Overlooks patchReading) kind.backend.listPatches
  | aptPatches (packages : Option (List String)) :
      DeadlineOp AptBackend.PatchedAnyway (BackendKind.apt.backend.applyPatches packages)
  | applyPatches (kind : BackendKind) (hkind : kind ≠ .apt) (packages : Option (List String)) :
      DeadlineOp (Overlooks plainReading) (kind.backend.applyPatches packages)
  | rebootSystem (kind : BackendKind) (delaySeconds : Nat) :
      DeadlineOp (Overlooks plainReading) (kind.backend.rebootSystem delaySeconds)
  | refreshPackageCache (kind : BackendKind) :
      DeadlineOp (Overlooks plainReading) kind.backend.refreshPackageCache
  | getInstalledVersion (kind : BackendKind) (name : String) :
      DeadlineOp (Overlooks versionReading) (kind.backend.getInstalledVersion name)
  | getCandidateVersion (kind : BackendKind) (name : String) :
      DeadlineOp (Overlooks versionReading) (kind.backend.getCandidateVersion name)
  | repairPackageDatabase (kind : BackendKind) :
      DeadlineOp (Overlooks plainReading) kind.backend.repairPackageDatabase
  | packageDatabaseClean (kind : BackendKind) :
      DeadlineOp (Overlooks plainReading) kind.backend.packageDatabaseClean

theorem plain_question {reading : Reading} {e : Event Response} (he : e.1.isQuestion = true) : Plain reading e := by
  refine ⟨not_recorded_question he, fun program args timeout heq => ?_⟩
  rw [heq] at he
  cases he

theorem dpkgEvents_plain : AptBackend.DpkgEvents (Plain plainReading) :=
  ⟨fun _ he => plain_question he, fun _ => plain_command id rfl, fun _ => plain_command id rfl⟩

theorem honors_runApt (args : List Arg) : Honors plainReading (AptBackend.runApt args) :=
  (AptBackend.strict_runApt args).honors (dpkgEvents_plain.runApt fun _ => plain_command id rfl)

theorem honors_repairApt : Honors plainReading AptBackend.repairPackageDatabase := by
  have hstrict : Strict plainReading AptBackend.repairPackageDatabase :=
    .bind AptBackend.strict_ensureDpkgClean fun _ => AptBackend.strict_verifyDpkgClean
  exact hstrict.honors (.bindE (.forall_mem _) dpkgEvents_plain.ensureDpkgClean
    fun _ => dpkgEvents_plain.verifyDpkgClean)

/-- A command with a deadline, whose output is not looked at or only parsed. -/
theorem exact_timedCommand {α : Type} {program : String} {args : List Arg} {timeout : Nat} (f : String → α)
    (hcodes : acceptableCodes program args = []) :
    Exact plainReading (do let output ← runCommandTimed program args timeout; return f output : Op α) :=
  .handOn (exact_runCommandTimed hcodes id) f

theorem exact_pacmanCommand {α : Type} {args : List Arg} {codes : List Int} (f : String → α)
    (hcodes : acceptableCodes "pacman" args = codes) :
    Exact plainReading (do let output ← PacmanBackend.runPacmanWithAcceptableExit args codes; return f output : Op α) :=
  .handOn (PacmanBackend.exact_runPacman hcodes id) f

theorem exact_rebootSystem (delaySeconds : Nat) : Exact plainReading (rebootSystem delaySeconds) := by
  unfold rebootSystem
  split
  · exact exact_timedCommand _ rfl
  · exact exact_timedCommand _ rfl

theorem exact_apkReboot (delaySeconds : Nat) : Exact plainReading (ApkBackend.rebootSystem delaySeconds) := by
  have hnow : Exact plainReading ApkBackend.rebootNow := exact_timedCommand _ rfl
  unfold ApkBackend.rebootSystem
  split
  · refine .bind (.silent (.relay rfl)) fun there => ?_
    split
    · exact exact_rebootSystem delaySeconds
    · exact hnow
  · exact hnow

theorem DeadlineOp.deadline_iff {α : Type} {overlooks : List (Event Response) → Prop} {op : Op α}
    (h : DeadlineOp overlooks op) {t : List (Event Response)} {r : Except AnyhowError α} (hr : Runs op.run t r) :
    DeadlineHonored t r ↔ ¬ overlooks t := by
  cases h with
  | timed program args timeout => exact (exact_runCommandTimed rfl id).honors.deadline_iff hr
  | acceptableExit program args codes timeout => exact (exact_acceptableExit rfl id).honors.deadline_iff hr
  | pacman args codes => exact (PacmanBackend.exact_runPacman rfl id).honors.deadline_iff hr
  | aptSafe args => exact (honors_runApt args).deadline_iff hr
  | listPackages kind filter =>
    refine Honors.deadline_iff (Exact.honors ?_) hr
    cases kind with
    | apt => exact exact_timedCommand _ rfl
    | apk => exact exact_timedCommand _ rfl
    | dnf | yum => cases filter <;> exact exact_timedCommand _ rfl
    | pacman => cases filter <;> exact exact_pacmanCommand _ rfl
  | getPackage kind name => exact (honors_getPackage kind).deadline_iff hr
  | installPackages kind packages options =>
    refine Honors.deadline_iff ?_ hr
    cases kind with
    | apt => exact (honors_runApt _).handOn _
    | pacman => exact (exact_pacmanCommand _ rfl).honors
    | dnf | yum | apk => exact (exact_timedCommand _ rfl).honors
  | updatePackage kind name =>
    refine Honors.deadline_iff ?_ hr
    cases kind with
    | apt => exact (honors_runApt _).handOn _
    | pacman => exact (exact_pacmanCommand _ rfl).honors
    | dnf | yum | apk => exact (exact_timedCommand _ rfl).honors
  | removePackage kind name purge =>
    refine Honors.deadline_iff ?_ hr
    cases kind with
    | apt => exact (honors_runApt _).handOn _
    | pacman => exact (exact_pacmanCommand _ rfl).honors
    | dnf => cases purge <;> exact (exact_timedCommand _ rfl).honors
    | yum | apk => exact (exact_timedCommand _ rfl).honors
  | listPatches kind => exact (exact_listPatches kind).honors.deadline_iff hr
  | aptPatches packages => exact (AptBackend.patching_applyPatches hr).deadline_iff
  | applyPatches kind hkind packages =>
    refine Honors.deadline_iff (Exact.honors ?_) hr
    cases kind with
    | apt => exact absurd rfl hkind
    | pacman => cases packages <;> exact exact_pacmanCommand _ rfl
    | dnf | yum | apk => cases packages <;> exact exact_timedCommand _ rfl
  | rebootSystem kind delaySeconds =>
    refine Honors.deadline_iff (Exact.honors ?_) hr
    cases kind with
    | apt | dnf | yum | pacman => exact exact_rebootSystem delaySeconds
    | apk => exact exact_apkReboot delaySeconds
  | refreshPackageCache kind =>
    refine Honors.deadline_iff ?_ hr
    cases kind with
    | apt => exact (honors_runApt _).recordRefresh _
    | dnf => exact (exact_acceptableExit rfl id).honors.recordRefresh _
    | pacman => exact (PacmanBackend.exact_runPacman rfl id).honors.recordRefresh _
    | yum | apk => exact (exact_runCommandTimed rfl id).honors.recordRefresh _
  | getInstalledVersion kind name => exact (exact_getInstalledVersion kind).honors.deadline_iff hr
  | getCandidateVersion kind name => exact (exact_getCandidateVersion kind).honors.deadline_iff hr
  | repairPackageDatabase kind =>
    refine Honors.deadline_iff ?_ hr
    cases kind with
    | apt => exact honors_repairApt
    | dnf | yum | apk => exact (exact_timedCommand _ rfl).honors
    | pacman => exact (Exact.pure _).honors
  | packageDatabaseClean kind =>
    refine Honors.deadline_iff (Exact.honors ?_) hr
    cases kind with
    | apt => exact exact_timedCommand _ rfl
    | dnf | yum | apk | pacman => exact .pure _

/-- The reply of a command that was killed at its deadline and then exited by itself with a code. -/
def killedReply (code : Int) (program : String) (args : List String) : Except AnyhowError CommandOutput :=
  .error ((AnyhowError.ofCommand {
    program, args, exitCode := some code, stdout := "", spawnError := none, timedOut := true
    stderr := program ++ " timed out after 300s" }).context (program ++ " timed out after 300s"))

/-- The refresh of DNF, killed at its deadline, whose exit code says that there are updates. -/
def killedRefresh : Event Response :=
  ⟨.run "dnf" (["check-update", "--refresh"] : List Arg) (some cacheRefreshTimeout),
    killedReply 100 "dnf" ["check-update", "--refresh"]⟩

theorem killedRefresh_timedOut : TimedOut killedRefresh := ⟨"dnf", _, cacheRefreshTimeout, _, _, rfl, rfl, rfl⟩

end LinuxPatchApi.Packages
