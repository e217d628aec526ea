/-
The small operations that run commands: their traces, each given by the runner's answer, which decides the result; what
they return in fixed surroundings; and what the production runner promises of its answers.
-/
import LinuxPatchApi.Packages.Locks

namespace LinuxPatchApi.Packages

open Interaction

section Sequences

variable {α β : Type} {op : Op α} {t : List (Event Response)}

/-- An operation whose value is only handed on through a function. -/
theorem runs_handOn {f : α → β} {r : Except AnyhowError β} :
    Runs (do let a ← op; return f a : Op β).run t r ↔ ∃ s, r = s.map f ∧ Runs op.run t s := by
  constructor
  · intro h
    rcases runs_bindE.1 h with ⟨e, h₁, rfl⟩ | ⟨t₁, t₂, a, rfl, h₁, h₂⟩
    · exact ⟨.error e, rfl, h₁⟩
    · obtain ⟨rfl, rfl⟩ := runs_pure.1 h₂
      rw [List.append_nil]
      exact ⟨.ok a, rfl, h₁⟩
  · rintro ⟨s, rfl, h⟩
    cases s with
    | error e => exact runs_bindE.2 (.inl ⟨e, h, rfl⟩)
    | ok a => exact runs_bindE.2 (.inr ⟨t, [], a, by simp, h, .pure _⟩)

/-- What goes on after an operation whose failure is looked at. -/
theorem runs_attempt_bind {f : Except AnyhowError α → Op β} {r : Except AnyhowError β} :
    Runs (do let s ← Fallible.attempt op; f s : Op β).run t r ↔
      ∃ t₁ t₂ s, t = t₁ ++ t₂ ∧ Runs op.run t₁ s ∧ Runs (f s).run t₂ r := by
  constructor
  · intro h
    rcases runs_bindE.1 h with ⟨e, h₁, _⟩ | ⟨t₁, t₂, s, rfl, h₁, h₂⟩
    · obtain ⟨s, hs, _⟩ := runs_attempt.1 h₁
      cases hs
    · obtain ⟨s', hs, h₁⟩ := runs_attempt.1 h₁
      cases hs
      exact ⟨t₁, t₂, s, rfl, h₁, h₂⟩
  · rintro ⟨t₁, t₂, s, rfl, h₁, h₂⟩
    exact runs_bindE.2 (.inr ⟨t₁, t₂, s, rfl, runs_attempt.2 ⟨s, rfl, h₁⟩, h₂⟩)

/-- `unwrap_or` does not fail. -/
theorem runs_unwrapOr {a : α} {r : Except AnyhowError α} :
    Runs (unwrapOr a op).run t r ↔ ∃ s, r = .ok (s.toOption.getD a) ∧ Runs op.run t s := by
  constructor
  · intro h
    obtain ⟨t₁, t₂, s, rfl, h₁, h₂⟩ := runs_attempt_bind.1 h
    cases s with
    | error e =>
      obtain ⟨rfl, rfl⟩ := runs_pure.1 h₂
      rw [List.append_nil]
      exact ⟨.error e, rfl, h₁⟩
    | ok b =>
      obtain ⟨rfl, rfl⟩ := runs_pure.1 h₂
      rw [List.append_nil]
      exact ⟨.ok b, rfl, h₁⟩
  · rintro ⟨s, rfl, h⟩
    refine runs_attempt_bind.2 ⟨t, [], s, by simp, h, ?_⟩
    cases s <;> exact .pure _

end Sequences

variable {program : String} {args : List Arg} {timeout : Nat} {t : List (Event Response)}

theorem runs_runCommandTimed {r : Except AnyhowError String} :
    Runs (runCommandTimed program args timeout).run t r ↔
      ∃ s : Except AnyhowError CommandOutput, r = s.map (·.stdout) ∧ t = [⟨.run program args (some timeout), s⟩] :=
  runs_handOn.trans (exists_congr fun _ => and_congr_right fun _ => runs_runWithTimeout)

/-- What holds of every answer to a command holds of its trace. -/
theorem traced_command {S : Event Response → Prop}
    (h : ∀ answer, S ⟨.run program args (some timeout), answer⟩) :
    Traced (fun t => ∀ e ∈ t, S e) (runCommandTimed program args timeout).run := by
  intro t r ht
  obtain ⟨s, _, rfl⟩ := runs_runCommandTimed.1 ht
  simpa using h s

/-- What the host answers when its commands reply as given. -/
def Host.replying (h : Host) (reply : String → List String → Except AnyhowError CommandOutput) :
    (e : Effect) → Response e
  | .run program args _ => reply program (args.map Arg.text)
  | e => h.answer e

/-! ## Fixed surroundings -/

section Outcome

variable (o : (e : Effect) → Response e)

@[simp] theorem outcome_return {α : Type} (a : α) : outcome o (pure a : Op α).run = .ok a := rfl

def fileThere (path : String) : Bool := o (.pathExists path)

def fileText (path : String) : Option String := o (.readFile path)

theorem outcome_pathExists (path : String) : outcome o (pathExists path).run = .ok (fileThere o path) := rfl

theorem outcome_readFile (path : String) : outcome o (readFile path).run = .ok (fileText o path) := rfl

/-- Whether `which` finds the tool. -/
def Available (tool : String) : Bool :=
  Option.any (fun output : ProcessOutput => output.success) (o (.output "which" [tool]))

theorem outcome_commandAvailable (tool : String) :
    outcome o (commandAvailable tool).run = .ok (Available o tool) := rfl

/-- The runner's answer to a quick query. -/
def quickAnswer (program : String) (args : List Arg) : Except AnyhowError CommandOutput :=
  o (.run program args (some quickOpTimeout))

/-- An operation whose value is only handed on through a function. -/
theorem outcome_handOn {α β : Type} (op : Op α) (f : α → β) :
    outcome o (do let a ← op; return f a : Op β).run = (outcome o op.run).map f := by
  cases h : outcome o op.run with
  | error e => exact outcome_bindE_error o h _
  | ok a => exact outcome_bindE o h _

theorem outcome_unwrapOr {α : Type} (fallback : α) (op : Op α) :
    outcome o (unwrapOr fallback op).run = .ok ((outcome o op.run).toOption.getD fallback) := by
  refine (outcome_bindE o (outcome_attempt o op) _).trans ?_
  cases outcome o op.run <;> rfl

theorem outcome_runCommandTimed (program : String) (args : List Arg) :
    outcome o (runCommandTimed program args quickOpTimeout).run = (quickAnswer o program args).map (·.stdout) :=
  outcome_handOn o (runWithTimeout program args (some quickOpTimeout)) _

theorem outcome_tryRun (program : String) (args : List Arg) :
    outcome o (tryRun program args).run = .ok (quickAnswer o program args).toOption := by
  refine (outcome_unwrapOr o none _).trans ?_
  rw [outcome_handOn o (runWithTimeout program args (some quickOpTimeout))]
  show Except.ok (((quickAnswer o program args).map some).toOption.getD none) = _
  cases quickAnswer o program args <;> rfl

end Outcome

/-! ## The production runner -/

/-- What `SystemCommandRunner` promises of an answer: only the exit code 0 is a success, and an error carries the
command's error, with the exit code and the output. -/
def KeepsContract : Except AnyhowError CommandOutput → Prop
  | .ok output => output.success = true
  | .error e => (extractCommandOutput e).isSome = true

/-- What the command has printed, which its output or its error carries. -/
def stdoutOf : Except AnyhowError CommandOutput → String
  | .ok output => output.stdout
  | .error e => (extractStdout e).getD ""

def stderrOf : Except AnyhowError CommandOutput → String
  | .ok output => output.stderr
  | .error e => (extractStderr e).getD ""

/-- The runner's answer when a command exits and prints as given. -/
def exitedRun (program : String) (args : List String) (exitCode : Int) (stdout : String) :
    Except AnyhowError CommandOutput :=
  if exitCode = 0 then .ok ⟨some 0, stdout, "", false⟩
  else .error (.ofCommand {
    program, args, exitCode := some exitCode, stdout, stderr := "", spawnError := none, timedOut := false })

section ExitedRun

variable {program stdout : String} {args : List String} {exitCode : Int}

theorem keepsContract_exitedRun : KeepsContract (exitedRun program args exitCode stdout) := by
  unfold exitedRun
  split <;> rfl

theorem stdoutOf_exitedRun : stdoutOf (exitedRun program args exitCode stdout) = stdout := by
  unfold exitedRun
  split <;> rfl

end ExitedRun

/-- The surroundings' runner keeps the contract. -/
def RunnerContract (o : (e : Effect) → Response e) : Prop :=
  ∀ program args timeout, KeepsContract (o (.run program args timeout))

end LinuxPatchApi.Packages
