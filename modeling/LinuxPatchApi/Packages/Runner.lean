/-
`src/packages/coordinator.rs`: `SystemCommandRunner`. The future that `run_async` drives is a machine over the
child, the two drain tasks and the clock: the child ends or not, the pipes close or not, and whatever of the
future is ready or due is polled before time goes on. Times are in milliseconds since the child was spawned.
What it answers, on every order of these steps, and how long it may take.
-/
import LinuxPatchApi.Lib.Transition
import LinuxPatchApi.Packages.CommandRuns

namespace LinuxPatchApi.Packages

open Transition Text

/-- `CommandError::from_spawn_error`. -/
def CommandError.fromSpawnError (program : String) (args : List String) (err : String) : CommandError where
  program := program
  args := args
  exitCode := none
  stdout := ""
  stderr := ""
  spawnError := some err
  timedOut := false

/-- One call of the runner. -/
structure Invocation where
  program : String
  args : List String
  timeout : Option ℕ

/-! ## The future -/

/-- How the wait for the child came out: an exit code, if the child was not ended by a signal. -/
inductive Ended
  | exited (code : Option Int)
  | timedOut (code : Option Int)
  deriving DecidableEq

/-- Where the future is, and since when. -/
inductive Phase
  | starting
  /-- `child.wait()` under the deadline. -/
  | waiting
  /-- `kill_child` after SIGTERM. -/
  | grace (since : ℕ)
  /-- The bounded wait after `kill_child` has given nothing. -/
  | reaping (since : ℕ)
  /-- `collect_drain`, of the standard output and then of the error output. -/
  | stdout (ended : Ended) (since : ℕ)
  | stderr (ended : Ended) (stdout : String) (since : ℕ)
  | returned (answer : Except AnyhowError CommandOutput)
  deriving DecidableEq

/-- `waitable` is what `child.wait()` gives at once, and `waitFailed` whether it has failed; `termSent` and
`killSent`, when the process group was sent a signal. -/
structure RunnerState where
  now : ℕ
  phase : Phase
  waitable : Option (Except String (Option Int))
  waitFailed : Bool
  stdoutDrained : Option (List UInt8)
  stderrDrained : Option (List UInt8)
  termSent : Option ℕ
  killSent : Option ℕ
  deriving DecidableEq

/-- The child was spawned, and the future has not returned. -/
def RunnerState.running (s : RunnerState) : Bool :=
  match s.phase with
  | .starting | .returned _ => false
  | _ => true

def RunnerState.starting : RunnerState := ⟨0, .starting, none, false, none, none, none, none⟩

/-- Waiting has failed, which leaves nothing to reap yet. -/
def RunnerState.waitError (s : RunnerState) (phase : Phase) : RunnerState :=
  { s with phase := phase, waitable := none, waitFailed := true }

inductive RunnerAct
  /-- `cmd.spawn()`, and the error if it fails. -/
  | spawn (result : Except String Unit)
  | poll
  | tick
  /-- The child is there to be reaped, or waiting for it fails. -/
  | ends (result : Except String (Option Int))
  | drainStdout (bytes : List UInt8)
  | drainStderr (bytes : List UInt8)
  deriving DecidableEq

namespace Invocation

/-- The grace of `kill_child`, which is also the bound on the wait after it. -/
def graceTime : ℕ := 5000

/-- What `collect_drain` is bounded by. -/
def collectTime : Ended → ℕ
  | .exited _ => 5000
  | .timedOut _ => 2000

variable (inv : Invocation)

/-- The text about a deadline of `dur` milliseconds. -/
def timeoutText (dur : ℕ) : String := inv.program ++ " timed out after " ++ toString (dur / 1000) ++ "s"

def failure (code : Option Int) (stdout stderr : String) (timedOut : Bool) : CommandError where
  program := inv.program
  args := inv.args
  exitCode := code
  stdout := stdout
  stderr := stderr
  spawnError := none
  timedOut := timedOut

/-- The result once both streams are collected. -/
def answer (ended : Ended) (stdout stderr : String) : Except AnyhowError CommandOutput :=
  match ended with
  | .exited code =>
    if code = some 0 then .ok ⟨code, stdout, stderr, false⟩
    else .error (.ofCommand (inv.failure code stdout stderr false))
  | .timedOut code =>
    let text := inv.timeoutText (inv.timeout.getD 0)
    .error ((AnyhowError.ofCommand
      (inv.failure code stdout (if stderr.isEmpty then text else stderr) true)).context text)

/-- An error of the operating system about the child, under a context. -/
def osError (what err : String) : Except AnyhowError CommandOutput :=
  .error ((AnyhowError.ofCommand (.fromSpawnError inv.program inv.args err)).context (what ++ inv.program))

/-- One step of the future, if it is ready or a timer has run out; a child that is there at the deadline counts as
in time. -/
def poll (s : RunnerState) : Option RunnerState :=
  match s.phase with
  | .starting | .returned _ => none
  | .waiting =>
    match s.waitable with
    | some (.ok code) => some { s with phase := .stdout (.exited code) s.now }
    | some (.error e) => some (s.waitError (.returned (inv.osError "Failed to wait on " e)))
    | none =>
      if ∃ dur ∈ inv.timeout, dur ≤ s.now then some { s with phase := .grace s.now, termSent := some s.now }
      else none
  | .grace since =>
    match s.waitable with
    | some (.ok code) => some { s with phase := .stdout (.timedOut code) s.now }
    | some (.error _) => some (s.waitError (.reaping s.now))
    | none =>
      if since + graceTime ≤ s.now then some { s with phase := .reaping s.now, killSent := some s.now } else none
  | .reaping since =>
    match s.waitable with
    | some (.ok code) => some { s with phase := .stdout (.timedOut code) s.now }
    | some (.error _) => some (s.waitError (.stdout (.timedOut none) s.now))
    | none => if since + graceTime ≤ s.now then some { s with phase := .stdout (.timedOut none) s.now } else none
  | .stdout ended since =>
    if s.stdoutDrained.isSome ∨ since + collectTime ended ≤ s.now then
      some { s with phase := .stderr ended (fromUtf8Lossy (s.stdoutDrained.getD [])) s.now }
    else none
  | .stderr ended stdout since =>
    if s.stderrDrained.isSome ∨ since + collectTime ended ≤ s.now then
      some { s with phase := .returned (inv.answer ended stdout (fromUtf8Lossy (s.stderrDrained.getD []))) }
    else none

def step (s : RunnerState) : RunnerAct → Option RunnerState
  | .spawn result =>
    match s.phase, result with
    | .starting, .ok () => some { s with phase := .waiting }
    | .starting, .error e => some { s with phase := .returned (inv.osError "Failed to execute " e) }
    | _, _ => none
  | .poll => inv.poll s
  | .tick => if s.running ∧ inv.poll s = none then some { s with now := s.now + 1 } else none
  | .ends result =>
    if s.running ∧ s.waitable = none then some { s with waitable := some result } else none
  | .drainStdout bytes =>
    if s.running ∧ s.stdoutDrained = none then some { s with stdoutDrained := some bytes } else none
  | .drainStderr bytes =>
    if s.running ∧ s.stderrDrained = none then some { s with stderrDrained := some bytes } else none

/-- `run_async`. -/
def future : Machine RunnerState RunnerAct where
  init s := s = .starting
  step := inv.step

end Invocation

/-! ## Stages -/

/-- The text is what was drained from a stream, or empty. -/
def Printed (drained : Option (List UInt8)) (text : String) : Prop :=
  text = "" ∨ ∃ bytes, drained = some bytes ∧ text = fromUtf8Lossy bytes

/-- The deadline has passed: the group was sent SIGTERM just then. -/
structure Overdue (inv : Invocation) (termSent : Option ℕ) (dur : ℕ) : Prop where
  timeout : inv.timeout = some dur
  term : termSent = some dur

/-- Waiting for the child has ended: in time, or by reaping it or giving it up after its deadline. Who is given up
was sent SIGKILL after the grace, unless the wait itself has failed. -/
def EndedAs (inv : Invocation) (s : RunnerState) : Ended → Prop
  | .exited code => s.termSent = none ∧ s.waitable = some (.ok code)
  | .timedOut code => ∃ dur, Overdue inv s.termSent dur ∧ (s.waitable = some (.ok code) ∨
      code = none ∧ (s.killSent = some (dur + 5000) ∨ s.waitFailed = true))

/-- How long after the deadline waiting for the child may end. -/
def Ended.lateness : Ended → ℕ
  | .exited _ => 0
  | .timedOut _ => 10000

/-- The instant is at most so long after the deadline, if there is one. -/
def Within (inv : Invocation) (late now : ℕ) : Prop := ∀ dur ∈ inv.timeout, now ≤ dur + late

/-- An answer that says how the call ended, given not too late. -/
inductive Reported (inv : Invocation) (s : RunnerState) : Except AnyhowError CommandOutput → Prop
  | osError (what err : String) : s.termSent = none → Within inv 0 s.now → Reported inv s (inv.osError what err)
  | collected (ended : Ended) (stdout stderr : String) : EndedAs inv s ended → Printed s.stdoutDrained stdout →
      Printed s.stderrDrained stderr →
      Within inv (ended.lateness + 2 * Invocation.collectTime ended) s.now →
      Reported inv s (inv.answer ended stdout stderr)

/-- What holds in each phase of the future. -/
def Staged (inv : Invocation) (s : RunnerState) : Prop :=
  match s.phase with
  | .starting => s.now = 0 ∧ s.termSent = none
  | .waiting => s.termSent = none ∧ Within inv 0 s.now
  | .grace since => Overdue inv s.termSent since ∧ s.now ≤ since + Invocation.graceTime
  | .reaping since => ∃ dur, Overdue inv s.termSent dur ∧ since ≤ dur + 5000 ∧ s.now ≤ since + Invocation.graceTime ∧
      (s.killSent = some (dur + 5000) ∨ s.waitFailed = true)
  | .stdout ended since => EndedAs inv s ended ∧ Within inv ended.lateness since ∧
      s.now ≤ since + Invocation.collectTime ended
  | .stderr ended stdout since => EndedAs inv s ended ∧ Printed s.stdoutDrained stdout ∧
      Within inv (ended.lateness + Invocation.collectTime ended) since ∧ s.now ≤ since + Invocation.collectTime ended
  | .returned answer => Reported inv s answer

section Stages

variable {inv : Invocation} {s s' : RunnerState}

theorem printed_getD (drained : Option (List UInt8)) : Printed drained (fromUtf8Lossy (drained.getD [])) := by
  cases drained with
  | none => exact .inl rfl
  | some bytes => exact .inr ⟨bytes, rfl, rfl⟩

theorem Printed.of_none {text : String} (h : Printed none text) (drained : Option (List UInt8)) :
    Printed drained text := by
  rcases h with h | ⟨bytes, hb, _⟩
  · exact .inl h
  · cases hb

/-- The child can come to be there for reaping only as long as it was not reaped. -/
theorem EndedAs.ends {ended : Ended} (h : EndedAs inv s ended) (hnone : s.waitable = none)
    (result : Except String (Option Int)) : EndedAs inv { s with waitable := some result } ended := by
  cases ended with
  | exited code =>
    have hsome := h.2
    rw [hnone] at hsome
    cases hsome
  | timedOut code =>
    obtain ⟨dur, hover, hreaped | hgiven⟩ := h
    · rw [hnone] at hreaped
      cases hreaped
    · exact ⟨dur, hover, .inr hgiven⟩

theorem EndedAs.of_eq {ended : Ended} (h : EndedAs inv s ended) (hwait : s'.waitable = s.waitable)
    (hfailed : s'.waitFailed = s.waitFailed) (hterm : s'.termSent = s.termSent) (hkill : s'.killSent = s.killSent) :
    EndedAs inv s' ended := by
  cases ended with
  | exited code =>
    rw [EndedAs, hterm, hwait]
    exact h
  | timedOut code =>
    rw [EndedAs, hterm, hwait, hkill, hfailed]
    exact h

theorem poll_waiting {s' : RunnerState} (hphase : s.phase = .waiting) (h : Staged inv s)
    (hp : inv.poll s = some s') : Staged inv s' := by
  simp only [Staged, hphase] at h
  obtain ⟨hterm, hin⟩ := h
  simp only [Invocation.poll, hphase] at hp
  split at hp
  next code hw =>
    cases hp
    exact ⟨⟨hterm, hw⟩, hin, by show s.now ≤ s.now + _; omega⟩
  next e hw =>
    cases hp
    exact .osError _ e hterm hin
  next hw =>
    split at hp
    next hdue =>
      cases hp
      obtain ⟨dur, hdur, hle⟩ := hdue
      have heq : s.now = dur := le_antisymm (hin dur hdur) hle
      exact ⟨⟨by rw [heq]; exact hdur, rfl⟩, by show s.now ≤ s.now + _; omega⟩
    next => cases hp

theorem poll_grace {s' : RunnerState} {since : ℕ} (hphase : s.phase = .grace since) (h : Staged inv s)
    (hp : inv.poll s = some s') : Staged inv s' := by
  simp only [Staged, hphase, Invocation.graceTime] at h
  obtain ⟨hover, hin⟩ := h
  have hwithin : Within inv 10000 s.now := fun dur hdur => by
    have hsame : since = dur := Option.some.inj (hover.timeout.symm.trans hdur)
    omega
  simp only [Invocation.poll, hphase] at hp
  split at hp
  next code hw =>
    cases hp
    exact ⟨⟨since, hover, .inl hw⟩, hwithin, by show s.now ≤ s.now + _; omega⟩
  next e hw =>
    cases hp
    exact ⟨since, hover, hin, by show s.now ≤ s.now + _; omega, .inr rfl⟩
  next hw =>
    split at hp
    next hdue =>
      cases hp
      have heq : s.now = since + 5000 := le_antisymm hin hdue
      exact ⟨since, hover, hin, by show s.now ≤ s.now + _; omega, .inl (by rw [heq])⟩
    next => cases hp

theorem poll_reaping {s' : RunnerState} {since : ℕ} (hphase : s.phase = .reaping since) (h : Staged inv s)
    (hp : inv.poll s = some s') : Staged inv s' := by
  simp only [Staged, hphase, Invocation.graceTime] at h
  obtain ⟨dur, hover, hsince, hin, hgiven⟩ := h
  have hwithin : Within inv 10000 s.now := fun dur' hdur => by
    have hsame : dur = dur' := Option.some.inj (hover.timeout.symm.trans hdur)
    omega
  simp only [Invocation.poll, hphase] at hp
  split at hp
  next code hw =>
    cases hp
    exact ⟨⟨dur, hover, .inl hw⟩, hwithin, by show s.now ≤ s.now + _; omega⟩
  next e hw =>
    cases hp
    exact ⟨⟨dur, hover, .inr ⟨rfl, .inr rfl⟩⟩, hwithin, by show s.now ≤ s.now + _; omega⟩
  next hw =>
    split at hp
    next hdue =>
      cases hp
      exact ⟨⟨dur, hover, .inr ⟨rfl, hgiven⟩⟩, hwithin, by show s.now ≤ s.now + _; omega⟩
    next => cases hp

theorem Within.add {late now since more : ℕ} (h : Within inv late since) (hnow : now ≤ since + more) :
    Within inv (late + more) now := fun dur hdur => by
  have := h dur hdur
  omega

theorem poll_staged (h : Staged inv s) (hp : inv.poll s = some s') : Staged inv s' := by
  cases hphase : s.phase with
  | starting | returned =>
    simp only [Invocation.poll, hphase] at hp
    cases hp
  | waiting => exact poll_waiting hphase h hp
  | grace since => exact poll_grace hphase h hp
  | reaping since => exact poll_reaping hphase h hp
  | stdout ended since =>
    simp only [Staged, hphase] at h
    obtain ⟨hended, hsince, hin⟩ := h
    simp only [Invocation.poll, hphase] at hp
    split at hp
    · cases hp
      exact ⟨hended.of_eq rfl rfl rfl rfl, printed_getD _, hsince.add hin, by show s.now ≤ s.now + _; omega⟩
    · cases hp
  | stderr ended stdout since =>
    simp only [Staged, hphase] at h
    obtain ⟨hended, hprinted, hsince, hin⟩ := h
    simp only [Invocation.poll, hphase] at hp
    split at hp
    · cases hp
      refine .collected ended stdout _ (hended.of_eq rfl rfl rfl rfl) hprinted (printed_getD _) ?_
      rw [two_mul, ← add_assoc]
      exact hsince.add hin
    · cases hp

/-- Time goes on only before what is due. -/
theorem tick_staged (h : Staged inv s) (hrunning : s.running = true) (hp : inv.poll s = none) :
    Staged inv { s with now := s.now + 1 } := by
  cases hphase : s.phase with
  | starting | returned => simp [RunnerState.running, hphase] at hrunning
  | waiting =>
    simp only [Staged, hphase] at h ⊢
    obtain ⟨hterm, hin⟩ := h
    simp only [Invocation.poll, hphase] at hp
    split at hp
    any_goals cases hp
    split at hp
    next => cases hp
    next hdue =>
      refine ⟨hterm, fun dur hdur => ?_⟩
      have hbefore : ¬ dur ≤ s.now := fun hle => hdue ⟨dur, hdur, hle⟩
      omega
  | grace since =>
    simp only [Staged, hphase] at h ⊢
    simp only [Invocation.poll, hphase] at hp
    split at hp
    any_goals cases hp
    split at hp
    next => cases hp
    next hdue => exact ⟨h.1, by omega⟩
  | reaping since =>
    simp only [Staged, hphase] at h ⊢
    obtain ⟨dur, hover, hsince, hin, hgiven⟩ := h
    simp only [Invocation.poll, hphase] at hp
    split at hp
    any_goals cases hp
    split at hp
    next => cases hp
    next hdue => exact ⟨dur, hover, hsince, by omega, hgiven⟩
  | stdout ended since =>
    simp only [Staged, hphase] at h ⊢
    obtain ⟨hended, hsince, hin⟩ := h
    simp only [Invocation.poll, hphase] at hp
    split at hp
    next => cases hp
    next hdue => exact ⟨hended.of_eq rfl rfl rfl rfl, hsince, by omega⟩
  | stderr ended stdout since =>
    simp only [Staged, hphase] at h ⊢
    obtain ⟨hended, hprinted, hsince, hin⟩ := h
    simp only [Invocation.poll, hphase] at hp
    split at hp
    next => cases hp
    next hdue => exact ⟨hended.of_eq rfl rfl rfl rfl, hprinted, hsince, by omega⟩

theorem ends_staged (h : Staged inv s) (hrunning : s.running = true) (hnone : s.waitable = none)
    (result : Except String (Option Int)) : Staged inv { s with waitable := some result } := by
  cases hphase : s.phase with
  | starting | returned => simp [RunnerState.running, hphase] at hrunning
  | waiting | grace | reaping =>
    simp only [Staged, hphase] at h ⊢
    exact h
  | stdout ended since =>
    simp only [Staged, hphase] at h ⊢
    exact ⟨h.1.ends hnone result, h.2⟩
  | stderr ended stdout since =>
    simp only [Staged, hphase] at h ⊢
    exact ⟨h.1.ends hnone result, h.2⟩

theorem drainStdout_staged (h : Staged inv s) (hrunning : s.running = true) (hnone : s.stdoutDrained = none)
    (bytes : List UInt8) : Staged inv { s with stdoutDrained := some bytes } := by
  cases hphase : s.phase with
  | starting | returned => simp [RunnerState.running, hphase] at hrunning
  | waiting | grace | reaping =>
    simp only [Staged, hphase] at h ⊢
    exact h
  | stdout ended since =>
    simp only [Staged, hphase] at h ⊢
    exact ⟨h.1.of_eq rfl rfl rfl rfl, h.2⟩
  | stderr ended stdout since =>
    simp only [Staged, hphase, hnone] at h ⊢
    obtain ⟨hended, hprinted, hrest⟩ := h
    exact ⟨hended.of_eq rfl rfl rfl rfl, hprinted.of_none _, hrest⟩

theorem drainStderr_staged (h : Staged inv s) (hrunning : s.running = true) (bytes : List UInt8) :
    Staged inv { s with stderrDrained := some bytes } := by
  cases hphase : s.phase with
  | starting | returned => simp [RunnerState.running, hphase] at hrunning
  | waiting | grace | reaping =>
    simp only [Staged, hphase] at h ⊢
    exact h
  | stdout | stderr =>
    simp only [Staged, hphase] at h ⊢
    exact ⟨h.1.of_eq rfl rfl rfl rfl, h.2⟩

theorem spawn_staged {result : Except String Unit} (h : Staged inv s) (hs : inv.step s (.spawn result) = some s') :
    Staged inv s' := by
  simp only [Invocation.step] at hs
  split at hs
  next hphase =>
    cases hs
    simp only [Staged, hphase] at h
    exact ⟨h.2, fun dur _ => by show s.now ≤ _; omega⟩
  next e hphase =>
    cases hs
    simp only [Staged, hphase] at h
    exact .osError _ e h.2 fun dur _ => by show s.now ≤ _; omega
  next => cases hs

theorem step_staged {f : Fired RunnerState RunnerAct} (hf : IsStep inv.future f) (h : Staged inv f.pre) :
    Staged inv f.post := by
  obtain ⟨s, act, s'⟩ := f
  have hs : inv.step s act = some s' := hf
  cases act with
  | spawn result => exact spawn_staged h hs
  | poll => exact poll_staged h hs
  | tick =>
    simp only [Invocation.step] at hs
    split at hs
    next hdue => cases hs; exact tick_staged h hdue.1 hdue.2
    next => cases hs
  | ends result =>
    simp only [Invocation.step] at hs
    split at hs
    next hends => cases hs; exact ends_staged h hends.1 hends.2 result
    next => cases hs
  | drainStdout bytes =>
    simp only [Invocation.step] at hs
    split at hs
    next hdrain => cases hs; exact drainStdout_staged h hdrain.1 hdrain.2 bytes
    next => cases hs
  | drainStderr bytes =>
    simp only [Invocation.step] at hs
    split at hs
    next hdrain => cases hs; exact drainStderr_staged h hdrain.1 bytes
    next => cases hs

end Stages

/-! ## Answers -/

section Answers

variable {inv : Invocation} {s' : RunnerState} {tr : List (Fired RunnerState RunnerAct)}
  {answer : Except AnyhowError CommandOutput}

theorem run_staged (h : Run inv.future .starting tr s') : Staged inv s' :=
  h.always (fun _ hf => step_staged hf) ⟨rfl, rfl⟩

theorem reported (h : Run inv.future .starting tr s') (hreturned : s'.phase = .returned answer) :
    Reported inv s' answer := by
  have hstaged := run_staged h
  simp only [Staged, hreturned] at hstaged
  exact hstaged

/-- An answer for the caller: it keeps the contract; a success is an exit with 0 before the deadline; what it carries
of the standard output is what was drained or nothing; its error is a timeout exactly if the child was sent a signal,
which was at the deadline; and a child that was not reaped then was sent SIGKILL as well, if it could be waited for. -/
structure Faithful (inv : Invocation) (s : RunnerState) (answer : Except AnyhowError CommandOutput) : Prop where
  contract : KeepsContract answer
  success : ∀ output, answer = .ok output → s.termSent = none ∧ s.waitable = some (.ok (some 0)) ∧
    output.timedOut = false
  output : Printed s.stdoutDrained (stdoutOf answer)
  timeout : ∀ e, answer = .error e → (classifyError e = ErrorCode.timeout ↔ s.termSent.isSome = true)
  signals : ∀ dur, s.termSent = some dur → inv.timeout = some dur ∧
    ((∃ code, s.waitable = some (.ok code)) ∨ s.killSent = some (dur + 5000) ∨ s.waitFailed = true)

theorem classifySignature_ne_timeout (lower : String) : classifySignature lower ≠ some ErrorCode.timeout := by
  unfold classifySignature
  simp only
  repeat' split
  all_goals decide

/-- The code of a command's error is that of timeouts exactly if it has timed out. -/
theorem classifyError_timeout {e : AnyhowError} {ce : CommandError} (he : extractCommandOutput e = some ce) :
    classifyError e = ErrorCode.timeout ↔ ce.timedOut = true := by
  unfold classifyError
  simp only [he]
  cases ce.timedOut with
  | true => simp
  | false =>
    simp only [Bool.false_eq_true, if_false, iff_false]
    split
    · repeat' split
      all_goals decide
    · cases hs : classifySignature (loweredChain e) with
      | none => decide
      | some code =>
        intro hcode
        exact classifySignature_ne_timeout _ (hs.trans (congrArg some hcode))

theorem Reported.faithful {s : RunnerState} (h : Reported inv s answer) : Faithful inv s answer := by
  cases h with
  | osError what err hterm _ =>
    refine ⟨rfl, fun output ho => (by cases ho), .inl rfl, fun e he => ?_, fun dur hdur => ?_⟩
    · cases he
      rw [classifyError_timeout rfl, hterm]
      simp [CommandError.fromSpawnError]
    · rw [hterm] at hdur
      cases hdur
  | collected ended stdout stderr hended hstdout _ _ =>
    cases ended with
    | exited code =>
      obtain ⟨hterm, hwait⟩ := hended
      have hsignals : ∀ dur, s.termSent = some dur → inv.timeout = some dur ∧
          ((∃ code, s.waitable = some (.ok code)) ∨ s.killSent = some (dur + 5000) ∨ s.waitFailed = true) := by
        intro dur hdur
        rw [hterm] at hdur
        cases hdur
      by_cases hcode : code = some 0
      · have hanswer : inv.answer (.exited code) stdout stderr = .ok ⟨code, stdout, stderr, false⟩ := if_pos hcode
        rw [hanswer]
        refine ⟨by simp [KeepsContract, CommandOutput.success, hcode], fun output ho => ?_, hstdout,
          fun e he => (by cases he), hsignals⟩
        cases ho
        exact ⟨hterm, by rw [hwait, hcode], rfl⟩
      · have hanswer : inv.answer (.exited code) stdout stderr =
            .error (.ofCommand (inv.failure code stdout stderr false)) := if_neg hcode
        rw [hanswer]
        refine ⟨rfl, fun output ho => (by cases ho), hstdout, fun e he => ?_, hsignals⟩
        cases he
        rw [classifyError_timeout rfl, hterm]
        simp [Invocation.failure]
    | timedOut code =>
      obtain ⟨dur, hover, hgiven⟩ := hended
      refine ⟨rfl, fun output ho => (by cases ho), hstdout, fun e he => ?_, fun dur' hdur => ?_⟩
      · cases he
        rw [classifyError_timeout rfl, hover.term]
        simp [Invocation.failure]
      · have hsame : dur = dur' := Option.some.inj (hover.term.symm.trans hdur)
        subst hsame
        refine ⟨hover.timeout, ?_⟩
        rcases hgiven with hreaped | ⟨_, hkilled⟩
        · exact .inl ⟨code, hreaped⟩
        · exact .inr hkilled

/-- Whatever the child does and however its end, its output and the clock come together, the runner's answer says
how the call went. -/
theorem answer_faithful (h : Run inv.future .starting tr s') (hreturned : s'.phase = .returned answer) :
    Faithful inv s' answer := (reported h hreturned).faithful

end Answers

/-! ## The caller's thread -/

/-- `block_on_async`, given whether a runtime could be created and what the future returned in it. The thread of its
own that it starts inside a runtime does not panic, so an answer always comes back through the channel. -/
def blockOnAsync (runtime : Except String Unit) (inner : Except AnyhowError CommandOutput) :
    Except AnyhowError CommandOutput :=
  match runtime with
  | .ok () => inner
  | .error e => .error (anyhow ("failed to create tokio runtime: " ++ e))

/-- The production runner can answer so. -/
def Answers (inv : Invocation) (runtime : Except String Unit) (answer : Except AnyhowError CommandOutput) : Prop :=
  ∃ tr s' inner, Run inv.future .starting tr s' ∧ s'.phase = .returned inner ∧ answer = blockOnAsync runtime inner

/-- The production runner keeps its contract exactly where it gets a runtime. -/
theorem keepsContract_iff {inv : Invocation} {runtime : Except String Unit} {answer : Except AnyhowError CommandOutput}
    (h : Answers inv runtime answer) : KeepsContract answer ↔ runtime = .ok () := by
  obtain ⟨tr, s', inner, hr, hreturned, rfl⟩ := h
  cases runtime with
  | ok =>
    have hcontract : KeepsContract (blockOnAsync (.ok ()) inner) := (reported hr hreturned).faithful.contract
    exact iff_of_true hcontract rfl
  | error e =>
    refine iff_of_false (fun hcontract => ?_) (by simp)
    cases hcontract

/-- Surroundings in which commands are run by the production runner, which gets its runtimes. -/
def ProductionRunner (o : (e : Effect) → Response e) : Prop :=
  ∀ program args timeout, Answers ⟨program, args.map Arg.text, timeout.map (1000 * ·)⟩ (.ok ())
    (o (.run program args timeout))

/-- The contract that the results on package operations ask for. -/
theorem ProductionRunner.contract {o : (e : Effect) → Response e} (h : ProductionRunner o) : RunnerContract o :=
  fun program args timeout => by
    obtain ⟨tr, s', inner, hr, hreturned, heq⟩ := h program args timeout
    rw [heq]
    exact (reported hr hreturned).faithful.contract

/-! ## A command that succeeds -/

def aptUpdate : Invocation := ⟨"apt-get", ["update"], some 300000⟩

/-- It prints "ok" and exits with 0. -/
def quickUpdate : List RunnerAct :=
  [.spawn (.ok ()), .tick, .drainStdout [111, 107], .tick, .ends (.ok (some 0)), .poll, .poll, .drainStderr [], .poll]

def quickTrace : List (Fired RunnerState RunnerAct) := (trace aptUpdate.future .starting quickUpdate).getD []

theorem quickUpdate_run : Run aptUpdate.future .starting quickTrace (endState .starting quickTrace) :=
  run_trace aptUpdate.future .starting quickUpdate (by decide +kernel)

theorem quickUpdate_returned : (endState .starting quickTrace).phase = .returned (.ok ⟨some 0, "ok", "", false⟩) := by
  decide +kernel

theorem answer_faithful_quick : Faithful aptUpdate (endState .starting quickTrace) (.ok ⟨some 0, "ok", "", false⟩) :=
  answer_faithful quickUpdate_run quickUpdate_returned

theorem keepsContract_quick : KeepsContract (.ok ⟨some 0, "ok", "", false⟩) ↔ (.ok () : Except String Unit) = .ok () :=
  @keepsContract_iff aptUpdate _ _ ⟨_, _, _, quickUpdate_run, quickUpdate_returned, rfl⟩

/-! ## Time -/

section Time

variable {inv : Invocation} {s' : RunnerState} {tr : List (Fired RunnerState RunnerAct)}

/-- Every phase is later than those it comes from. -/
def Phase.rank : Phase → ℕ
  | .starting => 0
  | .waiting => 1
  | .grace _ => 2
  | .reaping _ => 3
  | .stdout _ _ => 4
  | .stderr _ _ _ => 5
  | .returned _ => 6

/-- The future or the clock moves; the other steps are the child's and its pipes'. -/
def RunnerAct.isOwn : RunnerAct → Bool
  | .spawn _ | .poll | .tick => true
  | _ => false

theorem poll_rank {s : RunnerState} (hp : inv.poll s = some s') : s'.now = s.now ∧ s.phase.rank < s'.phase.rank := by
  unfold Invocation.poll at hp
  cases hphase : s.phase with
  | starting | returned => simp [hphase] at hp
  | waiting | grace | reaping | stdout | stderr =>
    simp only [hphase] at hp
    repeat' split at hp
    all_goals cases hp
    all_goals exact ⟨rfl, by simp [Phase.rank, RunnerState.waitError]⟩

theorem own_step {f : Fired RunnerState RunnerAct} (hf : IsStep inv.future f) (hown : f.act.isOwn = true) :
    f.pre.now + f.pre.phase.rank + 1 ≤ f.post.now + f.post.phase.rank := by
  obtain ⟨s, act, s'⟩ := f
  have hs : inv.step s act = some s' := hf
  cases act with
  | spawn result =>
    simp only [Invocation.step] at hs
    split at hs
    all_goals cases hs
    all_goals next hphase => simp [hphase, Phase.rank]
  | poll =>
    obtain ⟨hnow, hrank⟩ := poll_rank hs
    simp only
    omega
  | tick =>
    simp only [Invocation.step] at hs
    split at hs
    · cases hs
      simp only
      omega
    · cases hs
  | ends | drainStdout | drainStderr => cases hown

theorem other_step {f : Fired RunnerState RunnerAct} (hf : IsStep inv.future f) (hother : f.act.isOwn = false) :
    f.post.now = f.pre.now ∧ f.post.phase = f.pre.phase := by
  obtain ⟨s, act, s'⟩ := f
  have hs : inv.step s act = some s' := hf
  cases act with
  | spawn | poll | tick => cases hother
  | ends | drainStdout | drainStderr =>
    simp only [Invocation.step] at hs
    split at hs
    all_goals cases hs
    exact ⟨rfl, rfl⟩

/-- Each own step is a millisecond or a phase further on. -/
theorem own_steps (h : Run inv.future .starting tr s') :
    (tr.filter fun f => f.act.isOwn).length ≤ s'.now + s'.phase.rank := by
  induction h with
  | nil => simp
  | @snoc tr t t' act _ hs ih =>
    rw [List.filter_append, List.length_append, List.filter_singleton]
    cases hown : act.isOwn with
    | true =>
      have hmore := own_step (f := ⟨t, act, t'⟩) hs hown
      simp only [cond_true, List.length_singleton]
      simp only at hmore
      omega
    | false =>
      obtain ⟨hnow, hphase⟩ := other_step (f := ⟨t, act, t'⟩) hs hown
      simp only at hnow hphase
      simp only [cond_false, List.length_nil]
      rw [hnow, hphase]
      exact ih

theorem staged_bound (h : Staged inv s') {dur : ℕ} (hdur : inv.timeout = some dur) :
    s'.now ≤ dur + 14000 ∧ (s'.termSent = none → s'.now ≤ dur + 10000) := by
  have hover : ∀ d, Overdue inv s'.termSent d → d = dur := fun d hd =>
    Option.some.inj (hd.timeout.symm.trans hdur)
  have hterm : ∀ d, Overdue inv s'.termSent d → s'.termSent ≠ none := fun d hd hnone => by
    rw [hd.term] at hnone
    cases hnone
  -- a stream that is collected is collected within its bound
  have hcollect : ∀ ended late, EndedAs inv s' ended → s'.now ≤ dur + late →
      late ≤ ended.lateness + 2 * Invocation.collectTime ended →
      s'.now ≤ dur + 14000 ∧ (s'.termSent = none → s'.now ≤ dur + 10000) := by
    intro ended late hended hnow hlate
    cases ended with
    | exited code =>
      simp only [Ended.lateness, Invocation.collectTime] at hlate
      omega
    | timedOut code =>
      obtain ⟨d, hd, _⟩ := hended
      simp only [Ended.lateness, Invocation.collectTime] at hlate
      exact ⟨by omega, fun hnone => absurd hnone (hterm d hd)⟩
  cases hphase : s'.phase with
  | starting =>
    simp only [Staged, hphase] at h
    omega
  | waiting =>
    simp only [Staged, hphase] at h
    have := h.2 dur hdur
    omega
  | grace since =>
    simp only [Staged, hphase, Invocation.graceTime] at h
    have := hover since h.1
    exact ⟨by omega, fun hnone => absurd hnone (hterm since h.1)⟩
  | reaping since =>
    simp only [Staged, hphase, Invocation.graceTime] at h
    obtain ⟨d, hd, hsince, hin, _⟩ := h
    have := hover d hd
    exact ⟨by omega, fun hnone => absurd hnone (hterm d hd)⟩
  | stdout ended since =>
    simp only [Staged, hphase] at h
    have := h.2.1 dur hdur
    exact hcollect ended (ended.lateness + Invocation.collectTime ended) h.1 (by omega) (by omega)
  | stderr ended stdout since =>
    simp only [Staged, hphase] at h
    have := h.2.2.1 dur hdur
    exact hcollect ended (ended.lateness + 2 * Invocation.collectTime ended) h.1 (by omega) le_rfl
  | returned answer =>
    simp only [Staged, hphase] at h
    cases h with
    | osError _ _ _ hin =>
      have := hin dur hdur
      omega
    | collected ended _ _ hended _ _ hin => exact hcollect ended _ hended (hin dur hdur) le_rfl

/-- The future has returned, or it or the clock can move. -/
theorem own_enabled (s : RunnerState) : (∃ answer, s.phase = .returned answer) ∨
    ∃ act, act.isOwn = true ∧ (inv.step s act).isSome = true := by
  cases hphase : s.phase with
  | starting => exact .inr ⟨.spawn (.ok ()), rfl, by simp [Invocation.step, hphase]⟩
  | returned answer => exact .inl ⟨answer, rfl⟩
  | waiting | grace | reaping | stdout | stderr =>
    right
    have hrunning : s.running = true := by simp [RunnerState.running, hphase]
    cases hpoll : inv.poll s with
    | some t => exact ⟨.poll, rfl, by simp [Invocation.step, hpoll]⟩
    | none => exact ⟨.tick, rfl, by simp [Invocation.step, hpoll, hrunning]⟩

/-- A command with a deadline is over in time: at most 10 seconds after the deadline if it came to an end before it,
at most 14 if not, and until then the future or the clock goes on, a bounded number of times. -/
structure Timely (inv : Invocation) (dur : ℕ) (tr : List (Fired RunnerState RunnerAct)) (s' : RunnerState) : Prop where
  overdue : s'.now ≤ dur + 14000
  inTime : s'.termSent = none → s'.now ≤ dur + 10000
  goesOn : (∃ answer, s'.phase = .returned answer) ∨ ∃ act, act.isOwn = true ∧ (inv.step s' act).isSome = true
  ends : (tr.filter fun f => f.act.isOwn).length ≤ dur + 14006

theorem rank_le (phase : Phase) : phase.rank ≤ 6 := by
  cases phase <;> simp [Phase.rank]

/-- No child, whatever it does with its pipes and however it takes signals, holds the runner up. -/
theorem returns_in_time (h : Run inv.future .starting tr s') {dur : ℕ} (hdur : inv.timeout = some dur) :
    Timely inv dur tr s' := by
  obtain ⟨hlate, hin⟩ := staged_bound (run_staged h) hdur
  refine ⟨hlate, hin, own_enabled s', ?_⟩
  have hcount := own_steps h
  have hrank := rank_le s'.phase
  omega

theorem returns_in_time_quick : Timely aptUpdate 300000 quickTrace (endState .starting quickTrace) :=
  returns_in_time quickUpdate_run rfl

end Time

end LinuxPatchApi.Packages
