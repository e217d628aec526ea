/-
What justifies the removal of a lock file, in terms of what the operation asked the host just before,
and that `cleanup_stale_apt_locks` and `run_pacman` only remove lock files with such a justification.
-/
import LinuxPatchApi.Packages.Pacman

namespace LinuxPatchApi.Packages

open Text Interaction

/-! ## Traces of single questions -/

theorem runs_ask {e : Effect} {t : List (Event Response)} {r : Except AnyhowError (Response e)} :
    Runs (ask e).run t r ↔ ∃ s, r = .ok s ∧ t = [⟨e, s⟩] := runs_performE

/-- A question whose answer is handed on as it is. -/
theorem runs_relay {e : Effect} {α : Type} {f : Response e → α} {t : List (Event Response)} {a : α} :
    Runs (do let s ← ask e; return f s : Op α).run t (.ok a) ↔ ∃ s, a = f s ∧ t = [⟨e, s⟩] := by
  constructor
  · intro h
    rcases runs_bindE.1 h with ⟨_, _, he⟩ | ⟨t₁, t₂, s, rfl, h₁, h₂⟩
    · cases he
    · obtain ⟨s', hs, rfl⟩ := runs_ask.1 h₁
      cases hs
      obtain ⟨rfl, ha⟩ := runs_pure.1 h₂
      cases ha
      exact ⟨s, rfl, by simp⟩
  · rintro ⟨s, rfl, rfl⟩
    exact runs_bindE.2 (.inr ⟨[⟨e, s⟩], [], s, rfl, runs_ask.2 ⟨s, rfl, rfl⟩, .pure _⟩)

theorem runs_pathExists {path : String} {t : List (Event Response)} {there : Bool} :
    Runs (pathExists path).run t (.ok there) ↔ t = [⟨.pathExists path, there⟩] := by
  refine runs_relay.trans ⟨?_, fun h => ⟨there, rfl, h⟩⟩
  rintro ⟨s, rfl, h⟩
  exact h

theorem runs_readFile {path : String} {t : List (Event Response)} {content : Option String} :
    Runs (readFile path).run t (.ok content) ↔ t = [⟨.readFile path, content⟩] := by
  refine runs_relay.trans ⟨?_, fun h => ⟨content, rfl, h⟩⟩
  rintro ⟨s, rfl, h⟩
  exact h

/-! ## Justified removals -/

/-- The questions and answers on which `cleanup_stale_apt_locks` takes a lock file for stale. -/
inductive AptStale (path : String) : List (Event Response) → Prop
  /-- The file holds the number of a process that is not there. -/
  | deadPid (text : String) (pid : Nat) (hpid : parseU32 (trim text) = some pid) :
      AptStale path [⟨.pathExists path, true⟩, ⟨.readFile path, some text⟩,
        ⟨.pathExists (AptBackend.procPath pid), false⟩]
  /-- It holds the number of a process whose command line names neither apt nor dpkg. -/
  | otherProcess (text : String) (pid : Nat) (cmdline : String) (hpid : parseU32 (trim text) = some pid)
      (hcmd : AptBackend.namesAptOrDpkg cmdline = false) :
      AptStale path [⟨.pathExists path, true⟩, ⟨.readFile path, some text⟩,
        ⟨.pathExists (AptBackend.procPath pid), true⟩, ⟨.readFile (AptBackend.cmdlinePath pid), some cmdline⟩]
  /-- It holds something else, and pgrep did not answer with a process. -/
  | noProcess (text : String) (output : Option ProcessOutput) (hpid : parseU32 (trim text) = none)
      (hnone : ∀ o, output = some o → o.stdout = []) :
      AptStale path [⟨.pathExists path, true⟩, ⟨.readFile path, some text⟩,
        ⟨.output "pgrep" ["-f", "(apt-get|apt-cache|dpkg|apt)"], output⟩]

/-- The questions and answers after which `run_pacman` removes the database lock. -/
inductive PacmanStale : List (Event Response) → Prop
  /-- The lock was there at the start, at every look in between, and when the time was up. -/
  | waited (rounds : List (Event Response)) (slept : Nat) (waited : { seconds : Nat // slept ≤ seconds })
      (hrounds : ∀ e ∈ rounds, e ≠ ⟨.pathExists PacmanBackend.lockPath, false⟩)
      (hwaited : PacmanBackend.maxWait ≤ waited.val) :
      PacmanStale ([⟨.pathExists PacmanBackend.lockPath, true⟩] ++ rounds ++
        [⟨.pathExists PacmanBackend.lockPath, true⟩, ⟨.elapsed slept, waited⟩])
  /-- The command ended with an error that says that it timed out. -/
  | timedOut (args : List Arg) (timeout : Option Nat) (e : AnyhowError) (he : PacmanBackend.saysTimedOut e = true) :
      PacmanStale [⟨.run "pacman" args timeout, .error e⟩]

/-- The last events before the removal of the file justify it. -/
def JustifiedRemoval (before : List (Event Response)) (path : String) : Prop :=
  ∃ front obs, before = front ++ obs ∧
    ((path ∈ AptBackend.lockFiles ∧ AptStale path obs) ∨ (path = PacmanBackend.lockPath ∧ PacmanStale obs))

theorem JustifiedRemoval.prepend {before : List (Event Response)} {path : String} (g : List (Event Response))
    (h : JustifiedRemoval before path) : JustifiedRemoval (g ++ before) path := by
  obtain ⟨front, obs, rfl, h⟩ := h
  exact ⟨g ++ front, obs, by rw [List.append_assoc], h⟩

/-! ## Guarded operations -/

/-- What holds at every call of a guarded operation: its command lines are in `A`, and its removals are
justified by the events before them. -/
def Guard (A : List Arg → Prop) (before : List (Event Response)) : Effect → Prop
  | .run _ args _ => A args
  | .removeFile path => JustifiedRemoval before path
  | _ => True

theorem Guard.prepend {A : List Arg → Prop} (g before : List (Event Response)) (e : Effect)
    (h : Guard A before e) : Guard A (g ++ before) e := by
  cases e with
  | removeFile path => exact JustifiedRemoval.prepend g h
  | _ => exact h

/-- Every call of the operation meets the guard, whatever was asked before it. -/
def Guarded {α : Type} (A : List Arg → Prop) (op : Op α) : Prop := Safe (Guard A) [] op.run

section Rules

variable {α β : Type} {A : List Arg → Prop}

theorem Guarded.after {op : Op α} (h : Guarded A op) (before : List (Event Response)) :
    Safe (Guard A) before op.run := Safe.after Guard.prepend before h

theorem Guarded.pure (a : α) : Guarded A (pure a : Op α) := trivial

theorem Guarded.throw (e : AnyhowError) : Guarded A (throw e : Op α) := trivial

theorem Guarded.bind {op : Op α} {f : α → Op β} (h : Guarded A op) (hf : ∀ a, Guarded A (f a)) :
    Guarded A (op >>= f) := Safe.bindE h fun t a _ => (hf a).after ([] ++ t)

theorem Guarded.attempt {op : Op α} (h : Guarded A op) : Guarded A (Fallible.attempt op) := Safe.attempt h

theorem Guarded.unwrapOr {op : Op α} {a : α} (h : Guarded A op) : Guarded A (unwrapOr a op) := by
  refine .bind h.attempt fun r => ?_
  cases r with
  | ok b => exact .pure b
  | error e => exact .pure a

/-- Effects that neither run a command nor remove a file. -/
def Effect.isPlain : Effect → Bool
  | .run _ _ _ | .removeFile _ => false
  | _ => true

theorem Guarded.ask {e : Effect} (he : e.isPlain = true) : Guarded A (ask e) := by
  refine Safe.performE ?_
  cases e with
  | run | removeFile => cases he
  | _ => trivial

theorem Guarded.relay {e : Effect} {f : Response e → α} (he : e.isPlain = true) :
    Guarded A (do let s ← Packages.ask e; return f s : Op α) := .bind (.ask he) fun _ => .pure _

theorem guarded_pathExists (path : String) : Guarded A (pathExists path) := .relay rfl

theorem guarded_readFile (path : String) : Guarded A (readFile path) := .relay rfl

theorem guarded_runWithTimeout {program : String} {args : List Arg} {timeout : Option Nat} (h : A args) :
    Guarded A (runWithTimeout program args timeout) := ⟨h, fun _ => trivial⟩

theorem guarded_runCommandTimed {program : String} {args : List Arg} {timeout : Nat} (h : A args) :
    Guarded A (runCommandTimed program args timeout) := .bind (guarded_runWithTimeout h) fun _ => .pure _

theorem guarded_runCommandWithAcceptableExit {program : String} {args : List Arg} {acceptable : List Int}
    {timeout : Option Nat} (h : A args) :
    Guarded A (runCommandWithAcceptableExit program args acceptable timeout) := by
  refine .bind (guarded_runWithTimeout h).attempt fun r => ?_
  exact trivial

theorem guarded_tryRun {program : String} {args : List Arg} (h : A args) : Guarded A (tryRun program args) :=
  .unwrapOr (.bind (guarded_runWithTimeout h) fun _ => .pure _)

theorem guarded_commandAvailable (cmd : String) : Guarded A (commandAvailable cmd) := .relay rfl

/-- A guarded operation's traces meet the guard at every event. -/
theorem Guarded.at_event {op : Op α} (h : Guarded A op) {t : List (Event Response)} {r : Except AnyhowError α}
    (ht : Runs op.run t r) {pre post : List (Event Response)} {e : Event Response} (he : t = pre ++ e :: post) :
    Guard A pre e.1 := Safe.at_event ht h he

end Rules

/-! ## apt and dpkg locks -/

/-- A lock that was found stale was found so on one of the grounds. -/
theorem lockIsStale_true {path : String} {t : List (Event Response)}
    (h : Runs (AptBackend.lockIsStale path).run t (.ok true)) : AptStale path (⟨.pathExists path, true⟩ :: t) := by
  rcases runs_bindE.1 h with ⟨_, _, he⟩ | ⟨t₁, t₂, content, rfl, h₁, h₂⟩
  · cases he
  rw [runs_readFile.1 h₁]
  cases content with
  | none => obtain ⟨_, h⟩ := runs_pure.1 h₂; cases h
  | some text =>
    simp only at h₂
    cases hpid : parseU32 (trim text) with
    | some pid =>
      rw [hpid] at h₂
      rcases runs_bindE.1 h₂ with ⟨_, _, he⟩ | ⟨t₃, t₄, alive, rfl, h₃, h₄⟩
      · cases he
      rw [runs_pathExists.1 h₃]
      cases alive with
      | false =>
        obtain ⟨rfl, _⟩ := runs_pure.1 h₄
        exact .deadPid text pid hpid
      | true =>
        rcases runs_bindE.1 h₄ with ⟨_, _, he⟩ | ⟨t₅, t₆, cmdline, rfl, h₅, h₆⟩
        · cases he
        rw [runs_readFile.1 h₅]
        obtain ⟨rfl, hany⟩ := runs_pure.1 h₆
        cases cmdline with
        | none => cases hany
        | some cmdline =>
          have hcmd : AptBackend.namesAptOrDpkg cmdline = false := by simpa using hany
          exact .otherProcess text pid cmdline hpid hcmd
    | none =>
      rw [hpid] at h₂
      obtain ⟨output, hout, rfl⟩ := runs_relay.1 h₂
      refine .noProcess text output hpid ?_
      rintro o rfl
      simpa using hout

theorem guarded_lockIsStale {A : List Arg → Prop} (path : String) : Guarded A (AptBackend.lockIsStale path) := by
  refine .bind (guarded_readFile path) fun content => ?_
  cases content with
  | none => exact .pure _
  | some text =>
    simp only
    split
    · refine .bind (guarded_pathExists _) fun alive => ?_
      split
      · exact .bind (guarded_readFile _) fun _ => .pure _
      · exact .pure _
    · exact .relay rfl

theorem guarded_cleanupLock {A : List Arg → Prop} {path : String} (hp : path ∈ AptBackend.lockFiles) :
    Guarded A (AptBackend.cleanupLock path) := by
  refine Safe.bindE (guarded_pathExists path) fun t there ht => ?_
  rw [runs_pathExists.1 ht]
  cases there with
  | false => trivial
  | true =>
    refine Safe.bindE ((guarded_lockIsStale path).after _) fun t' stale ht' => ?_
    cases stale with
    | false => trivial
    | true =>
      refine Safe.bindE (Safe.performE ?_) fun _ _ _ => trivial
      exact ⟨[], _, rfl, .inl ⟨hp, by simpa using lockIsStale_true ht'⟩⟩

theorem guarded_cleanupLocks {A : List Arg → Prop} : ∀ {paths : List String}, (∀ p ∈ paths, p ∈ AptBackend.lockFiles) →
    Guarded A (AptBackend.cleanupLocks paths)
  | [], _ => .pure _
  | p :: ps, h => .bind (guarded_cleanupLock (h p (by simp))) fun _ =>
    guarded_cleanupLocks fun q hq => h q (by simp [hq])

theorem guarded_cleanupStaleAptLocks {A : List Arg → Prop} : Guarded A AptBackend.cleanupStaleAptLocks :=
  guarded_cleanupLocks fun _ h => h

/-! ## The pacman lock -/

/-- The events of a wait: the lock seen, then rounds in which it was never seen gone. -/
def Waiting (before : List (Event Response)) : Prop :=
  ∃ front rounds, before = front ++ ([⟨.pathExists PacmanBackend.lockPath, true⟩] ++ rounds) ∧
    ∀ e ∈ rounds, e ≠ (⟨.pathExists PacmanBackend.lockPath, false⟩ : Event Response)

theorem Waiting.snoc {before more : List (Event Response)} (h : Waiting before)
    (hm : ∀ e ∈ more, e ≠ (⟨.pathExists PacmanBackend.lockPath, false⟩ : Event Response)) :
    Waiting (before ++ more) := by
  obtain ⟨front, rounds, rfl, hr⟩ := h
  refine ⟨front, rounds ++ more, by simp, fun e he => ?_⟩
  rcases List.mem_append.1 he with he | he
  · exact hr e he
  · exact hm e he

theorem safe_waitRound {A : List Arg → Prop} {slept : Nat} {again : Op Unit} {before : List (Event Response)}
    (hb : Waiting before) (hagain : ∀ before', Waiting before' → Safe (Guard A) before' again.run) :
    Safe (Guard A) before (PacmanBackend.waitRound slept again).run := by
  refine Safe.bindE ((guarded_pathExists _).after _) fun t there ht => ?_
  rw [runs_pathExists.1 ht]
  cases there with
  | false => trivial
  | true =>
    refine Safe.bindE (Safe.performE trivial) fun t' waited ht' => ?_
    obtain ⟨_, hw, rfl⟩ := runs_ask.1 ht'
    cases hw
    show Safe (Guard A) _ (ite _ _ _ : Op Unit).run
    split
    next hmax =>
      -- the time is up
      refine Safe.bindE (Safe.performE ?_) fun _ _ _ => trivial
      obtain ⟨front, rounds, rfl, hr⟩ := hb
      exact ⟨front, _, by simp, .inr ⟨rfl, .waited rounds slept waited hr hmax⟩⟩
    next =>
      refine Safe.bindE (Safe.performE trivial) fun t'' _ ht'' => ?_
      obtain ⟨s, _, rfl⟩ := runs_ask.1 ht''
      rw [List.append_assoc, List.append_assoc]
      refine hagain _ (hb.snoc fun e he => ?_)
      simp only [List.cons_append, List.nil_append, List.mem_cons, List.not_mem_nil, or_false] at he
      rcases he with rfl | rfl | rfl <;> (intro h; cases h)

theorem safe_waitForLock {A : List Arg → Prop} : ∀ (n : Nat) {before : List (Event Response)}, Waiting before →
    Safe (Guard A) before (PacmanBackend.waitForLock n).run
  | 0, _, hb => safe_waitRound hb fun _ _ => trivial
  | n + 1, _, hb => safe_waitRound hb fun _ hb' => safe_waitForLock n hb'

/-- An exit that is not accepted stays the error it was. -/
theorem acceptExit_error {acceptable : List Int} {r : Except AnyhowError CommandOutput} {e : AnyhowError}
    (h : acceptExit acceptable r = .error e) : r = .error e := by
  unfold acceptExit at h
  cases r with
  | ok output => cases h
  | error e' =>
    simp only at h
    split at h
    · cases h; rfl
    · split at h
      · cases h; rfl
      · split at h
        · cases h
        · cases h; rfl

theorem runs_runWithTimeout {program : String} {args : List Arg} {timeout : Option Nat} {t : List (Event Response)}
    {r : Except AnyhowError CommandOutput} :
    Runs (runWithTimeout program args timeout).run t r ↔ t = [⟨.run program args timeout, r⟩] := by
  constructor
  · intro h
    cases h with
    | call _ _ s h => cases h; rfl
  · rintro rfl
    exact Runs.call (R := Response) (Effect.run program args timeout) Prog.pure r (.pure r)

theorem runs_acceptableExit {program : String} {args : List Arg} {acceptable : List Int} {timeout : Option Nat}
    {t : List (Event Response)} {r : Except AnyhowError String} :
    Runs (runCommandWithAcceptableExit program args acceptable timeout).run t r ↔
      ∃ s, r = acceptExit acceptable s ∧ t = [⟨.run program args timeout, s⟩] := by
  constructor
  · intro h
    rcases runs_bindE.1 h with ⟨e', h', _⟩ | ⟨t₁, t₂, s, rfl, h₁, h₂⟩
    · obtain ⟨s, hs, _⟩ := runs_attempt.1 h'
      cases hs
    · obtain ⟨s, hs, h₁⟩ := runs_attempt.1 h₁
      cases hs
      rw [runs_runWithTimeout.1 h₁]
      obtain ⟨rfl, hr⟩ := runs_pure.1 h₂
      exact ⟨s, hr, by simp⟩
  · rintro ⟨s, rfl, rfl⟩
    exact runs_bindE.2 (.inr ⟨_, [], s, by simp, runs_attempt.2 ⟨s, rfl, runs_runWithTimeout.2 rfl⟩, .pure _⟩)

theorem guarded_waitWhileLocked {A : List Arg → Prop} : Guarded A PacmanBackend.waitWhileLocked := by
  refine Safe.bindE (guarded_pathExists _) fun t there ht => ?_
  rw [runs_pathExists.1 ht]
  cases there with
  | false => trivial
  | true => exact safe_waitForLock 12 ⟨[], [], rfl, by simp⟩

theorem guarded_runPacmanWithAcceptableExit {A : List Arg → Prop} {args : List Arg}
    {acceptable : List Int} (h : A args) :
    Guarded A (PacmanBackend.runPacmanWithAcceptableExit args acceptable) := by
  refine .bind guarded_waitWhileLocked fun _ => ?_
  refine Safe.bindE (guarded_runCommandWithAcceptableExit h).attempt fun t r ht => ?_
  obtain ⟨_, hr, ht⟩ := runs_attempt.1 ht
  cases hr
  cases r with
  | ok output => trivial
  | error e =>
    -- the error is the answer to the command that was just run
    obtain ⟨s, hs, rfl⟩ := runs_acceptableExit.1 ht
    rw [acceptExit_error hs.symm]
    refine Safe.bindE ?_ fun _ _ _ => trivial
    unfold PacmanBackend.removeLockAfterTimeout
    split
    next he =>
      refine Safe.bindE (Safe.performE ?_) fun _ _ _ => trivial
      exact ⟨[], _, rfl, .inr ⟨rfl, .timedOut args _ e he⟩⟩
    · trivial

theorem guarded_runPacman {A : List Arg → Prop} {args : List Arg} (h : A args) :
    Guarded A (PacmanBackend.runPacman args) := guarded_runPacmanWithAcceptableExit h

-- from here on only the rules are used, and no goal unfolds an operation on its own
attribute [irreducible] Guarded

/-! ## A host that stays as it is -/

/-- The effect is the removal of the file. -/
def Effect.removes (path : String) : Effect → Bool
  | .removeFile p => p == path
  | _ => false

/-- A lock file: what it says, and the process that holds it. -/
structure LockFile where
  path : String
  text : String
  holder : Nat

/-- The lock files of a host and its processes with their command lines. -/
structure Host where
  locks : List LockFile
  processes : List (Nat × String)

namespace Host

def alive (h : Host) (pid : Nat) : Bool := h.processes.any fun p => p.1 == pid

def exists? (h : Host) (path : String) : Bool :=
  h.locks.any (fun l => l.path == path) || h.processes.any fun p => AptBackend.procPath p.1 == path

def read? (h : Host) (path : String) : Option String :=
  ((h.locks.find? fun l => l.path == path).map (·.text)).or
    ((h.processes.find? fun p => AptBackend.cmdlinePath p.1 == path).map (·.2))

/-- `pgrep` prints the processes of the tools that take the locks. -/
def pgrep (h : Host) : ProcessOutput :=
  let found := h.processes.filter fun p => AptBackend.namesAptOrDpkg p.2
  { success := !found.isEmpty, stdout := found.map fun p => UInt8.ofNat p.1 }

/-- What the host answers, when every command succeeds without output. -/
def answer (h : Host) : (e : Effect) → Response e
  | .run _ _ _ => (.ok ⟨some 0, "", "", false⟩ : Except AnyhowError CommandOutput)
  | .pathExists path => h.exists? path
  | .readFile path => h.read? path
  | .removeFile _ => true
  | .output program _ => if program == "pgrep" then some h.pgrep else (none : Option ProcessOutput)
  | .spawn _ _ => (.ok () : Except String Unit)
  | .lockAptMutex => true
  | .sleep _ => ()
  | .elapsed slept => ⟨slept, Nat.le_refl slept⟩
  | .updateSuccess => ()
  | .updateFailure _ => ()

/-- The host on which no lock file is there and no process runs. -/
def empty : Host := ⟨[], []⟩

end Host

end LinuxPatchApi.Packages
