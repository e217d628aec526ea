/-
The scheduler among its callers: any operation may run at any time, and any number of
`dispatch_mutation` calls are under way, each made of a caller (which may be dropped at an await),
a watchdog task, the watchdog's timeout and a blocking closure. One action of the machine is one
critical section or one move of one of these actors.
-/
import LinuxPatchApi.Lib.Transition
import LinuxPatchApi.Lib.Entries
import LinuxPatchApi.Jobs.SchedulerSpec

namespace LinuxPatchApi.Jobs

open LinuxPatchApi.Packages

/-! ## Operations -/

/-- The scheduler's operations other than `dispatch_mutation`, with their arguments; an operation
that may create a job names the id it would draw. -/
inductive SchedOp where
  | admitJob (id : Uuid) (operation : JobOperation) (packages : List String)
  | createRollbackJob (id originalJobId : Uuid)
  | tryReserveSelfUpdate (id : Uuid) (packages : List String) (fromVersion targetVersion : String)
  | releaseSelfUpdate (id : Uuid)
  | rollbackSelfUpdate (id : Uuid)
  | reserveReboot (id : Uuid) (force ackCorruptionRisk : Bool)
  | rollbackReboot (id : Uuid) (error : Option String)
  | beginRebootExecution (id : Uuid)
  | setJobRebooting (id : Uuid) (message : String)
  | updateJob (id : Uuid) (status : JobStatus) (progress : Option UInt8) (message : Option String)
  | addJobLog (id : Uuid) (message : String)
  | completeJob (id : Uuid)
  | failJob (id : Uuid) (error : String)
  | failJobWithDiagnostics (id : Uuid) (error : AnyhowError)
  | deleteJob (id : Uuid)
  | freezeAdmission
  | notifyWaiters
  deriving DecidableEq, Repr

namespace SchedOp

/-- The critical section of the operation. -/
def apply (env : Env) (s : SchedulerState) : SchedOp → SchedulerState
  | admitJob id operation packages => (s.admitJob env id operation packages).1
  | createRollbackJob id original => (s.createRollbackJob env id original).1
  | tryReserveSelfUpdate id packages v w => (s.tryReserveSelfUpdate env id packages v w).1
  | releaseSelfUpdate id => (s.releaseSelfUpdate id).1
  | rollbackSelfUpdate id => s.rollbackSelfUpdate id
  | reserveReboot id force ack => (s.reserveReboot env id force ack).1
  | rollbackReboot id error => (s.rollbackReboot env id error).1
  | beginRebootExecution id => (s.beginRebootExecution env id).1
  | setJobRebooting id message => (s.setJobRebooting env id message).1
  | updateJob id status progress message => (s.updateJob env id status progress message).1
  | addJobLog id message => s.addJobLog env id message
  | completeJob id => s.completeJob env id
  | failJob id error => s.failJob env id error
  | failJobWithDiagnostics id error => s.failJobWithDiagnostics env id error
  | deleteJob id => (s.deleteJob id).1
  | freezeAdmission => s.freezeAdmission
  | notifyWaiters => s.notifyOne

/-- The id that `Uuid::new_v4` returns to the operation. -/
def newId : SchedOp → Option Uuid
  | admitJob id _ _ | createRollbackJob id _ | tryReserveSelfUpdate id _ _ _ | reserveReboot id _ _ => some id
  | _ => none

def isUpdateJob : SchedOp → Bool
  | updateJob .. => true
  | _ => false

end SchedOp

/-! ## Calls of `dispatch_mutation` -/

/-- Where the caller's future is. -/
inductive CallerPhase where
  /-- About to take the state lock and make a pass of the wait loop. -/
  | locking
  /-- The lock is released, `notified()` has not been polled yet. -/
  | registering
  /-- In the queue of the `Notify`. -/
  | suspended
  /-- The slot is acquired; in `persist_jobs().await`. -/
  | persisting
  /-- The watchdog is spawned; in `result_rx.await`. -/
  | awaiting
  | returned (result : MutationResult)
  | dropped
  deriving DecidableEq, Repr

inductive WatchdogPhase where
  | absent
  | spawned
  /-- In `timeout(backstop, join_handle).await`, with the instant at which the timeout fires. -/
  | timing (deadline : Nat)
  /-- About to take the state lock for the last time. -/
  | finalizing (result : MutationResult)
  | finished
  deriving DecidableEq, Repr

inductive ClosurePhase where
  | absent
  /-- Handed to `spawn_blocking`, not started. -/
  | queued
  | executing
  | exited (result : MutationResult)
  deriving DecidableEq, Repr

/-- One call of `dispatch_mutation`; `generation` and `backstop` are set when it acquires the
slot, `inbox` is what the watchdog sent to the caller. -/
structure Call where
  jobId : Uuid
  caller : CallerPhase
  generation : UInt64
  backstop : Nat
  watchdog : WatchdogPhase
  closure : ClosurePhase
  inbox : Option MutationResult
  deriving DecidableEq, Repr

def Call.new (jobId : Uuid) : Call := ⟨jobId, .locking, 0, 0, .absent, .absent, none⟩

/-- The moves of the actors of one call. -/
inductive CallAct where
  | check
  | register
  | wake
  | spawnWatchdog
  | startWatchdog
  | runClosure
  | exitClosure (result : MutationResult)
  | join
  | elapse
  | finalize
  | receive
  | drop
  deriving DecidableEq, Repr

/-- One move of call number `c`, with the scheduler state and the call after it. -/
def callStep (env : Env) (c : Nat) (s : SchedulerState) (call : Call) : CallAct → Option (SchedulerState × Call)
  | .check =>
    if call.caller = .locking then
      match s.dispatchCheck env call.jobId with
      | (s, .rejected e) => some (s, { call with caller := .returned (.error e) })
      | (s, .wait) => some (s, { call with caller := .registering })
      | (s, .acquired g b) => some (s, { call with caller := .persisting, generation := g, backstop := b })
    else none
  | .register =>
    if call.caller = .registering then
      match s.notify.poll c with
      | (true, n) => some ({ s with notify := n }, { call with caller := .locking })
      | (false, n) => some ({ s with notify := n }, { call with caller := .suspended })
    else none
  | .wake =>
    if call.caller = .suspended ∧ c ∈ s.notify.notified then
      some ({ s with notify := s.notify.take c }, { call with caller := .locking })
    else none
  | .spawnWatchdog =>
    if call.caller = .persisting then some (s, { call with caller := .awaiting, watchdog := .spawned })
    else none
  | .startWatchdog =>
    -- `spawn_blocking(f)` and the first poll of the timeout
    if call.watchdog = .spawned then
      some (s, { call with watchdog := .timing (env.now + call.backstop), closure := .queued })
    else none
  | .runClosure => if call.closure = .queued then some (s, { call with closure := .executing }) else none
  | .exitClosure r => if call.closure = .executing then some (s, { call with closure := .exited r }) else none
  | .join =>
    match call.watchdog, call.closure with
    | .timing _, .exited r => some (s, { call with watchdog := .finalizing r })
    | _, _ => none
  | .elapse =>
    -- the timeout polls the closure first, so it fires only while the closure has not exited
    match call.watchdog, call.closure with
    | .timing _, .exited _ => none
    | .timing deadline, _ =>
      if deadline ≤ env.now then
        some (s, { call with watchdog := .finalizing (SchedulerState.backstopElapsed call.backstop) })
      else none
    | _, _ => none
  | .finalize =>
    match call.watchdog with
    | .finalizing r =>
      let alive := decide (call.caller = .awaiting)
      some (s.finalizeMutation env call.jobId call.generation r alive,
        { call with watchdog := .finished, inbox := if alive then some r else none })
    | _ => none
  | .receive =>
    match call.caller, call.inbox with
    | .awaiting, some r => some (s, { call with caller := .returned r })
    | _, _ => none
  | .drop =>
    match call.caller with
    | .locking | .persisting | .awaiting => some (s, { call with caller := .dropped })
    | .suspended => some ({ s with notify := s.notify.drop c }, { call with caller := .dropped })
    | _ => none

/-- What one move can do, with what is known when it does it. -/
inductive CallStep (env : Env) (c : Nat) (s : SchedulerState) (call : Call) :
    CallAct → SchedulerState → Call → Prop
  | rejected (e : AnyhowError) : call.caller = .locking → ¬ s.DispatchReady call.jobId →
      CallStep env c s call .check s { call with caller := .returned (.error e) }
  | waiting : call.caller = .locking → ¬ s.DispatchReady call.jobId →
      CallStep env c s call .check s { call with caller := .registering }
  | acquired (b : Nat) (s' : SchedulerState) : call.caller = .locking → s.DispatchReady call.jobId →
      Frame { s with activeMutation := some call.jobId, mutationGeneration := s.mutationGeneration + 1 } s' →
      (∀ k, s'.jobs.get? k = if k = call.jobId then
        (s.jobs.get? call.jobId).map (SchedulerState.startJob env (s.jobAlreadyRunning call.jobId))
        else s.jobs.get? k) →
      CallStep env c s call .check s'
        { call with caller := .persisting, generation := s.mutationGeneration + 1, backstop := b }
  | registered (n : Notify) (p : CallerPhase) : call.caller = .registering →
      p = .locking ∨ p = .suspended →
      CallStep env c s call .register { s with notify := n } { call with caller := p }
  | woken (n : Notify) : call.caller = .suspended →
      CallStep env c s call .wake { s with notify := n } { call with caller := .locking }
  | spawned : call.caller = .persisting →
      CallStep env c s call .spawnWatchdog s { call with caller := .awaiting, watchdog := .spawned }
  | started : call.watchdog = .spawned →
      CallStep env c s call .startWatchdog s
        { call with watchdog := .timing (env.now + call.backstop), closure := .queued }
  | ran : call.closure = .queued →
      CallStep env c s call .runClosure s { call with closure := .executing }
  | exited (r : MutationResult) : call.closure = .executing →
      CallStep env c s call (.exitClosure r) s { call with closure := .exited r }
  | joined (d : Nat) (r : MutationResult) : call.watchdog = .timing d → call.closure = .exited r →
      CallStep env c s call .join s { call with watchdog := .finalizing r }
  | elapsed (d : Nat) (r : MutationResult) : call.watchdog = .timing d → d ≤ env.now →
      (∀ r, call.closure ≠ .exited r) →
      CallStep env c s call .elapse s { call with watchdog := .finalizing r }
  | finalized (r : MutationResult) (i : Option MutationResult) : call.watchdog = .finalizing r →
      CallStep env c s call .finalize
        (s.finalizeMutation env call.jobId call.generation r (decide (call.caller = .awaiting)))
        { call with watchdog := .finished, inbox := i }
  | received (r : MutationResult) : call.caller = .awaiting → call.inbox = some r →
      CallStep env c s call .receive s { call with caller := .returned r }
  | dropped (n : Notify) : call.caller = .locking ∨ call.caller = .persisting ∨ call.caller = .awaiting ∨
        call.caller = .suspended →
      CallStep env c s call .drop { s with notify := n } { call with caller := .dropped }

theorem callStep_cases {env : Env} {c : Nat} {s s' : SchedulerState} {call call' : Call} {a : CallAct}
    (h : callStep env c s call a = some (s', call')) : CallStep env c s call a s' call' := by
  cases a with
  | check =>
    simp only [callStep] at h
    split at h
    next hl =>
      rcases s.dispatchCheck_spec env call.jobId with ⟨hn, hs, hna⟩ | ⟨hr, b, hb, hf, hg⟩
      · split at h
        · next s₁ e he =>
          rw [he] at hs; cases h; subst hs
          exact .rejected e hl hn
        · next s₁ he =>
          rw [he] at hs; cases h; subst hs
          exact .waiting hl hn
        · next s₁ g b he => exact absurd (by rw [he]) (hna g b)
      · split at h
        · next s₁ e he => rw [he] at hb; cases hb
        · next s₁ he => rw [he] at hb; cases hb
        · next s₁ g b' he =>
          rw [he] at hb hf hg
          cases hb; cases h
          exact .acquired _ _ hl hr hf hg
    next => cases h
  | register =>
    simp only [callStep] at h
    split at h
    next hl =>
      split at h <;> cases h
      · exact .registered _ _ hl (.inl rfl)
      · exact .registered _ _ hl (.inr rfl)
    next => cases h
  | wake =>
    simp only [callStep] at h
    split at h
    next hl => cases h; exact .woken _ hl.1
    next => cases h
  | spawnWatchdog =>
    simp only [callStep] at h
    split at h
    next hl => cases h; exact .spawned hl
    next => cases h
  | startWatchdog =>
    simp only [callStep] at h
    split at h
    next hl => cases h; exact .started hl
    next => cases h
  | runClosure =>
    simp only [callStep] at h
    split at h
    next hl => cases h; exact .ran hl
    next => cases h
  | exitClosure r =>
    simp only [callStep] at h
    split at h
    next hl => cases h; exact .exited r hl
    next => cases h
  | join =>
    simp only [callStep] at h
    split at h
    next d r hw hc => cases h; exact .joined d r hw hc
    next => cases h
  | elapse =>
    simp only [callStep] at h
    split at h
    next => cases h
    next d hw hc =>
      split at h
      next hd => cases h; exact .elapsed d _ hw hd (fun r hr => hc r hr)
      next => cases h
    next => cases h
  | finalize =>
    simp only [callStep] at h
    split at h
    next r hw => cases h; exact .finalized r _ hw
    next => cases h
  | receive =>
    simp only [callStep] at h
    split at h
    next r hc hi => cases h; exact .received r hc hi
    next => cases h
  | drop =>
    simp only [callStep] at h
    split at h
    next hc => cases h; exact .dropped s.notify (.inl hc)
    next hc => cases h; exact .dropped s.notify (.inr (.inl hc))
    next hc => cases h; exact .dropped s.notify (.inr (.inr (.inl hc)))
    next hc => cases h; exact .dropped _ (.inr (.inr (.inr hc)))
    next => cases h

/-- No move of a call puts a job into the map. -/
theorem callStep_job {env : Env} {c : Nat} {s s' : SchedulerState} {call call' : Call} {a : CallAct}
    (h : CallStep env c s call a s' call') {k : Uuid} {j' : Job} (hj' : s'.jobs.get? k = some j') :
    ∃ j, s.jobs.get? k = some j := by
  cases h with
  | acquired b s' _ _ _ hget =>
    rw [hget] at hj'
    split at hj'
    · next hk =>
      obtain ⟨j, hj, _⟩ := Option.map_eq_some_iff.1 hj'
      exact ⟨j, by rw [hk]; exact hj⟩
    · exact ⟨j', hj'⟩
  | finalized r i _ =>
    rw [SchedulerState.finalizeMutation_get?] at hj'
    split at hj'
    · next hk =>
      obtain ⟨j, hj, _⟩ := Option.map_eq_some_iff.1 hj'
      exact ⟨j, by rw [hk.1]; exact hj⟩
    · exact ⟨j', hj'⟩
  | _ => exact ⟨j', hj'⟩

/-! ## The machine -/

/-- The agent process: its scheduler, its clock, every job id drawn or handed to it so far, and
the calls of `dispatch_mutation` made so far. -/
structure World where
  sched : SchedulerState
  clock : Nat
  bootId : Option String
  issued : List Uuid
  calls : List Call
  deriving DecidableEq

def World.env (w : World) : Env := ⟨w.clock, w.bootId⟩

inductive Act where
  | op (o : SchedOp)
  | dispatch (jobId : Uuid)
  | call (c : Nat) (a : CallAct)
  | tick (seconds : Nat)
  deriving DecidableEq, Repr

def Act.isUpdateJob : Act → Bool
  | .op o => o.isUpdateJob
  | _ => false

/-- One step: a new id is one that was never seen before. -/
def World.step (w : World) : Act → Option World
  | .op o =>
    if ∀ id ∈ o.newId, id ∉ w.issued then
      some { w with sched := o.apply w.env w.sched, issued := o.newId.toList ++ w.issued }
    else none
  | .dispatch jobId => some { w with calls := w.calls ++ [Call.new jobId], issued := jobId :: w.issued }
  | .call c a =>
    match w.calls[c]? with
    | none => none
    | some call => (callStep w.env c w.sched call a).map fun (s, call') =>
        { w with sched := s, calls := w.calls.set c call' }
  | .tick seconds => some { w with clock := w.clock + seconds }

/-- What one step can do. -/
inductive WorldStep (w : World) : Act → World → Prop
  | op (o : SchedOp) : (∀ id, o.newId = some id → id ∉ w.issued) →
      WorldStep w (.op o) { w with sched := o.apply w.env w.sched, issued := o.newId.toList ++ w.issued }
  | dispatch (jobId : Uuid) :
      WorldStep w (.dispatch jobId) { w with calls := w.calls ++ [Call.new jobId], issued := jobId :: w.issued }
  | call (c : Nat) (a : CallAct) (call call' : Call) (s' : SchedulerState) : w.calls[c]? = some call →
      CallStep w.env c w.sched call a s' call' →
      WorldStep w (.call c a) { w with sched := s', calls := w.calls.set c call' }
  | tick (seconds : Nat) : WorldStep w (.tick seconds) { w with clock := w.clock + seconds }

theorem World.step_cases {w w' : World} {a : Act} (h : w.step a = some w') : WorldStep w a w' := by
  cases a with
  | op o =>
    simp only [World.step] at h
    split at h
    next hid => cases h; exact .op o fun id hi => hid id (by rw [hi]; rfl)
    next => cases h
  | dispatch jobId => cases h; exact .dispatch jobId
  | call c a =>
    simp only [World.step] at h
    split at h
    next => cases h
    next call hc =>
      obtain ⟨⟨s', call'⟩, hs, rfl⟩ := Option.map_eq_some_iff.1 h
      exact .call c a call call' s' hc (callStep_cases hs)
  | tick seconds => cases h; exact .tick seconds

/-- The process right after `main`'s startup sequence. -/
def World.Startup (w : World) : Prop :=
  ∃ maxConcurrent maxQueueDepth loaded,
    w.sched = SchedulerState.startup w.env maxConcurrent maxQueueDepth loaded ∧
    (∀ j ∈ loaded, j.id ∈ w.issued) ∧ w.calls = []

def agent : Transition.Machine World Act := ⟨World.Startup, World.step⟩

theorem agent_step {f : Transition.Fired World Act} (h : Transition.IsStep agent f) :
    WorldStep f.pre f.act f.post := World.step_cases h

/-- At this step call number `c` takes the state lock, and its pass of the wait loop acquires the mutation slot. -/
structure Acquires (f : Transition.Fired World Act) (c : Nat) (call : Call) : Prop where
  act : f.act = .call c .check
  entry : f.pre.calls[c]? = some call
  locking : call.caller = .locking
  acquired : ∃ g b, (f.pre.sched.dispatchCheck f.pre.env call.jobId).2 = .acquired g b

section Acquires

variable {f : Transition.Fired World Act} {c : Nat} {call : Call}

/-- A pass acquires the slot exactly when every check of the wait loop passes. -/
theorem acquires_iff : Acquires f c call ↔ f.act = .call c .check ∧ f.pre.calls[c]? = some call ∧
    call.caller = .locking ∧ f.pre.sched.DispatchReady call.jobId := by
  have hpass : (∃ g b, (f.pre.sched.dispatchCheck f.pre.env call.jobId).2 = .acquired g b) ↔
      f.pre.sched.DispatchReady call.jobId := by
    rcases f.pre.sched.dispatchCheck_spec f.pre.env call.jobId with ⟨hn, _, hna⟩ | ⟨hr, b, hb, _⟩
    · exact iff_of_false (fun ⟨g, b, hb⟩ => hna g b hb) hn
    · exact iff_of_true ⟨_, b, hb⟩ hr
  rw [← hpass]
  constructor
  · rintro ⟨hact, hentry, hlocking, hacquired⟩
    exact ⟨hact, hentry, hlocking, hacquired⟩
  · rintro ⟨hact, hentry, hlocking, hacquired⟩
    exact ⟨hact, hentry, hlocking, hacquired⟩

theorem Acquires.ready (h : Acquires f c call) : f.pre.sched.DispatchReady call.jobId := (acquires_iff.1 h).2.2.2

end Acquires

/-- A property of single calls that new calls have and every move keeps is kept by every step. -/
theorem calls_step {P : Call → Prop} (hnew : ∀ jobId, P (Call.new jobId)) {f : Transition.Fired World Act}
    (hf : Transition.IsStep agent f)
    (hmove : ∀ c a call s' call', f.pre.calls[c]? = some call →
      CallStep f.pre.env c f.pre.sched call a s' call' → P call → P call')
    (h : ∀ call ∈ f.pre.calls, P call) : ∀ call ∈ f.post.calls, P call := by
  obtain ⟨w, a, w'⟩ := f
  have hs : WorldStep w a w' := agent_step hf
  intro x hx
  cases hs with
  | op | tick => exact h x hx
  | dispatch jobId =>
    rcases List.mem_append.1 hx with hx | hx
    · exact h x hx
    · rw [List.mem_singleton.1 hx]; exact hnew jobId
  | call c a call call' s' hc hcs =>
    rcases List.mem_or_eq_of_mem_set hx with hx | rfl
    · exact h x hx
    · exact hmove c a call s' x hc hcs (h call (List.mem_of_getElem? hc))

/-! ## The first state -/

theorem foldl_insert_get? {k : Uuid} {f : Job → Job} (l : List Job) (m : FinMap Uuid Job) {j : Job}
    (h : (l.foldl (fun m j => m.insert j.id (f j)) m).get? k = some j) :
    (∃ o ∈ l, o.id = k ∧ j = f o) ∨ m.get? k = some j := by
  rcases Overwrite.exists_last (fun o : Job => k = o.id) l with hnone | ⟨o, ho⟩
  · rw [FinMap.get?_foldl_insert_of_ne hnone] at h
    exact .inr h
  · rw [FinMap.get?_foldl_insert_last ho] at h
    exact .inl ⟨o, ho.mem, ho.prop.symm, (Option.some.inj h).symm⟩

theorem recoverOrphan_terminal (env : Env) (o : Job) :
    (SchedulerState.recoverOrphan env o).status.isTerminal = true := by
  unfold SchedulerState.recoverOrphan
  repeat' split
  all_goals rfl

/-- Every job of a freshly started agent is terminal and has an id that was loaded. -/
theorem startup_jobs {env : Env} {mc mq : Nat} {loaded : List Job} {k : Uuid} {j : Job}
    (h : (SchedulerState.startup env mc mq loaded).jobs.get? k = some j) :
    j.status.isTerminal = true ∧ ∃ o ∈ loaded, o.id = k := by
  rcases foldl_insert_get? _ _ h with ⟨o, ho, hk, rfl⟩ | h
  · exact ⟨recoverOrphan_terminal env _, _, (List.mem_filter.1 ho).1, hk⟩
  · rcases foldl_insert_get? (f := id) _ _ h with ⟨o, ho, hk, rfl⟩ | h
    · exact ⟨(List.mem_filter.1 ho).2, _, (List.mem_filter.1 ho).1, hk⟩
    · simp [SchedulerState.new] at h

/-- A freshly started agent without history. -/
def freshAgent (maxConcurrent maxQueueDepth : Nat) : World where
  sched := SchedulerState.startup ⟨0, none⟩ maxConcurrent maxQueueDepth []
  clock := 0
  bootId := none
  issued := []
  calls := []

theorem freshAgent_startup (maxConcurrent maxQueueDepth : Nat) :
    (freshAgent maxConcurrent maxQueueDepth).Startup :=
  ⟨maxConcurrent, maxQueueDepth, [], rfl, by simp, rfl⟩

/-- One job from admission to completion. -/
def orderlyInstall : List Act :=
  [.op (.admitJob 1 .install ["vim"]), .dispatch 1, .call 0 .check, .call 0 .spawnWatchdog,
    .call 0 .startWatchdog, .call 0 .runClosure, .call 0 (.exitClosure (.ok ())), .call 0 .join,
    .call 0 .finalize, .call 0 .receive, .op (.completeJob 1)]

end LinuxPatchApi.Jobs
