/-
`src/jobs/scheduler.rs`, the critical sections: every function here is what one operation of the
scheduler does between taking and releasing the state lock. An operation that creates a job gets
the id that `Uuid::new_v4` returned as an argument.
-/
import LinuxPatchApi.Lib.FinMap
import LinuxPatchApi.Lib.Notify
import LinuxPatchApi.Jobs.Manager

namespace LinuxPatchApi.Jobs

open LinuxPatchApi.Packages

/-! ## State -/

inductive AdmissionMode where
  | «open»
  | frozen
  | recovery
  deriving DecidableEq, Repr

structure UpgradeOperation where
  jobId : Uuid
  fromVersion : String
  targetVersion : String
  generation : UInt64
  deriving DecidableEq, Repr

/-- `SchedulerState`, with the process-wide generation counter and, in place of the broadcast
sender, the events sent so far. -/
structure SchedulerState where
  admission : AdmissionMode
  jobs : FinMap Uuid Job
  activeMutation : Option Uuid
  mutationGeneration : UInt64
  selfUpdate : Option UpgradeOperation
  rebootPending : Option Uuid
  maxConcurrent : Nat
  maxQueueDepth : Nat
  events : List JobStatusEvent
  notify : Notify
  generationCounter : UInt64
  deriving DecidableEq

inductive JobAdmissionError where
  | selfUpdateInProgress
  | queueFull
  | admissionFrozen
  deriving DecidableEq, Repr

inductive SelfUpdateAdmissionError where
  | alreadyInProgress
  | jobsInProgress (count : Nat)
  | queueFull
  deriving DecidableEq, Repr

inductive RebootAdmissionError where
  | selfUpdateInProgress
  | packageMutationInProgress
  | jobsInProgress (count : Nat)
  | queueFull
  | admissionClosed
  deriving DecidableEq, Repr

/-- What a mutation closure returned, or the watchdog made up for it; the scheduler hands the `Ok`
value on unread. -/
abbrev MutationResult := Except AnyhowError Unit

/-- How one pass of the wait loop of `dispatch_mutation` ends. -/
inductive DispatchOutcome where
  | rejected (error : AnyhowError)
  | wait
  | acquired (generation : UInt64) (backstop : Nat)
  deriving DecidableEq, Repr

/-- `Scheduler::new`. -/
def SchedulerState.new (maxConcurrent maxQueueDepth : Nat) : SchedulerState where
  admission := .open
  jobs := ∅
  activeMutation := none
  mutationGeneration := 0
  selfUpdate := none
  rebootPending := none
  maxConcurrent := max maxConcurrent 1
  maxQueueDepth := max maxQueueDepth 1
  events := []
  notify := Notify.new
  generationCounter := 1

namespace SchedulerState

/-! ## Helpers -/

def notifyOne (s : SchedulerState) : SchedulerState := { s with notify := s.notify.notifyOne }

/-- `emit_event_detailed`. -/
def emitEventDetailed (env : Env) (s : SchedulerState) (jobId : Uuid) (status : JobStatus)
    (progress : UInt8) (message : String) (error errorCode : Option String) : SchedulerState :=
  { s with events := s.events ++ [{
      event := "job_status"
      jobId := jobId
      status := status.asStr
      progress := progress
      message := message
      timestamp := env.now
      error := error
      errorCode := errorCode }] }

/-- `emit_event`; every caller passes the event type `job_status`. -/
def emitEvent (env : Env) (s : SchedulerState) (jobId : Uuid) (status : JobStatus) (progress : UInt8)
    (message : String) : SchedulerState :=
  emitEventDetailed env s jobId status progress message none none

/-- The recurring `if let Some(job) = jobs.get_mut(id)`: changes the job and emits its new status,
progress and message. -/
def mutateJob (env : Env) (s : SchedulerState) (id : Uuid) (f : Job → Job) : SchedulerState :=
  match s.jobs.get? id with
  | none => s
  | some j =>
    let j' := f j
    emitEvent env { s with jobs := s.jobs.insert id j' } id j'.status j'.progress j'.message

/-- Inserts a new job and announces it. -/
def insertNewJob (env : Env) (s : SchedulerState) (id : Uuid) (operation : JobOperation)
    (packages : List String) : SchedulerState :=
  emitEvent env { s with jobs := s.jobs.insert id (Job.new env id operation packages) } id .pending 0
    "Job created"

/-- Active jobs that are not internal, which every queue and admission check counts. -/
def activeUserJobs (s : SchedulerState) : Nat := s.jobs.count fun j => j.status.isActive && !j.isInternal

/-- `running_count`. -/
def runningCount (s : SchedulerState) : Nat := s.jobs.count fun j => j.status == .running

/-- `active_count`. -/
def activeCount (s : SchedulerState) : Nat := s.jobs.count fun j => j.status.isActive

/-! ## Admission of jobs -/

def admitJobInner (env : Env) (s : SchedulerState) (id : Uuid) (operation : JobOperation)
    (packages : List String) : SchedulerState × Except JobAdmissionError Uuid :=
  if s.admission ≠ .open then (s, .error .admissionFrozen)
  else if s.selfUpdate.isSome then (s, .error .selfUpdateInProgress)
  else if s.rebootPending.isSome then (s, .error .admissionFrozen)
  else if s.activeUserJobs ≥ s.maxQueueDepth then (s, .error .queueFull)
  else (s.insertNewJob env id operation packages, .ok id)

def admitJob (env : Env) (s : SchedulerState) (id : Uuid) (operation : JobOperation)
    (packages : List String) : SchedulerState × Except JobAdmissionError Uuid :=
  match s.admitJobInner env id operation packages with
  | (s, .error e) => (s, .error e)
  | (s, .ok id) => (s.notifyOne, .ok id)

def createRollbackJob (env : Env) (s : SchedulerState) (id originalJobId : Uuid) :
    SchedulerState × Except JobAdmissionError (Option Uuid) :=
  match s.jobs.get? originalJobId with
  | none => (s, .ok none)
  | some original =>
    if original.status = .failed ∨ original.status = .completed then
      match s.admitJobInner env id .rollback original.packages with
      | (s, .error e) => (s, .error e)
      | (s, .ok id) =>
        let s := { s with jobs := s.jobs.modify id fun j =>
          { j with exclusiveMode := true, rollbackJobId := some originalJobId } }
        (s.notifyOne, .ok (some id))
    else (s, .ok none)

/-! ## Self-update reservation -/

/-- Whether the slot is held by a job in the map that is an internal one. -/
def heldByInternal (s : SchedulerState) (mid : Uuid) : Bool :=
  ((s.jobs.get? mid).map Job.isInternal).getD false

def tryReserveSelfUpdate (env : Env) (s : SchedulerState) (id : Uuid) (packages : List String)
    (fromVersion targetVersion : String) : SchedulerState × Except SelfUpdateAdmissionError Uuid :=
  if s.admission ≠ .open then (s, .error .alreadyInProgress)
  else if s.selfUpdate.isSome then (s, .error .alreadyInProgress)
  else if s.rebootPending.isSome then (s, .error .alreadyInProgress)
  else if s.activeMutation.any fun mid => !s.heldByInternal mid then (s, .error (.jobsInProgress 1))
  else if s.activeUserJobs > 0 then (s, .error (.jobsInProgress s.activeUserJobs))
  else if s.maxQueueDepth = 0 then (s, .error .queueFull)
  else
    let s := { s with
      selfUpdate := some ⟨id, fromVersion, targetVersion, s.generationCounter⟩
      generationCounter := s.generationCounter + 1 }
    ((s.insertNewJob env id .selfUpdate packages).notifyOne, .ok id)

def releaseSelfUpdate (s : SchedulerState) (id : Uuid) : SchedulerState × Bool :=
  match s.selfUpdate with
  | none => (s, false)
  | some su =>
    if su.jobId = id then ({ s with selfUpdate := none }.notifyOne, true)
    else (s, false)

/-- The task that `SelfUpdateReservationGuard::drop` spawns when the guard was not committed. -/
def rollbackSelfUpdate (s : SchedulerState) (id : Uuid) : SchedulerState :=
  let s := match s.selfUpdate with
    | none => s
    | some su => if su.jobId = id then { s with selfUpdate := none } else s
  -- the job goes whether the reservation was still its own or not
  { s with jobs := s.jobs.erase id }.notifyOne

/-! ## Reboot reservation -/

/-- What a reboot reservation does to a pending job. -/
def cancelForReboot (env : Env) (j : Job) : Job :=
  Job.addLog env { j with
    status := .failed
    error := some "Cancelled: reboot reservation in progress"
    completedAt := some env.now
    updatedAt := env.now } "Job cancelled by reboot reservation"

/-- The ids of the pending jobs other than `id`. -/
def pendingExcept (s : SchedulerState) (id : Uuid) : List Uuid :=
  (s.jobs.entries.filter fun e => decide (e.1 ≠ id) && (e.2.status == .pending)).map Sigma.fst

def cancelAll (env : Env) (s : SchedulerState) (ids : List Uuid) : SchedulerState :=
  ids.foldl (fun s id => s.mutateJob env id (cancelForReboot env)) s

def reserveReboot (env : Env) (s : SchedulerState) (id : Uuid) (force ackCorruptionRisk : Bool) :
    SchedulerState × Except RebootAdmissionError Uuid :=
  let selfUpdateActive := s.selfUpdate.isSome
  let mutationActive := s.activeMutation.isSome
  let activeJobs := s.activeUserJobs
  if s.admission ≠ .open then (s, .error .admissionClosed)
  else if s.rebootPending.isSome then (s, .error (.jobsInProgress 1))
  else if !force && selfUpdateActive then (s, .error .selfUpdateInProgress)
  else if !force && decide (activeJobs > 0) then (s, .error (.jobsInProgress activeJobs))
  else if force && !ackCorruptionRisk && (selfUpdateActive || mutationActive) then
    (s, .error (if selfUpdateActive then .selfUpdateInProgress else .packageMutationInProgress))
  else if activeJobs ≥ s.maxQueueDepth then (s, .error .queueFull)
  else
    let s := { s with rebootPending := some id }.insertNewJob env id .reboot []
    ((s.cancelAll env (s.pendingExcept id)).notifyOne, .ok id)

/-- What a roll-back does to the reboot job. -/
def rollbackJobState (env : Env) (error : Option String) (j : Job) : Job :=
  match error with
  | some err => j.fail env err
  | none => { j with
      status := .cancelled
      message := "Reboot reservation rolled back"
      completedAt := some env.now
      updatedAt := env.now }

def rollbackReboot (env : Env) (s : SchedulerState) (id : Uuid) (error : Option String) :
    SchedulerState × Bool :=
  if s.rebootPending ≠ some id then (s, false)
  else
    let s := { s with rebootPending := none }
    ((s.mutateJob env id (rollbackJobState env error)).notifyOne, true)

def beginRebootExecution (env : Env) (s : SchedulerState) (id : Uuid) : SchedulerState × Bool :=
  if s.rebootPending ≠ some id then (s, false)
  else match s.jobs.get? id with
    | none => (s, false)
    | some job =>
      if job.status ≠ .pending then (s, false)
      else
        ((s.mutateJob env id fun j => Job.addLog env { j with
            status := .rebooting
            updatedAt := env.now } "Reboot command starting").notifyOne, true)

def setJobRebooting (env : Env) (s : SchedulerState) (id : Uuid) (message : String) :
    SchedulerState × Except AnyhowError Unit :=
  match s.jobs.get? id with
  | none => (s, .error (anyhow ("set_job_rebooting: job " ++ toString id ++ " not found")))
  | some job =>
    if job.status ≠ .running then
      (s, .error (anyhow ("set_job_rebooting: job " ++ toString id ++ " is not Running (status=" ++
        job.status.debug ++ ")")))
    else ((s.mutateJob env id fun j => j.setRebooting env message).notifyOne, .ok ())

/-! ## Mutations -/

/-- `watchdog_backstop_for`, in seconds. -/
def watchdogBackstopFor (j : Job) : Nat :=
  if j.isInternal then cacheRefreshTimeout + 60
  else packageOpTimeout + cacheRefreshTimeout + 300

/-- The backstop of a mutation whose job is not in the map. -/
def defaultBackstop : Nat := packageOpTimeout + cacheRefreshTimeout + 300

/-- Checks 1 to 3: the errors that end the call at once. -/
def dispatchRejection (s : SchedulerState) (jobId : Uuid) : Option AnyhowError :=
  if s.admission = .frozen then some (anyhow "Mutation admission frozen — shutdown in progress")
  else if s.admission = .recovery then some (anyhow "Mutation rejected — system in recovery mode")
  else if s.rebootPending.isSome then
    some (anyhow "Mutation rejected — reboot reservation is in progress")
  else if s.selfUpdate.any fun su => decide (su.jobId ≠ jobId) then
    some (anyhow "Mutation rejected — self-update in progress")
  else none

/-- Check 4 as the code makes it: only whether the job is Running. -/
def jobAlreadyRunning (s : SchedulerState) (jobId : Uuid) : Bool :=
  ((s.jobs.get? jobId).map fun j => j.status == .running).getD false

/-- What acquiring the slot does to the job. -/
def startJob (env : Env) (alreadyRunning : Bool) (j : Job) : Job :=
  let j := if alreadyRunning then j else Job.addLog env { j with status := .running } "Job started"
  { j with updatedAt := env.now }

/-- One pass of the wait loop of `dispatch_mutation`, under the lock. -/
def dispatchCheck (env : Env) (s : SchedulerState) (jobId : Uuid) : SchedulerState × DispatchOutcome :=
  match s.dispatchRejection jobId with
  | some e => (s, .rejected e)
  | none =>
    let alreadyRunning := s.jobAlreadyRunning jobId
    -- a job that is Running already does not count against the limit again
    if !alreadyRunning && decide (s.runningCount ≥ s.maxConcurrent) then (s, .wait)
    else if s.activeMutation.isSome then (s, .wait)
    else
      let generation := s.mutationGeneration + 1
      let s := { s with activeMutation := some jobId, mutationGeneration := generation }
      let s := s.mutateJob env jobId (startJob env alreadyRunning)
      (s, .acquired generation (((s.jobs.get? jobId).map watchdogBackstopFor).getD defaultBackstop))

/-- The result that the watchdog uses when the backstop elapses first. -/
def backstopElapsed (backstop : Nat) : MutationResult :=
  .error (anyhow ("Mutation timed out after " ++ toString backstop ++ " seconds (watchdog backstop)"))

/-- The result that the watchdog uses when the closure panics. -/
def closurePanicked (text : String) : MutationResult :=
  .error (anyhow ("Mutation task panicked: " ++ text))

def stillOwns (s : SchedulerState) (jobId : Uuid) (generation : UInt64) : Bool :=
  s.activeMutation == some jobId && s.mutationGeneration == generation

/-- The job of a mutation whose caller is gone. -/
def failAbandoned (env : Env) (result : MutationResult) (j : Job) : Job :=
  let j := { j with status := .failed }
  let j := match result with
    | .ok _ => Job.addLog env { j with
        error := some "Caller cancelled after mutation completed — result could not be delivered" }
        "Watchdog: caller dropped, operation succeeded but result undeliverable"
    | .error e => Job.addLog env { j with
        error := some ("Caller cancelled with underlying error: " ++ e.display) }
        "Watchdog: caller dropped, operation failed"
  { j with completedAt := some env.now, updatedAt := env.now }

/-- Only a Running or Pending job is resolved for a caller that is gone. -/
def resolveAbandoned (env : Env) (s : SchedulerState) (jobId : Uuid) (result : MutationResult) :
    SchedulerState :=
  match s.jobs.get? jobId with
  | none => s
  | some j =>
    if j.status = .running ∨ j.status = .pending then s.mutateJob env jobId (failAbandoned env result)
    else s

/-- The last critical section of the watchdog. -/
def finalizeMutation (env : Env) (s : SchedulerState) (jobId : Uuid) (generation : UInt64)
    (result : MutationResult) (callerAlive : Bool) : SchedulerState :=
  let owns := s.stillOwns jobId generation
  -- a slot that another mutation has acquired since is left alone
  let s := if owns then { s with activeMutation := none } else s
  let s := if !callerAlive && owns then s.resolveAbandoned env jobId result else s
  s.notifyOne

def freezeAdmission (s : SchedulerState) : SchedulerState := { s with admission := .frozen }.notifyOne

/-! ## Job lifecycle -/

def updateJob (env : Env) (s : SchedulerState) (id : Uuid) (status : JobStatus) (progress : Option UInt8)
    (message : Option String) : SchedulerState × Except AnyhowError Unit :=
  if (status = .running ∨ status = .rebooting) ∧ s.jobAlreadyRunning id = false ∧
      s.runningCount ≥ s.maxConcurrent then
    (s, .error (anyhow ("max_concurrent limit (" ++ toString s.maxConcurrent ++
      ") reached — cannot transition another job to Running")))
  else
    (s.mutateJob env id fun j => { j with
      status := status
      progress := progress.getD j.progress
      message := message.getD j.message
      updatedAt := env.now }, .ok ())

def addJobLog (env : Env) (s : SchedulerState) (id : Uuid) (message : String) : SchedulerState :=
  { s with jobs := s.jobs.modify id fun j => j.addLog env message }

def completeJob (env : Env) (s : SchedulerState) (id : Uuid) : SchedulerState :=
  (s.mutateJob env id (Job.complete env)).notifyOne

def failJob (env : Env) (s : SchedulerState) (id : Uuid) (error : String) : SchedulerState :=
  (s.mutateJob env id fun j => j.fail env error).notifyOne

/-- Unlike the other operations it emits an event that carries the error and its code. -/
def failJobWithDiagnostics (env : Env) (s : SchedulerState) (id : Uuid) (error : AnyhowError) :
    SchedulerState :=
  let s := match s.jobs.get? id with
    | none => s
    | some j =>
      let j' := j.failWithDiagnostics env error
      emitEventDetailed env { s with jobs := s.jobs.insert id j' } id j'.status j'.progress j'.message
        (some (formatErrorForCache error)) (some (classifyError error))
  s.notifyOne

def deleteJob (s : SchedulerState) (id : Uuid) : SchedulerState × Bool :=
  match s.jobs.get? id with
  | none => (s, false)
  | some job =>
    if job.status.isTerminal then ({ s with jobs := s.jobs.erase id }, true) else (s, false)

/-! ## Startup -/

/-- The record that recovery builds anew for an orphan, with what the four cases share. -/
def recoveredJob (env : Env) (o : Job) (status : JobStatus) (progress : UInt8) (message : String)
    (logs : List String) : Job where
  id := o.id
  status := status
  operation := o.operation
  createdAt := o.createdAt
  updatedAt := env.now
  completedAt := some env.now
  packages := o.packages
  progress := progress
  message := message
  logs := logs
  error := none
  errorCode := none
  exitCode := none
  commandStdout := none
  commandStderr := none
  rollbackJobId := none
  exclusiveMode := false
  bootId := o.bootId

/-- Whether the orphan's boot id is known and is the current one. -/
def sameBoot (env : Env) (o : Job) : Bool :=
  match o.bootId, env.bootId with
  | some a, some b => a == b
  | _, _ => false

/-- The terminal job that `recover_orphaned_jobs` puts in an orphan's place. -/
def recoverOrphan (env : Env) (o : Job) : Job :=
  if o.operation = .selfUpdate then
    recoveredJob env o .completed 100 "Self-update completed — agent restarted into new version"
      ["Agent restarted during self-update (expected postinst restart)",
        "New binary is running — upgrade succeeded"]
  else if o.status = .rebooting then
    { recoveredJob env o .completed 100 "Reboot completed — agent restarted after patching"
        (o.logs ++ ["Agent restarted after reboot — marking completed"]) with
      rollbackJobId := o.rollbackJobId
      exclusiveMode := o.exclusiveMode }
  else if o.isInternal then
    recoveredJob env o .cancelled 0 "Internal tracking job dropped after agent restart"
      ["Internal bookkeeping job (cache refresh) — discarded after restart"]
  else if sameBoot env o then
    { recoveredJob env o .failed 0
        "Job failed: Job interrupted by agent process restart (not a system reboot)"
        ["Agent process restarted (same boot) — in-memory job state was lost"] with
      error := some "Agent process restarted during job execution (not a reboot)"
      errorCode := some ErrorCode.agentRestarted }
  else
    { recoveredJob env o .failed 0 "Job failed: Job failed: agent rebooted during execution"
        ["Agent rebooted — in-memory job state was lost"] with
      error := some "Agent rebooted during job execution"
      errorCode := some ErrorCode.agentRebooted }

def recoverOrphanedJobs (env : Env) (s : SchedulerState) (orphaned : List Job) : SchedulerState :=
  { s with jobs := orphaned.foldl (fun m o => m.insert o.id (recoverOrphan env o)) s.jobs }

def loadHistory (s : SchedulerState) (history : List Job) : SchedulerState :=
  { s with jobs := history.foldl (fun m j => m.insert j.id j) s.jobs }

/-- The startup sequence of `main`: terminal jobs are loaded as they are, all others recovered. -/
def startup (env : Env) (maxConcurrent maxQueueDepth : Nat) (loaded : List Job) : SchedulerState :=
  let s := (new maxConcurrent maxQueueDepth).loadHistory (loaded.filter fun j => j.status.isTerminal)
  s.recoverOrphanedJobs env (loaded.filter fun j => !j.status.isTerminal)

end SchedulerState

end LinuxPatchApi.Jobs
