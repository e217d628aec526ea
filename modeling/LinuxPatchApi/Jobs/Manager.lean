/-
`src/jobs/manager.rs`: jobs, their statuses and the events about them. Instants are numbers of
seconds; what a method reads from outside (the clock, the boot id) is an argument.
-/
import LinuxPatchApi.Packages.Coordinator

namespace LinuxPatchApi.Jobs

open LinuxPatchApi.Packages

/-- A version 4 UUID, of which only equality matters. -/
abbrev Uuid := Nat

/-- What an operation reads from its surroundings: the clock and the machine's boot id. -/
structure Env where
  now : Nat
  bootId : Option String
  deriving DecidableEq, Repr

/-! ## Statuses and operations -/

inductive JobStatus where
  | pending
  | running
  | rebooting
  | completed
  | failed
  | cancelled
  | timedOut
  deriving DecidableEq, Repr

namespace JobStatus

def asStr : JobStatus → String
  | pending => "pending"
  | running => "running"
  | rebooting => "rebooting"
  | completed => "completed"
  | failed => "failed"
  | cancelled => "cancelled"
  | timedOut => "timed_out"

/-- The derived `Debug` text. -/
def debug : JobStatus → String
  | pending => "Pending"
  | running => "Running"
  | rebooting => "Rebooting"
  | completed => "Completed"
  | failed => "Failed"
  | cancelled => "Cancelled"
  | timedOut => "TimedOut"

/-- Pending, Running and Rebooting jobs occupy a slot and block admission. -/
def isActive : JobStatus → Bool
  | pending | running | rebooting => true
  | _ => false

def isTerminal : JobStatus → Bool
  | completed | failed | cancelled | timedOut => true
  | _ => false

/-- The two predicates partition the statuses. -/
theorem isTerminal_eq_not_isActive (s : JobStatus) : s.isTerminal = !s.isActive := by
  cases s <;> rfl

end JobStatus

inductive JobOperation where
  | install
  | update
  | remove
  | patchApply
  | reboot
  | selfUpdate
  | rollback
  deriving DecidableEq, Repr

/-! ## Jobs -/

structure Job where
  id : Uuid
  status : JobStatus
  operation : JobOperation
  createdAt : Nat
  updatedAt : Nat
  completedAt : Option Nat
  packages : List String
  progress : UInt8
  message : String
  logs : List String
  error : Option String
  errorCode : Option String
  exitCode : Option Int
  commandStdout : Option String
  commandStderr : Option String
  rollbackJobId : Option Uuid
  exclusiveMode : Bool
  bootId : Option String
  deriving DecidableEq, Repr

namespace Job

/-- `Job::new`, with the id that `Uuid::new_v4` returned. -/
def new (env : Env) (id : Uuid) (operation : JobOperation) (packages : List String) : Job where
  id := id
  status := .pending
  operation := operation
  createdAt := env.now
  updatedAt := env.now
  completedAt := none
  packages := packages
  progress := 0
  message := "Job created"
  logs := []
  error := none
  errorCode := none
  exitCode := none
  commandStdout := none
  commandStderr := none
  rollbackJobId := none
  exclusiveMode := false
  bootId := env.bootId

/-- A bookkeeping job of a background cache refresh: some package name is `__*__`. -/
def isInternal (j : Job) : Bool :=
  j.packages.any fun p => Text.startsWith p "__" && Text.endsWith p "__"

def addLog (env : Env) (j : Job) (message : String) : Job :=
  { j with logs := j.logs ++ [message], updatedAt := env.now }

def complete (env : Env) (j : Job) : Job :=
  addLog env { j with
    status := .completed
    progress := 100
    completedAt := some env.now
    updatedAt := env.now } "Job completed successfully"

def setRebooting (env : Env) (j : Job) (message : String) : Job :=
  addLog env { j with status := .rebooting, message := message, updatedAt := env.now }
    "Patches applied; awaiting reboot"

def fail (env : Env) (j : Job) (error : String) : Job :=
  addLog env { j with
    status := .failed
    error := some error
    completedAt := some env.now
    updatedAt := env.now } ("Job failed: " ++ error)

/-- `fail_with_diagnostics`: the chain, its code and the captured output on the job, and the
diagnostic lines in its log. -/
def failWithDiagnostics (env : Env) (j : Job) (error : AnyhowError) : Job :=
  let j := addLog env { j with
    error := some (formatErrorChain error)
    errorCode := some (classifyError error)
    exitCode := extractExitCode error
    commandStdout := extractStdout error
    commandStderr := extractStderr error
    status := .failed
    completedAt := some env.now
    updatedAt := env.now } ("Job failed: " ++ formatErrorChain error)
  (diagnosticLogLines error).foldl (addLog env) j

/-! ### What the methods change -/

@[simp] theorem new_status (env : Env) (id : Uuid) (op : JobOperation) (ps : List String) :
    (new env id op ps).status = .pending := rfl

@[simp] theorem new_operation (env : Env) (id : Uuid) (op : JobOperation) (ps : List String) :
    (new env id op ps).operation = op := rfl

@[simp] theorem new_packages (env : Env) (id : Uuid) (op : JobOperation) (ps : List String) :
    (new env id op ps).packages = ps := rfl

@[simp] theorem addLog_status (env : Env) (j : Job) (m : String) : (j.addLog env m).status = j.status := rfl

@[simp] theorem addLog_operation (env : Env) (j : Job) (m : String) :
    (j.addLog env m).operation = j.operation := rfl

@[simp] theorem addLog_packages (env : Env) (j : Job) (m : String) :
    (j.addLog env m).packages = j.packages := rfl

@[simp] theorem complete_status (env : Env) (j : Job) : (j.complete env).status = .completed := rfl

@[simp] theorem setRebooting_status (env : Env) (j : Job) (m : String) :
    (j.setRebooting env m).status = .rebooting := rfl

@[simp] theorem fail_status (env : Env) (j : Job) (e : String) : (j.fail env e).status = .failed := rfl

theorem foldl_addLog (env : Env) : ∀ (ls : List String) (j : Job),
    (ls.foldl (addLog env) j).status = j.status ∧ (ls.foldl (addLog env) j).operation = j.operation ∧
      (ls.foldl (addLog env) j).packages = j.packages
  | [], _ => ⟨rfl, rfl, rfl⟩
  | l :: ls, j => by
    simpa using foldl_addLog env ls (j.addLog env l)

@[simp] theorem failWithDiagnostics_status (env : Env) (j : Job) (e : AnyhowError) :
    (j.failWithDiagnostics env e).status = .failed := (foldl_addLog env _ _).1

@[simp] theorem failWithDiagnostics_operation (env : Env) (j : Job) (e : AnyhowError) :
    (j.failWithDiagnostics env e).operation = j.operation := (foldl_addLog env _ _).2.1

@[simp] theorem failWithDiagnostics_packages (env : Env) (j : Job) (e : AnyhowError) :
    (j.failWithDiagnostics env e).packages = j.packages := (foldl_addLog env _ _).2.2

theorem isInternal_congr {j j' : Job} (h : j'.packages = j.packages) : j'.isInternal = j.isInternal := by
  unfold isInternal; rw [h]

end Job

/-- `JobStatusEvent`, with the instant that its timestamp renders. -/
structure JobStatusEvent where
  event : String
  jobId : Uuid
  status : String
  progress : UInt8
  message : String
  timestamp : Nat
  error : Option String
  errorCode : Option String
  deriving DecidableEq, Repr

end LinuxPatchApi.Jobs
