/-
The service: the handlers of the requests, the tasks that they spawn, and the agent under them. A task
is a program over the operations of the scheduler, mutations and two operations of the backend; any
number of tasks are under way, in any order. No task and no caller of a mutation is cancelled.
-/
import LinuxPatchApi.Api.Requests
import LinuxPatchApi.Jobs.Dispatch

namespace LinuxPatchApi.Api

open Interaction LinuxPatchApi.Packages LinuxPatchApi.Jobs

/-! ## Tasks -/

/-- What a task asks for. -/
inductive TaskCall where
  | admitJob (operation : JobOperation) (packages : List String)
  | reserveReboot (force ackCorruptionRisk : Bool)
  | beginRebootExecution (id : Uuid)
  /-- An operation of the scheduler of which the task does not look at the result. -/
  | op (o : SchedOp)
  | dispatchMutation (id : Uuid) (closure : MutationClosure)
  | getSystemInfo
  | rebootSystem (delaySeconds : Nat)

def TaskResponse : TaskCall → Type
  | .admitJob _ _ => Except JobAdmissionError Uuid
  | .reserveReboot _ _ => Except RebootAdmissionError Uuid
  | .beginRebootExecution _ => Bool
  | .op _ => Unit
  | .dispatchMutation _ _ => MutationResult
  | .getSystemInfo => Except AnyhowError SystemInfo
  | .rebootSystem _ => Except AnyhowError Unit

abbrev Script := Prog TaskCall TaskResponse

def call (e : TaskCall) : Script (TaskResponse e) := Prog.perform e

def op (o : SchedOp) : Script Unit := call (.op o)

/-- The task of an install, an update or a removal. -/
def mutationTask (closure : MutationClosure) (id : Uuid) : Script Unit := do
  match ← call (.dispatchMutation id closure) with
  | .ok () => op (.completeJob id)
  | .error e => op (.failJobWithDiagnostics id e)

def selfUpdateTask (name : String) (id : Uuid) : Script Unit := do
  match ← call (.dispatchMutation id (.selfUpdate name)) with
  | .ok () =>
    op (.completeJob id)
    op (.releaseSelfUpdate id)
  | .error e =>
    op (.failJobWithDiagnostics id e)
    op (.releaseSelfUpdate id)

/-- The package name of the tracking job of a background refresh. -/
def RefreshOrigin.tracker : RefreshOrigin → String
  | .healthCheck => "__health_refresh__"
  | .patchList => "__patch_list_refresh__"

/-- The background refresh admits its own job, and deletes it in the end. -/
def refreshTask (origin : RefreshOrigin) : Script Unit := do
  match ← call (.admitJob .install [origin.tracker]) with
  | .error _ => return ()
  | .ok id =>
    match ← call (.dispatchMutation id (.cacheRefresh origin)) with
    | .ok () =>
      op (.completeJob id)
      op (.deleteJob id)
    | .error e =>
      op (.failJob id e.display)
      op (.deleteJob id)

/-- The `Display` of `RebootAdmissionError`. -/
def rebootAdmissionText : RebootAdmissionError → String
  | .selfUpdateInProgress => "A self-update is in progress"
  | .packageMutationInProgress => "A package-database mutation is in progress"
  | .jobsInProgress count => "Cannot reboot while " ++ toString count ++ " jobs are in progress"
  | .queueFull => "Job queue is at capacity"
  | .admissionClosed => "Admission is closed (shutdown or recovery in progress)"

/-- The drop of an uncommitted `RebootReservationGuard` spawns a task with this one operation; here it
ends the task that drops the guard, which has nothing left to do. -/
def dropRebootGuard (rebootJobId : Uuid) : Script Unit :=
  op (.rollbackReboot rebootJobId (some "Reservation dropped without commit (cancelled)"))

/-- The reboot command of a patch task, and what follows when it fails. -/
def rebootPatched (id rebootJobId : Uuid) (delaySeconds : Nat) : Script Unit := do
  match ← call (.rebootSystem delaySeconds) with
  | .ok () =>
    -- the guard is committed, and the job stays Rebooting until the machine has rebooted
    op (.addJobLog id "Reboot command executed")
  | .error e =>
    op (.rollbackReboot rebootJobId (some ("Reboot failed: " ++ e.display)))
    op (.addJobLog id ("Reboot failed: " ++ e.display ++ " — patches remain applied"))
    op (.completeJob id)
    dropRebootGuard rebootJobId

/-- A patch task with a reservation. -/
def rebootReserved (id rebootJobId : Uuid) (delaySeconds : Nat) : Script Unit := do
  op (.setJobRebooting id "Patches applied; awaiting reboot")
  op (.addJobLog id "Reboot reservation acquired by scheduler")
  let begun : Bool ← call (.beginRebootExecution rebootJobId)
  if begun then rebootPatched id rebootJobId delaySeconds
  else
    op (.addJobLog id "Reboot reservation lost before command; patches applied without reboot")
    op (.completeJob id)
    dropRebootGuard rebootJobId

def rebootAfterPatches (id : Uuid) (delaySeconds : Nat) : Script Unit := do
  op (.addJobLog id ("Reboot scheduled in " ++ toString delaySeconds ++ " seconds (reboot required after patching)"))
  match ← call (.reserveReboot true false) with
  | .ok rebootJobId => rebootReserved id rebootJobId delaySeconds
  | .error e =>
    op (.addJobLog id ("Reboot reservation rejected: " ++ rebootAdmissionText e))
    op (.completeJob id)

/-- `should_reboot`, given what the backend says about the system. -/
def shouldReboot (packages : Option (List String)) (info : Except AnyhowError SystemInfo) : Bool :=
  let systemNeedsReboot := match info with
    | .ok si => si.pendingReboot
    | .error _ => false
  let requestedNeedsReboot := packages.any fun pkgs => pkgs.any packageRequiresReboot
  let noSpecificPackages := packages.all List.isEmpty
  if noSpecificPackages then systemNeedsReboot else systemNeedsReboot || requestedNeedsReboot

/-- A patch task whose transaction succeeded. -/
def patchesApplied (packages : Option (List String)) (allowReboot : Bool) (delaySeconds : Nat) (id : Uuid) :
    Script Unit := do
  if allowReboot then
    let info ← call .getSystemInfo
    if shouldReboot packages info then rebootAfterPatches id delaySeconds
    else
      op (.addJobLog id
        "No reboot required after patching (allow_reboot=true but no reboot-triggering packages applied)")
      op (.completeJob id)
  else op (.completeJob id)

def patchTask (packages : Option (List String)) (allowReboot : Bool) (delaySeconds : Nat) (id : Uuid) :
    Script Unit := do
  op (.addJobLog id "Refreshing package cache...")
  match ← call (.dispatchMutation id (.patchApply packages)) with
  | .ok () => patchesApplied packages allowReboot delaySeconds id
  | .error e => op (.failJobWithDiagnostics id e)

/-- The task of a reboot request, whose reservation is committed already. -/
def rebootTask (delaySeconds : Nat) (id : Uuid) : Script Unit := do
  let begun : Bool ← call (.beginRebootExecution id)
  if begun then
    match ← call (.rebootSystem delaySeconds) with
    | .ok () => op (.addJobLog id "Reboot command executed")
    | .error e => op (.rollbackReboot id (some e.display))
  else return ()

/-! ## Handlers -/

/-- What a handler did: the agent after it, and the tasks that it spawned. -/
abbrev Handled := World × List (Script Unit)

namespace Handlers

variable (w : World) (newId : Uuid)

/-- The handlers that admit a job and spawn its task: nothing is awaited between the two. -/
def admitAndSpawn (operation : JobOperation) (packages : List String) (task : Uuid → Script Unit) : Option Handled :=
  (w.step (.op (.admitJob newId operation packages))).map fun w' =>
    match (w.sched.admitJob w.env newId operation packages).2 with
    | .ok id => (w', [task id])
    | .error _ => (w', [])

def installPackages (packages : List PackageSpec) (options : InstallOptions) : Option Handled :=
  match validatePackageNames packages with
  | .error _ => some (w, [])
  | .ok () => admitAndSpawn w newId .install (packages.map (·.name)) (mutationTask (.install packages options))

def selfUpdate (name : String) : Option Handled :=
  (w.step (.op (.tryReserveSelfUpdate newId [name] "" ""))).map fun w' =>
    match (w.sched.tryReserveSelfUpdate w.env newId [name] "" "").2 with
    | .ok id => (w', [selfUpdateTask name id])
    | .error _ => (w', [])

def updatePackage (name : String) : Option Handled :=
  match validatePackageName name with
  | .error _ => some (w, [])
  | .ok () =>
    if name = selfPackageName then selfUpdate w newId name
    else admitAndSpawn w newId .update [name] (mutationTask (.update name))

def removePackage (name : String) : Option Handled :=
  match validatePackageName name with
  | .error _ => some (w, [])
  | .ok () => admitAndSpawn w newId .remove [name] (mutationTask (.remove name))

def applyPatches (packages : Option (List String)) (allowReboot : Bool) (delaySeconds : Nat) : Option Handled :=
  match validateNames (packages.getD []) with
  | .error _ => some (w, [])
  | .ok () => admitAndSpawn w newId .patchApply (packages.getD []) (patchTask packages allowReboot delaySeconds)

/-- `reserve_reboot` persists the jobs after its critical section; a handler that is dropped in this
await spawns no task. -/
def rebootSystem (dropped : Bool) (delaySeconds : Nat) (force ackCorruptionRisk : Bool) : Option Handled :=
  (w.step (.op (.reserveReboot newId force ackCorruptionRisk))).map fun w' =>
    match (w.sched.reserveReboot w.env newId force ackCorruptionRisk).2 with
    | .ok id => (w', if dropped then [] else [rebootTask delaySeconds id])
    | .error _ => (w', [])

/-- The job is created, and no task is spawned for it. -/
def rollbackJob (jobId : Uuid) : Option Handled :=
  (w.step (.op (.createRollbackJob newId jobId))).map fun w' => (w', [])

def deleteJob (jobId : Uuid) : Option Handled :=
  (w.step (.op (.deleteJob jobId))).map fun w' => (w', [])

/-- The health check and the patch list, which refresh a stale cache in the background. -/
def refreshing (stale : Bool) (origin : RefreshOrigin) : Handled := (w, if stale then [refreshTask origin] else [])

end Handlers

/-- The handler of a request, with the id that `Uuid::new_v4` returns to it. -/
def Request.handle (w : World) (newId : Uuid) (dropped : Bool) : Request → Option Handled
  | .installPackages packages options => Handlers.installPackages w newId packages options
  | .updatePackage name => Handlers.updatePackage w newId name
  | .removePackage name => Handlers.removePackage w newId name
  | .applyPatches packages allowReboot delaySeconds => Handlers.applyPatches w newId packages allowReboot delaySeconds
  | .listPatches stale => some (Handlers.refreshing w stale .patchList)
  | .healthCheck stale => some (Handlers.refreshing w stale .healthCheck)
  | .rebootSystem delaySeconds force ack => Handlers.rebootSystem w newId dropped delaySeconds force ack
  | .rollbackJob jobId => Handlers.rollbackJob w newId jobId
  | .deleteJob jobId => Handlers.deleteJob w jobId
  | .listPackages _ | .getPackage _ | .getServiceStatus _ | .getSystemInfo => some (w, [])

/-! ## The machine -/

/-- A spawned task: about to go on, or in `dispatch_mutation(..).await` with the number of its call. -/
inductive Task where
  | ready (script : Script Unit)
  | awaiting (c : Nat) (resume : MutationResult → Script Unit)

structure Service where
  world : World
  tasks : List Task

/-- What a task gets from outside of the scheduler. -/
structure Answers where
  newId : Uuid
  systemInfo : Except AnyhowError SystemInfo
  reboot : Except AnyhowError Unit

/-- One call of a task other than a mutation. -/
def perform (w : World) (x : Answers) : (e : TaskCall) → Option (World × TaskResponse e)
  | .admitJob operation packages => (w.step (.op (.admitJob x.newId operation packages))).map fun w' =>
    (w', (w.sched.admitJob w.env x.newId operation packages).2)
  | .reserveReboot force ack => (w.step (.op (.reserveReboot x.newId force ack))).map fun w' =>
    (w', (w.sched.reserveReboot w.env x.newId force ack).2)
  | .beginRebootExecution id => (w.step (.op (.beginRebootExecution id))).map fun w' =>
    (w', (w.sched.beginRebootExecution w.env id).2)
  | .op o => (w.step (.op o)).map fun w' => (w', ())
  | .getSystemInfo => some (w, x.systemInfo)
  | .rebootSystem _ => some (w, x.reboot)
  | .dispatchMutation _ _ => none

/-- One step of a task that is not waiting. -/
def runTask (w : World) (x : Answers) : Script Unit → Option (World × Task)
  | .pure () => none
  | .call (.dispatchMutation id _) k => (w.step (.dispatch id)).map fun w' => (w', .awaiting w.calls.length k)
  | .call e k => (perform w x e).map fun (w', r) => (w', .ready (k r))

/-- A call that went through: the answer of an operation is the one of the scheduler before it. -/
inductive Performs (w : World) (x : Answers) : (e : TaskCall) → World → TaskResponse e → Prop
  | admitJob (operation : JobOperation) (packages : List String) (w' : World) :
      w.step (.op (.admitJob x.newId operation packages)) = some w' →
      Performs w x (.admitJob operation packages) w' (w.sched.admitJob w.env x.newId operation packages).2
  | reserveReboot (force ack : Bool) (w' : World) : w.step (.op (.reserveReboot x.newId force ack)) = some w' →
      Performs w x (.reserveReboot force ack) w' (w.sched.reserveReboot w.env x.newId force ack).2
  | beginRebootExecution (id : Uuid) (w' : World) : w.step (.op (.beginRebootExecution id)) = some w' →
      Performs w x (.beginRebootExecution id) w' (w.sched.beginRebootExecution w.env id).2
  | op (o : SchedOp) (w' : World) : w.step (.op o) = some w' → Performs w x (.op o) w' ()
  | getSystemInfo : Performs w x .getSystemInfo w x.systemInfo
  | rebootSystem (delaySeconds : Nat) : Performs w x (.rebootSystem delaySeconds) w x.reboot

theorem perform_cases {w w' : World} {x : Answers} {e : TaskCall} {r : TaskResponse e}
    (hp : perform w x e = some (w', r)) :
    Performs w x e w' r := by
  cases e with
  | admitJob | reserveReboot | beginRebootExecution | op =>
    simp only [perform, Option.map_eq_some_iff] at hp
    obtain ⟨v, hv, he⟩ := hp
    cases he
    constructor
    exact hv
  | getSystemInfo | rebootSystem =>
    cases hp
    constructor
  | dispatchMutation => cases hp

/-- A step of a task: it dispatches a mutation and waits, or makes another call and goes on. -/
inductive RunsTask (w : World) (x : Answers) : Script Unit → World → Task → Prop
  | dispatched (id : Uuid) (closure : MutationClosure) (k : MutationResult → Script Unit) (w' : World) :
      w.step (.dispatch id) = some w' →
      RunsTask w x (.call (.dispatchMutation id closure) k) w' (.awaiting w.calls.length k)
  | performed (e : TaskCall) (k : TaskResponse e → Script Unit) (w' : World) (r : TaskResponse e) :
      perform w x e = some (w', r) → RunsTask w x (.call e k) w' (.ready (k r))

theorem runTask_cases {w w' : World} {x : Answers} {script : Script Unit} {task : Task}
    (hr : runTask w x script = some (w', task)) : RunsTask w x script w' task := by
  cases script with
  | pure _ => cases hr
  | call e k =>
    cases e with
    | dispatchMutation id closure =>
      simp only [runTask, Option.map_eq_some_iff] at hr
      obtain ⟨v, hv, he⟩ := hr
      cases he
      exact .dispatched id closure k _ hv
    | _ =>
      simp only [runTask, Option.map_eq_some_iff] at hr
      obtain ⟨⟨v, r⟩, hp, he⟩ := hr
      cases he
      exact .performed _ k _ r hp

inductive ServiceAct where
  | request (req : Request) (newId : Uuid) (dropped : Bool)
  | run (n : Nat) (answers : Answers)
  /-- The mutation of a waiting task has returned. -/
  | resume (n : Nat)
  | call (c : Nat) (a : CallAct)
  | tick (seconds : Nat)

/-- The result of call number `c`, when it has returned. -/
def returned? (w : World) (c : Nat) : Option MutationResult :=
  match w.calls[c]? with
  | none => none
  | some call => match call.caller with
    | .returned r => some r
    | _ => none

def Service.step (s : Service) : ServiceAct → Option Service
  | .request req newId dropped => (req.handle s.world newId dropped).map fun (w, scripts) =>
    ⟨w, s.tasks ++ scripts.map .ready⟩
  | .run n x =>
    match s.tasks[n]? with
    | some (.ready script) => (runTask s.world x script).map fun (w, task) => ⟨w, s.tasks.set n task⟩
    | _ => none
  | .resume n =>
    match s.tasks[n]? with
    | some (.awaiting c resume) => (returned? s.world c).map fun r =>
      { s with tasks := s.tasks.set n (.ready (resume r)) }
    | _ => none
  | .call c a => if a = .drop then none else (s.world.step (.call c a)).map fun w => { s with world := w }
  | .tick seconds => (s.world.step (.tick seconds)).map fun w => { s with world := w }

def Service.Startup (s : Service) : Prop := s.world.Startup ∧ s.tasks = []

def service : Transition.Machine Service ServiceAct := ⟨Service.Startup, Service.step⟩

end LinuxPatchApi.Api
