/-
What a task owes: the job that it has to resolve, the reboot reservation that it holds, the self-update
that it has to release. A script obeys a duty when on every path it only asks for what the duty allows,
and ends with nothing owed.
-/
import LinuxPatchApi.Api.Handlers

namespace LinuxPatchApi.Api

open Interaction LinuxPatchApi.Packages LinuxPatchApi.Jobs

/-! ## Duties -/

/-- How far a task has brought the job that it owes. -/
inductive Stage where
  /-- Admitted; its mutation has not returned, or not with success. -/
  | queued
  /-- Its mutation returned with success. -/
  | started
  /-- `set_job_rebooting` was called, and the reservation is held. -/
  | rebooting
  deriving DecidableEq

/-- Without its reservation a job does not await the reboot any more. -/
def Stage.unreserved : Stage → Stage
  | .rebooting => .started
  | stage => stage

structure Duty where
  /-- The job to resolve. -/
  job : Option (Uuid × Stage)
  /-- The reboot job of a reservation, and whether it was not rolled back. -/
  guard : Option (Uuid × Bool)
  /-- The self-update to release. -/
  update : Option Uuid

namespace Duty

def free : Duty := ⟨none, none, none⟩

/-- The task may end: a job that awaits the reboot stays as it is. -/
def Done (d : Duty) : Prop :=
  (∀ k stage, d.job = some (k, stage) → stage = .rebooting ∧ ∃ r, d.guard = some (r, true)) ∧ d.update = none

/-- The job of the duty is this one. -/
def Resolves (d : Duty) (id : Uuid) : Prop := ∃ stage, d.job = some (id, stage)

def Allows (d : Duty) : TaskCall → Prop
  | .admitJob operation _ => d.job = none ∧ operation ≠ .reboot
  | .dispatchMutation id _ => d.job = some (id, .queued) ∧ d.guard = none
  | .reserveReboot _ _ => d.guard = none
  | .beginRebootExecution id => ∃ live, d.guard = some (id, live)
  | .op o => match o with
    | .addJobLog _ _ | .deleteJob _ => True
    | .completeJob id | .failJob id _ | .failJobWithDiagnostics id _ => d.Resolves id
    | .setJobRebooting id _ => d.job = some (id, .started) ∧ ∃ r, d.guard = some (r, true)
    | .rollbackReboot id _ => ∃ live, d.guard = some (id, live)
    | .releaseSelfUpdate id => d.update = some id
    | _ => False
  | .getSystemInfo | .rebootSystem _ => True

def admitted (d : Duty) : Except JobAdmissionError Uuid → Duty
  | .ok id => { d with job := some (id, .queued) }
  | .error _ => d

def dispatched (d : Duty) : MutationResult → Duty
  | .ok () => { d with job := d.job.map fun p => (p.1, .started) }
  | .error _ => d

def reserved (d : Duty) : Except RebootAdmissionError Uuid → Duty
  | .ok id => { d with guard := some (id, true) }
  | .error _ => d

def resolved (d : Duty) : Duty := { d with job := none }

def rebooting (d : Duty) : Duty := { d with job := d.job.map fun p => (p.1, .rebooting) }

def rolledBack (d : Duty) : Duty :=
  { d with job := d.job.map fun p => (p.1, p.2.unreserved), guard := d.guard.map fun p => (p.1, false) }

def released (d : Duty) : Duty := { d with update := none }

/-- The duty after a call and its result. -/
def after (d : Duty) : (e : TaskCall) → TaskResponse e → Duty
  | .admitJob _ _, r => d.admitted r
  | .dispatchMutation _ _, r => d.dispatched r
  | .reserveReboot _ _, r => d.reserved r
  | .op o, _ => match o with
    | .completeJob _ | .failJob _ _ | .failJobWithDiagnostics _ _ => d.resolved
    | .setJobRebooting _ _ => d.rebooting
    | .rollbackReboot _ _ => d.rolledBack
    | .releaseSelfUpdate _ => d.released
    | _ => d
  | .beginRebootExecution _, _ | .getSystemInfo, _ | .rebootSystem _, _ => d

end Duty

/-! ## Scripts that obey -/

def Obeys : Duty → Script Unit → Prop
  | d, .pure () => d.Done
  | d, .call e k => d.Allows e ∧ ∀ r, Obeys (d.after e r) (k r)

theorem Obeys.call {d : Duty} {e : TaskCall} {f : TaskResponse e → Script Unit} (h : d.Allows e)
    (hf : ∀ r, Obeys (d.after e r) (f r)) : Obeys d (Api.call e >>= f) := ⟨h, hf⟩

theorem Obeys.op {d : Duty} {o : SchedOp} {rest : Script Unit} (h : d.Allows (.op o))
    (hrest : Obeys (d.after (.op o) ()) rest) : Obeys d (do Api.op o; rest) := ⟨h, fun _ => hrest⟩

theorem Obeys.last {d : Duty} {o : SchedOp} (h : d.Allows (.op o)) (hdone : (d.after (.op o) ()).Done) :
    Obeys d (Api.op o) := ⟨h, fun _ => hdone⟩

theorem Duty.done_of_free {guard : Option (Uuid × Bool)} : Duty.Done ⟨none, guard, none⟩ := by
  constructor
  · intro k stage h
    cases h
  · rfl

/-- The duty of a task that was spawned for an admitted job. -/
def Duty.ofJob (id : Uuid) : Duty := ⟨some (id, .queued), none, none⟩

theorem obeys_mutationTask (closure : MutationClosure) (id : Uuid) :
    Obeys (.ofJob id) (mutationTask closure id) := by
  refine .call ⟨rfl, rfl⟩ fun r => ?_
  cases r with
  | ok _ => exact .last ⟨_, rfl⟩ Duty.done_of_free
  | error e => exact .last ⟨_, rfl⟩ Duty.done_of_free

theorem obeys_selfUpdateTask (name : String) (id : Uuid) :
    Obeys { Duty.ofJob id with update := some id } (selfUpdateTask name id) := by
  refine .call ⟨rfl, rfl⟩ fun r => ?_
  cases r with
  | ok _ => exact .op ⟨_, rfl⟩ (.last rfl Duty.done_of_free)
  | error e => exact .op ⟨_, rfl⟩ (.last rfl Duty.done_of_free)

theorem obeys_refreshTask (origin : RefreshOrigin) : Obeys .free (refreshTask origin) := by
  refine .call ⟨rfl, by simp⟩ fun r => ?_
  cases r with
  | error _ => exact Duty.done_of_free
  | ok id =>
    refine .call ⟨rfl, rfl⟩ fun r => ?_
    cases r with
    | ok _ => exact .op ⟨_, rfl⟩ (.last trivial Duty.done_of_free)
    | error e => exact .op ⟨_, rfl⟩ (.last trivial Duty.done_of_free)

/-- The reservation of a reboot handler is not for a job of the task. -/
theorem obeys_rebootTask (delaySeconds : Nat) (id : Uuid) :
    Obeys ⟨none, some (id, true), none⟩ (rebootTask delaySeconds id) := by
  refine .call ⟨true, rfl⟩ fun begun => ?_
  cases begun with
  | false => exact Duty.done_of_free
  | true =>
    refine .call trivial fun r => ?_
    cases r with
    | ok _ => exact .last trivial Duty.done_of_free
    | error e => exact .last ⟨true, rfl⟩ Duty.done_of_free

theorem obeys_rebootPatched (id rebootJobId : Uuid) (delaySeconds : Nat) :
    Obeys ⟨some (id, .rebooting), some (rebootJobId, true), none⟩ (rebootPatched id rebootJobId delaySeconds) := by
  refine .call trivial fun r => ?_
  cases r with
  | ok _ =>
    refine .last trivial ⟨fun k stage h => ?_, rfl⟩
    cases h
    exact ⟨rfl, rebootJobId, rfl⟩
  | error e =>
    -- the explicit roll-back comes first, and the guard's is idle
    exact .op ⟨true, rfl⟩ (.op trivial (.op ⟨_, rfl⟩ (.last ⟨false, rfl⟩ Duty.done_of_free)))

theorem obeys_rebootReserved (id rebootJobId : Uuid) (delaySeconds : Nat) :
    Obeys ⟨some (id, .started), some (rebootJobId, true), none⟩ (rebootReserved id rebootJobId delaySeconds) := by
  refine .op ⟨rfl, _, rfl⟩ (.op trivial (.call ⟨true, rfl⟩ fun begun => ?_))
  cases begun with
  | true => exact obeys_rebootPatched id rebootJobId delaySeconds
  | false => exact .op trivial (.op ⟨_, rfl⟩ (.last ⟨true, rfl⟩ Duty.done_of_free))

theorem obeys_rebootAfterPatches (id : Uuid) (delaySeconds : Nat) :
    Obeys ⟨some (id, .started), none, none⟩ (rebootAfterPatches id delaySeconds) := by
  refine .op trivial (.call rfl fun r => ?_)
  cases r with
  | ok rebootJobId => exact obeys_rebootReserved id rebootJobId delaySeconds
  | error e => exact .op trivial (.last ⟨_, rfl⟩ Duty.done_of_free)

theorem obeys_patchesApplied (packages : Option (List String)) (allowReboot : Bool) (delaySeconds : Nat) (id : Uuid) :
    Obeys ⟨some (id, .started), none, none⟩ (patchesApplied packages allowReboot delaySeconds id) := by
  cases allowReboot with
  | false => exact .last ⟨_, rfl⟩ Duty.done_of_free
  | true =>
    refine .call trivial fun info => ?_
    split
    · exact obeys_rebootAfterPatches id delaySeconds
    · exact .op trivial (.last ⟨_, rfl⟩ Duty.done_of_free)

theorem obeys_patchTask (packages : Option (List String)) (allowReboot : Bool) (delaySeconds : Nat) (id : Uuid) :
    Obeys (.ofJob id) (patchTask packages allowReboot delaySeconds id) := by
  refine .op trivial (.call ⟨rfl, rfl⟩ fun r => ?_)
  cases r with
  | ok _ => exact obeys_patchesApplied packages allowReboot delaySeconds id
  | error e => exact .last ⟨_, rfl⟩ Duty.done_of_free

end LinuxPatchApi.Api
