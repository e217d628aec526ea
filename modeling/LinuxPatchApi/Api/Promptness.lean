/-
What a task is still due to do for the queued dispatchers. Once its mutation has returned, a task whose
job is neither resolved nor awaiting a reboot calls `notify_one` on every path, before it ends and before
it waits for another mutation.
-/
import LinuxPatchApi.Api.Process
import LinuxPatchApi.Jobs.Waiters

namespace LinuxPatchApi.Api

open Interaction LinuxPatchApi.Packages LinuxPatchApi.Jobs Transition

/-! ## Scripts that will notify -/

/-- A call with this result has called `notify_one`. -/
def Notified : (e : TaskCall) → TaskResponse e → Prop
  | .admitJob _ _, r => ∃ id, r = .ok id
  | .reserveReboot _ _, r => ∃ id, r = .ok id
  | .beginRebootExecution _, begun => begun = true
  | .op o, _ => o.notifies = true
  | .dispatchMutation _ _, _ | .getSystemInfo, _ | .rebootSystem _, _ => False

def TaskCall.dispatches : TaskCall → Bool
  | .dispatchMutation _ _ => true
  | _ => false

/-- Whatever the results, the script calls `notify_one` before it ends or waits for a mutation. -/
def WillNotify : Script Unit → Prop
  | .pure () => False
  | .call e k => e.dispatches = false ∧ ∀ r, Notified e r ∨ WillNotify (k r)

theorem perform_notified {w w' : World} {x : Answers} {e : TaskCall} {r : TaskResponse e} (hr : Notified e r)
    (hp : perform w x e = some (w', r)) : w'.sched.notify = w.sched.notify.notifyOne := by
  cases perform_cases hp with
  | admitJob op ps _ hv =>
    cases World.step_cases hv with
    | op _ _ =>
      rcases @admitJob_notify w.env w.sched x.newId op ps with ⟨⟨error, he⟩, _⟩ | hn
      · obtain ⟨id, hid⟩ := hr
        rw [he] at hid
        cases hid
      · exact hn
  | reserveReboot force ack _ hv =>
    cases World.step_cases hv with
    | op _ _ =>
      rcases @reserveReboot_notify w.env w.sched x.newId force ack with ⟨⟨error, he⟩, _⟩ | hn
      · obtain ⟨id, hid⟩ := hr
        rw [he] at hid
        cases hid
      · exact hn
  | beginRebootExecution id _ hv =>
    cases World.step_cases hv with
    | op _ _ =>
      rcases @beginRebootExecution_notify w.env w.sched id with ⟨hf, _⟩ | hn
      · have ht : (w.sched.beginRebootExecution w.env id).2 = true := hr
        rw [hf] at ht
        cases ht
      · exact hn
  | op o _ hv =>
    cases World.step_cases hv with
    | op _ _ => exact apply_notifies hr
  | getSystemInfo | rebootSystem => exact hr.elim

section WillNotify

variable {e : TaskCall} {o : SchedOp} {f : TaskResponse e → Script Unit} {rest : Script Unit}

theorem WillNotify.call (hd : e.dispatches = false) (hf : ∀ r, Notified e r ∨ WillNotify (f r)) :
    WillNotify (Api.call e >>= f) := ⟨hd, hf⟩

theorem WillNotify.later (h : WillNotify rest) : WillNotify (do Api.op o; rest) := ⟨rfl, fun _ => .inr h⟩

/-- An operation that does not notify leaves it to the rest. -/
theorem WillNotify.tail (h : WillNotify (do Api.op o; rest)) (hn : o.notifies = false) : WillNotify rest := by
  refine (h.2 ()).resolve_left fun hr => ?_
  have ht : o.notifies = true := hr
  rw [hn] at ht
  cases ht

theorem WillNotify.now (h : o.notifies = true) : WillNotify (do Api.op o; rest) := ⟨rfl, fun _ => .inl h⟩

theorem WillNotify.last (h : o.notifies = true) : WillNotify (Api.op o) := ⟨rfl, fun _ => .inl h⟩

theorem willNotify_rebootReserved (id rebootJobId : Uuid) (delaySeconds : Nat) :
    WillNotify (rebootReserved id rebootJobId delaySeconds) := by
  refine .later (.later (.call rfl fun begun => ?_))
  cases begun with
  | true => exact .inl rfl
  | false => exact .inr (.later (.now rfl))

theorem willNotify_rebootAfterPatches (id : Uuid) (delaySeconds : Nat) :
    WillNotify (rebootAfterPatches id delaySeconds) := by
  refine .later (.call rfl fun r => ?_)
  cases r with
  | ok rebootJobId => exact .inl ⟨rebootJobId, rfl⟩
  | error e => exact .inr (.later (.last rfl))

theorem willNotify_patchesApplied (packages : Option (List String)) (allowReboot : Bool)
    (delaySeconds : Nat) (id : Uuid) :
    WillNotify (patchesApplied packages allowReboot delaySeconds id) := by
  cases allowReboot with
  | false => exact .last rfl
  | true =>
    refine .call rfl fun info => .inr ?_
    split
    · exact willNotify_rebootAfterPatches id delaySeconds
    · exact .later (.last rfl)

end WillNotify

/-! ## Scripts that respond -/

/-- The duty has a job to resolve that does not await a reboot. -/
def Duty.Pressing (d : Duty) : Prop := ∃ id stage, d.job = some (id, stage) ∧ stage ≠ .rebooting

theorem Duty.calm_of_free {guard : Option (Uuid × Bool)} {update : Option Uuid} :
    ¬ Duty.Pressing ⟨none, guard, update⟩ := by
  rintro ⟨id, stage, h, _⟩
  cases h

theorem Duty.calm_of_rebooting {id : Uuid} {guard : Option (Uuid × Bool)} {update : Option Uuid} :
    ¬ Duty.Pressing ⟨some (id, .rebooting), guard, update⟩ := by
  rintro ⟨id', stage, h, hne⟩
  cases h
  exact hne rfl

/-- After its mutation, which the flag says, the script will notify whenever the duty is pressing. -/
def Responds : Bool → Duty → Script Unit → Prop
  | _, _, .pure () => True
  | b, d, .call e k => (b = true → d.Pressing → WillNotify (.call e k)) ∧
    ∀ r, Responds (b || e.dispatches) (d.after e r) (k r)

section Responds

variable {b : Bool} {d : Duty} {e : TaskCall} {o : SchedOp} {f : TaskResponse e → Script Unit} {rest : Script Unit}

/-- Before the mutation. -/
theorem Responds.early (hf : ∀ r, Responds e.dispatches (d.after e r) (f r)) : Responds false d (Api.call e >>= f) :=
  ⟨fun hb => (by cases hb), hf⟩

/-- After the mutation, on the way to a notification. -/
theorem Responds.due (hw : WillNotify (Api.call e >>= f)) (hf : ∀ r, Responds true (d.after e r) (f r)) :
    Responds true d (Api.call e >>= f) := ⟨fun _ _ => hw, hf⟩

theorem Responds.calm (hd : ¬ d.Pressing) (hf : ∀ r, Responds true (d.after e r) (f r)) :
    Responds true d (Api.call e >>= f) := ⟨fun _ hp => absurd hp hd, hf⟩

theorem Responds.last (h : o.notifies = true) : Responds b d (Api.op o) := ⟨fun _ _ => .last h, fun _ => trivial⟩

theorem Responds.end (hd : ¬ d.Pressing) : Responds b d (Api.op o) := ⟨fun _ hp => absurd hp hd, fun _ => trivial⟩

theorem Responds.now (h : o.notifies = true) (hrest : Responds true (d.after (.op o) ()) rest) :
    Responds true d (do Api.op o; rest) := .due (.now h) fun _ => hrest

theorem Responds.later (hw : WillNotify rest) (hrest : Responds true (d.after (.op o) ()) rest) :
    Responds true d (do Api.op o; rest) := .due (.later hw) fun _ => hrest

end Responds

theorem responds_mutationTask (closure : MutationClosure) (id : Uuid) :
    Responds false (.ofJob id) (mutationTask closure id) := by
  refine .early fun r => ?_
  cases r with
  | ok _ => exact .last rfl
  | error e => exact .last rfl

theorem responds_selfUpdateTask (name : String) (id : Uuid) :
    Responds false { Duty.ofJob id with update := some id } (selfUpdateTask name id) := by
  refine .early fun r => ?_
  cases r with
  | ok _ => exact .now rfl (.end Duty.calm_of_free)
  | error e => exact .now rfl (.end Duty.calm_of_free)

theorem responds_refreshTask (origin : RefreshOrigin) : Responds false .free (refreshTask origin) := by
  refine .early fun r => ?_
  cases r with
  | error e => trivial
  | ok id =>
    refine .early fun r => ?_
    cases r with
    | ok _ => exact .now rfl (.end Duty.calm_of_free)
    | error e => exact .now rfl (.end Duty.calm_of_free)

theorem responds_rebootTask (delaySeconds : Nat) (id : Uuid) :
    Responds false ⟨none, some (id, true), none⟩ (rebootTask delaySeconds id) := by
  refine .early fun begun => ?_
  cases begun with
  | false => trivial
  | true =>
    refine .early fun r => ?_
    cases r with
    | ok _ => exact .end Duty.calm_of_free
    | error e => exact .end Duty.calm_of_free

theorem responds_rebootPatched (id rebootJobId : Uuid) (delaySeconds : Nat) :
    Responds true ⟨some (id, .rebooting), some (rebootJobId, true), none⟩
      (rebootPatched id rebootJobId delaySeconds) := by
  refine .calm Duty.calm_of_rebooting fun r => ?_
  cases r with
  | ok _ => exact .end Duty.calm_of_rebooting
  | error e =>
    -- the roll-back of the reservation makes the job pressing again
    refine .calm Duty.calm_of_rebooting fun _ => .later (.now rfl) (.now rfl (.end Duty.calm_of_free))

theorem responds_rebootReserved (id rebootJobId : Uuid) (delaySeconds : Nat) :
    Responds true ⟨some (id, .started), some (rebootJobId, true), none⟩
      (rebootReserved id rebootJobId delaySeconds) := by
  refine .due (willNotify_rebootReserved id rebootJobId delaySeconds) fun _ => .calm Duty.calm_of_rebooting fun _ =>
    .calm Duty.calm_of_rebooting fun begun => ?_
  cases begun with
  | true => exact responds_rebootPatched id rebootJobId delaySeconds
  | false => exact .calm Duty.calm_of_rebooting fun _ => .now rfl (.end Duty.calm_of_free)

theorem responds_rebootAfterPatches (id : Uuid) (delaySeconds : Nat) :
    Responds true ⟨some (id, .started), none, none⟩ (rebootAfterPatches id delaySeconds) := by
  have hw := willNotify_rebootAfterPatches id delaySeconds
  refine .due hw fun _ => .due (WillNotify.tail hw rfl) fun r => ?_
  cases r with
  | ok rebootJobId => exact responds_rebootReserved id rebootJobId delaySeconds
  | error e => exact .later (.last rfl) (.last rfl)

theorem responds_patchesApplied (packages : Option (List String)) (allowReboot : Bool)
    (delaySeconds : Nat) (id : Uuid) :
    Responds true ⟨some (id, .started), none, none⟩ (patchesApplied packages allowReboot delaySeconds id) := by
  cases allowReboot with
  | false => exact .last rfl
  | true =>
    refine .due (willNotify_patchesApplied packages true delaySeconds id) fun info => ?_
    split
    · exact responds_rebootAfterPatches id delaySeconds
    · exact .later (.last rfl) (.last rfl)

theorem responds_patchTask (packages : Option (List String)) (allowReboot : Bool) (delaySeconds : Nat) (id : Uuid) :
    Responds false (.ofJob id) (patchTask packages allowReboot delaySeconds id) := by
  refine .early fun _ => .early fun r => ?_
  cases r with
  | ok _ => exact responds_patchesApplied packages allowReboot delaySeconds id
  | error e => exact .last rfl

/-- Every task that a handler spawns responds. -/
theorem Spawns.responds {newId : Uuid} {script : Script Unit} {d : Duty} (h : Spawns newId script d) :
    Responds false d script := by
  cases h with
  | mutation closure => exact responds_mutationTask closure newId
  | selfUpdate name => exact responds_selfUpdateTask name newId
  | refresh origin => exact responds_refreshTask origin
  | patch packages allowReboot delaySeconds => exact responds_patchTask packages allowReboot delaySeconds newId
  | reboot delaySeconds => exact responds_rebootTask delaySeconds newId

end LinuxPatchApi.Api
