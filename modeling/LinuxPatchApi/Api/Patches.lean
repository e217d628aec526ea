/-
What the task of a patch request learns and what it makes of it. The task is told the results of its
mutation, of the look at the system, of its reservation, of the start of the reboot and of the reboot
command; the script ends, on every path, with its job and its reservation as those results demand.
-/
import LinuxPatchApi.Api.Process

namespace LinuxPatchApi.Api

open Interaction LinuxPatchApi.Packages LinuxPatchApi.Jobs Transition

/-! ## What a task is told -/

inductive Told where
  | mutation (result : MutationResult)
  | systemInfo (info : Except AnyhowError SystemInfo)
  | reservation (result : Except RebootAdmissionError Uuid)
  | begun (result : Bool)
  | reboot (result : Except AnyhowError Unit)

/-- The result of a call, as far as a patch task looks at it. -/
def answer : (e : TaskCall) → TaskResponse e → Option Told
  | .dispatchMutation _ _, r => some (.mutation r)
  | .getSystemInfo, r => some (.systemInfo r)
  | .reserveReboot _ _, r => some (.reservation r)
  | .beginRebootExecution _, r => some (.begun r)
  | .rebootSystem _, r => some (.reboot r)
  | .admitJob _ _, _ | .op _, _ => none

/-- What task number `n` is told at a step. -/
def told (n : Nat) (f : Fired Service ProcessAct) : Option Told :=
  match f.act with
  | .service (.run m x) =>
    if m = n then
      match f.pre.tasks[n]? with
      | some (.ready (.call e _)) => (perform f.pre.world x e).bind fun p => answer e p.2
      | _ => none
    else none
  | .service (.resume m) =>
    if m = n then
      match f.pre.tasks[n]? with
      | some (.awaiting c _) => (returned? f.pre.world c).map .mutation
      | _ => none
    else none
  | _ => none

/-- Everything that task number `n` is told on a run, in order. -/
def transcript (n : Nat) (tr : List (Fired Service ProcessAct)) : List Told := tr.filterMap (told n)

/-! ## Notes -/

/-- What a patch task was told, the status that it gave its job, and its duty. -/
structure Notes where
  told : List Told
  status : Option JobStatus
  duty : Duty

/-- The status of the job after a call of its task. -/
def statusAfter (status : Option JobStatus) : (e : TaskCall) → TaskResponse e → Option JobStatus
  | .dispatchMutation _ _, r => match r with
    | .ok () => some .running
    | .error _ => status
  | .op o, _ => match o with
    | .completeJob _ => some .completed
    | .failJobWithDiagnostics _ _ => some .failed
    | .setJobRebooting _ _ => some .rebooting
    | _ => status
  | .admitJob _ _, _ | .reserveReboot _ _, _ | .beginRebootExecution _, _ | .getSystemInfo, _ |
    .rebootSystem _, _ => status

namespace Notes

def after (a : Notes) (e : TaskCall) (r : TaskResponse e) : Notes :=
  ⟨a.told ++ (answer e r).toList, statusAfter a.status e r, a.duty.after e r⟩

/-- The calls that a patch task makes for job `id`, and when. -/
def Makes (id : Uuid) (a : Notes) : TaskCall → Prop
  | .dispatchMutation id' _ => id' = id ∧ a.status = none ∧ a.duty.guard = none
  | .reserveReboot _ _ => a.duty.guard = none
  | .beginRebootExecution r => a.duty.guard = some (r, true) ∧ ∀ b, .begun b ∉ a.told
  | .op o => match o with
    | .completeJob id' | .failJobWithDiagnostics id' _ => id' = id
    | .setJobRebooting id' _ => id' = id ∧ a.status = some .running
    | .rollbackReboot r _ => ∃ live, a.duty.guard = some (r, live)
    | .addJobLog _ _ => True
    | _ => False
  | .getSystemInfo | .rebootSystem _ => True
  | .admitJob _ _ => False

end Notes

/-- How a patch task may end: what it was told, the status of its job, and its reservation. -/
inductive PatchEnd (packages : Option (List String)) (allowReboot : Bool) :
    List Told → Option JobStatus → Option (Uuid × Bool) → Prop
  | failed (e : AnyhowError) : PatchEnd packages allowReboot [.mutation (.error e)] (some .failed) none
  | applied : allowReboot = false → PatchEnd packages allowReboot [.mutation (.ok ())] (some .completed) none
  | unneeded (info : Except AnyhowError SystemInfo) : allowReboot = true → shouldReboot packages info = false →
      PatchEnd packages allowReboot [.mutation (.ok ()), .systemInfo info] (some .completed) none
  | rejected (info : Except AnyhowError SystemInfo) (e : RebootAdmissionError) : allowReboot = true →
      shouldReboot packages info = true →
      PatchEnd packages allowReboot [.mutation (.ok ()), .systemInfo info, .reservation (.error e)]
        (some .completed) none
  | lost (info : Except AnyhowError SystemInfo) (r : Uuid) (live : Bool) : allowReboot = true →
      shouldReboot packages info = true →
      PatchEnd packages allowReboot [.mutation (.ok ()), .systemInfo info, .reservation (.ok r), .begun false]
        (some .completed) (some (r, live))
  | rebooting (info : Except AnyhowError SystemInfo) (r : Uuid) : allowReboot = true →
    shouldReboot packages info = true →
      PatchEnd packages allowReboot
        [.mutation (.ok ()), .systemInfo info, .reservation (.ok r), .begun true, .reboot (.ok ())]
        (some .rebooting) (some (r, true))
  | rebootFailed (info : Except AnyhowError SystemInfo) (r : Uuid) (e : AnyhowError) : allowReboot = true →
      shouldReboot packages info = true →
      PatchEnd packages allowReboot
        [.mutation (.ok ()), .systemInfo info, .reservation (.ok r), .begun true, .reboot (.error e)]
        (some .completed) (some (r, false))

/-- The task has ended, but for the roll-back that the drop of its guard has spawned. -/
def Script.Over (script : Script Unit) : Prop := script = .pure () ∨ ∃ r, script = dropRebootGuard r

/-- The script makes the calls of a patch task, and whenever it is over `Q` holds of the notes. -/
def Ensures (id : Uuid) (Q : Notes → Prop) : Notes → Script Unit → Prop
  | a, .pure () => Q a
  | a, .call e k => ((∃ r, Prog.call e k = dropRebootGuard r) → Q a) ∧ a.Makes id e ∧
    ∀ r, Ensures id Q (a.after e r) (k r)

section Ensures

variable {id : Uuid} {Q : Notes → Prop} {a : Notes}

theorem Ensures.over {script : Script Unit} (h : Ensures id Q a script) (ho : Script.Over script) : Q a := by
  rcases ho with rfl | ⟨r, rfl⟩
  · exact h
  · exact h.1 ⟨r, rfl⟩

theorem call_of_drop {e : TaskCall} {k : TaskResponse e → Script Unit} {r : Uuid}
    (h : Prog.call e k = dropRebootGuard r) :
    ∃ error, e = .op (.rollbackReboot r error) :=
  ⟨_, (Prog.call.inj h).1⟩

/-- A call that is no roll-back. -/
theorem Ensures.call {e : TaskCall} {f : TaskResponse e → Script Unit}
    (hne : ∀ r error, e ≠ .op (.rollbackReboot r error))
    (hm : a.Makes id e) (hf : ∀ r, Ensures id Q (a.after e r) (f r)) : Ensures id Q a (Api.call e >>= f) := by
  refine ⟨fun ⟨r, h⟩ => ?_, hm, hf⟩
  obtain ⟨error, he⟩ := call_of_drop h
  exact absurd he (hne r error)

theorem Ensures.op {o : SchedOp} {rest : Script Unit} (hne : ∀ r error, o ≠ .rollbackReboot r error)
    (hm : a.Makes id (.op o))
    (hrest : Ensures id Q (a.after (.op o) ()) rest) : Ensures id Q a (do Api.op o; rest) :=
  Ensures.call (fun r error he => hne r error (TaskCall.op.inj he)) hm fun _ => hrest

theorem Ensures.last {o : SchedOp} (hne : ∀ r error, o ≠ .rollbackReboot r error) (hm : a.Makes id (.op o))
    (hQ : Q (a.after (.op o) ())) : Ensures id Q a (Api.op o) := by
  refine ⟨fun ⟨r, h⟩ => ?_, hm, fun _ => hQ⟩
  obtain ⟨error, he⟩ := call_of_drop h
  exact absurd (TaskCall.op.inj he) (hne r error)

/-- The explicit roll-back of a reservation is followed by more. -/
theorem Ensures.rollBack {r : Uuid} {error : Option String} {o : SchedOp} {rest : Script Unit}
    (hm : ∃ live, a.duty.guard = some (r, live))
    (hrest : Ensures id Q (a.after (.op (.rollbackReboot r error)) ()) (do Api.op o; rest)) :
    Ensures id Q a (do Api.op (.rollbackReboot r error); Api.op o; rest) := by
  refine ⟨fun ⟨r', h⟩ => ?_, hm, fun _ => hrest⟩
  have hk := congrFun (eq_of_heq (Prog.call.inj h).2) ()
  cases hk

/-- The drop of a guard, whether its roll-back has run or not. -/
theorem Ensures.drop {r : Uuid} (hm : ∃ live, a.duty.guard = some (r, live)) (hQ : Q a)
    (hQ' : Q (a.after (.op (.rollbackReboot r (some "Reservation dropped without commit (cancelled)"))) ())) :
    Ensures id Q a (dropRebootGuard r) := ⟨fun _ => hQ, hm, fun _ => hQ'⟩

end Ensures

/-! ## The patch task -/

section PatchTask

variable {packages : Option (List String)} {allowReboot : Bool} {id : Uuid}

/-- The end of a patch task, said of its notes. -/
def PatchEnds (packages : Option (List String)) (allowReboot : Bool) (a : Notes) : Prop :=
  PatchEnd packages allowReboot a.told a.status a.duty.guard

theorem ensures_rebootPatched {info : Except AnyhowError SystemInfo} (rebootJobId : Uuid) (delaySeconds : Nat)
    (ha : allowReboot = true) (hs : shouldReboot packages info = true) :
    Ensures id (PatchEnds packages allowReboot)
      ⟨[.mutation (.ok ()), .systemInfo info, .reservation (.ok rebootJobId), .begun true], some .rebooting,
        ⟨some (id, .rebooting), some (rebootJobId, true), none⟩⟩ (rebootPatched id rebootJobId delaySeconds) := by
  refine .call (by simp) trivial fun r => ?_
  cases r with
  | ok _ => exact .last (by simp) trivial (.rebooting info rebootJobId ha hs)
  | error e =>
    refine .rollBack ⟨true, rfl⟩ (.op (by simp) trivial (.op (by simp) rfl (.drop ⟨false, rfl⟩ ?_ ?_)))
    · exact .rebootFailed info rebootJobId e ha hs
    · exact .rebootFailed info rebootJobId e ha hs

theorem ensures_rebootReserved {info : Except AnyhowError SystemInfo} (rebootJobId : Uuid) (delaySeconds : Nat)
    (ha : allowReboot = true) (hs : shouldReboot packages info = true) :
    Ensures id (PatchEnds packages allowReboot)
      ⟨[.mutation (.ok ()), .systemInfo info, .reservation (.ok rebootJobId)], some .running,
        ⟨some (id, .started), some (rebootJobId, true), none⟩⟩ (rebootReserved id rebootJobId delaySeconds) := by
  refine .op (by simp) ⟨rfl, rfl⟩ (.op (by simp) trivial (.call (by simp) ⟨rfl, by simp [Notes.after, answer]⟩
    fun begun => ?_))
  cases begun with
  | true => exact ensures_rebootPatched rebootJobId delaySeconds ha hs
  | false =>
    refine .op (by simp) trivial (.op (by simp) rfl (.drop ⟨true, rfl⟩ ?_ ?_))
    · exact .lost info rebootJobId true ha hs
    · exact .lost info rebootJobId false ha hs

theorem ensures_rebootAfterPatches {info : Except AnyhowError SystemInfo} (delaySeconds : Nat)
    (ha : allowReboot = true) (hs : shouldReboot packages info = true) :
    Ensures id (PatchEnds packages allowReboot)
      ⟨[.mutation (.ok ()), .systemInfo info], some .running, ⟨some (id, .started), none, none⟩⟩
      (rebootAfterPatches id delaySeconds) := by
  refine .op (by simp) trivial (.call (by simp) rfl fun r => ?_)
  cases r with
  | ok rebootJobId => exact ensures_rebootReserved rebootJobId delaySeconds ha hs
  | error e => exact .op (by simp) trivial (.last (by simp) rfl (.rejected info e ha hs))

theorem ensures_patchesApplied (delaySeconds : Nat) :
    Ensures id (PatchEnds packages allowReboot)
      ⟨[.mutation (.ok ())], some .running, ⟨some (id, .started), none, none⟩⟩
      (patchesApplied packages allowReboot delaySeconds id) := by
  cases allowReboot with
  | false => exact .last (by simp) rfl (.applied rfl)
  | true =>
    refine .call (by simp) trivial fun info => ?_
    split
    · next hs => exact ensures_rebootAfterPatches delaySeconds rfl hs
    · next hs => exact .op (by simp) trivial (.last (by simp) rfl (.unneeded info rfl (by simpa using hs)))

/-- A patch task ends as what it was told demands. -/
theorem ensures_patchTask (delaySeconds : Nat) :
    Ensures id (PatchEnds packages allowReboot) ⟨[], none, .ofJob id⟩
      (patchTask packages allowReboot delaySeconds id) := by
  refine .op (by simp) trivial (.call (by simp) ⟨rfl, rfl, rfl⟩ fun r => ?_)
  cases r with
  | ok _ => exact ensures_patchesApplied delaySeconds
  | error e => exact .last (by simp) rfl (.failed e)

end PatchTask

end LinuxPatchApi.Api
