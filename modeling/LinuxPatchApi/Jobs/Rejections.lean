/-
Operations of the scheduler that are rejected: every critical section makes its checks before its first change, so that
the one that rejects leaves the state as it found it, down to the events and the callers to be woken.
-/
import LinuxPatchApi.Jobs.Dispatch

namespace LinuxPatchApi.Jobs.SchedulerState

open LinuxPatchApi.Packages

variable {env : Env} {s t : SchedulerState}

/-- An operation on `s` is rejected, and its critical section leaves `t`. -/
inductive Rejects (env : Env) (s : SchedulerState) : SchedulerState → Prop
  | admitJob {t : SchedulerState} {e : JobAdmissionError} (id : Uuid) (operation : JobOperation)
      (packages : List String) :
      s.admitJob env id operation packages = (t, .error e) → Rejects env s t
  | createRollbackJob {t : SchedulerState} {e : JobAdmissionError} (id originalJobId : Uuid) :
      s.createRollbackJob env id originalJobId = (t, .error e) → Rejects env s t
  | noRollbackJob {t : SchedulerState} (id originalJobId : Uuid) :
      s.createRollbackJob env id originalJobId = (t, .ok none) → Rejects env s t
  | tryReserveSelfUpdate {t : SchedulerState} {e : SelfUpdateAdmissionError} (id : Uuid) (packages : List String)
      (fromVersion targetVersion : String) :
      s.tryReserveSelfUpdate env id packages fromVersion targetVersion = (t, .error e) → Rejects env s t
  | reserveReboot {t : SchedulerState} {e : RebootAdmissionError} (id : Uuid) (force ackCorruptionRisk : Bool) :
      s.reserveReboot env id force ackCorruptionRisk = (t, .error e) → Rejects env s t
  | setJobRebooting {t : SchedulerState} {e : AnyhowError} (id : Uuid) (message : String) :
      s.setJobRebooting env id message = (t, .error e) → Rejects env s t
  | updateJob {t : SchedulerState} {e : AnyhowError} (id : Uuid) (status : JobStatus) (progress : Option UInt8)
      (message : Option String) : s.updateJob env id status progress message = (t, .error e) → Rejects env s t
  | rollbackReboot {t : SchedulerState} (id : Uuid) (error : Option String) :
      s.rollbackReboot env id error = (t, false) → Rejects env s t
  | beginRebootExecution {t : SchedulerState} (id : Uuid) : s.beginRebootExecution env id = (t, false) → Rejects env s t
  | releaseSelfUpdate {t : SchedulerState} (id : Uuid) : s.releaseSelfUpdate id = (t, false) → Rejects env s t
  | deleteJob {t : SchedulerState} (id : Uuid) : s.deleteJob id = (t, false) → Rejects env s t
  | dispatchMutation {t : SchedulerState} {e : AnyhowError} (jobId : Uuid) :
      s.dispatchCheck env jobId = (t, .rejected e) → Rejects env s t

/-- An answer that is an error comes with the state as it was, when every other answer is none. -/
theorem unchanged_of_error {ε α : Type} {x : SchedulerState × Except ε α} {e : ε} (h : x = (t, .error e))
    (hx : (∃ e, x = (s, .error e)) ∨ ∃ a, x.2 = .ok a) : t = s := by
  rcases hx with ⟨e, hx⟩ | ⟨a, hx⟩
  · rw [hx] at h
    cases h
    rfl
  · rw [h] at hx
    cases hx

theorem unchanged_of_false {x : SchedulerState × Bool} (h : x = (t, false)) (hx : x = (s, false) ∨ x.2 = true) :
    t = s := by
  rcases hx with hx | hx
  · rw [hx] at h
    cases h
    rfl
  · rw [h] at hx
    cases hx

/-- Neither an error nor the answer that there is nothing to roll back changes the state. -/
theorem createRollbackJob_unchanged {id originalJobId : Uuid} {r : Except JobAdmissionError (Option Uuid)}
    (h : s.createRollbackJob env id originalJobId = (t, r)) (hr : ∀ i, r ≠ .ok (some i)) : t = s := by
  rcases createRollbackJob_spec env s id originalJobId with ⟨r', hs, _⟩ | ⟨_, _, _, _, _, _, _, hok, _⟩
  · rw [hs] at h
    cases h
    rfl
  · rw [h] at hok
    exact absurd hok (hr id)

/-- A rejected operation changes nothing. -/
theorem Rejects.unchanged (h : Rejects env s t) : t = s := by
  cases h with
  | admitJob id operation packages h =>
    refine unchanged_of_error h ((admitJob_spec env s id operation packages).imp_right ?_)
    rintro ⟨_, _, _, _, hs⟩
    exact ⟨id, by rw [hs]⟩
  | createRollbackJob id originalJobId h => exact createRollbackJob_unchanged h (by simp)
  | noRollbackJob id originalJobId h => exact createRollbackJob_unchanged h (by simp)
  | tryReserveSelfUpdate id packages v w h =>
    refine unchanged_of_error h ((tryReserveSelfUpdate_spec env s id packages v w).imp_right ?_)
    rintro ⟨_, _, _, _, _, hok, _⟩
    exact ⟨id, hok⟩
  | reserveReboot id force ack h =>
    refine unchanged_of_error h ((reserveReboot_spec env s id force ack).imp And.right ?_)
    rintro ⟨_, hok, _⟩
    exact ⟨id, hok⟩
  | setJobRebooting id message h =>
    refine unchanged_of_error h ((setJobRebooting_spec env s id message).imp And.right ?_)
    rintro ⟨_, _, _, hok, _⟩
    exact ⟨(), hok⟩
  | updateJob id status progress message h =>
    unfold SchedulerState.updateJob at h
    split at h
    · cases h
      rfl
    · cases h
  | rollbackReboot id error h =>
    refine unchanged_of_false h ((rollbackReboot_spec env s id error).imp And.right ?_)
    rintro ⟨_, hok, _⟩
    exact hok
  | beginRebootExecution id h =>
    refine unchanged_of_false h ((beginRebootExecution_spec env s id).imp_right ?_)
    rintro ⟨_, _, _, _, hok, _⟩
    exact hok
  | releaseSelfUpdate id h =>
    refine unchanged_of_false h ((releaseSelfUpdate_spec s id).imp And.right ?_)
    rintro ⟨_, _, _, hok⟩
    rw [hok]
  | deleteJob id h =>
    refine unchanged_of_false h ((deleteJob_spec s id).imp_right ?_)
    rintro ⟨_, _, _, hok⟩
    rw [hok]
  | dispatchMutation jobId h =>
    rcases dispatchCheck_spec env s jobId with ⟨_, hs, _⟩ | ⟨_, b, hacquired, _⟩
    · rw [h] at hs
      exact hs
    · rw [h] at hacquired
      cases hacquired

/-- An admission that is frozen, as after the signal to stop. -/
theorem frozen_unchanged :
    ((new 2 10).freezeAdmission.admitJob ⟨5, none⟩ 7 .install ["vim"]).1 = (new 2 10).freezeAdmission := by
  have hrejects : Rejects ⟨5, none⟩ (new 2 10).freezeAdmission _ := .admitJob 7 .install ["vim"] rfl
  exact Rejects.unchanged hrejects

/-! ## Rejections among the callers -/

/-- A call of `dispatch_mutation` that returns an error from its pass of the wait loop leaves the scheduler as it
was. -/
theorem check_rejected_unchanged {c : Nat} {call call' : Call} {e : AnyhowError}
    (h : callStep env c s call .check = some (t, call')) (hreturned : call'.caller = .returned (.error e)) : t = s := by
  cases callStep_cases h with
  | rejected => rfl
  | waiting => cases hreturned
  | acquired => cases hreturned

end LinuxPatchApi.Jobs.SchedulerState
