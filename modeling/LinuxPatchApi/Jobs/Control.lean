/-
The control fields of the scheduler: which operations change the admission, the reservation of a reboot
and the reservation of a self-update, and how. No operation other than a dispatch touches the slot.
-/
import LinuxPatchApi.Jobs.Dispatch

namespace LinuxPatchApi.Jobs

open LinuxPatchApi.Packages

/-- The operation is about a reservation or the admission; every other one changes jobs only. -/
def SchedOp.isControl : SchedOp → Bool
  | .tryReserveSelfUpdate .. | .releaseSelfUpdate _ | .rollbackSelfUpdate _ | .reserveReboot .. | .rollbackReboot ..
  | .freezeAdmission => true
  | _ => false

section Control

variable (env : Env) (s : SchedulerState) (o : SchedOp)

theorem apply_frame_of_not_control (h : o.isControl = false) : Frame s (o.apply env s) := by
  cases o with
  | admitJob id op ps =>
    simp only [SchedOp.apply]
    rcases s.admitJob_spec env id op ps with ⟨e, he⟩ | ⟨_, _, _, _, he⟩ <;> rw [he]
    · exact Frame.refl s
    · exact (s.insertNewJob_frame env id op ps).trans (SchedulerState.notifyOne_frame _)
  | createRollbackJob id orig =>
    simp only [SchedOp.apply]
    rcases s.createRollbackJob_spec env id orig with ⟨r, he, _⟩ | ⟨_, _, _, _, _, _, _, _, hf, _⟩
    · rw [he]; exact Frame.refl s
    · exact hf
  | beginRebootExecution id =>
    simp only [SchedOp.apply]
    rcases s.beginRebootExecution_spec env id with he | ⟨_, _, _, _, _, hf, _⟩
    · rw [he]; exact Frame.refl s
    · exact hf
  | setJobRebooting id m =>
    simp only [SchedOp.apply]
    rcases s.setJobRebooting_spec env id m with ⟨_, e, he⟩ | ⟨_, _, _, _, hf, _⟩
    · rw [he]; exact Frame.refl s
    · exact hf
  | updateJob id st p m =>
    simp only [SchedOp.apply]
    rcases s.updateJob_spec env id st p m with ⟨e, he⟩ | ⟨_, hf, _⟩
    · rw [he]; exact Frame.refl s
    · exact hf
  | addJobLog id m => exact ⟨rfl, rfl, rfl, rfl, rfl, rfl, rfl⟩
  | completeJob id => exact s.completeJob_frame env id
  | failJob id e => exact s.failJob_frame env id e
  | failJobWithDiagnostics id e => exact s.failJobWithDiagnostics_frame env id e
  | deleteJob id =>
    simp only [SchedOp.apply]
    rcases s.deleteJob_spec id with he | ⟨_, _, _, he⟩ <;> rw [he]
    · exact Frame.refl s
    · exact ⟨rfl, rfl, rfl, rfl, rfl, rfl, rfl⟩
  | notifyWaiters => exact SchedulerState.notifyOne_frame s
  | _ => cases h

/-- What an operation other than a dispatch can change besides jobs, events and waiters: the two
reservations, and only `freeze_admission` the admission. -/
theorem apply_frame : ∃ a u r,
    Frame { s with admission := a, selfUpdate := u, rebootPending := r } (o.apply env s) ∧
      (o ≠ .freezeAdmission → a = s.admission) := by
  have keep : Frame s (o.apply env s) → ∃ a u r,
      Frame { s with admission := a, selfUpdate := u, rebootPending := r } (o.apply env s) ∧
        (o ≠ .freezeAdmission → a = s.admission) :=
    fun h => ⟨s.admission, s.selfUpdate, s.rebootPending, h, fun _ => rfl⟩
  cases hc : o.isControl with
  | false => exact keep (apply_frame_of_not_control env s o hc)
  | true =>
    cases o with
    | tryReserveSelfUpdate id ps v w =>
      rcases s.tryReserveSelfUpdate_spec env id ps v w with ⟨e, he⟩ | ⟨_, _, _, _, _, _, hf, _⟩
      · exact keep (by simp only [SchedOp.apply, he]; exact Frame.refl s)
      · exact ⟨_, _, _, hf, fun _ => rfl⟩
    | releaseSelfUpdate id =>
      rcases s.releaseSelfUpdate_spec id with ⟨_, he⟩ | ⟨_, _, _, he⟩
      · exact keep (by simp only [SchedOp.apply, he]; exact Frame.refl s)
      · refine ⟨s.admission, none, s.rebootPending, ?_, fun _ => rfl⟩
        simp only [SchedOp.apply, he]
        exact SchedulerState.notifyOne_frame _
    | rollbackSelfUpdate id => exact ⟨s.admission, _, _, s.rollbackSelfUpdate_frame id, fun _ => rfl⟩
    | reserveReboot id force ack =>
      rcases s.reserveReboot_spec env id force ack with ⟨_, e, he⟩ | ⟨_, _, hf, _⟩
      · exact keep (by simp only [SchedOp.apply, he]; exact Frame.refl s)
      · exact ⟨_, _, _, hf, fun _ => rfl⟩
    | rollbackReboot id error =>
      rcases s.rollbackReboot_spec env id error with ⟨_, he⟩ | ⟨_, _, hf, _⟩
      · exact keep (by simp only [SchedOp.apply, he]; exact Frame.refl s)
      · exact ⟨_, _, _, hf, fun _ => rfl⟩
    | freezeAdmission => exact ⟨.frozen, _, _, SchedulerState.notifyOne_frame _, fun h => absurd rfl h⟩
    | _ => cases hc

/-- No operation other than a dispatch touches the slot. -/
theorem apply_slot : (o.apply env s).activeMutation = s.activeMutation ∧
    (o.apply env s).mutationGeneration = s.mutationGeneration := by
  obtain ⟨_, _, _, hf, _⟩ := apply_frame env s o
  exact ⟨hf.activeMutation, hf.mutationGeneration⟩

/-- A reboot is reserved where none was, or its own roll-back gives the reservation up. -/
theorem apply_rebootPending : (o.apply env s).rebootPending = s.rebootPending ∨
    (∃ id force ack, o = .reserveReboot id force ack ∧ (s.reserveReboot env id force ack).2 = .ok id ∧
      s.rebootPending = none ∧ (o.apply env s).rebootPending = some id) ∨
    ∃ id error, o = .rollbackReboot id error ∧ s.rebootPending = some id ∧ (o.apply env s).rebootPending = none := by
  cases hc : o.isControl with
  | false => exact .inl (apply_frame_of_not_control env s o hc).rebootPending
  | true =>
    cases o with
    | tryReserveSelfUpdate id ps v w =>
      rcases s.tryReserveSelfUpdate_spec env id ps v w with ⟨e, he⟩ | ⟨_, _, _, _, _, _, hf, _⟩
      · exact .inl (by simp only [SchedOp.apply, he])
      · exact .inl hf.rebootPending
    | releaseSelfUpdate id =>
      rcases s.releaseSelfUpdate_spec id with ⟨_, he⟩ | ⟨_, _, _, he⟩ <;>
        exact .inl (by simp only [SchedOp.apply, he, SchedulerState.notifyOne_rebootPending])
    | rollbackSelfUpdate id => exact .inl (s.rollbackSelfUpdate_frame id).rebootPending
    | reserveReboot id force ack =>
      rcases s.reserveReboot_spec env id force ack with ⟨_, e, he⟩ | ⟨hadm, hok, hf, _⟩
      · exact .inl (by simp only [SchedOp.apply, he])
      · exact .inr (.inl ⟨id, force, ack, rfl, hok, hadm.unreserved, hf.rebootPending⟩)
    | rollbackReboot id error =>
      rcases s.rollbackReboot_spec env id error with ⟨_, he⟩ | ⟨hp, _, hf, _⟩
      · exact .inl (by simp only [SchedOp.apply, he])
      · exact .inr (.inr ⟨id, error, rfl, hp, hf.rebootPending⟩)
    | freezeAdmission => exact .inl rfl
    | _ => cases hc

/-- The operation gives the self-update of job `id` up: the release, or the roll-back of its guard. -/
def SchedOp.ReleasesUpdate (o : SchedOp) (id : Uuid) : Prop := o = .releaseSelfUpdate id ∨ o = .rollbackSelfUpdate id

/-- A self-update is reserved where none was, or one of the two operations of its own job gives it up. -/
theorem apply_selfUpdate : (o.apply env s).selfUpdate = s.selfUpdate ∨
    (∃ id ps v t, o = .tryReserveSelfUpdate id ps v t ∧ (s.tryReserveSelfUpdate env id ps v t).2 = .ok id ∧
      s.selfUpdate = none ∧ (o.apply env s).selfUpdate = some ⟨id, v, t, s.generationCounter⟩) ∨
    ∃ su, s.selfUpdate = some su ∧ o.ReleasesUpdate su.jobId ∧ (o.apply env s).selfUpdate = none := by
  cases hc : o.isControl with
  | false => exact .inl (apply_frame_of_not_control env s o hc).selfUpdate
  | true =>
    cases o with
    | tryReserveSelfUpdate id ps v w =>
      rcases s.tryReserveSelfUpdate_spec env id ps v w with ⟨e, he⟩ | ⟨_, hu, _, _, _, hok, hf, _⟩
      · exact .inl (by simp only [SchedOp.apply, he])
      · exact .inr (.inl ⟨id, ps, v, w, rfl, hok, hu, hf.selfUpdate⟩)
    | releaseSelfUpdate id =>
      rcases s.releaseSelfUpdate_spec id with ⟨_, he⟩ | ⟨su, hsu, rfl, he⟩
      · exact .inl (by simp only [SchedOp.apply, he])
      · exact .inr (.inr ⟨su, hsu, .inl rfl, by simp only [SchedOp.apply, he]; rfl⟩)
    | rollbackSelfUpdate id =>
      simp only [SchedOp.apply]
      cases hsu : s.selfUpdate with
      | none =>
        rcases s.rollbackSelfUpdate_selfUpdate id with h | ⟨h, _⟩
        · exact .inl h
        · exact .inl (h.trans hsu)
      | some su =>
        rcases s.rollbackSelfUpdate_selfUpdate id with h | ⟨h, _⟩
        · by_cases hid : su.jobId = id
          · exact .inr (.inr ⟨su, rfl, .inr (by rw [hid]), h⟩)
          · -- a roll-back for another job leaves the reservation
            simp [SchedulerState.rollbackSelfUpdate, hsu, hid, SchedulerState.notifyOne] at h
        · exact .inl (h.trans hsu)
    | reserveReboot id force ack =>
      rcases s.reserveReboot_spec env id force ack with ⟨_, e, he⟩ | ⟨_, _, hf, _⟩
      · exact .inl (by simp only [SchedOp.apply, he])
      · exact .inl hf.selfUpdate
    | rollbackReboot id error =>
      rcases s.rollbackReboot_spec env id error with ⟨_, he⟩ | ⟨_, _, hf, _⟩
      · exact .inl (by simp only [SchedOp.apply, he])
      · exact .inl hf.selfUpdate
    | freezeAdmission => exact .inl rfl
    | _ => cases hc

end Control

end LinuxPatchApi.Jobs
