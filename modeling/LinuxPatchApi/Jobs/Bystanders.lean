/-
Jobs that an operation is not about. Such a job keeps its status, unless it is Pending and a reboot is
reserved; and a job leaves the map only when it is deleted after its end, or with the guard of its
self-update.
-/
import LinuxPatchApi.Jobs.Dispatch

namespace LinuxPatchApi.Jobs

open LinuxPatchApi.Packages Transition

/-- The operation is about this job, and may change its status. -/
def SchedOp.Touches (o : SchedOp) (k : Uuid) : Prop :=
  match o with
  | .completeJob id | .failJob id _ | .failJobWithDiagnostics id _ | .setJobRebooting id _ | .rollbackReboot id _
  | .beginRebootExecution id | .updateJob id _ _ _ => id = k
  | _ => False

section Bystanders

variable {env : Env} {s s' : SchedulerState} {o : SchedOp} {k : Uuid}

/-- The job under `k` has its old status, if the update is of another job or of its log. -/
theorem status_of_update {id : Uuid} {f : Job → Job} {j' : Job}
    (hget : ∀ k, s'.jobs.get? k = if k = id then (s.jobs.get? id).map f else s.jobs.get? k)
    (hf : id = k → ∀ j, (f j).status = j.status) (h : s'.jobs.get? k = some j') :
    ∃ j, s.jobs.get? k = some j ∧ j'.status = j.status := by
  rw [hget] at h
  split at h
  · next hk =>
    obtain ⟨j, hj, rfl⟩ := Option.map_eq_some_iff.1 h
    exact ⟨j, by rw [hk]; exact hj, hf hk.symm j⟩
  · exact ⟨j', h, rfl⟩

theorem status_of_insert {id : Uuid} {x j' : Job}
    (hget : ∀ k, s'.jobs.get? k = if k = id then some x else s.jobs.get? k) (hne : id ≠ k)
    (h : s'.jobs.get? k = some j') : ∃ j, s.jobs.get? k = some j ∧ j'.status = j.status := by
  rw [hget, if_neg hne.symm] at h
  exact ⟨j', h, rfl⟩

/-- A job that was there and that the operation is not about keeps its status, unless a granted reboot
reservation cancels it while it is Pending. -/
theorem apply_bystander {j' : Job} (hk : o.newId ≠ some k) (ht : ¬ o.Touches k)
    (h : (o.apply env s).jobs.get? k = some j') :
    ∃ j, s.jobs.get? k = some j ∧ (j'.status = j.status ∨ j.status = .pending ∧ s.rebootPending = none) := by
  have keep : (∃ j, s.jobs.get? k = some j ∧ j'.status = j.status) →
      ∃ j, s.jobs.get? k = some j ∧ (j'.status = j.status ∨ j.status = .pending ∧ s.rebootPending = none) :=
    fun ⟨j, hj, hst⟩ => ⟨j, hj, .inl hst⟩
  have same : (o.apply env s).jobs = s.jobs → ∃ j, s.jobs.get? k = some j ∧ j'.status = j.status :=
    fun hs => ⟨j', by rw [← hs]; exact h, rfl⟩
  cases o with
  | admitJob id op ps =>
    have hne : id ≠ k := fun he => hk (congrArg some he)
    rcases s.admitJob_spec env id op ps with ⟨e, he⟩ | ⟨_, _, _, _, he⟩
    · exact keep (same (by simp only [SchedOp.apply, he]))
    · have hjobs : ((SchedOp.admitJob id op ps).apply env s).jobs = (s.insertNewJob env id op ps).jobs := by
        simp only [SchedOp.apply, he, SchedulerState.notifyOne_jobs]
      rw [hjobs] at h
      exact keep (status_of_insert (fun k => s.insertNewJob_get? env id k op ps) hne h)
  | createRollbackJob id orig =>
    have hne : id ≠ k := fun he => hk (congrArg some he)
    rcases s.createRollbackJob_spec env id orig with ⟨r, he, _⟩ | ⟨_, _, _, _, _, _, _, _, _, hget⟩
    · exact keep (same (by simp only [SchedOp.apply, he]))
    · exact keep (status_of_insert hget hne h)
  | tryReserveSelfUpdate id ps v t =>
    have hne : id ≠ k := fun he => hk (congrArg some he)
    rcases s.tryReserveSelfUpdate_spec env id ps v t with ⟨e, he⟩ | ⟨_, _, _, _, _, _, _, hget⟩
    · exact keep (same (by simp only [SchedOp.apply, he]))
    · exact keep (status_of_insert hget hne h)
  | releaseSelfUpdate id =>
    rcases s.releaseSelfUpdate_spec id with ⟨_, he⟩ | ⟨_, _, _, he⟩
    · exact keep (same (by simp only [SchedOp.apply, he]))
    · exact keep (same (by simp only [SchedOp.apply, he, SchedulerState.notifyOne_jobs]))
  | rollbackSelfUpdate id =>
    simp only [SchedOp.apply, SchedulerState.rollbackSelfUpdate_get?] at h
    split at h
    · cases h
    · exact ⟨j', h, .inl rfl⟩
  | reserveReboot id force ack =>
    have hne : id ≠ k := fun he => hk (congrArg some he)
    rcases s.reserveReboot_spec env id force ack with ⟨_, e, he⟩ | ⟨hadm, _, _, hget⟩
    · exact keep (same (by simp only [SchedOp.apply, he]))
    · simp only [SchedOp.apply, hget, hne.symm, if_false] at h
      obtain ⟨j, hj, rfl⟩ := Option.map_eq_some_iff.1 h
      unfold SchedulerState.afterReboot
      split
      · next hp => exact ⟨j, hj, .inr ⟨hp, hadm.unreserved⟩⟩
      · exact ⟨j, hj, .inl rfl⟩
  | rollbackReboot id e =>
    rcases s.rollbackReboot_spec env id e with ⟨_, he⟩ | ⟨_, _, _, hget⟩
    · exact keep (same (by simp only [SchedOp.apply, he]))
    · exact keep (status_of_update hget (fun he => absurd he ht) h)
  | beginRebootExecution id =>
    rcases s.beginRebootExecution_spec env id with he | ⟨_, _, _, _, _, _, _, _, _, _, hget⟩
    · exact keep (same (by simp only [SchedOp.apply, he]))
    · exact keep (status_of_insert hget ht h)
  | setJobRebooting id m =>
    rcases s.setJobRebooting_spec env id m with ⟨_, e, he⟩ | ⟨_, _, _, _, _, hget⟩
    · exact keep (same (by simp only [SchedOp.apply, he]))
    · exact keep (status_of_insert hget ht h)
  | updateJob id st p m =>
    rcases s.updateJob_spec env id st p m with ⟨e, he⟩ | ⟨_, _, hget⟩
    · exact keep (same (by simp only [SchedOp.apply, he]))
    · exact keep (status_of_update hget (fun he => absurd he ht) h)
  | addJobLog id m => exact keep (status_of_update (fun k => s.addJobLog_get? env id k m) (fun _ _ => rfl) h)
  | completeJob id => exact keep (status_of_update (fun k => s.completeJob_get? env id k) (fun he => absurd he ht) h)
  | failJob id e => exact keep (status_of_update (fun k => s.failJob_get? env id k e) (fun he => absurd he ht) h)
  | failJobWithDiagnostics id e =>
    exact keep (status_of_update (fun k => s.failJobWithDiagnostics_get? env id k e) (fun he => absurd he ht) h)
  | deleteJob id =>
    rcases s.deleteJob_spec id with he | ⟨_, _, _, he⟩
    · exact keep (same (by simp only [SchedOp.apply, he]))
    · simp only [SchedOp.apply, he, FinMap.get?_erase] at h
      split at h
      · cases h
      · exact ⟨j', h, .inl rfl⟩
  | freezeAdmission => exact keep (same rfl)
  | notifyWaiters => exact keep (same rfl)

/-- Only a deletion and the roll-back of a self-update guard take a job out of the map. -/
theorem apply_removed {j : Job}
    (hj : s.jobs.get? k = some j) (h : (o.apply env s).jobs.get? k = none) :
    o = .deleteJob k ∧ j.status.isTerminal = true ∨ o = .rollbackSelfUpdate k := by
  have update : ∀ {s' : SchedulerState} {id : Uuid} {f : Job → Job},
      (∀ k, s'.jobs.get? k = if k = id then (s.jobs.get? id).map f else s.jobs.get? k) → s'.jobs.get? k ≠ none := by
    intro s' id f hget hn
    rw [hget] at hn
    split at hn
    · next hk => rw [← hk, hj] at hn; cases hn
    · rw [hj] at hn; cases hn
  have insert : ∀ {s' : SchedulerState} {id : Uuid} {x : Job},
      (∀ k, s'.jobs.get? k = if k = id then some x else s.jobs.get? k) → s'.jobs.get? k ≠ none := by
    intro s' id x hget hn
    rw [hget] at hn
    split at hn
    · cases hn
    · rw [hj] at hn; cases hn
  have same : ∀ {s' : SchedulerState}, s'.jobs = s.jobs → s'.jobs.get? k ≠ none := by
    intro s' hs hn
    rw [hs, hj] at hn
    cases hn
  cases o with
  | admitJob id op ps =>
    rcases s.admitJob_spec env id op ps with ⟨e, he⟩ | ⟨_, _, _, _, he⟩
    · exact absurd h (same (by simp only [SchedOp.apply, he]))
    · have hjobs : ((SchedOp.admitJob id op ps).apply env s).jobs = (s.insertNewJob env id op ps).jobs := by
        simp only [SchedOp.apply, he, SchedulerState.notifyOne_jobs]
      rw [hjobs] at h
      exact absurd h (insert fun k => s.insertNewJob_get? env id k op ps)
  | createRollbackJob id orig =>
    rcases s.createRollbackJob_spec env id orig with ⟨r, he, _⟩ | ⟨_, _, _, _, _, _, _, _, _, hget⟩
    · exact absurd h (same (by simp only [SchedOp.apply, he]))
    · exact absurd h (insert hget)
  | tryReserveSelfUpdate id ps v t =>
    rcases s.tryReserveSelfUpdate_spec env id ps v t with ⟨e, he⟩ | ⟨_, _, _, _, _, _, _, hget⟩
    · exact absurd h (same (by simp only [SchedOp.apply, he]))
    · exact absurd h (insert hget)
  | releaseSelfUpdate id =>
    rcases s.releaseSelfUpdate_spec id with ⟨_, he⟩ | ⟨_, _, _, he⟩
    · exact absurd h (same (by simp only [SchedOp.apply, he]))
    · exact absurd h (same (by simp only [SchedOp.apply, he, SchedulerState.notifyOne_jobs]))
  | rollbackSelfUpdate id =>
    simp only [SchedOp.apply, SchedulerState.rollbackSelfUpdate_get?] at h
    split at h
    · next hk => exact .inr (by rw [hk])
    · rw [hj] at h; cases h
  | reserveReboot id force ack =>
    rcases s.reserveReboot_spec env id force ack with ⟨_, e, he⟩ | ⟨_, _, _, hget⟩
    · exact absurd h (same (by simp only [SchedOp.apply, he]))
    · simp only [SchedOp.apply, hget, hj] at h
      split at h <;> cases h
  | rollbackReboot id e =>
    rcases s.rollbackReboot_spec env id e with ⟨_, he⟩ | ⟨_, _, _, hget⟩
    · exact absurd h (same (by simp only [SchedOp.apply, he]))
    · exact absurd h (update hget)
  | beginRebootExecution id =>
    rcases s.beginRebootExecution_spec env id with he | ⟨_, _, _, _, _, _, _, _, _, _, hget⟩
    · exact absurd h (same (by simp only [SchedOp.apply, he]))
    · exact absurd h (insert hget)
  | setJobRebooting id m =>
    rcases s.setJobRebooting_spec env id m with ⟨_, e, he⟩ | ⟨_, _, _, _, _, hget⟩
    · exact absurd h (same (by simp only [SchedOp.apply, he]))
    · exact absurd h (insert hget)
  | updateJob id st p m =>
    rcases s.updateJob_spec env id st p m with ⟨e, he⟩ | ⟨_, _, hget⟩
    · exact absurd h (same (by simp only [SchedOp.apply, he]))
    · exact absurd h (update hget)
  | addJobLog id m => exact absurd h (update fun k => s.addJobLog_get? env id k m)
  | completeJob id => exact absurd h (update fun k => s.completeJob_get? env id k)
  | failJob id e => exact absurd h (update fun k => s.failJob_get? env id k e)
  | failJobWithDiagnostics id e => exact absurd h (update fun k => s.failJobWithDiagnostics_get? env id k e)
  | deleteJob id =>
    rcases s.deleteJob_spec id with he | ⟨j₀, hj₀, hterm, he⟩
    · exact absurd h (same (by simp only [SchedOp.apply, he]))
    · simp only [SchedOp.apply, he, FinMap.get?_erase] at h
      split at h
      · next hk =>
        rw [← hk, hj] at hj₀
        cases hj₀
        exact .inl ⟨by rw [hk], hterm⟩
      · rw [hj] at h; cases h
  | freezeAdmission => exact absurd h (same rfl)
  | notifyWaiters => exact absurd h (same rfl)

theorem step_removed {f : Fired World Act} (hf : IsStep agent f) {j : Job}
    (hj : f.pre.sched.jobs.get? k = some j) (h : f.post.sched.jobs.get? k = none) :
    f.act = .op (.deleteJob k) ∨ f.act = .op (.rollbackSelfUpdate k) := by
  obtain ⟨w, a, w'⟩ := f
  have hs : WorldStep w a w' := agent_step hf
  simp only at hj h ⊢
  cases hs with
  | op o _ =>
    rcases apply_removed hj h with ⟨rfl, _⟩ | rfl
    · exact .inl rfl
    · exact .inr rfl
  | dispatch | tick =>
    simp only [hj] at h
    cases h
  | call c a call call' s' _ hcs =>
    simp only at h
    cases hcs with
    | acquired b s' _ _ _ hget =>
      rw [hget] at h
      split at h
      · next hk => rw [← hk, hj] at h; cases h
      · rw [hj] at h; cases h
    | finalized r i _ =>
      rw [SchedulerState.finalizeMutation_get?] at h
      split at h
      · next hk => rw [← hk.1, hj] at h; cases h
      · rw [hj] at h; cases h
    | _ =>
      simp only [hj] at h
      cases h

end Bystanders

end LinuxPatchApi.Jobs
