/-
How a job can change: every job in the map after a step is new and Pending, or it is the job that
was there before with its packages and operation, whose status is the same, has become terminal,
or went from active to Rebooting. Only acquiring the mutation slot makes a job Running (and, apart
from the scheduler's callers, the direct `update_job`).
-/
import LinuxPatchApi.Jobs.Dispatch

namespace LinuxPatchApi.Jobs

open LinuxPatchApi.Packages Transition

/-- What an operation may do to a job that stays in the map. -/
structure JobMove (j j' : Job) : Prop where
  packages : j'.packages = j.packages
  operation : j'.operation = j.operation
  status : j'.status = j.status ∨ j'.status.isTerminal = true ∨
    (j.status.isActive = true ∧ j'.status = .rebooting)

theorem JobMove.refl (j : Job) : JobMove j j := ⟨rfl, rfl, .inl rfl⟩

theorem JobMove.terminal {j j' : Job} (h : JobMove j j') (ht : j.status.isTerminal = true) :
    j'.status.isTerminal = true := by
  rcases h.status with h | h | ⟨h, _⟩
  · rw [h]; exact ht
  · exact h
  · rw [JobStatus.isTerminal_eq_not_isActive, h] at ht; cases ht

/-- No move makes a job Pending. -/
theorem JobMove.pending {j j' : Job} (h : JobMove j j') (hp : j'.status = .pending) : j.status = .pending := by
  rcases h.status with h | h | ⟨_, h⟩
  · rw [← h, hp]
  · rw [hp] at h; cases h
  · rw [hp] at h; cases h

/-- A moved job is Running only if it was. -/
theorem JobMove.running {j j' : Job} (h : JobMove j j') (hp : j'.status = .running) : j.status = .running := by
  rcases h.status with h | h | ⟨_, h⟩
  · rw [← h, hp]
  · rw [hp] at h; cases h
  · rw [hp] at h; cases h

theorem JobMove.active {j j' : Job} (h : JobMove j j') (ha : j'.status.isActive = true) : j.status.isActive = true := by
  rcases h.status with h | h | ⟨h, _⟩
  · rw [← h]; exact ha
  · rw [JobStatus.isTerminal_eq_not_isActive, ha] at h; cases h
  · exact h

section Moves

variable {env : Env} {s s' : SchedulerState}

/-- A lookup after an update under one key comes from that key's old job or is unchanged. -/
theorem move_of_update {id k : Uuid} {j' : Job} {f : Job → Job}
    (hg : s'.jobs.get? k = if k = id then (s.jobs.get? id).map f else s.jobs.get? k)
    (hf : ∀ j, s.jobs.get? id = some j → JobMove j (f j)) (h : s'.jobs.get? k = some j') :
    ∃ j, s.jobs.get? k = some j ∧ JobMove j j' := by
  rw [hg] at h
  split at h
  · next hk =>
    obtain ⟨j, hj, rfl⟩ := Option.map_eq_some_iff.1 h
    exact ⟨j, by rw [hk]; exact hj, hf j hj⟩
  · exact ⟨j', h, .refl j'⟩

theorem cancelForReboot_move (j : Job) : JobMove j (SchedulerState.cancelForReboot env j) :=
  ⟨rfl, rfl, .inr (.inl rfl)⟩

theorem afterReboot_move (j : Job) : JobMove j (SchedulerState.afterReboot env j) := by
  unfold SchedulerState.afterReboot
  split
  · exact cancelForReboot_move j
  · exact .refl j

theorem rollbackJobState_move (error : Option String) (j : Job) :
    JobMove j (SchedulerState.rollbackJobState env error j) := by
  cases error with
  | none => exact ⟨rfl, rfl, .inr (.inl rfl)⟩
  | some e => exact ⟨rfl, rfl, .inr (.inl rfl)⟩

theorem failWithDiagnostics_move (e : AnyhowError) (j : Job) : JobMove j (j.failWithDiagnostics env e) :=
  ⟨by simp, by simp, .inr (.inl (by simp [JobStatus.isTerminal]))⟩

theorem abandonJob_move (result : MutationResult) (j : Job) :
    JobMove j (SchedulerState.abandonJob env result j) := by
  unfold SchedulerState.abandonJob
  split
  · cases result <;> exact ⟨rfl, rfl, .inr (.inl rfl)⟩
  · exact .refl j

/-- The job that an operation creates under a new id, with what is known when it does. -/
inductive Creates (env : Env) (s : SchedulerState) : SchedOp → Uuid → Job → Prop
  | admitted (id : Uuid) (operation : JobOperation) (packages : List String) : s.admission = .open →
      s.selfUpdate = none → s.rebootPending = none → s.activeUserJobs < s.maxQueueDepth →
      Creates env s (.admitJob id operation packages) id (Job.new env id operation packages)
  | rolledBack (id original : Uuid) (j : Job) : s.jobs.get? original = some j →
      j.status = .failed ∨ j.status = .completed → s.admission = .open → s.selfUpdate = none →
      s.rebootPending = none → s.activeUserJobs < s.maxQueueDepth →
      Creates env s (.createRollbackJob id original) id
        { Job.new env id .rollback j.packages with exclusiveMode := true, rollbackJobId := some original }
  | updating (id : Uuid) (packages : List String) (v w : String) : s.admission = .open →
      Creates env s (.tryReserveSelfUpdate id packages v w) id (Job.new env id .selfUpdate packages)
  | rebooting (id : Uuid) (force ack : Bool) : s.admission = .open →
      Creates env s (.reserveReboot id force ack) id (Job.new env id .reboot [])

/-- Every job after an operation other than `update_job` was created by it, or is a moved job from before. -/
theorem apply_creates {o : SchedOp} (hu : o.isUpdateJob = false) {k : Uuid} {j' : Job}
    (h : (o.apply env s).jobs.get? k = some j') :
    Creates env s o k j' ∨ ∃ j, s.jobs.get? k = some j ∧ JobMove j j' := by
  have stay : s.jobs.get? k = some j' → ∃ j, s.jobs.get? k = some j ∧ JobMove j j' :=
    fun h => ⟨j', h, .refl j'⟩
  cases o with
  | admitJob id op ps =>
    simp only [SchedOp.apply] at h
    rcases s.admitJob_spec env id op ps with ⟨e, he⟩ | ⟨ha, hsu, hr, hq, he⟩
    · rw [he] at h; exact .inr (stay h)
    · rw [he, SchedulerState.notifyOne_jobs, SchedulerState.insertNewJob_get?] at h
      split at h
      · next hk =>
        cases h
        subst hk
        exact .inl (.admitted k op ps ha hsu hr hq)
      · exact .inr (stay h)
  | createRollbackJob id orig =>
    simp only [SchedOp.apply] at h
    rcases s.createRollbackJob_spec env id orig with ⟨r, he, _⟩ | ⟨j, hj, hst, ha, hsu, hr, hq, _, _, hg⟩
    · rw [he] at h; exact .inr (stay h)
    · rw [hg] at h
      split at h
      · next hk =>
        cases h
        subst hk
        exact .inl (.rolledBack k orig j hj hst ha hsu hr hq)
      · exact .inr (stay h)
  | tryReserveSelfUpdate id ps v w =>
    simp only [SchedOp.apply] at h
    rcases s.tryReserveSelfUpdate_spec env id ps v w with ⟨e, he⟩ | ⟨ha, _, _, _, _, _, _, hg⟩
    · rw [he] at h; exact .inr (stay h)
    · rw [hg] at h
      split at h
      · next hk =>
        cases h
        subst hk
        exact .inl (.updating k ps v w ha)
      · exact .inr (stay h)
  | releaseSelfUpdate id =>
    simp only [SchedOp.apply] at h
    rcases s.releaseSelfUpdate_spec id with ⟨_, he⟩ | ⟨_, _, _, he⟩ <;> rw [he] at h <;> exact .inr (stay h)
  | rollbackSelfUpdate id =>
    simp only [SchedOp.apply] at h
    rw [SchedulerState.rollbackSelfUpdate_get?] at h
    split at h
    · cases h
    · exact .inr (stay h)
  | reserveReboot id force ack =>
    simp only [SchedOp.apply] at h
    rcases s.reserveReboot_spec env id force ack with ⟨_, e, he⟩ | ⟨hadm, _, _, hg⟩
    · rw [he] at h; exact .inr (stay h)
    · rw [hg] at h
      split at h
      · next hk =>
        cases h
        subst hk
        exact .inl (.rebooting k force ack hadm.admission)
      · obtain ⟨j, hj, rfl⟩ := Option.map_eq_some_iff.1 h
        exact .inr ⟨j, hj, afterReboot_move j⟩
  | rollbackReboot id error =>
    simp only [SchedOp.apply] at h
    rcases s.rollbackReboot_spec env id error with ⟨_, he⟩ | ⟨_, _, _, hg⟩
    · rw [he] at h; exact .inr (stay h)
    · exact .inr (move_of_update (hg k) (fun j _ => rollbackJobState_move error j) h)
  | beginRebootExecution id =>
    simp only [SchedOp.apply] at h
    rcases s.beginRebootExecution_spec env id with he | ⟨j, _, hj, hp, _, _, j₁, hst, hop, hps, hg⟩
    · rw [he] at h; exact .inr (stay h)
    · rw [hg] at h
      split at h
      · next hk =>
        cases h
        exact .inr ⟨j, by rw [hk]; exact hj, hps, hop, .inr (.inr ⟨by rw [hp]; rfl, hst⟩)⟩
      · exact .inr (stay h)
  | setJobRebooting id message =>
    simp only [SchedOp.apply] at h
    rcases s.setJobRebooting_spec env id message with ⟨_, e, he⟩ | ⟨j, hj, hp, _, _, hg⟩
    · rw [he] at h; exact .inr (stay h)
    · rw [hg] at h
      split at h
      · next hk =>
        cases h
        exact .inr ⟨j, by rw [hk]; exact hj, rfl, rfl, .inr (.inr ⟨by rw [hp]; rfl, rfl⟩)⟩
      · exact .inr (stay h)
  | updateJob => cases hu
  | addJobLog id m =>
    exact .inr (move_of_update (s.addJobLog_get? env id k m) (fun j _ => ⟨rfl, rfl, .inl rfl⟩) h)
  | completeJob id =>
    exact .inr (move_of_update (s.completeJob_get? env id k) (fun j _ => ⟨rfl, rfl, .inr (.inl rfl)⟩) h)
  | failJob id e =>
    exact .inr (move_of_update (s.failJob_get? env id k e) (fun j _ => ⟨rfl, rfl, .inr (.inl rfl)⟩) h)
  | failJobWithDiagnostics id e =>
    exact .inr (move_of_update (s.failJobWithDiagnostics_get? env id k e)
      (fun j _ => failWithDiagnostics_move e j) h)
  | deleteJob id =>
    simp only [SchedOp.apply] at h
    rcases s.deleteJob_spec id with he | ⟨_, _, _, he⟩
    · rw [he] at h; exact .inr (stay h)
    · rw [he] at h
      simp only [FinMap.get?_erase] at h
      split at h
      · cases h
      · exact .inr (stay h)
  | freezeAdmission => exact .inr (stay h)
  | notifyWaiters => exact .inr (stay h)

theorem Creates.new {o : SchedOp} {k : Uuid} {j' : Job} (h : Creates env s o k j') :
    o.newId = some k ∧ j'.status = .pending ∧ s.admission = .open := by
  cases h with
  | admitted _ _ _ ha | updating _ _ _ _ ha | rebooting _ _ _ ha => exact ⟨rfl, rfl, ha⟩
  | rolledBack _ _ _ _ _ ha => exact ⟨rfl, rfl, ha⟩

/-- Every job after an operation other than `update_job` is new, or a moved job from before. -/
theorem apply_get? {o : SchedOp} (hu : o.isUpdateJob = false) {k : Uuid} {j' : Job}
    (h : (o.apply env s).jobs.get? k = some j') :
    (o.newId = some k ∧ j'.status = .pending ∧ s.admission = .open) ∨
      ∃ j, s.jobs.get? k = some j ∧ JobMove j j' :=
  (apply_creates hu h).imp_left Creates.new

end Moves

/-! ## Acquisitions -/

/-- An acquisition makes its job Running, also when the job was terminal before. -/
theorem acquires_running {f : Fired World Act} (hf : IsStep agent f) {c : Nat} {call : Call}
    (ha : Acquires f c call) {j : Job} (hj : f.pre.sched.jobs.get? call.jobId = some j) :
    ∃ j', f.post.sched.jobs.get? call.jobId = some j' ∧ j'.status = .running := by
  obtain ⟨w, a, w'⟩ := f
  have hs : WorldStep w a w' := agent_step hf
  obtain ⟨rfl, hc, _, hr⟩ := acquires_iff.1 ha
  cases hs with
  | call c a call₁ call' s' hc₁ hs =>
    rw [hc] at hc₁; cases hc₁
    cases hs with
    | rejected _ _ hn => exact absurd hr hn
    | waiting _ hn => exact absurd hr hn
    | acquired b s' _ _ _ hg =>
      refine ⟨SchedulerState.startJob w.env (w.sched.jobAlreadyRunning call.jobId) j, ?_,
        SchedulerState.startJob_status w.env w.sched hj⟩
      simp only at hj
      simp [hg, hj]

end LinuxPatchApi.Jobs
