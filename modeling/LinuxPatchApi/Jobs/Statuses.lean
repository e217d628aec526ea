/-
The status of a job along a run: the steps that set it or take the job out of the map, each with the checks that the
operation makes. No other step touches it, so that what a status is now is what was last written.
-/
import LinuxPatchApi.Jobs.JobMoves

namespace LinuxPatchApi.Jobs

open LinuxPatchApi.Packages Transition SchedulerState

/-! ## Writes -/

/-- The status of the job; none when it is not in the map. -/
def statusIn (k : Uuid) (w : World) : Option JobStatus := (w.sched.jobs.get? k).map Job.status

/-- The job that the operation creates, which it answers with. -/
def SchedOp.created (env : Env) (s : SchedulerState) : SchedOp → Option Uuid
  | admitJob id operation packages => (s.admitJob env id operation packages).2.toOption
  | createRollbackJob id original => (s.createRollbackJob env id original).2.toOption.join
  | tryReserveSelfUpdate id packages v w => (s.tryReserveSelfUpdate env id packages v w).2.toOption
  | reserveReboot id force ack => (s.reserveReboot env id force ack).2.toOption
  | _ => none

/-- The check that `update_job` makes. -/
def updateAllowed (s : SchedulerState) (id : Uuid) (status : JobStatus) : Bool :=
  !((status == .running || status == .rebooting) && !s.jobAlreadyRunning id &&
    decide (s.runningCount ≥ s.maxConcurrent))

theorem updateAllowed_iff {s : SchedulerState} {id : Uuid} {st : JobStatus} : updateAllowed s id st = true ↔
    ¬ ((st = .running ∨ st = .rebooting) ∧ s.jobAlreadyRunning id = false ∧ s.runningCount ≥ s.maxConcurrent) := by
  simp only [updateAllowed, Bool.not_eq_true', ← Bool.not_eq_true, Bool.and_eq_true, Bool.or_eq_true, beq_iff_eq,
    decide_eq_true_eq, and_assoc]

/-- The action gives the job `k` the status, or takes the job out of the map. -/
inductive StatusWrite (w : World) (k : Uuid) : Act → Option JobStatus → Prop
  | created (o : SchedOp) : o.created w.env w.sched = some k → StatusWrite w k (.op o) (some .pending)
  | started (c : ℕ) (call : Call) (j : Job) : w.calls[c]? = some call → call.caller = .locking → call.jobId = k →
      w.sched.DispatchReady k → w.sched.jobs.get? k = some j → StatusWrite w k (.call c .check) (some .running)
  | completed (j : Job) : w.sched.jobs.get? k = some j → StatusWrite w k (.op (.completeJob k)) (some .completed)
  | failed (e : String) (j : Job) : w.sched.jobs.get? k = some j → StatusWrite w k (.op (.failJob k e)) (some .failed)
  | diagnosed (e : AnyhowError) (j : Job) : w.sched.jobs.get? k = some j →
      StatusWrite w k (.op (.failJobWithDiagnostics k e)) (some .failed)
  | cancelled (id : Uuid) (force ack : Bool) (j : Job) : w.sched.RebootAdmitted force ack → k ≠ id →
      w.sched.jobs.get? k = some j → j.status = .pending →
      StatusWrite w k (.op (.reserveReboot id force ack)) (some .failed)
  | rolledBack (e : Option String) (j : Job) : w.sched.rebootPending = some k → w.sched.jobs.get? k = some j →
      StatusWrite w k (.op (.rollbackReboot k e)) (some (if e.isSome then .failed else .cancelled))
  | begun (j : Job) : w.sched.rebootPending = some k → w.sched.jobs.get? k = some j → j.status = .pending →
      StatusWrite w k (.op (.beginRebootExecution k)) (some .rebooting)
  | rebooting (m : String) (j : Job) : w.sched.jobs.get? k = some j → j.status = .running →
      StatusWrite w k (.op (.setJobRebooting k m)) (some .rebooting)
  | updated (st : JobStatus) (p : Option UInt8) (m : Option String) (j : Job) : updateAllowed w.sched k st = true →
      w.sched.jobs.get? k = some j → StatusWrite w k (.op (.updateJob k st p m)) (some st)
  | abandoned (c : ℕ) (call : Call) (j : Job) : w.calls[c]? = some call → call.jobId = k → call.caller ≠ .awaiting →
      w.sched.stillOwns k call.generation = true → w.sched.jobs.get? k = some j →
      j.status = .running ∨ j.status = .pending → StatusWrite w k (.call c .finalize) (some .failed)
  | deleted (j : Job) : w.sched.jobs.get? k = some j → j.status.isTerminal = true →
      StatusWrite w k (.op (.deleteJob k)) none
  | withdrawn : StatusWrite w k (.op (.rollbackSelfUpdate k)) none

/-! ## What a write leaves -/

section Writes

variable {env : Env} {s s' : SchedulerState} {k : Uuid}

theorem rollbackJobState_status (e : Option String) (j : Job) :
    (rollbackJobState env e j).status = if e.isSome then .failed else .cancelled := by
  cases e <;> rfl

/-- A job that an operation creates has the id it was given, and is Pending. -/
theorem created_spec {o : SchedOp} (h : o.created env s = some k) :
    o.newId = some k ∧ ∃ j, (o.apply env s).jobs.get? k = some j ∧ j.status = .pending := by
  cases o with
  | admitJob id op ps =>
    simp only [SchedOp.created, SchedOp.apply] at h ⊢
    rcases s.admitJob_spec env id op ps with ⟨e, he⟩ | ⟨_, _, _, _, he⟩
    · rw [he] at h; cases h
    · rw [he] at h ⊢
      cases h
      exact ⟨rfl, _, by rw [notifyOne_jobs, insertNewJob_get?, if_pos rfl], rfl⟩
  | createRollbackJob id orig =>
    simp only [SchedOp.created, SchedOp.apply] at h ⊢
    rcases s.createRollbackJob_spec env id orig with ⟨r, he, hr⟩ | ⟨j, _, _, _, _, _, _, hok, _, hg⟩
    · rw [he] at h
      rcases r with e | _ | i
      · cases h
      · cases h
      · exact absurd rfl (hr i)
    · rw [hok] at h
      cases h
      exact ⟨rfl, _, by rw [hg, if_pos rfl], rfl⟩
  | tryReserveSelfUpdate id ps v w =>
    simp only [SchedOp.created, SchedOp.apply] at h ⊢
    rcases s.tryReserveSelfUpdate_spec env id ps v w with ⟨e, he⟩ | ⟨_, _, _, _, _, hok, _, hg⟩
    · rw [he] at h; cases h
    · rw [hok] at h
      cases h
      exact ⟨rfl, _, by rw [hg, if_pos rfl], rfl⟩
  | reserveReboot id force ack =>
    simp only [SchedOp.created, SchedOp.apply] at h ⊢
    rcases s.reserveReboot_spec env id force ack with ⟨_, e, he⟩ | ⟨_, hok, _, hg⟩
    · rw [he] at h; cases h
    · rw [hok] at h
      cases h
      exact ⟨rfl, _, by rw [hg, if_pos rfl], rfl⟩
  | _ => cases h

/-- After the write the status is what was written. -/
theorem status_written {f : Fired World Act} (hf : IsStep agent f) {o : Option JobStatus}
    (h : StatusWrite f.pre k f.act o) : statusIn k f.post = o := by
  obtain ⟨w, a, w'⟩ := f
  have hs : WorldStep w a w' := agent_step hf
  simp only at h ⊢
  have hop {o : SchedOp} (hs : WorldStep w (.op o) w') : w'.sched = o.apply w.env w.sched := by
    cases hs with
    | op => rfl
  unfold statusIn
  cases h with
  | created o hk =>
    rw [hop hs]
    obtain ⟨_, j, hj, hp⟩ := created_spec hk
    rw [hj, Option.map_some, hp]
  | started c call j hc hl hk hr hj =>
    obtain ⟨j', hj', hrun⟩ := acquires_running hf (acquires_iff.2 ⟨rfl, hc, hl, by rw [hk]; exact hr⟩)
      (by rw [hk]; exact hj)
    rw [hk] at hj'
    rw [hj', Option.map_some, hrun]
  | completed j hj => rw [hop hs, SchedOp.apply, completeJob_get?, if_pos rfl, hj]; rfl
  | failed e j hj => rw [hop hs, SchedOp.apply, failJob_get?, if_pos rfl, hj]; rfl
  | diagnosed e j hj =>
    rw [hop hs, SchedOp.apply, failJobWithDiagnostics_get?, if_pos rfl, hj]
    simp
  | cancelled id force ack j hadm hk hj hp =>
    rw [hop hs, SchedOp.apply]
    rcases w.sched.reserveReboot_spec w.env id force ack with ⟨hn, _⟩ | ⟨_, _, _, hg⟩
    · exact absurd hadm hn
    · rw [hg, if_neg hk, hj, Option.map_some, Option.map_some, afterReboot, if_pos hp]
      rfl
  | rolledBack e j hr hj =>
    rw [hop hs, SchedOp.apply]
    rcases w.sched.rollbackReboot_spec w.env k e with ⟨hn, _⟩ | ⟨_, _, _, hg⟩
    · exact absurd hr hn
    · rw [hg, if_pos rfl, hj, Option.map_some, Option.map_some, rollbackJobState_status]
  | begun j hr hj hp =>
    rw [hop hs, SchedOp.apply, beginRebootExecution, if_neg (not_not.2 hr), hj]
    simp only [hp, ne_eq, not_true_eq_false, if_false]
    rw [notifyOne_jobs, mutateJob_get?, if_pos rfl, hj]
    rfl
  | rebooting m j hj hp =>
    rw [hop hs, SchedOp.apply]
    rcases w.sched.setJobRebooting_spec w.env k m with ⟨hn, _⟩ | ⟨_, _, _, _, _, hg⟩
    · exact absurd hp (hn j hj)
    · rw [hg, if_pos rfl]
      rfl
  | updated st p m j hall hj =>
    rw [hop hs, SchedOp.apply, updateJob, if_neg (updateAllowed_iff.1 hall), mutateJob_get?, if_pos rfl, hj]
    rfl
  | abandoned c call j hc hk hcaller howns hj hst =>
    cases hs with
    | call c a call₁ call' s' hc₁ hcs =>
      rw [hc] at hc₁
      cases hc₁
      cases hcs with
      | finalized r i _ =>
        subst hk
        dsimp only
        rw [finalizeMutation_get?, if_pos ⟨rfl, by simpa using hcaller, howns⟩, hj, Option.map_some, Option.map_some,
          abandonJob, if_pos hst, failAbandoned_status]
  | deleted j hj ht =>
    rw [hop hs, SchedOp.apply]
    rcases w.sched.deleteJob_spec k with he | ⟨_, _, _, he⟩
    · rw [deleteJob, hj] at he
      simp [ht] at he
    · rw [he]
      dsimp only
      rw [FinMap.get?_erase, if_pos rfl]
      rfl
  | withdrawn => rw [hop hs, SchedOp.apply, rollbackSelfUpdate_get?, if_pos rfl]; rfl

/-! ## What the other steps leave -/

/-- A status after an update under one key that leaves the status there. -/
theorem map_status_of_update {id : Uuid} {f : Job → Job}
    (hg : ∀ i, s'.jobs.get? i = if i = id then (s.jobs.get? id).map f else s.jobs.get? i)
    (hf : ∀ j, k = id → s.jobs.get? id = some j → (f j).status = j.status) :
    (s'.jobs.get? k).map Job.status = (s.jobs.get? k).map Job.status := by
  rw [hg]
  split
  · next hk =>
    rw [hk]
    cases hj : s.jobs.get? id with
    | none => rfl
    | some j => rw [Option.map_some, Option.map_some, hf j hk hj, Option.map_some]
  · rfl

/-- A status after a job was put in under another key. -/
theorem map_status_of_insert {id : Uuid} {j' : Job}
    (hg : ∀ i, s'.jobs.get? i = if i = id then some j' else s.jobs.get? i) (hk : k ≠ id) :
    (s'.jobs.get? k).map Job.status = (s.jobs.get? k).map Job.status := by
  rw [hg, if_neg hk]

theorem apply_status_kept {w : World} {o : SchedOp} (h : ∀ st, ¬ StatusWrite w k (.op o) st) :
    ((o.apply w.env w.sched).jobs.get? k).map Job.status = (w.sched.jobs.get? k).map Job.status := by
  cases o with
  | admitJob id op ps =>
    simp only [SchedOp.apply]
    rcases w.sched.admitJob_spec w.env id op ps with ⟨e, he⟩ | ⟨_, _, _, _, he⟩
    · rw [he]
    · have hk : k ≠ id := by
        rintro rfl
        exact h _ (.created _ (by rw [SchedOp.created, he]; rfl))
      rw [he, notifyOne_jobs, insertNewJob_get?, if_neg hk]
  | createRollbackJob id orig =>
    simp only [SchedOp.apply]
    rcases w.sched.createRollbackJob_spec w.env id orig with ⟨r, he, _⟩ | ⟨_, _, _, _, _, _, _, hok, _, hg⟩
    · rw [he]
    · refine map_status_of_insert hg fun hk => h _ (.created _ ?_)
      rw [SchedOp.created, hok, hk]
      rfl
  | tryReserveSelfUpdate id ps v vs =>
    simp only [SchedOp.apply]
    rcases w.sched.tryReserveSelfUpdate_spec w.env id ps v vs with ⟨e, he⟩ | ⟨_, _, _, _, _, hok, _, hg⟩
    · rw [he]
    · refine map_status_of_insert hg fun hk => h _ (.created _ ?_)
      rw [SchedOp.created, hok, hk]
      rfl
  | releaseSelfUpdate id =>
    simp only [SchedOp.apply]
    rcases w.sched.releaseSelfUpdate_spec id with ⟨_, he⟩ | ⟨_, _, _, he⟩ <;> rw [he]
    rfl
  | rollbackSelfUpdate id =>
    simp only [SchedOp.apply]
    rw [rollbackSelfUpdate_get?, if_neg]
    rintro rfl
    exact h _ .withdrawn
  | reserveReboot id force ack =>
    simp only [SchedOp.apply]
    rcases w.sched.reserveReboot_spec w.env id force ack with ⟨_, e, he⟩ | ⟨hadm, hok, _, hg⟩
    · rw [he]
    · have hk : k ≠ id := by
        rintro rfl
        exact h _ (.created _ (by rw [SchedOp.created, hok]; rfl))
      rw [hg, if_neg hk]
      cases hj : w.sched.jobs.get? k with
      | none => rfl
      | some j =>
        have hp : j.status ≠ .pending := fun hp => h _ (.cancelled id force ack j hadm hk hj hp)
        rw [Option.map_some, afterReboot, if_neg hp]
  | rollbackReboot id error =>
    simp only [SchedOp.apply]
    rcases w.sched.rollbackReboot_spec w.env id error with ⟨_, he⟩ | ⟨hr, _, _, hg⟩
    · rw [he]
    · refine map_status_of_update hg fun j hk hj => ?_
      subst hk
      exact absurd (.rolledBack error j hr hj) (h _)
  | beginRebootExecution id =>
    simp only [SchedOp.apply]
    rcases w.sched.beginRebootExecution_spec w.env id with he | ⟨j, hr, hj, hp, _, _, _, _, _, _, hg⟩
    · rw [he]
    · refine map_status_of_insert hg fun hk => ?_
      subst hk
      exact h _ (.begun j hr hj hp)
  | setJobRebooting id message =>
    simp only [SchedOp.apply]
    rcases w.sched.setJobRebooting_spec w.env id message with ⟨_, e, he⟩ | ⟨j, hj, hp, _, _, hg⟩
    · rw [he]
    · refine map_status_of_insert hg fun hk => ?_
      subst hk
      exact h _ (.rebooting message j hj hp)
  | updateJob id st p m =>
    simp only [SchedOp.apply, updateJob]
    split
    · rfl
    next hall =>
      refine map_status_of_update (fun i => mutateJob_get? w.env w.sched id i _) fun j hk hj => ?_
      subst hk
      exact absurd (.updated st p m j (updateAllowed_iff.2 hall) hj) (h _)
  | addJobLog id m => exact map_status_of_update (fun i => w.sched.addJobLog_get? w.env id i m) fun _ _ _ => rfl
  | completeJob id =>
    refine map_status_of_update (fun i => w.sched.completeJob_get? w.env id i) fun j hk hj => ?_
    subst hk
    exact absurd (.completed j hj) (h _)
  | failJob id e =>
    refine map_status_of_update (fun i => w.sched.failJob_get? w.env id i e) fun j hk hj => ?_
    subst hk
    exact absurd (.failed e j hj) (h _)
  | failJobWithDiagnostics id e =>
    refine map_status_of_update (fun i => w.sched.failJobWithDiagnostics_get? w.env id i e) fun j hk hj => ?_
    subst hk
    exact absurd (.diagnosed e j hj) (h _)
  | deleteJob id =>
    simp only [SchedOp.apply]
    rcases w.sched.deleteJob_spec id with he | ⟨j, hj, ht, he⟩
    · rw [he]
    · rw [he]
      dsimp only
      rw [FinMap.get?_erase, if_neg]
      rintro rfl
      exact h _ (.deleted j hj ht)
  | freezeAdmission | notifyWaiters => rfl

/-- Only a creation writes the status of a job that is not there. -/
theorem StatusWrite.created_of_absent {w : World} {a : Act} {st : JobStatus} (h : StatusWrite w k a (some st))
    (habsent : w.sched.jobs.get? k = none) : ∃ o, a = .op o ∧ o.created w.env w.sched = some k := by
  cases h with
  | created o hk => exact ⟨o, rfl, hk⟩
  | started _ _ _ _ _ _ _ hj | completed _ hj | failed _ _ hj | diagnosed _ _ hj | cancelled _ _ _ _ _ _ hj
  | rolledBack _ _ _ hj | begun _ _ hj | rebooting _ _ hj | updated _ _ _ _ _ hj | abandoned _ _ _ _ _ _ _ hj =>
    rw [habsent] at hj
    cases hj

/-- A step that does not write the status of the job leaves it. -/
theorem status_kept {f : Fired World Act} (hf : IsStep agent f) (h : ∀ st, ¬ StatusWrite f.pre k f.act st) :
    statusIn k f.post = statusIn k f.pre := by
  obtain ⟨w, a, w'⟩ := f
  have hs : WorldStep w a w' := agent_step hf
  simp only at h
  unfold statusIn
  cases hs with
  | op o _ => exact apply_status_kept h
  | dispatch | tick => rfl
  | call c a call call' s' hc hcs =>
    cases hcs with
    | acquired b s' hl hr _ hg =>
      refine map_status_of_update hg fun j hk hj => ?_
      subst hk
      exact absurd (.started c call j hc hl rfl hr hj) (h _)
    | finalized r i _ =>
      dsimp only
      rw [finalizeMutation_get?]
      split
      · next hk =>
        obtain ⟨rfl, halive, howns⟩ := hk
        cases hj : w.sched.jobs.get? call.jobId with
        | none => rfl
        | some j =>
          by_cases hst : j.status = .running ∨ j.status = .pending
          · exact absurd (.abandoned c call j hc rfl (by simpa using halive) howns hj hst) (h _)
          · rw [Option.map_some, abandonJob, if_neg hst]
      · rfl
    | _ => rfl

/-- A job that was not in the map before the step was created by it. -/
theorem created_of_new {f : Fired World Act} (hf : IsStep agent f) (habsent : f.pre.sched.jobs.get? k = none) {j' : Job}
    (hj' : f.post.sched.jobs.get? k = some j') : ∃ o, f.act = .op o ∧ o.created f.pre.env f.pre.sched = some k := by
  by_cases hw : ∃ st, StatusWrite f.pre k f.act st
  · obtain ⟨st, hst⟩ := hw
    have hpost := status_written hf hst
    rw [statusIn, hj', Option.map_some] at hpost
    subst hpost
    exact hst.created_of_absent habsent
  · have hsame := status_kept hf fun st hst => hw ⟨st, hst⟩
    rw [statusIn, statusIn, habsent, hj'] at hsame
    cases hsame

end Writes

/-! ## Along a run -/

section Runs

variable {A : Option JobStatus → Prop} {k : Uuid} {w w' : World} {tr : List (Fired World Act)}

/-- The step writes such a status. -/
def SetsStatus (A : Option JobStatus → Prop) (k : Uuid) (f : Fired World Act) : Prop :=
  ∃ st, StatusWrite f.pre k f.act st ∧ A st

/-- The step writes no other status. -/
def OnlySetsStatus (A : Option JobStatus → Prop) (k : Uuid) (f : Fired World Act) : Prop :=
  ∀ st, StatusWrite f.pre k f.act st → A st

theorem status_step {f : Fired World Act} (hf : IsStep agent f) :
    A (statusIn k f.post) ↔ SetsStatus A k f ∨ (OnlySetsStatus A k f ∧ A (statusIn k f.pre)) := by
  by_cases hw : ∃ st, StatusWrite f.pre k f.act st
  · obtain ⟨st, hst⟩ := hw
    rw [status_written hf hst]
    constructor
    · exact fun ha => .inl ⟨st, hst, ha⟩
    · rintro (⟨st', hst', ha⟩ | ⟨hall, _⟩)
      · rwa [← status_written hf hst, status_written hf hst']
      · exact hall st hst
  · have hnone : ∀ st, ¬ StatusWrite f.pre k f.act st := fun st hst => hw ⟨st, hst⟩
    rw [status_kept hf hnone]
    constructor
    · exact fun ha => .inr ⟨fun st hst => absurd hst (hnone st), ha⟩
    · rintro (⟨st, hst, _⟩ | ⟨_, ha⟩)
      · exact absurd hst (hnone st)
      · exact ha

/-- The agent starts with jobs that have ended, so that an active job was made so in the run, and nothing has ended it
since. -/
theorem status_since (hw : w.Startup) (hr : Run agent w tr w')
    (hactive : ∀ o, A o → ∃ st, o = some st ∧ st.isActive = true) :
    A (statusIn k w') ↔ Since False (SetsStatus A k) (OnlySetsStatus A k) tr := by
  have hstart : ¬ A (statusIn k w) := by
    obtain ⟨_, _, _, hs, _, _⟩ := hw
    intro ha
    obtain ⟨st, hst, hact⟩ := hactive _ ha
    obtain ⟨j, hj, rfl⟩ := Option.map_eq_some_iff.1 hst
    rw [hs] at hj
    have ht := (startup_jobs hj).1
    rw [JobStatus.isTerminal_eq_not_isActive, hact] at ht
    cases ht
  rw [hr.since_iff (I := fun v => A (statusIn k v)) fun f _ hf => status_step hf, iff_false_intro hstart]

end Runs

end LinuxPatchApi.Jobs
