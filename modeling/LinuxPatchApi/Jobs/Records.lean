/-
The record that is kept of a job: each way in which an operation or a call of `dispatch_mutation` changes one, and what a
record has whatever was done to it.
-/
import LinuxPatchApi.Jobs.Terminal
import LinuxPatchApi.Jobs.Restarts

namespace LinuxPatchApi.Jobs

open LinuxPatchApi.Packages Transition SchedulerState

/-! ## Ways to change a record -/

/-- The record of a reboot job whose command starts. -/
def Job.beginReboot (env : Env) (j : Job) : Job :=
  Job.addLog env { j with status := .rebooting, updatedAt := env.now } "Reboot command starting"

/-- What the operations do to a record that stays in the map. -/
inductive RecordMove (env : Env) (j : Job) : Job → Prop
  | kept : RecordMove env j j
  | logged (message : String) : RecordMove env j (j.addLog env message)
  | completed : RecordMove env j (j.complete env)
  | failed (error : String) : RecordMove env j (j.fail env error)
  | diagnosed (error : AnyhowError) : RecordMove env j (j.failWithDiagnostics env error)
  | cancelled : RecordMove env j (cancelForReboot env j)
  | released (error : Option String) : RecordMove env j (rollbackJobState env error j)
  | rebooting (message : String) : j.status = .running → RecordMove env j (j.setRebooting env message)
  | begun : j.status = .pending → RecordMove env j (j.beginReboot env)
  | abandoned (result : MutationResult) : RecordMove env j (failAbandoned env result j)

section Moves

variable {env : Env} {s s' : SchedulerState} {id k : Uuid} {j' : Job}

/-- A record after an update under one key. -/
theorem record_of_update {f : Job → Job}
    (hg : s'.jobs.get? k = if k = id then (s.jobs.get? id).map f else s.jobs.get? k)
    (hf : ∀ j, s.jobs.get? id = some j → RecordMove env j (f j)) (h : s'.jobs.get? k = some j') :
    ∃ j, s.jobs.get? k = some j ∧ RecordMove env j j' := by
  rw [hg] at h
  split at h
  · next hk =>
    obtain ⟨j, hj, rfl⟩ := Option.map_eq_some_iff.1 h
    exact ⟨j, by rw [hk]; exact hj, hf j hj⟩
  · exact ⟨j', h, .kept⟩

theorem afterReboot_record (j : Job) : RecordMove env j (afterReboot env j) := by
  unfold afterReboot
  split
  · exact .cancelled
  · exact .kept

theorem abandonJob_record (result : MutationResult) (j : Job) : RecordMove env j (abandonJob env result j) := by
  unfold abandonJob
  split
  · exact .abandoned result
  · exact .kept

theorem beginRebootExecution_record (h : (s.beginRebootExecution env id).1.jobs.get? k = some j') :
    ∃ j, s.jobs.get? k = some j ∧ RecordMove env j j' := by
  unfold beginRebootExecution at h
  split at h
  · exact ⟨j', h, .kept⟩
  split at h
  · exact ⟨j', h, .kept⟩
  next j hj =>
  split at h
  · exact ⟨j', h, .kept⟩
  next hp =>
    refine record_of_update (mutateJob_get? env s id k _) (fun i hi => ?_) h
    rw [hj] at hi
    cases hi
    exact .begun (not_not.1 hp)

/-- Every record after an operation other than `update_job` is new, or comes from the one before by a move. -/
theorem apply_records {o : SchedOp} (hu : o.isUpdateJob = false) (h : (o.apply env s).jobs.get? k = some j') :
    Creates env s o k j' ∨ ∃ j, s.jobs.get? k = some j ∧ RecordMove env j j' := by
  have stay : s.jobs.get? k = some j' → ∃ j, s.jobs.get? k = some j ∧ RecordMove env j j' := fun h => ⟨j', h, .kept⟩
  cases o with
  | admitJob id op ps =>
    rcases s.admitJob_spec env id op ps with ⟨e, he⟩ | ⟨ha, hsu, hr, hq, he⟩
    · simp only [SchedOp.apply, he] at h
      exact .inr (stay h)
    · simp only [SchedOp.apply, he, notifyOne_jobs, insertNewJob_get?] at h
      split at h
      · next hk =>
        cases h
        subst hk
        exact .inl (.admitted k op ps ha hsu hr hq)
      · exact .inr (stay h)
  | createRollbackJob id orig =>
    simp only [SchedOp.apply] at h
    rcases s.createRollbackJob_spec env id orig with ⟨r, he, _⟩ | ⟨j, hj, hst, ha, hsu, hr, hq, _, _, hg⟩
    · rw [he] at h
      exact .inr (stay h)
    · rw [hg] at h
      split at h
      · next hk =>
        cases h
        subst hk
        exact .inl (.rolledBack k orig j hj hst ha hsu hr hq)
      · exact .inr (stay h)
  | tryReserveSelfUpdate id ps v w =>
    simp only [SchedOp.apply] at h
    rcases s.tryReserveSelfUpdate_spec env id ps v w with ⟨e, he⟩ | ⟨ha, _, _, _, _, _, _, hg⟩
    · rw [he] at h
      exact .inr (stay h)
    · rw [hg] at h
      split at h
      · next hk =>
        cases h
        subst hk
        exact .inl (.updating k ps v w ha)
      · exact .inr (stay h)
  | releaseSelfUpdate id =>
    simp only [SchedOp.apply] at h
    rcases s.releaseSelfUpdate_spec id with ⟨_, he⟩ | ⟨_, _, _, he⟩ <;> rw [he] at h <;> exact .inr (stay h)
  | rollbackSelfUpdate id =>
    simp only [SchedOp.apply, rollbackSelfUpdate_get?] at h
    split at h
    · cases h
    · exact .inr (stay h)
  | reserveReboot id force ack =>
    simp only [SchedOp.apply] at h
    rcases s.reserveReboot_spec env id force ack with ⟨_, e, he⟩ | ⟨hadm, _, _, hg⟩
    · rw [he] at h
      exact .inr (stay h)
    · rw [hg] at h
      split at h
      · next hk =>
        cases h
        subst hk
        exact .inl (.rebooting k force ack hadm.admission)
      · obtain ⟨j, hj, rfl⟩ := Option.map_eq_some_iff.1 h
        exact .inr ⟨j, hj, afterReboot_record j⟩
  | rollbackReboot id error =>
    simp only [SchedOp.apply] at h
    rcases s.rollbackReboot_spec env id error with ⟨_, he⟩ | ⟨_, _, _, hg⟩
    · rw [he] at h
      exact .inr (stay h)
    · exact .inr (record_of_update (hg k) (fun j _ => .released error) h)
  | beginRebootExecution id => exact .inr (beginRebootExecution_record h)
  | setJobRebooting id message =>
    simp only [SchedOp.apply] at h
    rcases s.setJobRebooting_spec env id message with ⟨_, e, he⟩ | ⟨j, hj, hp, _, _, hg⟩
    · rw [he] at h
      exact .inr (stay h)
    · rw [hg] at h
      split at h
      · next hk =>
        cases h
        exact .inr ⟨j, by rw [hk]; exact hj, .rebooting message hp⟩
      · exact .inr (stay h)
  | updateJob => cases hu
  | addJobLog id m => exact .inr (record_of_update (s.addJobLog_get? env id k m) (fun j _ => .logged m) h)
  | completeJob id => exact .inr (record_of_update (s.completeJob_get? env id k) (fun j _ => .completed) h)
  | failJob id e => exact .inr (record_of_update (s.failJob_get? env id k e) (fun j _ => .failed e) h)
  | failJobWithDiagnostics id e =>
    exact .inr (record_of_update (s.failJobWithDiagnostics_get? env id k e) (fun j _ => .diagnosed e) h)
  | deleteJob id =>
    simp only [SchedOp.apply] at h
    rcases s.deleteJob_spec id with he | ⟨_, _, _, he⟩
    · rw [he] at h
      exact .inr (stay h)
    · rw [he] at h
      simp only [FinMap.get?_erase] at h
      split at h
      · cases h
      · exact .inr (stay h)
  | freezeAdmission | notifyWaiters => exact .inr (stay h)

end Moves

/-- Every record after a step is new, comes from the one before by a move, or is of a job that is started. -/
theorem world_records {w w' : World} {a : Act} (hs : w.step a = some w') (hu : a.isUpdateJob = false) {k : Uuid}
    {j' : Job} (h : w'.sched.jobs.get? k = some j') :
    (∃ o, a = .op o ∧ Creates w.env w.sched o k j') ∨ ∃ j, w.sched.jobs.get? k = some j ∧
      (RecordMove w.env j j' ∨ ∃ c call alreadyRunning, Acquires ⟨w, a, w'⟩ c call ∧ call.jobId = k ∧
        j' = startJob w.env alreadyRunning j) := by
  cases World.step_cases hs with
  | op o =>
    rcases apply_records hu h with hc | ⟨j, hj, hm⟩
    · exact .inl ⟨o, rfl, hc⟩
    · exact .inr ⟨j, hj, .inl hm⟩
  | dispatch | tick => exact .inr ⟨j', h, .inl .kept⟩
  | call c a call call' s' hc hcs =>
    cases hcs with
    | rejected | waiting | registered | woken | spawned | started | ran | exited | joined | elapsed | received
    | dropped => exact .inr ⟨j', h, .inl .kept⟩
    | acquired b s' hl hr _ hg =>
      simp only [hg] at h
      split at h
      · next hk =>
        obtain ⟨j, hj, rfl⟩ := Option.map_eq_some_iff.1 h
        exact .inr ⟨j, by rw [hk]; exact hj, .inr ⟨c, call, _, acquires_iff.2 ⟨rfl, hc, hl, hr⟩, hk.symm, rfl⟩⟩
      · exact .inr ⟨j', h, .inl .kept⟩
    | finalized r i =>
      simp only [finalizeMutation_get?] at h
      split at h
      · next hk =>
        obtain ⟨j, hj, rfl⟩ := Option.map_eq_some_iff.1 h
        exact .inr ⟨j, by rw [hk.1]; exact hj, .inl (abandonJob_record r j)⟩
      · exact .inr ⟨j', h, .inl .kept⟩

/-! ## What a record has -/

/-- What the parts of a record say of each other. -/
structure Coherent (j : Job) : Prop where
  ended : j.status.isTerminal = true → j.completedAt.isSome = true
  progress : j.progress = 0 ∨ j.progress = 100
  completed : j.status = .completed → j.progress = 100
  failed : j.status = .failed → j.error.isSome = true
  classified : j.errorCode.isSome = true → j.error.isSome = true
  diagnosed : j.exitCode.isSome = true ∨ j.commandStdout.isSome = true ∨ j.commandStderr.isSome = true →
    j.errorCode.isSome = true
  exclusive : j.exclusiveMode = j.rollbackJobId.isSome
  rollback : j.rollbackJobId.isSome = true → j.operation = .rollback

/-- The record of an active job shows nothing of an end. -/
structure Unended (j : Job) : Prop where
  completedAt : j.completedAt = none
  progress : j.progress = 0
  error : j.error = none
  errorCode : j.errorCode = none
  exitCode : j.exitCode = none
  output : j.commandStdout = none ∧ j.commandStderr = none

section Kept

variable {env : Env} {s : SchedulerState} {j j' o : Job}

/-- Logging changes nothing else than the log and the time. -/
theorem foldl_addLog_eq (env : Env) (ls : List String) (j : Job) :
    ∃ logs t, ls.foldl (Job.addLog env) j = { j with logs := logs, updatedAt := t } := by
  induction ls generalizing j with
  | nil => exact ⟨j.logs, j.updatedAt, rfl⟩
  | cons l ls ih =>
    obtain ⟨logs, t, h⟩ := ih (j.addLog env l)
    exact ⟨logs, t, h⟩

theorem failWithDiagnostics_eq (env : Env) (j : Job) (e : AnyhowError) :
    ∃ logs t, j.failWithDiagnostics env e = { j with
      error := some (formatErrorChain e)
      errorCode := some (classifyError e)
      exitCode := extractExitCode e
      commandStdout := extractStdout e
      commandStderr := extractStderr e
      status := .failed
      completedAt := some env.now
      logs := logs
      updatedAt := t } := by
  obtain ⟨logs, t, h⟩ := foldl_addLog_eq env (diagnosticLogLines e) _
  exact ⟨logs, t, h⟩

/-- A Failed record with an error. -/
theorem Coherent.of_failed (hstatus : j.status = .failed) (hended : j.completedAt.isSome = true)
    (herror : j.error.isSome = true) (hprogress : j.progress = 0 ∨ j.progress = 100)
    (hdiagnosed : j.exitCode.isSome = true ∨ j.commandStdout.isSome = true ∨ j.commandStderr.isSome = true →
      j.errorCode.isSome = true)
    (hexclusive : j.exclusiveMode = j.rollbackJobId.isSome)
    (hrollback : j.rollbackJobId.isSome = true → j.operation = .rollback) : Coherent j where
  ended _ := hended
  progress := hprogress
  completed h := by rw [hstatus] at h; cases h
  failed _ := herror
  classified _ := herror
  diagnosed := hdiagnosed
  exclusive := hexclusive
  rollback := hrollback

/-- A record that goes on. -/
theorem Coherent.of_active (hj : Coherent j) {status : JobStatus} (hstatus : status.isActive = true)
    (logs : List String) (message : String) (updatedAt : Nat) :
    Coherent { j with status := status, logs := logs, message := message, updatedAt := updatedAt } := by
  have hterminal : status.isTerminal = false := by rw [JobStatus.isTerminal_eq_not_isActive, hstatus]; rfl
  refine { hj with ended h := ?_, completed h := ?_, failed h := ?_ }
  · rw [hterminal] at h
    cases h
  · rw [show status = .completed from h] at hterminal
    cases hterminal
  · rw [show status = .failed from h] at hterminal
    cases hterminal

theorem RecordMove.coherent (h : RecordMove env j j') (hj : Coherent j) : Coherent j' := by
  cases h with
  | kept => exact hj
  | logged => exact { hj with }
  | completed => exact { hj with ended _ := rfl, progress := .inr rfl, completed _ := rfl, failed h := nomatch h }
  | failed e | cancelled => exact .of_failed rfl rfl rfl hj.progress hj.diagnosed hj.exclusive hj.rollback
  | diagnosed e =>
    obtain ⟨logs, t, he⟩ := failWithDiagnostics_eq env j e
    rw [he]
    exact .of_failed rfl rfl rfl hj.progress (fun _ => rfl) hj.exclusive hj.rollback
  | released error =>
    cases error with
    | some e => exact .of_failed rfl rfl rfl hj.progress hj.diagnosed hj.exclusive hj.rollback
    | none => exact { hj with ended _ := rfl, completed h := (nomatch h), failed h := nomatch h }
  | rebooting | begun => exact hj.of_active rfl _ _ _
  | abandoned result =>
    cases result <;> exact .of_failed rfl rfl rfl hj.progress hj.diagnosed hj.exclusive hj.rollback

theorem startJob_coherent (alreadyRunning : Bool) (hj : Coherent j) : Coherent (startJob env alreadyRunning j) := by
  cases alreadyRunning with
  | true => exact { hj with }
  | false => exact hj.of_active rfl _ _ _

/-- A new record, and one that it is the same as but for what it says of a rollback. -/
theorem new_coherent (env : Env) (id : Uuid) (op : JobOperation) (ps : List String) : Coherent (Job.new env id op ps) where
  ended h := nomatch h
  progress := .inl rfl
  completed h := nomatch h
  failed h := nomatch h
  classified h := nomatch h
  diagnosed h := by rcases h with h | h | h <;> cases h
  exclusive := rfl
  rollback h := nomatch h

theorem Creates.coherent {op : SchedOp} {k : Uuid} (h : Creates env s op k j') : Coherent j' ∧ Unended j' := by
  cases h with
  | admitted _ op ps => exact ⟨new_coherent env k op ps, rfl, rfl, rfl, rfl, rfl, rfl, rfl⟩
  | updating _ ps => exact ⟨new_coherent env k .selfUpdate ps, rfl, rfl, rfl, rfl, rfl, rfl, rfl⟩
  | rebooting => exact ⟨new_coherent env k .reboot [], rfl, rfl, rfl, rfl, rfl, rfl, rfl⟩
  | rolledBack _ original i =>
    have hnew := new_coherent env k .rollback i.packages
    exact ⟨{ hnew with exclusive := rfl, rollback _ := rfl }, rfl, rfl, rfl, rfl, rfl, rfl, rfl⟩

/-- A move leaves an active job active only if it was, and then all that shows an end as it is. -/
theorem RecordMove.unended (h : RecordMove env j j') (hj : j.status.isActive = true → Unended j)
    (ha : j'.status.isActive = true) : Unended j' := by
  cases h with
  | kept => exact hj ha
  | logged =>
    obtain ⟨h₁, h₂, h₃, h₄, h₅, h₆⟩ := hj ha
    exact ⟨h₁, h₂, h₃, h₄, h₅, h₆⟩
  | completed | failed | cancelled => cases ha
  | diagnosed e =>
    rw [Job.failWithDiagnostics_status] at ha
    cases ha
  | released error => cases error <;> cases ha
  | rebooting message hs =>
    obtain ⟨h₁, h₂, h₃, h₄, h₅, h₆⟩ := hj (by rw [hs]; rfl)
    exact ⟨h₁, h₂, h₃, h₄, h₅, h₆⟩
  | begun hs =>
    obtain ⟨h₁, h₂, h₃, h₄, h₅, h₆⟩ := hj (by rw [hs]; rfl)
    exact ⟨h₁, h₂, h₃, h₄, h₅, h₆⟩
  | abandoned result => cases result <;> cases ha

/-- So does a start of a job that is active. -/
theorem startJob_unended {alreadyRunning : Bool} (hj : Unended j) : Unended (startJob env alreadyRunning j) := by
  obtain ⟨h₁, h₂, h₃, h₄, h₅, h₆⟩ := hj
  cases alreadyRunning <;> exact ⟨h₁, h₂, h₃, h₄, h₅, h₆⟩

/-- The record that a new process has of an orphan, unless it is one of a failure. -/
theorem recovered_coherent {status : JobStatus} {progress : UInt8} {message : String} {logs : List String}
    {r : Option Uuid} {x : Bool} (hprogress : progress = 0 ∨ progress = 100)
    (hcompleted : status = .completed → progress = 100) (hfailed : status ≠ .failed) (hexclusive : x = r.isSome)
    (hrollback : r.isSome = true → o.operation = .rollback) :
    Coherent { recoveredJob env o status progress message logs with rollbackJobId := r, exclusiveMode := x } where
  ended _ := rfl
  progress := hprogress
  completed := hcompleted
  failed h := absurd h hfailed
  classified h := nomatch h
  diagnosed h := by rcases h with h | h | h <;> cases h
  exclusive := hexclusive
  rollback := hrollback

/-- What a new process makes of a record is coherent if the record was. -/
theorem resolve_coherent (ho : Coherent o) : Coherent (resolve env o) := by
  unfold resolve
  split
  · exact ho
  unfold recoverOrphan
  split
  · exact recovered_coherent (.inr rfl) (fun _ => rfl) JobStatus.noConfusion rfl fun h => nomatch h
  split
  · exact recovered_coherent (.inr rfl) (fun _ => rfl) JobStatus.noConfusion ho.exclusive ho.rollback
  split
  · exact recovered_coherent (.inl rfl) (fun h => nomatch h) JobStatus.noConfusion rfl fun h => nomatch h
  have hnone : ∀ {a b c : Bool}, a = false → b = false → c = false →
      ∀ {p : Prop}, (a = true ∨ b = true ∨ c = true) → p := by
    rintro _ _ _ rfl rfl rfl _ (h | h | h) <;> cases h
  split <;> exact .of_failed rfl rfl rfl (.inl rfl) (hnone rfl rfl rfl) rfl fun h => nomatch h

end Kept

end LinuxPatchApi.Jobs
