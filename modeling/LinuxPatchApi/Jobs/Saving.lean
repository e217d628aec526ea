/-
Which critical sections are followed by `persist_jobs`, and what the others do to the statuses that the
history shows: only the last section of a watchdog and `update_job` change the status of a job without a
call of `persist_jobs` after them.
-/
import LinuxPatchApi.Jobs.Terminal
import LinuxPatchApi.Jobs.Persistence

namespace LinuxPatchApi.Jobs

open LinuxPatchApi.Packages Transition SchedulerState

/-! ## Who persists -/

/-- The operation calls `persist_jobs` once it has released the lock. -/
def SchedOp.persists (env : Env) (s : SchedulerState) : SchedOp → Bool
  | reserveReboot id force ack => (s.reserveReboot env id force ack).2.isOk
  | rollbackReboot id error => (s.rollbackReboot env id error).2
  | beginRebootExecution id => (s.beginRebootExecution env id).2
  | setJobRebooting id message => (s.setJobRebooting env id message).2.isOk
  | completeJob _ | failJob .. | failJobWithDiagnostics .. => true
  | deleteJob id => (s.deleteJob id).2
  | _ => false

/-- The call of `persist_jobs` that follows a step, with its owner: an acquired slot is persisted by the
caller of `dispatch_mutation`. -/
def persistAfter (w : World) : Act → Option (Option Nat)
  | .op o => if o.persists w.env w.sched then some none else none
  | .call c .check => match w.calls[c]? with
    | some call => match (w.sched.dispatchCheck w.env call.jobId).2 with
      | .acquired _ _ => some (some c)
      | _ => none
    | none => none
  | _ => none

/-- The step changes the status of a job that the history may hold, and nobody persists it: the watchdog
fails the job of a caller that is gone, or `update_job` sets another status. -/
def changesUnsaved (w : World) : Act → Bool
  | .call c .finalize => match w.calls[c]? with
    | some call => decide (call.caller ≠ .awaiting) && w.sched.stillOwns call.jobId call.generation &&
        (w.sched.jobs.get? call.jobId).any fun j => j.isRetainable && (j.status == .running || j.status == .pending)
    | none => false
  | .op (.updateJob id status _ _) =>
    updateAllowed w.sched id status && (w.sched.jobs.get? id).any fun j => j.isRetainable && j.status != status
  | _ => false

/-! ## Jobs under their ids -/

/-- Every job is in the map under its own id. -/
def Keyed (s : SchedulerState) : Prop := ∀ k j, s.jobs.get? k = some j → j.id = k

section Keyed

variable {env : Env} {s s' : SchedulerState}

theorem Keyed.of_jobs (h : Keyed s) (hj : s'.jobs = s.jobs) : Keyed s' := by
  unfold Keyed
  rw [hj]
  exact h

/-- One job is put in under its id or changed. -/
theorem Keyed.of_update (h : Keyed s) {id : Uuid} {o : Option Job}
    (hg : ∀ k, s'.jobs.get? k = if k = id then o else s.jobs.get? k) (ho : ∀ j, o = some j → j.id = id) : Keyed s' := by
  intro k j hj
  rw [hg] at hj
  split at hj
  · next hk => rw [hk]; exact ho j hj
  · exact h k j hj

theorem Keyed.of_map (h : Keyed s) {id : Uuid} {f : Job → Job}
    (hg : ∀ k, s'.jobs.get? k = if k = id then (s.jobs.get? id).map f else s.jobs.get? k)
    (hf : ∀ j, (f j).id = j.id) : Keyed s' := by
  refine h.of_update hg fun j hj => ?_
  obtain ⟨j₀, hj₀, rfl⟩ := Option.map_eq_some_iff.1 hj
  rw [hf]
  exact h id j₀ hj₀

theorem rollbackJobState_id (e : Option String) (j : Job) : (rollbackJobState env e j).id = j.id := by
  cases e <;> rfl

theorem afterReboot_id (j : Job) : (afterReboot env j).id = j.id := by
  unfold afterReboot
  split <;> rfl

theorem failWithDiagnostics_id (e : AnyhowError) (j : Job) : (j.failWithDiagnostics env e).id = j.id := by
  have hfold : ∀ (ls : List String) (j : Job), (ls.foldl (Job.addLog env) j).id = j.id := by
    intro ls
    induction ls with
    | nil => exact fun _ => rfl
    | cons l ls ih => exact fun j => ih (j.addLog env l)
  exact hfold _ _

theorem startJob_id (r : Bool) (j : Job) : (startJob env r j).id = j.id := by
  cases r <;> rfl

theorem abandonJob_id (r : MutationResult) (j : Job) : (abandonJob env r j).id = j.id := by
  unfold abandonJob
  split
  · cases r <;> rfl
  · rfl

theorem apply_keyed (o : SchedOp) (h : Keyed s) : Keyed (o.apply env s) := by
  cases o with
  | admitJob id op ps =>
    simp only [SchedOp.apply]
    rcases s.admitJob_spec env id op ps with ⟨e, he⟩ | ⟨_, _, _, _, he⟩ <;> rw [he]
    · exact h
    · exact h.of_update (fun k => insertNewJob_get? env s id k op ps) fun j hj => by cases hj; rfl
  | createRollbackJob id orig =>
    simp only [SchedOp.apply]
    rcases s.createRollbackJob_spec env id orig with ⟨r, he, _⟩ | ⟨j, _, _, _, _, _, _, _, _, hg⟩
    · rw [he]; exact h
    · exact h.of_update hg fun j hj => by cases hj; rfl
  | tryReserveSelfUpdate id ps v w =>
    simp only [SchedOp.apply]
    rcases s.tryReserveSelfUpdate_spec env id ps v w with ⟨e, he⟩ | ⟨_, _, _, _, _, _, _, hg⟩
    · rw [he]; exact h
    · exact h.of_update hg fun j hj => by cases hj; rfl
  | releaseSelfUpdate id =>
    simp only [SchedOp.apply]
    rcases s.releaseSelfUpdate_spec id with ⟨_, he⟩ | ⟨_, _, _, he⟩ <;> rw [he]
    · exact h
    · exact h.of_jobs rfl
  | rollbackSelfUpdate id => exact h.of_update (s.rollbackSelfUpdate_get? id) fun j hj => by cases hj
  | reserveReboot id force ack =>
    simp only [SchedOp.apply]
    rcases s.reserveReboot_spec env id force ack with ⟨_, e, he⟩ | ⟨_, _, _, hg⟩
    · rw [he]; exact h
    · intro k j hj
      rw [hg] at hj
      split at hj
      · next hk => cases hj; exact hk.symm
      · obtain ⟨j₀, hj₀, rfl⟩ := Option.map_eq_some_iff.1 hj
        rw [afterReboot_id]
        exact h k j₀ hj₀
  | rollbackReboot id error =>
    simp only [SchedOp.apply]
    rcases s.rollbackReboot_spec env id error with ⟨_, he⟩ | ⟨_, _, _, hg⟩
    · rw [he]; exact h
    · exact h.of_map hg (rollbackJobState_id error)
  | beginRebootExecution id =>
    simp only [SchedOp.apply, beginRebootExecution]
    repeat' split
    all_goals try exact h
    exact h.of_map (fun k => mutateJob_get? env s id k _) fun _ => rfl
  | setJobRebooting id m =>
    simp only [SchedOp.apply]
    rcases s.setJobRebooting_spec env id m with ⟨_, e, he⟩ | ⟨j, hj, _, _, _, hg⟩
    · rw [he]; exact h
    · exact h.of_update hg fun j' hj' => by cases hj'; exact h id j hj
  | updateJob id st p m =>
    simp only [SchedOp.apply]
    rcases s.updateJob_spec env id st p m with ⟨e, he⟩ | ⟨_, _, hg⟩
    · rw [he]; exact h
    · exact h.of_map hg fun _ => rfl
  | addJobLog id m => exact h.of_map (fun k => s.addJobLog_get? env id k m) fun _ => rfl
  | completeJob id => exact h.of_map (fun k => s.completeJob_get? env id k) fun _ => rfl
  | failJob id e => exact h.of_map (fun k => s.failJob_get? env id k e) fun _ => rfl
  | failJobWithDiagnostics id e =>
    exact h.of_map (fun k => s.failJobWithDiagnostics_get? env id k e) (failWithDiagnostics_id e)
  | deleteJob id =>
    simp only [SchedOp.apply]
    rcases s.deleteJob_spec id with he | ⟨_, _, _, he⟩ <;> rw [he]
    · exact h
    · exact h.of_update (fun k => FinMap.get?_erase s.jobs id k) fun j hj => by cases hj
  | freezeAdmission | notifyWaiters => exact h.of_jobs rfl

theorem keyed_step {f : Fired World Act} (hf : IsStep agent f) (h : Keyed f.pre.sched) : Keyed f.post.sched := by
  obtain ⟨w, a, w'⟩ := f
  have hs : WorldStep w a w' := agent_step hf
  cases hs with
  | op o _ => exact apply_keyed o h
  | dispatch | tick => exact h
  | call c a call call' s' _ hcs =>
    cases hcs with
    | acquired b s' _ _ _ hg => exact h.of_map hg (startJob_id _)
    | finalized r i _ =>
      intro k j hj
      simp only [finalizeMutation_get?] at hj
      split at hj
      · next hk =>
        obtain ⟨j₀, hj₀, rfl⟩ := Option.map_eq_some_iff.1 hj
        rw [abandonJob_id, hk.1]
        exact h _ j₀ hj₀
      · exact h k j hj
    | _ => exact h.of_jobs rfl

end Keyed

/-! ## Statuses -/

section Statuses

variable {env : Env} {s : SchedulerState} {k : Uuid} {j' : Job}

/-- What an operation without `persist_jobs` leaves under every id. -/
theorem apply_status {o : SchedOp} (hp : o.persists env s = false) (hu : o.isUpdateJob = false)
    (h : (o.apply env s).jobs.get? k = some j') :
    o.newId = some k ∨ ∃ j, s.jobs.get? k = some j ∧ j'.status = j.status := by
  have same : s.jobs.get? k = some j' → o.newId = some k ∨ ∃ j, s.jobs.get? k = some j ∧ j'.status = j.status :=
    fun h => .inr ⟨j', h, rfl⟩
  cases o with
  | admitJob id op ps =>
    simp only [SchedOp.apply] at h
    rcases s.admitJob_spec env id op ps with ⟨e, he⟩ | ⟨_, _, _, _, he⟩
    · rw [he] at h; exact same h
    · rw [he, notifyOne_jobs, insertNewJob_get?] at h
      split at h
      · next hk => exact .inl (by rw [hk]; rfl)
      · exact same h
  | createRollbackJob id orig =>
    simp only [SchedOp.apply] at h
    rcases s.createRollbackJob_spec env id orig with ⟨r, he, _⟩ | ⟨_, _, _, _, _, _, _, _, _, hg⟩
    · rw [he] at h; exact same h
    · rw [hg] at h
      split at h
      · next hk => exact .inl (by rw [hk]; rfl)
      · exact same h
  | tryReserveSelfUpdate id ps v w =>
    simp only [SchedOp.apply] at h
    rcases s.tryReserveSelfUpdate_spec env id ps v w with ⟨e, he⟩ | ⟨_, _, _, _, _, _, _, hg⟩
    · rw [he] at h; exact same h
    · rw [hg] at h
      split at h
      · next hk => exact .inl (by rw [hk]; rfl)
      · exact same h
  | releaseSelfUpdate id =>
    simp only [SchedOp.apply] at h
    rcases s.releaseSelfUpdate_spec id with ⟨_, he⟩ | ⟨_, _, _, he⟩ <;> rw [he] at h <;> exact same h
  | rollbackSelfUpdate id =>
    simp only [SchedOp.apply] at h
    rw [rollbackSelfUpdate_get?] at h
    split at h
    · cases h
    · exact same h
  | addJobLog id m =>
    simp only [SchedOp.apply, addJobLog_get?] at h
    split at h
    · next hk =>
      obtain ⟨j, hj, rfl⟩ := Option.map_eq_some_iff.1 h
      exact .inr ⟨j, by rw [hk]; exact hj, rfl⟩
    · exact same h
  | freezeAdmission | notifyWaiters => exact same h
  | updateJob => cases hu
  | completeJob | failJob | failJobWithDiagnostics => cases hp
  | reserveReboot id force ack =>
    simp only [SchedOp.apply] at h
    rcases s.reserveReboot_spec env id force ack with ⟨_, e, he⟩ | ⟨_, hok, _⟩
    · rw [he] at h; exact same h
    · rw [SchedOp.persists, hok] at hp; cases hp
  | rollbackReboot id error =>
    simp only [SchedOp.apply] at h
    rcases s.rollbackReboot_spec env id error with ⟨_, he⟩ | ⟨_, hok, _⟩
    · rw [he] at h; exact same h
    · rw [SchedOp.persists, hok] at hp; cases hp
  | beginRebootExecution id =>
    simp only [SchedOp.apply] at h
    rcases s.beginRebootExecution_spec env id with he | ⟨_, _, _, _, hok, _⟩
    · rw [he] at h; exact same h
    · rw [SchedOp.persists, hok] at hp; cases hp
  | setJobRebooting id m =>
    simp only [SchedOp.apply] at h
    rcases s.setJobRebooting_spec env id m with ⟨_, e, he⟩ | ⟨_, _, _, hok, _⟩
    · rw [he] at h; exact same h
    · rw [SchedOp.persists, hok] at hp; cases hp
  | deleteJob id =>
    simp only [SchedOp.apply] at h
    rcases s.deleteJob_spec id with he | ⟨_, _, _, he⟩
    · rw [he] at h; exact same h
    · rw [SchedOp.persists, he] at hp; cases hp

/-- A status changes in a step that is followed by `persist_jobs`, or in one that leaves it unsaved if the
history may hold the job. -/
def Accounted (w : World) (a : Act) (j j' : Job) : Prop :=
  j'.status = j.status ∨ (persistAfter w a).isSome = true ∨ (j.isRetainable = true → changesUnsaved w a = true)

theorem step_status {f : Fired World Act} (hf : IsStep agent f)
    (h : f.post.sched.jobs.get? k = some j') :
    (k ∉ f.pre.issued ∧ k ∈ f.post.issued) ∨ ∃ j, f.pre.sched.jobs.get? k = some j ∧ j'.packages = j.packages ∧
      Accounted f.pre f.act j j' := by
  obtain ⟨w, a, w'⟩ := f
  have hs : WorldStep w a w' := agent_step hf
  have same : w.sched.jobs.get? k = some j' → (k ∉ w.issued ∧ k ∈ w'.issued) ∨
      ∃ j, w.sched.jobs.get? k = some j ∧ j'.packages = j.packages ∧ Accounted w a j j' :=
    fun h => .inr ⟨j', h, rfl, .inl rfl⟩
  cases hs with
  | dispatch | tick => exact same h
  | op o hid =>
    cases hu : o.isUpdateJob with
    | false =>
      rcases apply_get? hu h with ⟨hk, _⟩ | ⟨j, hj, hm⟩
      · exact .inl ⟨hid k hk, by simp [hk]⟩
      · cases hp : o.persists w.env w.sched with
        | true => exact .inr ⟨j, hj, hm.packages, .inr (.inl (by simp [persistAfter, hp]))⟩
        -- without a call of `persist_jobs` the operation leaves every status
        | false =>
          rcases apply_status hp hu h with hk | ⟨j₁, hj₁, hst⟩
          · exact .inl ⟨hid k hk, by simp [hk]⟩
          · rw [hj] at hj₁
            cases hj₁
            exact .inr ⟨j, hj, hm.packages, .inl hst⟩
    | true =>
      cases o with
      | updateJob id st p m =>
        simp only [SchedOp.apply, updateJob] at h
        split at h
        · exact same h
        · next hall =>
          rw [mutateJob_get?] at h
          split at h
          · next hk =>
            obtain ⟨j, hj, rfl⟩ := Option.map_eq_some_iff.1 h
            refine .inr ⟨j, by rw [hk]; exact hj, rfl, ?_⟩
            -- `update_job` saves nothing, so that a status it changes is unsaved
            by_cases hst : j.status = st
            · exact .inl hst.symm
            · exact .inr (.inr fun hr => by simp [changesUnsaved, updateAllowed_iff.2 hall, hj, hr, hst])
          · exact same h
      | _ => cases hu
  | call c a call call' s' hc hcs =>
    cases hcs with
    | acquired b s' hl hr _ hg =>
      simp only at h
      rw [hg] at h
      split at h
      · next hk =>
        obtain ⟨j, hj, rfl⟩ := Option.map_eq_some_iff.1 h
        refine .inr ⟨j, by rw [hk]; exact hj, by cases w.sched.jobAlreadyRunning call.jobId <;> rfl, .inr (.inl ?_)⟩
        rcases w.sched.dispatchCheck_spec w.env call.jobId with ⟨hn, _⟩ | ⟨_, b, hb, _⟩
        · exact absurd hr hn
        · simp [persistAfter, hc, hb]
      · exact same h
    | finalized r i hw =>
      simp only [finalizeMutation_get?] at h
      split at h
      · next hk =>
        obtain ⟨hk, halive, howns⟩ := hk
        obtain ⟨j, hj, rfl⟩ := Option.map_eq_some_iff.1 h
        refine .inr ⟨j, by rw [hk]; exact hj, (abandonJob_move r j).packages, ?_⟩
        -- the watchdog fails the job of a caller that is gone, and saves nothing either
        by_cases hst : j.status = .running ∨ j.status = .pending
        · refine .inr (.inr fun hr => ?_)
          simp only [decide_eq_false_iff_not] at halive
          simpa [changesUnsaved, hc, halive, howns, hj, hr] using hst
        · exact .inl (by rw [abandonJob, if_neg hst])
      · exact same h
    | _ => exact same h

end Statuses

end LinuxPatchApi.Jobs
