/-
What each critical section of the scheduler changes: one specification per operation, saying when
it is rejected (the state is then the old one), which control fields a granted operation sets
(`Frame` for all others), and the job under every id afterwards.
-/
import LinuxPatchApi.Jobs.Scheduler

namespace LinuxPatchApi.Jobs

open LinuxPatchApi.Packages

/-- Two states that differ at most in their jobs, events and waiters. -/
structure Frame (s s' : SchedulerState) : Prop where
  admission : s'.admission = s.admission
  activeMutation : s'.activeMutation = s.activeMutation
  mutationGeneration : s'.mutationGeneration = s.mutationGeneration
  selfUpdate : s'.selfUpdate = s.selfUpdate
  rebootPending : s'.rebootPending = s.rebootPending
  maxConcurrent : s'.maxConcurrent = s.maxConcurrent
  maxQueueDepth : s'.maxQueueDepth = s.maxQueueDepth

theorem Frame.refl (s : SchedulerState) : Frame s s := ⟨rfl, rfl, rfl, rfl, rfl, rfl, rfl⟩

theorem Frame.trans {s t u : SchedulerState} (h : Frame s t) (h' : Frame t u) : Frame s u :=
  ⟨h'.1.trans h.1, h'.2.trans h.2, h'.3.trans h.3, h'.4.trans h.4, h'.5.trans h.5, h'.6.trans h.6,
    h'.7.trans h.7⟩

namespace SchedulerState

variable (env : Env) (s : SchedulerState)

/-! ## Helpers -/

theorem notifyOne_frame : Frame s s.notifyOne := ⟨rfl, rfl, rfl, rfl, rfl, rfl, rfl⟩

@[simp] theorem notifyOne_jobs : s.notifyOne.jobs = s.jobs := rfl

@[simp] theorem notifyOne_rebootPending : s.notifyOne.rebootPending = s.rebootPending := rfl

theorem mutateJob_frame (id : Uuid) (f : Job → Job) : Frame s (s.mutateJob env id f) := by
  unfold mutateJob
  split
  · exact Frame.refl s
  · exact ⟨rfl, rfl, rfl, rfl, rfl, rfl, rfl⟩

theorem mutateJob_get? (id k : Uuid) (f : Job → Job) :
    (s.mutateJob env id f).jobs.get? k = if k = id then (s.jobs.get? id).map f else s.jobs.get? k := by
  unfold mutateJob
  split
  · next h =>
    split
    · next hk => rw [hk, h]; rfl
    · rfl
  · next j h =>
    rw [h]
    exact FinMap.get?_insert s.jobs id k (f j)

theorem insertNewJob_frame (id : Uuid) (op : JobOperation) (ps : List String) :
    Frame s (s.insertNewJob env id op ps) := ⟨rfl, rfl, rfl, rfl, rfl, rfl, rfl⟩

theorem insertNewJob_get? (id k : Uuid) (op : JobOperation) (ps : List String) :
    (s.insertNewJob env id op ps).jobs.get? k =
      if k = id then some (Job.new env id op ps) else s.jobs.get? k :=
  FinMap.get?_insert s.jobs id k _

/-! ## Admission -/

/-- A granted admission puts one new Pending job into the map. -/
theorem admitJobInner_spec (id : Uuid) (op : JobOperation) (ps : List String) :
    (∃ e, s.admitJobInner env id op ps = (s, .error e)) ∨
    (s.admission = .open ∧ s.selfUpdate = none ∧ s.rebootPending = none ∧
      s.activeUserJobs < s.maxQueueDepth ∧
      s.admitJobInner env id op ps = (s.insertNewJob env id op ps, .ok id)) := by
  unfold admitJobInner
  split
  · exact .inl ⟨_, rfl⟩
  next ha =>
  split
  · exact .inl ⟨_, rfl⟩
  next hu =>
  split
  · exact .inl ⟨_, rfl⟩
  next hr =>
  split
  · exact .inl ⟨_, rfl⟩
  next hq =>
  exact .inr ⟨not_not.1 ha, by simpa using hu, by simpa using hr, by omega, rfl⟩

theorem admitJob_spec (id : Uuid) (op : JobOperation) (ps : List String) :
    (∃ e, s.admitJob env id op ps = (s, .error e)) ∨
    (s.admission = .open ∧ s.selfUpdate = none ∧ s.rebootPending = none ∧
      s.activeUserJobs < s.maxQueueDepth ∧
      s.admitJob env id op ps = ((s.insertNewJob env id op ps).notifyOne, .ok id)) := by
  unfold admitJob
  rcases s.admitJobInner_spec env id op ps with ⟨e, h⟩ | ⟨ha, hu, hr, hq, h⟩
  · rw [h]; exact .inl ⟨e, rfl⟩
  · rw [h]; exact .inr ⟨ha, hu, hr, hq, rfl⟩

/-- A granted rollback request is a granted admission of a copy of the original's packages. -/
theorem createRollbackJob_spec (id orig : Uuid) :
    (∃ r, (s.createRollbackJob env id orig) = (s, r) ∧ ∀ i, r ≠ .ok (some i)) ∨
    (∃ j, s.jobs.get? orig = some j ∧ (j.status = .failed ∨ j.status = .completed) ∧
      s.admission = .open ∧ s.selfUpdate = none ∧ s.rebootPending = none ∧
      s.activeUserJobs < s.maxQueueDepth ∧
      (s.createRollbackJob env id orig).2 = .ok (some id) ∧
      Frame s (s.createRollbackJob env id orig).1 ∧
      ∀ k, (s.createRollbackJob env id orig).1.jobs.get? k =
        if k = id then some { Job.new env id .rollback j.packages with
          exclusiveMode := true, rollbackJobId := some orig }
        else s.jobs.get? k) := by
  unfold createRollbackJob
  split
  · exact .inl ⟨_, rfl, by simp⟩
  next j hj =>
  split
  · next hst =>
    rcases s.admitJobInner_spec env id .rollback j.packages with ⟨e, h⟩ | ⟨ha, hu, hr, hq, h⟩
    · rw [h]; exact .inl ⟨_, rfl, by simp⟩
    · rw [h]
      refine .inr ⟨j, hj, hst, ha, hu, hr, hq, rfl, ⟨rfl, rfl, rfl, rfl, rfl, rfl, rfl⟩, fun k => ?_⟩
      show FinMap.get? (FinMap.modify _ id _) k = _
      rw [FinMap.get?_modify, insertNewJob_get?, insertNewJob_get?]
      by_cases hk : k = id <;> simp [hk]
  · exact .inl ⟨_, rfl, by simp⟩

/-! ## Self-update -/

theorem tryReserveSelfUpdate_spec (id : Uuid) (ps : List String) (v w : String) :
    (∃ e, s.tryReserveSelfUpdate env id ps v w = (s, .error e)) ∨
    (s.admission = .open ∧ s.selfUpdate = none ∧ s.rebootPending = none ∧
      (∀ mid, s.activeMutation = some mid → s.heldByInternal mid = true) ∧ s.activeUserJobs = 0 ∧
      (s.tryReserveSelfUpdate env id ps v w).2 = .ok id ∧
      Frame { s with selfUpdate := some ⟨id, v, w, s.generationCounter⟩ }
        (s.tryReserveSelfUpdate env id ps v w).1 ∧
      ∀ k, (s.tryReserveSelfUpdate env id ps v w).1.jobs.get? k =
        if k = id then some (Job.new env id .selfUpdate ps) else s.jobs.get? k) := by
  unfold tryReserveSelfUpdate
  split
  · exact .inl ⟨_, rfl⟩
  next ha =>
  split
  · exact .inl ⟨_, rfl⟩
  next hu =>
  split
  · exact .inl ⟨_, rfl⟩
  next hr =>
  split
  · exact .inl ⟨_, rfl⟩
  next hm =>
  split
  · exact .inl ⟨_, rfl⟩
  next hj =>
  split
  · exact .inl ⟨_, rfl⟩
  refine .inr ⟨not_not.1 ha, by simpa using hu, by simpa using hr, ?_, by omega, rfl,
    ⟨rfl, rfl, rfl, rfl, rfl, rfl, rfl⟩, fun k => insertNewJob_get? env _ id k _ _⟩
  intro mid hmid
  simpa [hmid] using hm

theorem releaseSelfUpdate_spec (id : Uuid) :
    ((∀ su, s.selfUpdate = some su → su.jobId ≠ id) ∧ s.releaseSelfUpdate id = (s, false)) ∨
    (∃ su, s.selfUpdate = some su ∧ su.jobId = id ∧
      s.releaseSelfUpdate id = ({ s with selfUpdate := none }.notifyOne, true)) := by
  unfold releaseSelfUpdate
  split
  · next hsu => exact .inl ⟨fun su h => (by rw [hsu] at h; cases h), rfl⟩
  next su hsu =>
  split
  · next h => exact .inr ⟨su, hsu, h, rfl⟩
  · next h => exact .inl ⟨fun su' hs => (by rw [hsu] at hs; cases hs; exact h), rfl⟩

theorem rollbackSelfUpdate_frame (id : Uuid) :
    Frame { s with selfUpdate := (s.rollbackSelfUpdate id).selfUpdate } (s.rollbackSelfUpdate id) := by
  unfold rollbackSelfUpdate
  cases s.selfUpdate with
  | none => exact ⟨rfl, rfl, rfl, rfl, rfl, rfl, rfl⟩
  | some su => by_cases h : su.jobId = id <;> simp only [h, if_true, if_false] <;>
      exact ⟨rfl, rfl, rfl, rfl, rfl, rfl, rfl⟩

/-- The guard's roll-back clears the reservation only when its own job holds it. -/
theorem rollbackSelfUpdate_selfUpdate (id : Uuid) :
    (s.rollbackSelfUpdate id).selfUpdate = none ∨
      (s.rollbackSelfUpdate id).selfUpdate = s.selfUpdate ∧ ∀ su, s.selfUpdate = some su → su.jobId ≠ id := by
  unfold rollbackSelfUpdate
  cases hsu : s.selfUpdate with
  | none => exact .inl hsu
  | some su =>
    by_cases h : su.jobId = id
    · simp only [h, if_true]; exact .inl rfl
    · simp only [h, if_false]
      exact .inr ⟨hsu, fun su' hs => by cases hs; exact h⟩

theorem rollbackSelfUpdate_get? (id k : Uuid) :
    (s.rollbackSelfUpdate id).jobs.get? k = if k = id then none else s.jobs.get? k := by
  rw [← FinMap.get?_erase]
  unfold rollbackSelfUpdate
  cases s.selfUpdate with
  | none => rfl
  | some su => by_cases h : su.jobId = id <;> simp [h]

/-! ## Reboot -/

theorem cancelAll_frame : ∀ (ids : List Uuid) (s : SchedulerState), Frame s (s.cancelAll env ids)
  | [], s => Frame.refl s
  | id :: ids, s => (s.mutateJob_frame env id _).trans (cancelAll_frame ids _)

theorem cancelAll_get? (k : Uuid) : ∀ (ids : List Uuid) (s : SchedulerState), ids.Nodup →
    (s.cancelAll env ids).jobs.get? k =
      if k ∈ ids then (s.jobs.get? k).map (cancelForReboot env) else s.jobs.get? k
  | [], s, _ => by simp [cancelAll]
  | id :: ids, s, hn => by
    obtain ⟨hid, hn⟩ := List.nodup_cons.1 hn
    show ((s.mutateJob env id _).cancelAll env ids).jobs.get? k = _
    rw [cancelAll_get? k ids _ hn, mutateJob_get?]
    by_cases hk : k = id
    · subst hk; simp [hid]
    · simp [hk]

theorem pendingExcept_nodup (id : Uuid) : (s.pendingExcept id).Nodup :=
  s.jobs.keys_nodup.sublist (List.filter_sublist.map _)

theorem mem_pendingExcept {id k : Uuid} :
    k ∈ s.pendingExcept id ↔ k ≠ id ∧ ∃ j, s.jobs.get? k = some j ∧ j.status = .pending := by
  unfold pendingExcept FinMap.get?
  simp only [List.mem_map, List.mem_filter, Bool.and_eq_true, decide_eq_true_eq, beq_iff_eq]
  constructor
  · rintro ⟨⟨k, j⟩, ⟨hm, hne, hp⟩, rfl⟩
    exact ⟨hne, j, AList.mem_lookup_iff.2 hm, hp⟩
  · rintro ⟨hne, j, hm, hp⟩
    exact ⟨⟨k, j⟩, ⟨AList.mem_lookup_iff.1 hm, hne, hp⟩, rfl⟩

/-- The job that a granted reservation leaves in the place of another job. -/
def afterReboot (env : Env) (j : Job) : Job := if j.status = .pending then cancelForReboot env j else j

/-- The three tiers of a granted reservation. -/
structure RebootAdmitted (s : SchedulerState) (force ack : Bool) : Prop where
  admission : s.admission = .open
  unreserved : s.rebootPending = none
  unforced : force = false → s.selfUpdate = none ∧ s.activeUserJobs = 0
  unacknowledged : force = true → ack = false → s.selfUpdate = none ∧ s.activeMutation = none
  capacity : s.activeUserJobs < s.maxQueueDepth

/-- A reservation is granted exactly under the conditions of its tier. -/
theorem reserveReboot_spec (id : Uuid) (force ack : Bool) :
    (¬ RebootAdmitted s force ack ∧ ∃ e, s.reserveReboot env id force ack = (s, .error e)) ∨
    (RebootAdmitted s force ack ∧ (s.reserveReboot env id force ack).2 = .ok id ∧
      Frame { s with rebootPending := some id } (s.reserveReboot env id force ack).1 ∧
      ∀ k, (s.reserveReboot env id force ack).1.jobs.get? k =
        if k = id then some (Job.new env id .reboot [])
        else (s.jobs.get? k).map (afterReboot env)) := by
  unfold reserveReboot
  simp only
  split
  · next h => exact .inl ⟨fun hr => h hr.admission, _, rfl⟩
  next ha =>
  split
  · next h => exact .inl ⟨fun hr => (by rw [hr.unreserved] at h; cases h), _, rfl⟩
  next hr =>
  split
  · next h =>
    simp only [Bool.and_eq_true, Bool.not_eq_true'] at h
    exact .inl ⟨fun hr => (by rw [(hr.unforced h.1).1] at h; cases h.2), _, rfl⟩
  next hu =>
  split
  · next h =>
    simp only [Bool.and_eq_true, Bool.not_eq_true', decide_eq_true_eq] at h
    exact .inl ⟨fun hr => by have := (hr.unforced h.1).2; omega, _, rfl⟩
  next hj =>
  split
  · next h =>
    simp only [Bool.and_eq_true, Bool.not_eq_true'] at h
    refine .inl ⟨fun hr => ?_, _, rfl⟩
    obtain ⟨h₁, h₂⟩ := hr.unacknowledged h.1.1 h.1.2
    rw [h₁, h₂] at h; cases h.2
  next hm =>
  split
  · next h => exact .inl ⟨fun hr => by have := hr.capacity; omega, _, rfl⟩
  next hq =>
  refine .inr ⟨⟨not_not.1 ha, by simpa using hr, fun hf => ?_, fun hf hk => ?_, by omega⟩, rfl, ?_, ?_⟩
  · subst hf
    simp only [Bool.not_false, Bool.true_and, Option.isSome_iff_ne_none, ne_eq, not_not] at hu
    simp only [Bool.not_false, Bool.true_and, decide_eq_true_eq] at hj
    exact ⟨by simpa using hu, by omega⟩
  · subst hf hk
    simpa using hm
  · exact (Frame.trans (insertNewJob_frame env _ id .reboot []) (cancelAll_frame env _ _)).trans
      (notifyOne_frame _)
  · intro k
    rw [notifyOne_jobs, cancelAll_get? env k _ _ (pendingExcept_nodup _ id), insertNewJob_get?]
    by_cases hk : k = id
    · simp [hk, mem_pendingExcept]
    · simp only [hk, if_false, mem_pendingExcept, insertNewJob_get?, ne_eq, not_false_eq_true, true_and]
      cases hg : s.jobs.get? k with
      | none => simp
      | some j => by_cases hp : j.status = .pending <;> simp [hp, afterReboot]

theorem rollbackReboot_spec (id : Uuid) (error : Option String) :
    (s.rebootPending ≠ some id ∧ s.rollbackReboot env id error = (s, false)) ∨
    (s.rebootPending = some id ∧ (s.rollbackReboot env id error).2 = true ∧
      Frame { s with rebootPending := none } (s.rollbackReboot env id error).1 ∧
      ∀ k, (s.rollbackReboot env id error).1.jobs.get? k =
        if k = id then (s.jobs.get? id).map (rollbackJobState env error) else s.jobs.get? k) := by
  unfold rollbackReboot
  split
  · next h => exact .inl ⟨h, rfl⟩
  · next h =>
    exact .inr ⟨not_not.1 h, rfl, (mutateJob_frame env _ id _).trans (notifyOne_frame _),
      fun k => mutateJob_get? env _ id k _⟩

theorem rollbackJobState_terminal (error : Option String) (j : Job) :
    (rollbackJobState env error j).status.isTerminal = true := by
  cases error <;> rfl

theorem beginRebootExecution_spec (id : Uuid) :
    s.beginRebootExecution env id = (s, false) ∨
    (∃ j, s.rebootPending = some id ∧ s.jobs.get? id = some j ∧ j.status = .pending ∧
      (s.beginRebootExecution env id).2 = true ∧ Frame s (s.beginRebootExecution env id).1 ∧
      ∃ j', j'.status = .rebooting ∧ j'.operation = j.operation ∧ j'.packages = j.packages ∧
        ∀ k, (s.beginRebootExecution env id).1.jobs.get? k = if k = id then some j' else s.jobs.get? k) := by
  unfold beginRebootExecution
  split
  · exact .inl rfl
  next h =>
  split
  · exact .inl rfl
  next j hj =>
  split
  · exact .inl rfl
  next hp =>
  refine .inr ⟨j, not_not.1 h, hj, not_not.1 hp, rfl, (mutateJob_frame env s id _).trans (notifyOne_frame _),
    Job.addLog env { j with status := .rebooting, updatedAt := env.now } "Reboot command starting",
    rfl, rfl, rfl, fun k => ?_⟩
  rw [notifyOne_jobs, mutateJob_get?, hj]
  rfl

theorem setJobRebooting_spec (id : Uuid) (message : String) :
    ((∀ j, s.jobs.get? id = some j → j.status ≠ .running) ∧
      ∃ e, s.setJobRebooting env id message = (s, .error e)) ∨
    (∃ j, s.jobs.get? id = some j ∧ j.status = .running ∧ (s.setJobRebooting env id message).2 = .ok () ∧
      Frame s (s.setJobRebooting env id message).1 ∧
      ∀ k, (s.setJobRebooting env id message).1.jobs.get? k =
        if k = id then some (j.setRebooting env message) else s.jobs.get? k) := by
  unfold setJobRebooting
  split
  · next hj => exact .inl ⟨fun j h => (by rw [hj] at h; cases h), _, rfl⟩
  next j hj =>
  split
  · next hp => exact .inl ⟨fun j' h => (by rw [hj] at h; cases h; exact hp), _, rfl⟩
  next hp =>
  refine .inr ⟨j, hj, not_not.1 hp, rfl, (mutateJob_frame env s id _).trans (notifyOne_frame _), fun k => ?_⟩
  rw [notifyOne_jobs, mutateJob_get?, hj]
  rfl

/-! ## Mutations -/

/-- Every check of the wait loop passes. -/
structure DispatchReady (s : SchedulerState) (jobId : Uuid) : Prop where
  admission : s.admission = .open
  unreserved : s.rebootPending = none
  selfUpdate : ∀ su, s.selfUpdate = some su → su.jobId = jobId
  capacity : s.jobAlreadyRunning jobId = true ∨ s.runningCount < s.maxConcurrent
  free : s.activeMutation = none

theorem dispatchRejection_eq_none (jobId : Uuid) :
    s.dispatchRejection jobId = none ↔ s.admission = .open ∧ s.rebootPending = none ∧
      ∀ su, s.selfUpdate = some su → su.jobId = jobId := by
  unfold dispatchRejection
  cases s.admission <;> cases s.rebootPending <;> cases s.selfUpdate <;> simp

theorem jobAlreadyRunning_iff (jobId : Uuid) :
    s.jobAlreadyRunning jobId = true ↔ ∃ j, s.jobs.get? jobId = some j ∧ j.status = .running := by
  unfold jobAlreadyRunning
  cases s.jobs.get? jobId <;> simp

/-- A pass acquires the slot exactly when every check passes; any other pass changes nothing. -/
theorem dispatchCheck_spec (jobId : Uuid) :
    (¬ DispatchReady s jobId ∧ (s.dispatchCheck env jobId).1 = s ∧
      ∀ g b, (s.dispatchCheck env jobId).2 ≠ .acquired g b) ∨
    (DispatchReady s jobId ∧ ∃ b, (s.dispatchCheck env jobId).2 = .acquired (s.mutationGeneration + 1) b ∧
      Frame { s with activeMutation := some jobId, mutationGeneration := s.mutationGeneration + 1 }
        (s.dispatchCheck env jobId).1 ∧
      ∀ k, (s.dispatchCheck env jobId).1.jobs.get? k =
        if k = jobId then (s.jobs.get? jobId).map (startJob env (s.jobAlreadyRunning jobId))
        else s.jobs.get? k) := by
  unfold dispatchCheck
  split
  · next e he =>
    refine .inl ⟨fun h => ?_, rfl, by simp⟩
    rw [(dispatchRejection_eq_none s jobId).2 ⟨h.admission, h.unreserved, h.selfUpdate⟩] at he
    cases he
  next hrej =>
  obtain ⟨ha, hr, hu⟩ := (dispatchRejection_eq_none s jobId).1 hrej
  simp only
  split
  · next hc =>
    refine .inl ⟨fun h => ?_, rfl, by simp⟩
    simp only [Bool.and_eq_true, Bool.not_eq_true', decide_eq_true_eq] at hc
    rcases h.capacity with h | h
    · rw [hc.1] at h; cases h
    · omega
  next hc =>
  split
  · next hm =>
    refine .inl ⟨fun h => ?_, rfl, by simp⟩
    rw [h.free] at hm; cases hm
  next hm =>
  refine .inr ⟨⟨ha, hr, hu, ?_, by simpa using hm⟩, _, rfl, mutateJob_frame env _ jobId _,
    fun k => mutateJob_get? env _ jobId k _⟩
  cases hrun : s.jobAlreadyRunning jobId with
  | true => exact .inl rfl
  | false => simp [hrun] at hc; exact .inr hc

/-- Whatever the old status, the job that acquires the slot is Running afterwards. -/
theorem startJob_status {jobId : Uuid} {j : Job} (h : s.jobs.get? jobId = some j) :
    (startJob env (s.jobAlreadyRunning jobId) j).status = .running := by
  unfold startJob
  cases hr : s.jobAlreadyRunning jobId with
  | true =>
    obtain ⟨j', hj', hst⟩ := (jobAlreadyRunning_iff s jobId).1 hr
    rw [h] at hj'; cases hj'
    exact hst
  | false => rfl

/-- The job that an abandoned mutation leaves behind. -/
def abandonJob (env : Env) (result : MutationResult) (j : Job) : Job :=
  if j.status = .running ∨ j.status = .pending then failAbandoned env result j else j

theorem failAbandoned_status (result : MutationResult) (j : Job) :
    (failAbandoned env result j).status = .failed := by
  cases result <;> rfl

theorem resolveAbandoned_frame (jobId : Uuid) (result : MutationResult) :
    Frame s (s.resolveAbandoned env jobId result) := by
  unfold resolveAbandoned
  split
  · exact Frame.refl s
  · split
    · exact mutateJob_frame env s jobId _
    · exact Frame.refl s

theorem resolveAbandoned_get? (jobId k : Uuid) (result : MutationResult) :
    (s.resolveAbandoned env jobId result).jobs.get? k =
      if k = jobId then (s.jobs.get? jobId).map (abandonJob env result) else s.jobs.get? k := by
  unfold resolveAbandoned
  split
  · next h =>
    by_cases hk : k = jobId
    · subst hk; simp [h]
    · simp [hk]
  next j h =>
  split
  · next hst =>
    rw [mutateJob_get?, h]
    simp [abandonJob, hst]
  · next hst =>
    by_cases hk : k = jobId
    · subst hk; simp [h, abandonJob, hst]
    · simp [hk]

theorem finalizeMutation_frame (jobId : Uuid) (gen : UInt64) (result : MutationResult) (alive : Bool) :
    Frame { s with activeMutation := if s.stillOwns jobId gen then none else s.activeMutation }
      (s.finalizeMutation env jobId gen result alive) := by
  unfold finalizeMutation
  cases s.stillOwns jobId gen <;> cases alive
  · exact notifyOne_frame _
  · exact notifyOne_frame _
  · exact (resolveAbandoned_frame env _ jobId result).trans (notifyOne_frame _)
  · exact notifyOne_frame _

theorem finalizeMutation_get? (jobId k : Uuid) (gen : UInt64) (result : MutationResult) (alive : Bool) :
    (s.finalizeMutation env jobId gen result alive).jobs.get? k =
      if k = jobId ∧ alive = false ∧ s.stillOwns jobId gen = true then
        (s.jobs.get? jobId).map (abandonJob env result)
      else s.jobs.get? k := by
  unfold finalizeMutation
  cases s.stillOwns jobId gen <;> cases alive <;> simp [resolveAbandoned_get?]

/-! ## Lifecycle -/

theorem updateJob_spec (id : Uuid) (status : JobStatus) (progress : Option UInt8) (message : Option String) :
    (∃ e, s.updateJob env id status progress message = (s, .error e)) ∨
    (((status = .running ∨ status = .rebooting) →
        s.jobAlreadyRunning id = true ∨ s.runningCount < s.maxConcurrent) ∧
      Frame s (s.updateJob env id status progress message).1 ∧
      ∀ k, (s.updateJob env id status progress message).1.jobs.get? k =
        if k = id then (s.jobs.get? id).map fun j => { j with
          status := status
          progress := progress.getD j.progress
          message := message.getD j.message
          updatedAt := env.now }
        else s.jobs.get? k) := by
  unfold updateJob
  split
  · exact .inl ⟨_, rfl⟩
  next h =>
  refine .inr ⟨fun hst => ?_, mutateJob_frame env s id _, fun k => mutateJob_get? env s id k _⟩
  cases hr : s.jobAlreadyRunning id with
  | true => exact .inl rfl
  | false => exact .inr (by by_contra hc; exact h ⟨hst, hr, by omega⟩)

theorem completeJob_frame (id : Uuid) : Frame s (s.completeJob env id) :=
  (mutateJob_frame env s id _).trans (notifyOne_frame _)

theorem completeJob_get? (id k : Uuid) : (s.completeJob env id).jobs.get? k =
    if k = id then (s.jobs.get? id).map (Job.complete env) else s.jobs.get? k :=
  mutateJob_get? env s id k _

theorem failJob_frame (id : Uuid) (e : String) : Frame s (s.failJob env id e) :=
  (mutateJob_frame env s id _).trans (notifyOne_frame _)

theorem failJob_get? (id k : Uuid) (e : String) : (s.failJob env id e).jobs.get? k =
    if k = id then (s.jobs.get? id).map (fun j => j.fail env e) else s.jobs.get? k :=
  mutateJob_get? env s id k _

theorem failJobWithDiagnostics_frame (id : Uuid) (e : AnyhowError) :
    Frame s (s.failJobWithDiagnostics env id e) := by
  unfold failJobWithDiagnostics
  cases s.jobs.get? id <;> exact ⟨rfl, rfl, rfl, rfl, rfl, rfl, rfl⟩

theorem failJobWithDiagnostics_get? (id k : Uuid) (e : AnyhowError) :
    (s.failJobWithDiagnostics env id e).jobs.get? k =
      if k = id then (s.jobs.get? id).map (fun j => j.failWithDiagnostics env e) else s.jobs.get? k := by
  unfold failJobWithDiagnostics
  cases h : s.jobs.get? id with
  | none =>
    by_cases hk : k = id
    · subst hk; simp [h]
    · simp [hk]
  | some j => exact FinMap.get?_insert s.jobs id k _

theorem addJobLog_get? (id k : Uuid) (m : String) : (s.addJobLog env id m).jobs.get? k =
    if k = id then (s.jobs.get? id).map (fun j => j.addLog env m) else s.jobs.get? k :=
  FinMap.get?_modify s.jobs id k _

/-- Only a terminal job can be deleted. -/
theorem deleteJob_spec (id : Uuid) :
    s.deleteJob id = (s, false) ∨
    (∃ j, s.jobs.get? id = some j ∧ j.status.isTerminal = true ∧
      s.deleteJob id = ({ s with jobs := s.jobs.erase id }, true)) := by
  unfold deleteJob
  split
  · exact .inl rfl
  next j hj =>
  split
  · next ht => exact .inr ⟨j, hj, ht, rfl⟩
  · exact .inl rfl

end SchedulerState

end LinuxPatchApi.Jobs
