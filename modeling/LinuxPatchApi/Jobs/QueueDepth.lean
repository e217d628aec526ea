/-
The capacity of the queue. Every operation that adds a job counts the active jobs first, and no operation
moves a job back into the count; only the acquisition of the slot does not look at the job, so that one
which was cancelled while its call waited can run when its place is taken.
-/
import LinuxPatchApi.Jobs.Limit
import LinuxPatchApi.Jobs.Terminal

namespace LinuxPatchApi.Jobs

open LinuxPatchApi.Packages Transition

/-! ## Admissions -/

/-- The jobs that `activeUserJobs` counts. -/
def Job.occupiesQueue (j : Job) : Bool := j.status.isActive && !j.isInternal

theorem JobMove.occupiesQueue {j j' : Job} (h : JobMove j j') (ho : j'.occupiesQueue = true) :
    j.occupiesQueue = true := by
  simp only [Job.occupiesQueue, Bool.and_eq_true] at ho ⊢
  exact ⟨h.active ho.1, by rw [← Job.isInternal_congr h.packages]; exact ho.2⟩

/-- Whatever check an operation makes before it creates a job, there is room in the queue when it does. -/
theorem apply_room (env : Env) {s : SchedulerState} {o : SchedOp} {id : Uuid} (hid : o.newId = some id)
    (hpos : 0 < s.maxQueueDepth) : o.apply env s = s ∨ s.activeUserJobs < s.maxQueueDepth := by
  cases o with
  | admitJob id op ps =>
    simp only [SchedOp.apply]
    rcases s.admitJob_spec env id op ps with ⟨e, he⟩ | ⟨_, _, _, hroom, _⟩
    · exact .inl (by rw [he])
    · exact .inr hroom
  | createRollbackJob id orig =>
    simp only [SchedOp.apply]
    rcases s.createRollbackJob_spec env id orig with ⟨r, he, _⟩ | ⟨_, _, _, _, _, _, hroom, _⟩
    · exact .inl (by rw [he])
    · exact .inr hroom
  | tryReserveSelfUpdate id ps v w =>
    simp only [SchedOp.apply]
    rcases s.tryReserveSelfUpdate_spec env id ps v w with ⟨e, he⟩ | ⟨_, _, _, _, hidle, _⟩
    · exact .inl (by rw [he])
    · exact .inr (by rw [hidle]; exact hpos)
  | reserveReboot id force ack =>
    simp only [SchedOp.apply]
    rcases s.reserveReboot_spec env id force ack with ⟨_, e, he⟩ | ⟨hadm, _⟩
    · exact .inl (by rw [he])
    · exact .inr hadm.capacity
  | _ => cases hid

/-! ## One step -/

section Count

variable {s s' : SchedulerState}

/-- No job comes to occupy the queue. -/
theorem activeUserJobs_le (h : ∀ k j', s'.jobs.get? k = some j' → j'.occupiesQueue = true →
    ∃ j, s.jobs.get? k = some j ∧ j.occupiesQueue = true) : s'.activeUserJobs ≤ s.activeUserJobs :=
  FinMap.count_le h

/-- At most the job under one id does. -/
theorem activeUserJobs_le_succ (id : Uuid) (h : ∀ k j', k ≠ id → s'.jobs.get? k = some j' → j'.occupiesQueue = true →
    ∃ j, s.jobs.get? k = some j ∧ j.occupiesQueue = true) : s'.activeUserJobs ≤ s.activeUserJobs + 1 :=
  FinMap.count_le_succ id h

end Count

/-- At this step a call acquires the slot for a job that is over, while the active jobs fill the queue. -/
structure RestartsIntoFull (f : Fired World HistoryAct) (c : Nat) (call : Call) (j : Job) : Prop where
  act : f.act = .agent (.call c .check)
  entry : f.pre.calls[c]? = some call
  locking : call.caller = .locking
  ready : f.pre.sched.DispatchReady call.jobId
  job : f.pre.sched.jobs.get? call.jobId = some j
  terminal : j.status.isTerminal = true
  user : j.isInternal = false
  full : f.pre.sched.maxQueueDepth ≤ f.pre.sched.activeUserJobs

/-- The step does not call `update_job`. -/
def HistoryAct.isUpdateJob : HistoryAct → Bool
  | .agent a => a.isUpdateJob
  | _ => false

theorem apply_activeUserJobs {env : Env} {s : SchedulerState} {o : SchedOp} (hu : o.isUpdateJob = false)
    (hpos : 0 < s.maxQueueDepth) (h : s.activeUserJobs ≤ s.maxQueueDepth) :
    (o.apply env s).activeUserJobs ≤ s.maxQueueDepth := by
  have hmoved : ∀ k j', o.newId ≠ some k → (o.apply env s).jobs.get? k = some j' → j'.occupiesQueue = true →
      ∃ j, s.jobs.get? k = some j ∧ j.occupiesQueue = true := by
    intro k j' hk hj' ho
    rcases apply_get? hu hj' with ⟨hnew, _⟩ | ⟨j, hj, hm⟩
    · exact absurd hnew hk
    · exact ⟨j, hj, hm.occupiesQueue ho⟩
  cases hid : o.newId with
  | none =>
    refine (activeUserJobs_le fun k j' => hmoved k j' ?_).trans h
    rw [hid]
    exact nofun
  | some id =>
    rcases apply_room env hid hpos with he | hroom
    · rw [he]
      exact h
    · refine (activeUserJobs_le_succ id fun k j' hk => hmoved k j' ?_).trans hroom
      rw [hid]
      exact fun he => hk (Option.some.inj he).symm

/-- A job that acquires the slot occupied the queue before, or it was over. -/
theorem acquired_occupies {env : Env} {s s' : SchedulerState} {id : Uuid}
    (hget : ∀ k, s'.jobs.get? k =
      if k = id then (s.jobs.get? id).map (SchedulerState.startJob env (s.jobAlreadyRunning id))
      else s.jobs.get? k)
    (hactive : ∀ j, s.jobs.get? id = some j → j.isInternal = false → j.status.isTerminal = false) :
    s'.activeUserJobs ≤ s.activeUserJobs := by
  refine activeUserJobs_le fun k j' hj' ho => ?_
  rw [hget] at hj'
  split at hj'
  · next hk =>
    obtain ⟨j, hj, rfl⟩ := Option.map_eq_some_iff.1 hj'
    refine ⟨j, by rw [hk]; exact hj, ?_⟩
    have hint : (SchedulerState.startJob env (s.jobAlreadyRunning id) j).isInternal = j.isInternal :=
      Job.isInternal_congr (by unfold SchedulerState.startJob; split <;> rfl)
    simp only [Job.occupiesQueue, Bool.and_eq_true, Bool.not_eq_true', hint] at ho ⊢
    have ht := hactive j hj ho.2
    rw [JobStatus.isTerminal_eq_not_isActive, Bool.not_eq_false'] at ht
    exact ⟨ht, ho.2⟩
  · exact ⟨j', hj', ho⟩

theorem call_activeUserJobs {env : Env} {c : Nat} {s s' : SchedulerState} {call call' : Call} {a : CallAct}
    (hcs : CallStep env c s call a s' call') (h : s.activeUserJobs ≤ s.maxQueueDepth)
    (hfull : ∀ j, a = .check → call.caller = .locking → s.DispatchReady call.jobId → s.jobs.get? call.jobId = some j →
      j.status.isTerminal = true → j.isInternal = false → s.activeUserJobs < s.maxQueueDepth) :
    s'.activeUserJobs ≤ s.maxQueueDepth := by
  cases hcs with
  | acquired b s' hl hrdy _ hget =>
    by_cases hover : ∃ j, s.jobs.get? call.jobId = some j ∧ j.status.isTerminal = true ∧ j.isInternal = false
    · obtain ⟨j, hj, ht, hi⟩ := hover
      refine (activeUserJobs_le_succ call.jobId fun k j' hk hj' ho => ?_).trans (hfull j rfl hl hrdy hj ht hi)
      rw [hget, if_neg hk] at hj'
      exact ⟨j', hj', ho⟩
    · refine (acquired_occupies hget fun j hj hi => ?_).trans h
      by_contra ht
      exact hover ⟨j, hj, by simpa using ht, hi⟩
  | finalized r i _ =>
    refine (activeUserJobs_le fun k j' hj' ho => ?_).trans h
    rw [SchedulerState.finalizeMutation_get?] at hj'
    split at hj'
    · next hk =>
      obtain ⟨j, hj, rfl⟩ := Option.map_eq_some_iff.1 hj'
      exact ⟨j, by rw [hk.1]; exact hj, (abandonJob_move r j).occupiesQueue ho⟩
    · exact ⟨j', hj', ho⟩
  | _ => exact h

/-- Terminal jobs are put into the map. -/
theorem inserted_activeUserJobs {s : SchedulerState} {f : Job → Job} {l : List Job}
    (hl : ∀ o ∈ l, (f o).status.isTerminal = true) :
    ({ s with jobs := l.foldl (fun m o => m.insert o.id (f o)) s.jobs } : SchedulerState).activeUserJobs ≤
      s.activeUserJobs := by
  refine activeUserJobs_le fun k j' hj' ho => ?_
  rcases foldl_insert_get? l s.jobs hj' with ⟨o, ho', _, rfl⟩ | hj'
  · have ht := hl o ho'
    simp only [Job.occupiesQueue, Bool.and_eq_true] at ho
    rw [JobStatus.isTerminal_eq_not_isActive, ho.1] at ht
    cases ht
  · exact ⟨j', hj', ho⟩

theorem depth_step {f : Fired World HistoryAct} (hf : IsStep agentWithHistory f) (hu : f.act.isUpdateJob = false)
    (hn : ∀ c call j, ¬ RestartsIntoFull f c call j) (hpos : 0 < f.pre.sched.maxQueueDepth)
    (h : f.pre.sched.activeUserJobs ≤ f.pre.sched.maxQueueDepth) :
    f.post.sched.activeUserJobs ≤ f.pre.sched.maxQueueDepth := by
  obtain ⟨w, a, w'⟩ := f
  have hs : w.stepHistory a = some w' := hf
  cases a with
  | agent a =>
    cases World.step_cases hs with
    | op o _ => exact apply_activeUserJobs hu hpos h
    | dispatch | tick => exact h
    | call c a call call' s' hc hcs =>
      refine call_activeUserJobs hcs h fun j ha hl hrdy hj ht hi => ?_
      subst ha
      by_contra hfull
      exact hn c call j ⟨rfl, hc, hl, hrdy, hj, ht, hi, Nat.le_of_not_lt hfull⟩
  | loadHistory history =>
    simp only [World.stepHistory] at hs
    split at hs
    · next hl =>
      cases hs
      exact (inserted_activeUserJobs (f := id) hl).trans h
    · cases hs
  | recoverOrphanedJobs orphaned =>
    simp only [World.stepHistory] at hs
    split at hs
    · cases hs
      exact (inserted_activeUserJobs fun o _ => recoverOrphan_terminal w.env o).trans h
    · cases hs

/-- A job that is over and runs again comes on top of those that fill the queue. -/
theorem restart_activeUserJobs {f : Fired World HistoryAct} (hf : IsStep agentWithHistory f) {c : Nat} {call : Call}
    {j : Job} (hr : RestartsIntoFull f c call j) : f.pre.sched.maxQueueDepth < f.post.sched.activeUserJobs := by
  obtain ⟨w, a, w'⟩ := f
  obtain ⟨rfl, hc, hl, hrdy, hj, ht, hi, hfull⟩ := hr
  have hs : w.step (.call c .check) = some w' := hf
  cases World.step_cases hs with
  | call _ _ call₁ call' s' hc₁ hcs =>
    rw [hc] at hc₁
    cases hc₁
    cases hcs with
    | rejected _ _ hn => exact absurd hrdy hn
    | waiting _ hn => exact absurd hrdy hn
    | acquired b s' _ _ _ hget =>
      have hstarted : s'.jobs.get? call.jobId =
          some (SchedulerState.startJob w.env (w.sched.jobAlreadyRunning call.jobId) j) := by
        rw [hget, if_pos rfl, hj]
        rfl
      refine Nat.lt_of_le_of_lt hfull (FinMap.count_lt call.jobId ?_ ?_ hstarted ?_)
      · intro k v hv ho
        refine ⟨v, ?_, ho⟩
        rw [hget, if_neg]
        · exact hv
        · rintro rfl
          rw [hj] at hv
          cases hv
          rw [JobStatus.isTerminal_eq_not_isActive] at ht
          simp_all
      · intro v hv
        rw [hj] at hv
        cases hv
        rw [JobStatus.isTerminal_eq_not_isActive] at ht
        simp_all
      · have hint :
            (SchedulerState.startJob w.env (w.sched.jobAlreadyRunning call.jobId) j).isInternal = j.isInternal :=
          Job.isInternal_congr (by unfold SchedulerState.startJob; split <;> rfl)
        rw [SchedulerState.startJob_status w.env w.sched hj, hint, hi]
        rfl

/-! ## Runs -/

/-- No more than `max_queue_depth` jobs are active in any state of a run exactly when no call acquires
the slot for a job that is over while that many are. -/
theorem within_depth_iff {w w' : World} {tr : List (Fired World HistoryAct)} (hw : w.Created)
    (hr : Run agentWithHistory w tr w') (hu : ∀ f ∈ tr, f.act.isUpdateJob = false) :
    (∀ v ∈ states w tr, v.sched.activeUserJobs ≤ w.sched.maxQueueDepth) ↔
      ∀ f ∈ tr, ∀ c call j, ¬ RestartsIntoFull f c call j := by
  have hconst := states_maxQueueDepth hr
  have hpos := hw.maxQueueDepth_pos
  obtain ⟨mc, mq, hs, _⟩ := hw
  have hempty : w.sched.activeUserJobs ≤ w.sched.maxQueueDepth := by
    rw [hs]
    exact Nat.zero_le _
  refine hr.forall_states_iff (fun f hf hstep hpre => ?_) hempty
  have hmax := hconst _ (hr.mem_states hf).1
  constructor
  · intro hpost c call j hrs
    have hlt := restart_activeUserJobs hstep hrs
    rw [hmax] at hlt
    exact absurd hpost (Nat.not_le_of_lt hlt)
  · intro hn
    have hdepth := depth_step hstep (hu f hf) hn (by rw [hmax]; exact hpos) (by rw [hmax]; exact hpre)
    rwa [hmax] at hdepth

/-- A restarted agent with room for two jobs serves one of them. -/
def roomyAgent : List HistoryAct :=
  [.loadHistory [Job.complete ⟨0, none⟩ (Job.new ⟨0, none⟩ 1 .install ["vim"])],
    .recoverOrphanedJobs [Job.new ⟨0, none⟩ 2 .update ["curl"]],
    .agent (.op (.admitJob 3 .install ["git"])), .agent (.op (.admitJob 4 .install ["nano"])),
    .agent (.dispatch 3), .agent (.call 0 .check), .agent (.op (.admitJob 5 .install ["htop"]))]

theorem within_depth_roomy :
    (∀ v ∈ states (freshAgent 1 2) ((trace agentWithHistory (freshAgent 1 2) roomyAgent).getD []),
      v.sched.activeUserJobs ≤ (freshAgent 1 2).sched.maxQueueDepth) ↔
    ∀ f ∈ (trace agentWithHistory (freshAgent 1 2) roomyAgent).getD [], ∀ c call j, ¬ RestartsIntoFull f c call j :=
  within_depth_iff ⟨1, 2, rfl, rfl⟩ (run_trace agentWithHistory _ roomyAgent (by decide)) (by decide)

/-- Job 1 waits for its first pass, is cancelled by a forced reboot whose reservation is rolled back, and
runs when jobs 3 and 4 have filled the queue. -/
def cancelledReturns : List HistoryAct :=
  [.agent (.op (.admitJob 1 .install ["vim"])), .agent (.dispatch 1), .agent (.op (.reserveReboot 2 true false)),
    .agent (.op (.rollbackReboot 2 (some "reboot failed"))), .agent (.op (.admitJob 3 .install ["git"])),
    .agent (.op (.admitJob 4 .install ["nano"])), .agent (.call 0 .check)]

theorem cancelled_beyond_depth : ∃ (w w' : World) (tr : List (Fired World HistoryAct)), w.Created ∧
    Run agentWithHistory w tr w' ∧ (∀ f ∈ tr, f.act.isUpdateJob = false) ∧
    ¬ ∀ v ∈ states w tr, v.sched.activeUserJobs ≤ w.sched.maxQueueDepth := by
  refine ⟨freshAgent 1 2, _, _, ⟨1, 2, rfl, rfl⟩, run_trace agentWithHistory _ cancelledReturns (by decide), by decide,
    fun h => ?_⟩
  exact absurd (h _ (run_trace agentWithHistory _ cancelledReturns (by decide)).end_mem) (by decide)

end LinuxPatchApi.Jobs
