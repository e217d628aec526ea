/-
The limit on running jobs. A job becomes Running when its call acquires the slot or when `update_job`
says so, and both count the Running jobs first; every other operation, the two that fill the map at
startup included, leaves at most as many Running jobs as there were.
-/
import LinuxPatchApi.Jobs.JobMoves
import LinuxPatchApi.Jobs.Control

namespace LinuxPatchApi.Jobs

open LinuxPatchApi.Packages Transition

/-! ## The agent with its startup operations -/

/-- An action of the agent, or one of the operations of the startup sequence. -/
inductive HistoryAct where
  | agent (a : Act)
  | loadHistory (history : List Job)
  | recoverOrphanedJobs (orphaned : List Job)

/-- `main` hands the terminal jobs to the one and the others to the other. -/
def World.stepHistory (w : World) : HistoryAct → Option World
  | .agent a => w.step a
  | .loadHistory history =>
    if ∀ j ∈ history, j.status.isTerminal = true then
      some { w with sched := w.sched.loadHistory history, issued := history.map (·.id) ++ w.issued }
    else none
  | .recoverOrphanedJobs orphaned =>
    if ∀ j ∈ orphaned, j.status.isTerminal = false then
      some { w with sched := w.sched.recoverOrphanedJobs w.env orphaned, issued := orphaned.map (·.id) ++ w.issued }
    else none

/-- A scheduler right after `Scheduler::new`. -/
def World.Created (w : World) : Prop :=
  ∃ maxConcurrent maxQueueDepth, w.sched = SchedulerState.new maxConcurrent maxQueueDepth ∧ w.calls = []

def agentWithHistory : Machine World HistoryAct := ⟨World.Created, World.stepHistory⟩

/-! ## One step -/

/-- At most `max_concurrent` jobs are Running. -/
def WithinLimit (s : SchedulerState) : Prop := s.runningCount ≤ s.maxConcurrent

section Count

variable {s s' : SchedulerState}

/-- No job starts to run. -/
theorem WithinLimit.of_jobs (h : WithinLimit s) (hm : s'.maxConcurrent = s.maxConcurrent)
    (hj : ∀ k j', s'.jobs.get? k = some j' → j'.status = .running →
      ∃ j, s.jobs.get? k = some j ∧ j.status = .running) : WithinLimit s' := by
  unfold WithinLimit SchedulerState.runningCount at *
  rw [hm]
  refine le_trans (FinMap.count_le fun k j' hk hp => ?_) h
  obtain ⟨j, hj, hst⟩ := hj k j' hk (by simpa using hp)
  exact ⟨j, hj, by simpa using hst⟩

/-- One job starts to run, below the limit. -/
theorem WithinLimit.of_started (id : Uuid) (hlt : s.runningCount < s.maxConcurrent)
    (hm : s'.maxConcurrent = s.maxConcurrent)
    (hj : ∀ k, k ≠ id → s'.jobs.get? k = s.jobs.get? k) : WithinLimit s' := by
  unfold WithinLimit SchedulerState.runningCount at *
  have hle : s'.jobs.count (fun j => j.status == .running) ≤ s.jobs.count (fun j => j.status == .running) + 1 :=
    FinMap.count_le_succ id fun k j' hk hj' hp => ⟨j', by rw [← hj k hk]; exact hj', hp⟩
  omega

/-- One job is changed, which was Running before or there is room for it. -/
theorem WithinLimit.of_update (h : WithinLimit s) {id : Uuid} {f : Job → Job}
    (hm : s'.maxConcurrent = s.maxConcurrent)
    (hget : ∀ k, s'.jobs.get? k = if k = id then (s.jobs.get? id).map f else s.jobs.get? k)
    (hrun : s.jobAlreadyRunning id = true ∨ s.runningCount < s.maxConcurrent) : WithinLimit s' := by
  rcases hrun with hrun | hlt
  · obtain ⟨j, hj, hst⟩ := (SchedulerState.jobAlreadyRunning_iff s id).1 hrun
    refine h.of_jobs hm fun k j' hk hp => ?_
    rw [hget] at hk
    split at hk
    · next hid => exact ⟨j, by rw [hid]; exact hj, hst⟩
    · exact ⟨j', hk, hp⟩
  · exact .of_started id hlt hm fun k hk => by rw [hget, if_neg hk]

end Count

theorem apply_maxConcurrent (env : Env) (s : SchedulerState) (o : SchedOp) :
    (o.apply env s).maxConcurrent = s.maxConcurrent := by
  obtain ⟨_, _, _, hf, _⟩ := apply_frame env s o
  exact hf.maxConcurrent

theorem withinLimit_op {env : Env} {s : SchedulerState} {o : SchedOp} (h : WithinLimit s) :
    WithinLimit (o.apply env s) := by
  cases hu : o.isUpdateJob with
  | false =>
    refine h.of_jobs (apply_maxConcurrent env s o) fun k j' hk hp => ?_
    rcases apply_get? hu hk with ⟨_, hst, _⟩ | ⟨j, hj, hm⟩
    · rw [hst] at hp
      cases hp
    · exact ⟨j, hj, hm.running hp⟩
  | true =>
    cases o with
    | updateJob id status progress message =>
      simp only [SchedOp.apply]
      rcases s.updateJob_spec env id status progress message with ⟨e, he⟩ | ⟨hroom, hfr, hget⟩
      · rw [he]
        exact h
      · by_cases hst : status = .running
        · exact h.of_update hfr.maxConcurrent hget (hroom (.inl hst))
        · -- any other status takes the job out of the count
          refine h.of_jobs hfr.maxConcurrent fun k j' hk hp => ?_
          rw [hget] at hk
          split at hk
          · obtain ⟨j, _, rfl⟩ := Option.map_eq_some_iff.1 hk
            exact absurd hp hst
          · exact ⟨j', hk, hp⟩
    | _ => cases hu

theorem withinLimit_call {env : Env} {c : Nat} {s s' : SchedulerState} {call call' : Call} {a : CallAct}
    (hcs : CallStep env c s call a s' call') (h : WithinLimit s) : WithinLimit s' := by
  cases hcs with
  | rejected | waiting | registered | woken | spawned | started | ran | exited | joined | elapsed | received
  | dropped => exact h
  | acquired b s' _ hrdy hfr hget => exact h.of_update hfr.maxConcurrent hget hrdy.capacity
  | finalized r i _ =>
    refine h.of_jobs (s.finalizeMutation_frame env _ _ r _).maxConcurrent fun k j' hk hp => ?_
    rw [SchedulerState.finalizeMutation_get?] at hk
    split at hk
    · next hid =>
      obtain ⟨j, hj, rfl⟩ := Option.map_eq_some_iff.1 hk
      exact ⟨j, by rw [hid.1]; exact hj, (abandonJob_move r j).running hp⟩
    · exact ⟨j', hk, hp⟩

/-- Terminal jobs are put into the map. -/
theorem withinLimit_inserted {s : SchedulerState} {f : Job → Job} {l : List Job} (h : WithinLimit s)
    (hl : ∀ o ∈ l, (f o).status.isTerminal = true) :
    WithinLimit { s with jobs := l.foldl (fun m o => m.insert o.id (f o)) s.jobs } := by
  refine h.of_jobs rfl fun k j' hk hp => ?_
  rcases foldl_insert_get? l s.jobs hk with ⟨o, ho, _, rfl⟩ | hk
  · have ht := hl o ho
    rw [hp] at ht
    cases ht
  · exact ⟨j', hk, hp⟩

theorem withinLimit_step {f : Fired World HistoryAct} (hf : IsStep agentWithHistory f)
    (h : WithinLimit f.pre.sched) : WithinLimit f.post.sched := by
  obtain ⟨w, a, w'⟩ := f
  have hs : w.stepHistory a = some w' := hf
  cases a with
  | agent a =>
    cases World.step_cases hs with
    | op o _ => exact withinLimit_op h
    | dispatch | tick => exact h
    | call c a call call' s' _ hcs => exact withinLimit_call hcs h
  | loadHistory history =>
    simp only [World.stepHistory] at hs
    split at hs
    · next hl =>
      cases hs
      exact withinLimit_inserted (f := id) h hl
    · cases hs
  | recoverOrphanedJobs orphaned =>
    simp only [World.stepHistory] at hs
    split at hs
    · cases hs
      exact withinLimit_inserted h fun o _ => recoverOrphan_terminal w.env o
    · cases hs

/-- The two limits are never changed. -/
theorem stepHistory_limits {f : Fired World HistoryAct} (hf : IsStep agentWithHistory f) :
    f.post.sched.maxConcurrent = f.pre.sched.maxConcurrent ∧
      f.post.sched.maxQueueDepth = f.pre.sched.maxQueueDepth := by
  obtain ⟨w, a, w'⟩ := f
  have hs : w.stepHistory a = some w' := hf
  cases a with
  | agent a =>
    cases World.step_cases hs with
    | op o _ =>
      obtain ⟨_, _, _, hfr, _⟩ := apply_frame w.env w.sched o
      exact ⟨hfr.maxConcurrent, hfr.maxQueueDepth⟩
    | dispatch | tick => exact ⟨rfl, rfl⟩
    | call c a call call' s' _ hcs =>
      cases hcs with
      | acquired b s' _ _ hfr _ => exact ⟨hfr.maxConcurrent, hfr.maxQueueDepth⟩
      | finalized r i _ =>
        have hfr := w.sched.finalizeMutation_frame w.env call.jobId call.generation r (decide (call.caller = .awaiting))
        exact ⟨hfr.maxConcurrent, hfr.maxQueueDepth⟩
      | _ => exact ⟨rfl, rfl⟩
  | loadHistory | recoverOrphanedJobs =>
    simp only [World.stepHistory] at hs
    split at hs
    · cases hs
      exact ⟨rfl, rfl⟩
    · cases hs

/-- The depth of the queue is the same in all states of a run. -/
theorem states_maxQueueDepth {w w' : World} {tr : List (Fired World HistoryAct)} (hr : Run agentWithHistory w tr w') :
    ∀ v ∈ states w tr, v.sched.maxQueueDepth = w.sched.maxQueueDepth :=
  hr.invariant_states (G := fun _ => True) (fun _ hf _ h => (stepHistory_limits hf).2.trans h) rfl fun _ _ => trivial

/-- A new scheduler admits one job at least. -/
theorem World.Created.maxQueueDepth_pos {w : World} (hw : w.Created) : 0 < w.sched.maxQueueDepth := by
  obtain ⟨mc, mq, hs, _⟩ := hw
  rw [hs]
  show 0 < max mq 1
  omega

theorem stepHistory_maxConcurrent {f : Fired World HistoryAct} (hf : IsStep agentWithHistory f) :
    f.post.sched.maxConcurrent = f.pre.sched.maxConcurrent := (stepHistory_limits hf).1

/-- In no state of a run are more jobs Running than the `max_concurrent` of the first state allows. -/
theorem running_within_limit {w w' : World} {tr : List (Fired World HistoryAct)} (hw : w.Created)
    (hr : Run agentWithHistory w tr w') : ∀ v ∈ states w tr, v.sched.runningCount ≤ w.sched.maxConcurrent := by
  let I := fun v : World => WithinLimit v.sched ∧ v.sched.maxConcurrent = w.sched.maxConcurrent
  have h0 : I w := by
    obtain ⟨mc, mq, hs, _⟩ := hw
    refine ⟨?_, rfl⟩
    unfold WithinLimit
    rw [hs]
    exact Nat.zero_le _
  have hall := hr.always_at (I := I)
    (fun f hf h => ⟨withinLimit_step hf h.1, (stepHistory_maxConcurrent hf).trans h.2⟩) h0
  intro v hv
  obtain ⟨hlim, hmax⟩ := forall_states (P := I) h0 (fun f hf => (hall f hf).2) v hv
  rw [← hmax]
  exact hlim

/-- Two jobs of a restarted agent with room for one: the second waits although it was told to run. -/
def crowdedAgent : List HistoryAct :=
  [.loadHistory [Job.complete ⟨0, none⟩ (Job.new ⟨0, none⟩ 1 .install ["vim"])],
    .recoverOrphanedJobs [Job.new ⟨0, none⟩ 2 .update ["curl"]],
    .agent (.op (.admitJob 3 .install ["git"])), .agent (.op (.admitJob 4 .install ["nano"])),
    .agent (.dispatch 3), .agent (.call 0 .check), .agent (.op (.updateJob 4 .running none none))]

def crowdedRun : List (Fired World HistoryAct) := (trace agentWithHistory (freshAgent 1 10) crowdedAgent).getD []

theorem running_within_limit_crowded :
    (endState (freshAgent 1 10) crowdedRun).sched.runningCount ≤ (freshAgent 1 10).sched.maxConcurrent := by
  have hr : Run agentWithHistory (freshAgent 1 10) crowdedRun (endState (freshAgent 1 10) crowdedRun) :=
    run_trace agentWithHistory _ crowdedAgent (by decide)
  exact running_within_limit ⟨1, 10, rfl, rfl⟩ hr _ hr.end_mem

end LinuxPatchApi.Jobs
