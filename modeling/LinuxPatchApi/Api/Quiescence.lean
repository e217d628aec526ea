/-
Quiescent agents. In a state in which all tasks, callers and watchdogs have run to completion nothing is
owed any more: no job but a reboot job is left Pending or Running, and the agent admits what it is asked
to. The one condition on the run is that no rollback request creates its job, for which no task is ever
spawned.
-/
import LinuxPatchApi.Api.Staffed

namespace LinuxPatchApi.Api

open Interaction LinuxPatchApi.Packages LinuxPatchApi.Jobs Transition

/-! ## Quiescent states -/

def Task.Ended : Task → Prop
  | .ready (.pure ()) => True
  | _ => False

instance (task : Task) : Decidable task.Ended := by
  unfold Task.Ended
  split <;> infer_instance

/-- The caller has returned, and the watchdog, if there was one, has made its last critical section. -/
def CallEnded (call : Call) : Prop :=
  (match call.caller with
    | .returned _ => True
    | _ => False) ∧ (call.watchdog = .absent ∨ call.watchdog = .finished)

instance (call : Call) : Decidable (CallEnded call) := by
  unfold CallEnded
  refine @instDecidableAnd _ _ ?_ _
  split <;> infer_instance

/-- Every task, every caller and every watchdog has run to completion. -/
def Quiescent (s : Service) : Prop :=
  (∀ task ∈ s.tasks, task.Ended) ∧ ∀ call ∈ s.world.calls, CallEnded call

instance (s : Service) : Decidable (Quiescent s) := inferInstanceAs (Decidable (_ ∧ _))

/-- Every admitted job is resolved: only a reboot job is Pending or Running, a job that waits for a reboot
does so under a reservation, and without a reservation the agent admits a job, a self-update and a
non-forced reboot. -/
structure Settled (w : World) : Prop where
  resolved : ∀ id j, w.sched.jobs.get? id = some j → j.operation ≠ .reboot → j.status ≠ .pending ∧ j.status ≠ .running
  waiting : ∀ id j, w.sched.jobs.get? id = some j → j.operation ≠ .reboot → j.status = .rebooting →
    w.sched.rebootPending.isSome = true
  admits : w.sched.rebootPending = none → ∀ id operation packages,
    (w.sched.admitJob w.env id operation packages).2 = .ok id
  updates : w.sched.rebootPending = none → ∀ id packages fromVersion targetVersion,
    (w.sched.tryReserveSelfUpdate w.env id packages fromVersion targetVersion).2 = .ok id
  reboots : w.sched.rebootPending = none → ∀ id ack, (w.sched.reserveReboot w.env id false ack).2 = .ok id

section Quiescent

variable {s : Service} {δ : Nat → Duty}

/-- In a quiescent state every duty is done. -/
theorem Staffed.done (h : Staffed s δ) (hq : Quiescent s) (n : Nat) : (δ n).Done := by
  by_cases hn : n < s.tasks.length
  · have hobeys := h.tasks n s.tasks[n] (List.getElem?_eq_getElem hn)
    have hended := hq.1 s.tasks[n] (List.getElem_mem hn)
    revert hobeys hended
    generalize s.tasks[n] = task
    intro hobeys hended
    match task, hended with
    | .ready (.pure ()), _ => exact hobeys
  · rw [h.idle n (by omega)]
    exact Duty.done_of_free

/-- A job that is still active waits for the reboot of a reservation. -/
theorem Staffed.active_waits (h : Staffed s δ) (hq : Quiescent s) {id : Uuid} {j : Job}
    (hj : s.world.sched.jobs.get? id = some j) (hop : j.operation ≠ .reboot) (ha : j.status.isActive = true) :
    j.status = .rebooting ∧ s.world.sched.rebootPending.isSome = true := by
  obtain ⟨n, stage, hd, hst⟩ := h.ledger.covered id j hj hop ha
  obtain ⟨hreb, r, hg⟩ := (h.done hq n).1 id stage hd
  refine ⟨(hst hreb).1, ?_⟩
  rw [(h.ledger.guards n r true hg).2.1 rfl]
  rfl

/-- Nothing but a reservation stands in the way of the next request. -/
theorem Staffed.idle_state (h : Staffed s δ) (hq : Quiescent s) (hr : s.world.sched.rebootPending = none) :
    s.world.sched.activeUserJobs = 0 ∧ s.world.sched.selfUpdate = none ∧ s.world.sched.activeMutation = none := by
  refine ⟨FinMap.count_eq_zero.2 fun id j hj => ?_, ?_, ?_⟩
  · have hna : j.status.isActive = false := by
      by_contra ha
      rw [Bool.not_eq_false] at ha
      by_cases hop : j.operation = .reboot
      · have := h.ledger.reboot id j hj hop ha
        rw [hr] at this
        cases this
      · have := (h.active_waits hq hj hop ha).2
        rw [hr] at this
        cases this
    rw [hna]
    rfl
  · cases hsu : s.world.sched.selfUpdate with
    | none => rfl
    | some su =>
      obtain ⟨n, hn⟩ := h.ledger.update su hsu
      rw [(h.done hq n).2] at hn
      cases hn
  · cases hm : s.world.sched.activeMutation with
    | none => rfl
    | some jobId =>
      -- the owner of the slot would still be running
      obtain ⟨c, call, hc, hh, _⟩ := h.sound.owned jobId hm
      obtain ⟨hret, hwd⟩ := hq.2 call (List.mem_of_getElem? hc)
      rcases hh with hp | hl
      · rw [hp] at hret
        exact hret.elim
      · rcases hwd with hwd | hwd <;> (rw [hwd] at hl; exact hl.elim)

theorem Staffed.settled (h : Staffed s δ) (hq : Quiescent s) : Settled s.world := by
  have hopen := h.sound.admission
  have hcap := h.sound.capacity
  refine ⟨fun id j hj hop => ?_, fun id j hj hop hst => ?_, fun hr id operation packages => ?_,
    fun hr id packages v t => ?_, fun hr id ack => ?_⟩
  · constructor
    · intro hp
      rw [(h.active_waits hq hj hop (by rw [hp]; rfl)).1] at hp
      cases hp
    · intro hp
      rw [(h.active_waits hq hj hop (by rw [hp]; rfl)).1] at hp
      cases hp
  · exact (h.active_waits hq hj hop (by rw [hst]; rfl)).2
  · obtain ⟨ha, hu, _⟩ := h.idle_state hq hr
    rw [SchedulerState.admitJob, SchedulerState.admitJobInner]
    simp [hopen, hu, hr, ha, Nat.ne_of_gt hcap]
  · obtain ⟨ha, hu, hm⟩ := h.idle_state hq hr
    rw [SchedulerState.tryReserveSelfUpdate]
    simp [hopen, hu, hr, ha, hm, Nat.ne_of_gt hcap]
  · obtain ⟨ha, hu, hm⟩ := h.idle_state hq hr
    rw [SchedulerState.reserveReboot]
    simp [hopen, hu, hr, ha, Nat.ne_of_gt hcap]

end Quiescent

/-- On every run from startup in which no rollback request creates a job, every quiescent state is settled. -/
theorem quiescent_settled {s s' : Service} {tr : List (Fired Service ServiceAct)} (hs : s.Startup)
    (hr : Run service s tr s') (hg : ∀ f ∈ tr, RefusesRollback f) :
    ∀ t ∈ states s tr, Quiescent t → Settled t.world := by
  have h0 : ∃ δ, Staffed s δ := ⟨_, startup_staffed hs⟩
  have hstaffed := hr.invariant_at (I := fun t => ∃ δ, Staffed t δ) (fun f hf hg h => staffed_step hf hg h) h0 hg
  intro t ht hq
  obtain ⟨δ, h⟩ := forall_states (P := fun t => ∃ δ, Staffed t δ) h0 (fun f hf => (hstaffed f hf).2) t ht
  exact h.settled hq

/-- A background refresh from its request to the deletion of its job. -/
def orderlyRefresh : List ServiceAct :=
  let x : Answers := ⟨1, .error (anyhow ""), .ok ()⟩
  [.request (.healthCheck true) 0 false, .run 0 x, .run 0 x, .call 0 .check, .call 0 .spawnWatchdog,
    .call 0 .startWatchdog, .call 0 .runClosure, .call 0 (.exitClosure (.ok ())), .call 0 .join, .call 0 .finalize,
    .call 0 .receive, .resume 0, .run 0 x, .run 0 x]

def refreshSteps : List (Fired Service ServiceAct) := (trace service ⟨freshAgent 2 10, []⟩ orderlyRefresh).getD []

theorem quiescent_settled_refresh : Settled (endState ⟨freshAgent 2 10, []⟩ refreshSteps).world := by
  have hr : Run service ⟨freshAgent 2 10, []⟩ refreshSteps (endState ⟨freshAgent 2 10, []⟩ refreshSteps) :=
    run_trace service _ orderlyRefresh (by decide)
  exact quiescent_settled ⟨freshAgent_startup 2 10, rfl⟩ hr (by decide) _ hr.end_mem (by decide)

/-- An agent that was restarted after an install. -/
def restartedAgent : World where
  sched := SchedulerState.startup ⟨0, none⟩ 2 10 [Job.complete ⟨0, none⟩ (Job.new ⟨0, none⟩ 1 .install ["vim"])]
  clock := 0
  bootId := none
  issued := [1]
  calls := []

/-- A rollback of the completed install leaves a job Pending although nothing is under way. -/
theorem rollback_never_dispatched : ∃ (s s' : Service) (tr : List (Fired Service ServiceAct)), s.Startup ∧
    Run service s tr s' ∧ Quiescent s' ∧ ¬ Settled s'.world := by
  refine ⟨⟨restartedAgent, []⟩, _, _, ⟨⟨2, 10, _, rfl, by simp [restartedAgent, Job.complete, Job.addLog,
    Job.new], rfl⟩, rfl⟩,
    run_trace service _ [.request (.rollbackJob 1) 2 false] (by decide), by decide, fun h => ?_⟩
  have := (h.resolved 2 _ (Option.some_get (by decide)).symm (by decide)).1
  exact absurd this (by decide)

end LinuxPatchApi.Api
