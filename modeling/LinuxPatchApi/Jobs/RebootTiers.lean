/-
The tiers of a reboot request compared on one state: what a weaker request is granted, a stronger one is granted too,
unless the slot is held while no job of a client is active. The plain request does not look at the slot, and the forced
one does.
-/
import LinuxPatchApi.Jobs.Limit

namespace LinuxPatchApi.Jobs

open LinuxPatchApi.Packages Transition

namespace SchedulerState

/-- A reboot with these flags would be granted, as job `id`. -/
def GrantsRebootTo (env : Env) (s : SchedulerState) (id : Uuid) (force ackCorruptionRisk : Bool) : Prop :=
  (s.reserveReboot env id force ackCorruptionRisk).2 = .ok id

/-- More force, or an acknowledgement that was not given, never turns a granted reboot into a rejected one. -/
def TiersMonotone (s : SchedulerState) : Prop :=
  ∀ env id force ack force' ack', force ≤ force' → ack ≤ ack' →
    s.GrantsRebootTo env id force ack → s.GrantsRebootTo env id force' ack'

/-- The slot is free whenever nothing else is in the way of a plain reboot. -/
def SlotFreeWhenIdle (s : SchedulerState) : Prop :=
  s.admission = .open → s.rebootPending = none → s.selfUpdate = none → s.activeUserJobs = 0 → s.activeMutation = none

theorem grantsRebootTo_iff {env : Env} {s : SchedulerState} {id : Uuid} {force ack : Bool} :
    s.GrantsRebootTo env id force ack ↔ s.RebootAdmitted force ack := by
  unfold GrantsRebootTo
  rcases s.reserveReboot_spec env id force ack with ⟨hnot, e, he⟩ | ⟨hadmitted, hok, _⟩
  · refine iff_of_false (fun hok => ?_) hnot
    rw [he] at hok
    cases hok
  · exact iff_of_true hok hadmitted

section Tiers

variable {s : SchedulerState}

theorem RebootAdmitted.acknowledge {force ack : Bool} (h : s.RebootAdmitted force ack) :
    s.RebootAdmitted force true where
  admission := h.admission
  unreserved := h.unreserved
  unforced := h.unforced
  unacknowledged _ hack := by cases hack
  capacity := h.capacity

theorem RebootAdmitted.acknowledged {force ack ack' : Bool} (h : s.RebootAdmitted force ack) (hack : ack ≤ ack') :
    s.RebootAdmitted force ack' := by
  cases ack' with
  | true => exact h.acknowledge
  | false =>
    cases ack with
    | false => exact h
    | true => exact absurd hack (by decide)

/-- A plain reboot that is granted is granted by force, if its slot is free or the risk is acknowledged. -/
theorem RebootAdmitted.enforce {ack : Bool} (h : s.RebootAdmitted false ack)
    (hslot : ack = false → s.activeMutation = none) : s.RebootAdmitted true ack where
  admission := h.admission
  unreserved := h.unreserved
  unforced hforce := by cases hforce
  unacknowledged _ hack := ⟨(h.unforced rfl).1, hslot hack⟩
  capacity := h.capacity

/-- Without force the acknowledgement is not looked at. -/
theorem RebootAdmitted.plain {ack : Bool} (h : s.RebootAdmitted false ack) (ack' : Bool) :
    s.RebootAdmitted false ack' where
  admission := h.admission
  unreserved := h.unreserved
  unforced := h.unforced
  unacknowledged hforce := by cases hforce
  capacity := h.capacity

theorem tiersMonotone_iff (hpos : 0 < s.maxQueueDepth) : s.TiersMonotone ↔ s.SlotFreeWhenIdle := by
  unfold TiersMonotone
  simp only [grantsRebootTo_iff]
  constructor
  · intro hmono hopen hpending hupdate hidle
    have hcapacity : s.activeUserJobs < s.maxQueueDepth := by omega
    have hplain : s.RebootAdmitted false false :=
      ⟨hopen, hpending, fun _ => ⟨hupdate, hidle⟩, fun hforce => absurd hforce (by decide), hcapacity⟩
    have hforced := hmono ⟨0, none⟩ 0 false false true false (by decide) (by decide) hplain
    exact (hforced.unacknowledged rfl rfl).2
  · intro hfree _ _ force ack force' ack' hforce hack h
    cases force with
    | true =>
      cases force' with
      | true => exact h.acknowledged hack
      | false => exact absurd hforce (by decide)
    | false =>
      cases force' with
      | false => exact h.plain ack'
      | true =>
        obtain ⟨hupdate, hidle⟩ := h.unforced rfl
        exact (h.plain ack').enforce fun _ => hfree h.admission h.unreserved hupdate hidle

end Tiers

end SchedulerState

/-! ## Reachable states -/

/-- In every state that a run reaches the tiers are monotone exactly when the slot is free or something other than it
stands in the way of a plain reboot. -/
theorem reboot_tiers_monotone_iff {w w' : World} {tr : List (Fired World HistoryAct)} (hw : w.Created)
    (hr : Run agentWithHistory w tr w') :
    ∀ v ∈ states w tr, v.sched.TiersMonotone ↔ v.sched.SlotFreeWhenIdle := by
  intro v hv
  refine SchedulerState.tiersMonotone_iff ?_
  rw [states_maxQueueDepth hr v hv]
  exact hw.maxQueueDepth_pos

/-- A refresh that has been given the slot. -/
def refreshInSlot : List HistoryAct :=
  [.agent (.op (.admitJob 1 .install ["__health_refresh__"])), .agent (.dispatch 1), .agent (.call 0 .check)]

def refreshInSlotRun : List (Fired World HistoryAct) := (trace agentWithHistory (freshAgent 2 10) refreshInSlot).getD []

theorem reboot_tiers_monotone_fresh :
    (endState (freshAgent 2 10) refreshInSlotRun).sched.TiersMonotone ↔
      (endState (freshAgent 2 10) refreshInSlotRun).sched.SlotFreeWhenIdle := by
  have hrun : Run agentWithHistory (freshAgent 2 10) refreshInSlotRun (endState (freshAgent 2 10) refreshInSlotRun) :=
    run_trace agentWithHistory _ refreshInSlot (by decide)
  exact reboot_tiers_monotone_iff ⟨2, 10, rfl, rfl⟩ hrun _ hrun.end_mem

/-- A plain reboot is granted beside a refresh, and the forced one is rejected for a package mutation. -/
theorem refresh_rejects_force : ∃ (w w' : World) (tr : List (Fired World HistoryAct)), w.Created ∧
    Run agentWithHistory w tr w' ∧ w'.sched.GrantsRebootTo w'.env 2 false false ∧
    (w'.sched.reserveReboot w'.env 2 true false).2 = .error .packageMutationInProgress ∧ ¬ w'.sched.TiersMonotone := by
  refine ⟨freshAgent 2 10, _, _, ⟨2, 10, rfl, rfl⟩,
    run_trace agentWithHistory (freshAgent 2 10) refreshInSlot (by decide), ?_, by decide, fun hmono => ?_⟩
  · unfold SchedulerState.GrantsRebootTo
    decide
  · have hforced := hmono ⟨0, none⟩ 2 false false true false (by decide) (by decide) (by
      unfold SchedulerState.GrantsRebootTo
      decide)
    unfold SchedulerState.GrantsRebootTo at hforced
    exact absurd hforced (by decide)

end LinuxPatchApi.Jobs
