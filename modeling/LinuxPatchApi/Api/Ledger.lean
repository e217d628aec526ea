/-
Who owes what: every job that is not resolved is owed by a task, unless it is a reboot job, which holds
the reservation. Each thing that can happen to the agent, or to the duty of one task, keeps this.
-/
import LinuxPatchApi.Api.Duties
import LinuxPatchApi.Jobs.Release
import LinuxPatchApi.Jobs.Terminal

namespace LinuxPatchApi.Api

open Interaction LinuxPatchApi.Packages LinuxPatchApi.Jobs Transition

/-! ## The ledger -/

/-- The duty answers for a job with this status: it is to be resolved, or it awaits the reboot of a
reservation that is held. -/
def Duty.Covers (d : Duty) (id : Uuid) (status : JobStatus) : Prop :=
  ∃ stage, d.job = some (id, stage) ∧ (stage = .rebooting → status = .rebooting ∧ ∃ r, d.guard = some (r, true))

/-- What a duty to resolve a job at this stage says about the job, if it is in the map. -/
def JobOwed (w : World) (id : Uuid) (stage : Stage) : Prop :=
  id ∈ w.issued ∧ ∀ j, w.sched.jobs.get? id = some j →
    j.operation ≠ .reboot ∧ (stage ≠ .queued → j.status ≠ .pending)

/-- What holding a reservation says about its reboot job. -/
def GuardHeld (w : World) (r : Uuid) (live : Bool) : Prop :=
  r ∈ w.issued ∧ (live = true → w.sched.rebootPending = some r) ∧
    ∀ j, w.sched.jobs.get? r = some j → j.operation = .reboot

/-- The duties of the tasks, by number, answer for everything that is open in the agent. -/
structure Ledger (w : World) (δ : Nat → Duty) : Prop where
  owed : ∀ n id stage, (δ n).job = some (id, stage) → JobOwed w id stage
  guards : ∀ n r live, (δ n).guard = some (r, live) → GuardHeld w r live
  unique : ∀ n m r live live', (δ n).guard = some (r, live) → (δ m).guard = some (r, live') → n = m
  covered : ∀ id j, w.sched.jobs.get? id = some j → j.operation ≠ .reboot → j.status.isActive = true →
    ∃ n, (δ n).Covers id j.status
  reboot : ∀ id j, w.sched.jobs.get? id = some j → j.operation = .reboot → j.status.isActive = true →
    w.sched.rebootPending = some id
  update : ∀ su, w.sched.selfUpdate = some su → ∃ n, (δ n).update = some su.jobId

theorem startup_ledger {w : World} (h : w.Startup) : Ledger w fun _ => .free := by
  obtain ⟨mc, mq, loaded, hs, hl, _⟩ := h
  have hterminal : ∀ id j, w.sched.jobs.get? id = some j → j.status.isActive = true → False := by
    intro id j hj ha
    rw [hs] at hj
    have ht := (startup_jobs hj).1
    rw [JobStatus.isTerminal_eq_not_isActive, ha] at ht
    cases ht
  constructor
  · intro n id stage h
    cases h
  · intro n r live h
    cases h
  · intro n m r live live' h
    cases h
  · intro id j hj _ ha
    exact (hterminal id j hj ha).elim
  · intro id j hj _ ha
    exact (hterminal id j hj ha).elim
  · intro su h
    rw [hs] at h
    cases h

section Ledger

variable {w w' : World} {δ : Nat → Duty}

/-! ### One duty changes -/

/-- The duty of task `n` is replaced. -/
theorem Ledger.assign (h : Ledger w δ) (n : Nat) (d : Duty)
    (howed : ∀ id stage, d.job = some (id, stage) → JobOwed w id stage)
    (hguard : ∀ r live, d.guard = some (r, live) → GuardHeld w r live ∧
      ∀ m live', (δ m).guard = some (r, live') → m = n)
    (hcovered : ∀ id j, w.sched.jobs.get? id = some j → j.operation ≠ .reboot → j.status.isActive = true →
      (δ n).Covers id j.status → d.Covers id j.status)
    (hupdate : ∀ su, w.sched.selfUpdate = some su → (δ n).update = some su.jobId → d.update = some su.jobId) :
    Ledger w (Function.update δ n d) := by
  constructor
  · intro m id stage hm
    by_cases hmn : m = n
    · subst hmn
      rw [Function.update_self] at hm
      exact howed id stage hm
    · rw [Function.update_of_ne hmn] at hm
      exact h.owed m id stage hm
  · intro m r live hm
    by_cases hmn : m = n
    · subst hmn
      rw [Function.update_self] at hm
      exact (hguard r live hm).1
    · rw [Function.update_of_ne hmn] at hm
      exact h.guards m r live hm
  · intro m m' r live live' hm hm'
    by_cases hmn : m = n
    · by_cases hmn' : m' = n
      · rw [hmn, hmn']
      · subst hmn
        rw [Function.update_self] at hm
        rw [Function.update_of_ne hmn'] at hm'
        exact ((hguard r live hm).2 m' live' hm').symm
    · rw [Function.update_of_ne hmn] at hm
      by_cases hmn' : m' = n
      · subst hmn'
        rw [Function.update_self] at hm'
        exact (hguard r live' hm').2 m live hm
      · rw [Function.update_of_ne hmn'] at hm'
        exact h.unique m m' r live live' hm hm'
  · intro id j hj hop ha
    obtain ⟨m, hm⟩ := h.covered id j hj hop ha
    by_cases hmn : m = n
    · subst hmn
      exact ⟨m, by rw [Function.update_self]; exact hcovered id j hj hop ha hm⟩
    · exact ⟨m, by rw [Function.update_of_ne hmn]; exact hm⟩
  · exact h.reboot
  · intro su hsu
    obtain ⟨m, hm⟩ := h.update su hsu
    by_cases hmn : m = n
    · subst hmn
      exact ⟨m, by rw [Function.update_self]; exact hupdate su hsu hm⟩
    · exact ⟨m, by rw [Function.update_of_ne hmn]; exact hm⟩

/-- A job that is over is not owed any more. -/
theorem Ledger.resolve (h : Ledger w δ) {n : Nat} {id : Uuid} (hd : (δ n).Resolves id) (hover : Over w id) :
    Ledger w (Function.update δ n (δ n).resolved) := by
  obtain ⟨stage, hd⟩ := hd
  refine h.assign n _ (fun _ _ h => by cases h) (fun r live hr => ⟨h.guards n r live hr, fun m live' hm =>
    h.unique m n r live' live hm hr⟩) (fun k j hj _ ha hc => ?_) fun _ _ hu => hu
  obtain ⟨stage', hk, _⟩ := hc
  rw [hd] at hk
  cases hk
  have ht := hover j hj
  rw [JobStatus.isTerminal_eq_not_isActive, ha] at ht
  cases ht

/-- The mutation of the job returned with success, so that the job is not Pending any more. -/
theorem Ledger.start (h : Ledger w δ) {n : Nat} {id : Uuid} (hd : (δ n).job = some (id, .queued))
    (hst : ∀ j, w.sched.jobs.get? id = some j → j.status ≠ .pending) :
    Ledger w (Function.update δ n ((δ n).dispatched (.ok ()))) := by
  obtain ⟨hid, hop⟩ := h.owed n id .queued hd
  refine h.assign n _ (fun k stage hk => ?_) (fun r live hr => ⟨h.guards n r live hr, fun m live' hm =>
    h.unique m n r live' live hm hr⟩) (fun k j hj hopk ha hc => ?_) fun _ _ hu => hu
  · simp only [Duty.dispatched, hd, Option.map_some, Option.some.injEq, Prod.mk.injEq] at hk
    obtain ⟨rfl, rfl⟩ := hk
    exact ⟨hid, fun j hj => ⟨(hop j hj).1, fun _ => hst j hj⟩⟩
  · obtain ⟨stage, hk, _⟩ := hc
    refine ⟨.started, ?_, fun hs => by cases hs⟩
    rw [hd] at hk
    cases hk
    simp [Duty.dispatched, hd]

/-- The job was set Rebooting under a reservation. -/
theorem Ledger.awaitReboot (h : Ledger w δ) {n : Nat} {id r : Uuid} (hd : (δ n).job = some (id, .started))
    (hg : (δ n).guard = some (r, true))
    (hst : ∀ j, w.sched.jobs.get? id = some j → j.status.isActive = true → j.status = .rebooting) :
    Ledger w (Function.update δ n (δ n).rebooting) := by
  obtain ⟨hid, hop⟩ := h.owed n id .started hd
  refine h.assign n _ (fun k stage hk => ?_) (fun r live hr => ⟨h.guards n r live hr, fun m live' hm =>
    h.unique m n r live' live hm hr⟩) (fun k j hj hopk ha hc => ?_) fun _ _ hu => hu
  · simp only [Duty.rebooting, hd, Option.map_some, Option.some.injEq, Prod.mk.injEq] at hk
    obtain ⟨rfl, rfl⟩ := hk
    exact ⟨hid, fun j hj => ⟨(hop j hj).1, fun _ => (hop j hj).2 (by simp)⟩⟩
  · obtain ⟨stage, hk, _⟩ := hc
    rw [hd] at hk
    cases hk
    exact ⟨.rebooting, by simp [Duty.rebooting, hd], fun _ => ⟨hst j hj ha, r, hg⟩⟩

/-- A reservation is given up. -/
theorem Ledger.rollBack (h : Ledger w δ) {n : Nat} {r : Uuid} {live : Bool} (hg : (δ n).guard = some (r, live)) :
    Ledger w (Function.update δ n (δ n).rolledBack) := by
  obtain ⟨hr, _, hop⟩ := h.guards n r live hg
  refine h.assign n _ (fun k stage hk => ?_) (fun r' live' hr' => ?_) (fun k j hj hopk ha hc => ?_) fun _ _ hu => hu
  · simp only [Duty.rolledBack, Option.map_eq_some_iff, Prod.mk.injEq] at hk
    obtain ⟨⟨k', stage'⟩, hk', rfl, rfl⟩ := hk
    obtain ⟨hid, howed⟩ := h.owed n k' stage' hk'
    refine ⟨hid, fun j hj => ⟨(howed j hj).1, fun hq => (howed j hj).2 ?_⟩⟩
    rintro rfl
    exact hq rfl
  · simp only [Duty.rolledBack, hg, Option.map_some, Option.some.injEq, Prod.mk.injEq] at hr'
    obtain ⟨rfl, rfl⟩ := hr'
    exact ⟨⟨hr, by simp, hop⟩, fun m live' hm => h.unique m n r live' live hm hg⟩
  · obtain ⟨stage, hk, _⟩ := hc
    refine ⟨stage.unreserved, by simp [Duty.rolledBack, hk], fun hs => ?_⟩
    cases stage <;> cases hs

/-- A self-update that is not the reserved one is not owed any more. -/
theorem Ledger.release (h : Ledger w δ) {n : Nat} {id : Uuid} (hd : (δ n).update = some id)
    (hover : ∀ su, w.sched.selfUpdate = some su → su.jobId ≠ id) :
    Ledger w (Function.update δ n (δ n).released) := by
  refine h.assign n _ (fun k stage hk => h.owed n k stage hk) (fun r live hr => ⟨h.guards n r live hr,
    fun m live' hm => h.unique m n r live' live hm hr⟩) (fun _ _ _ _ _ hc => hc) fun su hsu hu => ?_
  rw [hd] at hu
  cases hu
  exact absurd rfl (hover su hsu)

/-! ### The agent changes -/

/-- The duties stay. A job in the map is an old one, which has not become Pending, or a new one of
which a duty says at most that it is queued. -/
theorem Ledger.evolve (h : Ledger w δ) (hissued : w.issued ⊆ w'.issued)
    (hjobs : ∀ id j', w'.sched.jobs.get? id = some j' →
      (∃ j, w.sched.jobs.get? id = some j ∧ j'.operation = j.operation ∧ (j'.status = .pending → j.status = .pending)) ∨
      (∀ n stage, (δ n).job = some (id, stage) → stage = .queued ∧ j'.operation ≠ .reboot) ∧
        ∀ n live, (δ n).guard ≠ some (id, live))
    (hlive : ∀ n r, (δ n).guard = some (r, true) → w'.sched.rebootPending = some r)
    (hcovered : ∀ id j, w'.sched.jobs.get? id = some j → j.operation ≠ .reboot → j.status.isActive = true →
      ∃ n, (δ n).Covers id j.status)
    (hreboot : ∀ id j, w'.sched.jobs.get? id = some j → j.operation = .reboot → j.status.isActive = true →
      w'.sched.rebootPending = some id)
    (hupdate : ∀ su, w'.sched.selfUpdate = some su → ∃ n, (δ n).update = some su.jobId) : Ledger w' δ := by
  refine ⟨fun n id stage hd => ?_, fun n r live hg => ?_, h.unique, hcovered, hreboot, hupdate⟩
  · obtain ⟨hid, howed⟩ := h.owed n id stage hd
    refine ⟨hissued hid, fun j' hj' => ?_⟩
    rcases hjobs id j' hj' with ⟨j, hj, hop, hst⟩ | ⟨hnew, _⟩
    · rw [hop]
      exact ⟨(howed j hj).1, fun hq hp => (howed j hj).2 hq (hst hp)⟩
    · obtain ⟨rfl, hop⟩ := hnew n stage hd
      exact ⟨hop, fun hq => absurd rfl hq⟩
  · obtain ⟨hr, _, hop⟩ := h.guards n r live hg
    refine ⟨hissued hr, fun hl => hlive n r (hl ▸ hg), fun j' hj' => ?_⟩
    rcases hjobs r j' hj' with ⟨j, hj, hop', _⟩ | ⟨_, hnew⟩
    · rw [hop', hop j hj]
    · exact absurd hg (hnew n live)

/-- Nothing was opened: jobs stay or become terminal, and the reservations stay. -/
structure Quiet (w w' : World) : Prop where
  issued : w.issued ⊆ w'.issued
  jobs : ∀ id j', w'.sched.jobs.get? id = some j' → ∃ j, w.sched.jobs.get? id = some j ∧
    j'.operation = j.operation ∧ (j'.status = j.status ∨ j'.status.isTerminal = true)
  rebootPending : w'.sched.rebootPending = w.sched.rebootPending
  selfUpdate : w'.sched.selfUpdate = w.sched.selfUpdate

theorem Ledger.quiet (h : Ledger w δ) (hq : Quiet w w') : Ledger w' δ := by
  have active : ∀ id j', w'.sched.jobs.get? id = some j' → j'.status.isActive = true →
      ∃ j, w.sched.jobs.get? id = some j ∧ j'.operation = j.operation ∧ j'.status = j.status := by
    intro id j' hj' ha
    obtain ⟨j, hj, hop, hst | ht⟩ := hq.jobs id j' hj'
    · exact ⟨j, hj, hop, hst⟩
    · rw [JobStatus.isTerminal_eq_not_isActive, ha] at ht
      cases ht
  refine h.evolve hq.issued (fun id j' hj' => ?_) (fun n r hg => ?_) (fun id j' hj' hop ha => ?_)
    (fun id j' hj' hop ha => ?_) fun su hsu => h.update su (hq.selfUpdate ▸ hsu)
  · obtain ⟨j, hj, hop, hst⟩ := hq.jobs id j' hj'
    refine .inl ⟨j, hj, hop, fun hp => ?_⟩
    rcases hst with hst | ht
    · rw [← hst, hp]
    · rw [hp] at ht
      cases ht
  · rw [hq.rebootPending]
    exact (h.guards n r true hg).2.1 rfl
  · obtain ⟨j, hj, hop', hst⟩ := active id j' hj' ha
    rw [hst] at ha ⊢
    exact h.covered id j hj (hop' ▸ hop) ha
  · obtain ⟨j, hj, hop', hst⟩ := active id j' hj' ha
    rw [hq.rebootPending]
    exact h.reboot id j hj (hop' ▸ hop) (hst ▸ ha)

end Ledger

end LinuxPatchApi.Api
