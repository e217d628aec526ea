/-
What the operations of the scheduler do to the ledger. An operation that a task's duty allows keeps the
ledger when the task goes on to the duty that follows; a request keeps it when the task that its handler
spawned takes up the duty of that task.
-/
import LinuxPatchApi.Api.Ledger

namespace LinuxPatchApi.Api

open Interaction LinuxPatchApi.Packages LinuxPatchApi.Jobs Transition

section Operations

variable {w w' : World} {δ : Nat → Duty} {n : Nat}

/-! ## Quiet changes -/

theorem Quiet.of_sched (hs : w'.sched = w.sched) (hi : w.issued ⊆ w'.issued) : Quiet w w' :=
  ⟨hi, fun id j' hj' => ⟨j', by rw [← hs]; exact hj', rfl, .inl rfl⟩, by rw [hs], by rw [hs]⟩

/-- One job is changed, at most to a terminal status. -/
theorem Quiet.of_update {id : Uuid} {f : Job → Job} (hi : w'.issued = w.issued) (hfr : Frame w.sched w'.sched)
    (hget : ∀ k, w'.sched.jobs.get? k = if k = id then (w.sched.jobs.get? id).map f else w.sched.jobs.get? k)
    (hf : ∀ j, (f j).operation = j.operation ∧ ((f j).status = j.status ∨ (f j).status.isTerminal = true)) :
    Quiet w w' := by
  refine ⟨by rw [hi]; exact List.Subset.refl _, fun k j' hj' => ?_, hfr.rebootPending, hfr.selfUpdate⟩
  rw [hget] at hj'
  split at hj'
  · next hk =>
    obtain ⟨j, hj, rfl⟩ := Option.map_eq_some_iff.1 hj'
    exact ⟨j, by rw [hk]; exact hj, hf j⟩
  · exact ⟨j', hj', rfl, .inl rfl⟩

/-- The job of the duty is resolved. -/
theorem Ledger.finish (h : Ledger w δ) {id : Uuid} {f : Job → Job} (hd : (δ n).Resolves id)
    (hi : w'.issued = w.issued) (hfr : Frame w.sched w'.sched)
    (hget : ∀ k, w'.sched.jobs.get? k = if k = id then (w.sched.jobs.get? id).map f else w.sched.jobs.get? k)
    (hf : ∀ j, (f j).operation = j.operation ∧ (f j).status.isTerminal = true) :
    Ledger w' (Function.update δ n (δ n).resolved) := by
  refine (h.quiet (.of_update hi hfr hget fun j => ⟨(hf j).1, .inr (hf j).2⟩)).resolve hd fun j' hj' => ?_
  rw [hget, if_pos rfl] at hj'
  obtain ⟨j, _, rfl⟩ := Option.map_eq_some_iff.1 hj'
  exact (hf j).2

/-! ## Admission -/

theorem fresh_absent (hk : Known w) {id : Uuid} (hid : id ∉ w.issued) : w.sched.jobs.get? id = none := by
  cases hg : w.sched.jobs.get? id with
  | none => rfl
  | some j => exact absurd (hk id j hg) hid

/-- A new Pending job appears, which task `n` owes. -/
theorem Ledger.admit (h : Ledger w δ) (hk : Known w) {id : Uuid} {d : Duty} {j₀ : Job} (hid : id ∉ w.issued)
    (hissued : w'.issued = id :: w.issued) (hjob : d.job = some (id, .queued)) (hn : (δ n).job = none)
    (hguard : d.guard = (δ n).guard)
    (hget : ∀ k, w'.sched.jobs.get? k = if k = id then some j₀ else w.sched.jobs.get? k)
    (hop : j₀.operation ≠ .reboot) (hfree : w.sched.selfUpdate = none)
    (hr : w'.sched.rebootPending = w.sched.rebootPending)
    (hu : ∀ su, w'.sched.selfUpdate = some su → d.update = some su.jobId) : Ledger w' (Function.update δ n d) := by
  have habsent := fresh_absent hk hid
  -- the id is drawn, the task takes up its duty, and the job appears
  have h₁ : Ledger { w with issued := id :: w.issued } δ := h.quiet (.of_sched rfl (List.subset_cons_self _ _))
  have h₂ : Ledger { w with issued := id :: w.issued } (Function.update δ n d) := by
    refine h₁.assign n d (fun k stage hd => ?_) (fun r live hd => ?_) (fun k j hj _ _ hc => ?_) fun su hsu => ?_
    · rw [hjob] at hd
      cases hd
      exact ⟨List.mem_cons_self, fun j hj => by simp only [habsent] at hj; cases hj⟩
    · rw [hguard] at hd
      exact ⟨h₁.guards n r live hd, fun m live' hm => h₁.unique m n r live' live hm hd⟩
    · obtain ⟨stage, hs, _⟩ := hc
      rw [hn] at hs
      cases hs
    · simp only [hfree] at hsu
      cases hsu
  refine h₂.evolve (by rw [hissued]; exact List.Subset.refl _) (fun k j hj => ?_)
    (fun m r hg => by rw [hr]; exact (h₂.guards m r true hg).2.1 rfl) (fun k j hj hop' ha => ?_)
    (fun k j hj hop' ha => ?_) fun su hsu => ⟨n, by rw [Function.update_self]; exact hu su hsu⟩
  · rw [hget] at hj
    split at hj
    · next hkid =>
      subst hkid
      cases hj
      refine .inr ⟨fun m stage hm => ⟨?_, hop⟩, fun m live hm => ?_⟩
      · by_cases hmn : m = n
        · rw [hmn, Function.update_self, hjob] at hm
          cases hm
          rfl
        · rw [Function.update_of_ne hmn] at hm
          exact absurd (h.owed m k stage hm).1 hid
      · by_cases hmn : m = n
        · rw [hmn, Function.update_self, hguard] at hm
          exact hid (h.guards n k live hm).1
        · rw [Function.update_of_ne hmn] at hm
          exact hid (h.guards m k live hm).1
    · exact .inl ⟨j, hj, rfl, fun hp => hp⟩
  · rw [hget] at hj
    split at hj
    · next hkid =>
      subst hkid
      exact ⟨n, .queued, by rw [Function.update_self]; exact hjob, fun hs => by cases hs⟩
    · exact h₂.covered k j hj hop' ha
  · rw [hget] at hj
    rw [hr]
    split at hj
    · cases hj
      exact absurd hop' hop
    · exact h₂.reboot k j hj hop' ha

/-- `admit_job`, by task `n`. -/
theorem Ledger.admitJob (h : Ledger w δ) (hk : Known w) {id : Uuid} {operation : JobOperation} {packages : List String}
    (hn : (δ n).job = none) (hop : operation ≠ .reboot)
    (hs : w.step (.op (.admitJob id operation packages)) = some w') :
    Ledger w' (Function.update δ n ((δ n).admitted (w.sched.admitJob w.env id operation packages).2)) := by
  cases World.step_cases hs with
  | op _ hid =>
    rcases w.sched.admitJob_spec w.env id operation packages with ⟨e, he⟩ | ⟨_, hu, _, _, he⟩
    · rw [he]
      simp only [Duty.admitted, Function.update_eq_self]
      exact h.quiet (.of_sched (by simp only [SchedOp.apply, he]) (List.subset_append_right _ _))
    · rw [he]
      refine h.admit hk (hid id rfl) rfl rfl hn rfl
        (fun k => by simp only [SchedOp.apply, he, SchedulerState.notifyOne_jobs,
          SchedulerState.insertNewJob_get?]; rfl)
        hop hu (by simp only [SchedOp.apply, he]; rfl) fun su hsu => ?_
      simp only [SchedOp.apply, he, ((w.sched.insertNewJob_frame w.env id operation packages).trans
        (SchedulerState.notifyOne_frame _)).selfUpdate, hu] at hsu
      cases hsu

/-- `try_reserve_self_update`, whose job a new task owes together with the release. -/
theorem Ledger.tryReserveSelfUpdate (h : Ledger w δ) (hk : Known w) {id : Uuid} {packages : List String} {v t : String}
    (hn : δ n = .free) (hs : w.step (.op (.tryReserveSelfUpdate id packages v t)) = some w') :
    Ledger w' (Function.update δ n (match (w.sched.tryReserveSelfUpdate w.env id packages v t).2 with
      | .ok id => { Duty.ofJob id with update := some id }
      | .error _ => .free)) := by
  cases World.step_cases hs with
  | op _ hid =>
    rcases w.sched.tryReserveSelfUpdate_spec w.env id packages v t with ⟨e, he⟩ | ⟨_, hu, _, _, _, hok, hfr, hget⟩
    · rw [he]
      simp only
      rw [← hn, Function.update_eq_self]
      exact h.quiet (.of_sched (by simp only [SchedOp.apply, he]) (List.subset_append_right _ _))
    · rw [hok]
      refine h.admit hk (hid id rfl) rfl rfl (by rw [hn]; rfl) (by rw [hn]; rfl) hget (by simp) hu hfr.rebootPending
        fun su hsu => ?_
      simp only [SchedOp.apply, hfr.selfUpdate] at hsu
      cases hsu
      rfl

/-! ## Reboots -/

/-- A granted reservation, for which no duty answers yet. -/
theorem Ledger.reserve (h : Ledger w δ) {env : Env} {id : Uuid} (hid : id ∉ w.issued)
    (hissued : w'.issued = id :: w.issued) (hnone : w.sched.rebootPending = none)
    (hfr : Frame { w.sched with rebootPending := some id } w'.sched)
    (hget : ∀ k, w'.sched.jobs.get? k = if k = id then some (Job.new env id .reboot [])
      else (w.sched.jobs.get? k).map (SchedulerState.afterReboot env)) :
    Ledger w' δ ∧ GuardHeld w' id true ∧ ∀ m live, (δ m).guard ≠ some (id, live) := by
  have hguard : ∀ m live, (δ m).guard ≠ some (id, live) := fun m live hm => hid (h.guards m id live hm).1
  refine ⟨h.evolve (by rw [hissued]; exact List.subset_cons_self _ _) (fun k j' hj' => ?_) (fun m r hg => ?_)
    (fun k j' hj' hop ha => ?_) (fun k j' hj' hop ha => ?_) fun su hsu =>
      h.update su (hfr.selfUpdate ▸ hsu), ?_, hguard⟩
  · rw [hget] at hj'
    split at hj'
    · next hk =>
      subst hk
      exact .inr ⟨fun m stage hm => absurd (h.owed m k stage hm).1 hid, hguard⟩
    · obtain ⟨j, hj, rfl⟩ := Option.map_eq_some_iff.1 hj'
      refine .inl ⟨j, hj, (afterReboot_move j).operation, fun hp => ?_⟩
      unfold SchedulerState.afterReboot at hp
      split at hp
      · assumption
      · exact hp
  · have := (h.guards m r true hg).2.1 rfl
    rw [hnone] at this
    cases this
  · rw [hget] at hj'
    split at hj'
    · cases hj'
      exact absurd rfl hop
    · obtain ⟨j, hj, rfl⟩ := Option.map_eq_some_iff.1 hj'
      rw [(afterReboot_move j).operation] at hop
      -- the Pending jobs were cancelled, the others are as they were
      unfold SchedulerState.afterReboot at ha ⊢
      split at ha
      · cases ha
      · next hp =>
        rw [if_neg hp]
        exact h.covered k j hj hop ha
  · rw [hfr.rebootPending]
    rw [hget] at hj'
    split at hj'
    · next hk => rw [hk]
    · obtain ⟨j, hj, rfl⟩ := Option.map_eq_some_iff.1 hj'
      rw [(afterReboot_move j).operation] at hop
      unfold SchedulerState.afterReboot at ha
      split at ha
      · cases ha
      · have := h.reboot k j hj hop ha
        rw [hnone] at this
        cases this
  · refine ⟨by rw [hissued]; exact List.mem_cons_self, fun _ => hfr.rebootPending, fun j hj => ?_⟩
    rw [hget, if_pos rfl] at hj
    cases hj
    rfl

/-- `reserve_reboot`: the ledger is kept without an owner of the reservation (its handler was dropped), and
with task `n` as its owner. -/
theorem Ledger.reserveReboot (h : Ledger w δ) {id : Uuid} {force ack : Bool}
    (hs : w.step (.op (.reserveReboot id force ack)) = some w') :
    Ledger w' δ ∧ Ledger w' (Function.update δ n ((δ n).reserved (w.sched.reserveReboot w.env id force ack).2)) := by
  cases World.step_cases hs with
  | op _ hid =>
    rcases w.sched.reserveReboot_spec w.env id force ack with ⟨_, e, he⟩ | ⟨hadm, hok, hfr, hget⟩
    · have hsched : SchedOp.apply w.env w.sched (.reserveReboot id force ack) = w.sched := by
        simp only [SchedOp.apply, he]
      have hq := h.quiet (@Quiet.of_sched w { w with
          sched := SchedOp.apply w.env w.sched (.reserveReboot id force ack)
          issued := (SchedOp.reserveReboot id force ack).newId.toList ++ w.issued }
        hsched (List.subset_append_right _ _))
      rw [he]
      simp only [Duty.reserved, Function.update_eq_self]
      exact ⟨hq, hq⟩
    · obtain ⟨h₁, hheld, hothers⟩ := @Ledger.reserve w { w with
          sched := SchedOp.apply w.env w.sched (.reserveReboot id force ack)
          issued := (SchedOp.reserveReboot id force ack).newId.toList ++ w.issued }
        δ h w.env id (hid id rfl) rfl hadm.unreserved hfr hget
      rw [hok]
      refine ⟨h₁, h₁.assign n _ (fun k stage hd => h₁.owed n k stage hd) (fun r live hr => ?_)
        (fun k j _ _ _ hc => ?_) fun _ _ hu => hu⟩
      · simp only [Duty.reserved, Option.some.injEq, Prod.mk.injEq] at hr
        obtain ⟨rfl, rfl⟩ := hr
        exact ⟨hheld, fun m live' hm => absurd hm (hothers m live')⟩
      · obtain ⟨stage, hk, hst⟩ := hc
        exact ⟨stage, hk, fun hr => ⟨(hst hr).1, id, rfl⟩⟩

/-- `rollback_reboot`, by the holder of the reservation. -/
theorem Ledger.rollbackReboot (h : Ledger w δ) {id : Uuid} {live : Bool} {error : Option String}
    (hg : (δ n).guard = some (id, live)) (hs : w.step (.op (.rollbackReboot id error)) = some w') :
    Ledger w' (Function.update δ n (δ n).rolledBack) := by
  have h₁ := h.rollBack hg
  have hgone : (Function.update δ n (δ n).rolledBack n).guard = some (id, false) := by
    rw [Function.update_self]
    simp [Duty.rolledBack, hg]
  cases World.step_cases hs with
  | op _ hid =>
    rcases w.sched.rollbackReboot_spec w.env id error with ⟨_, he⟩ | ⟨hp, _, hfr, hget⟩
    · exact h₁.quiet (.of_sched (by simp only [SchedOp.apply, he]) (List.subset_append_right _ _))
    · refine h₁.evolve (List.subset_append_right _ _) (fun k j' hj' => .inl ?_) (fun m r hm => ?_)
        (fun k j' hj' hop ha => ?_) (fun k j' hj' hop ha => ?_) fun su hsu => ?_
      · obtain ⟨j, hj, hm⟩ := move_of_update (hget k) (fun j _ => rollbackJobState_move error j) hj'
        exact ⟨j, hj, hm.operation, hm.pending⟩
      · -- the reservation was this one, which has no live holder
        have hr := (h₁.guards m r true hm).2.1 rfl
        rw [hp] at hr
        cases hr
        obtain rfl := h₁.unique m n id true false hm hgone
        rw [hgone] at hm
        cases hm
      · simp only [SchedOp.apply, hget] at hj'
        split at hj'
        · obtain ⟨j, _, rfl⟩ := Option.map_eq_some_iff.1 hj'
          have ht := SchedulerState.rollbackJobState_terminal w.env error j
          rw [JobStatus.isTerminal_eq_not_isActive, ha] at ht
          cases ht
        · exact h₁.covered k j' hj' hop ha
      · simp only [SchedOp.apply, hget] at hj'
        split at hj'
        · obtain ⟨j, _, rfl⟩ := Option.map_eq_some_iff.1 hj'
          have ht := SchedulerState.rollbackJobState_terminal w.env error j
          rw [JobStatus.isTerminal_eq_not_isActive, ha] at ht
          cases ht
        · next hne =>
          have := h₁.reboot k j' hj' hop ha
          rw [hp] at this
          cases this
          exact absurd rfl hne
      · simp only [SchedOp.apply, hfr.selfUpdate] at hsu
        exact h₁.update su hsu

/-- `begin_reboot_execution`, by the holder of the reservation. -/
theorem Ledger.beginRebootExecution (h : Ledger w δ) {id : Uuid} {live : Bool} (hg : (δ n).guard = some (id, live))
    (hs : w.step (.op (.beginRebootExecution id)) = some w') : Ledger w' δ := by
  cases World.step_cases hs with
  | op _ hid =>
    rcases w.sched.beginRebootExecution_spec w.env id with he | ⟨j, hp, hj, _, _, hfr, j₁, hst, hop₁, _, hget⟩
    · exact h.quiet (.of_sched (by simp only [SchedOp.apply, he]) (List.subset_append_right _ _))
    · have hop := (h.guards n id live hg).2.2 j hj
      refine h.evolve (List.subset_append_right _ _) (fun k j' hj' => .inl ?_)
        (fun m r hm => hfr.rebootPending.trans ((h.guards m r true hm).2.1 rfl)) (fun k j' hj' hop' ha => ?_)
        (fun k j' hj' hop' ha => hfr.rebootPending.trans ?_) fun su hsu => h.update su (hfr.selfUpdate ▸ hsu)
      · simp only [SchedOp.apply, hget] at hj'
        split at hj'
        · next hk =>
          cases hj'
          exact ⟨j, by rw [hk]; exact hj, hop₁, fun hp => by rw [hst] at hp; cases hp⟩
        · exact ⟨j', hj', rfl, fun hp => hp⟩
      · simp only [SchedOp.apply, hget] at hj'
        split at hj'
        · cases hj'
          exact absurd (hop₁.trans hop) hop'
        · exact h.covered k j' hj' hop' ha
      · simp only [SchedOp.apply, hget] at hj'
        split at hj'
        · next hk => rw [hk]; exact hp
        · exact h.reboot k j' hj' hop' ha

/-- `set_job_rebooting`, by a task whose patches are applied and which holds a reservation. -/
theorem Ledger.setJobRebooting (h : Ledger w δ) {id r : Uuid} {message : String} (hd : (δ n).job = some (id, .started))
    (hg : (δ n).guard = some (r, true)) (hs : w.step (.op (.setJobRebooting id message)) = some w') :
    Ledger w' (Function.update δ n (δ n).rebooting) := by
  have howed := (h.owed n id .started hd).2
  cases World.step_cases hs with
  | op _ hid =>
    rcases w.sched.setJobRebooting_spec w.env id message with ⟨hne, e, he⟩ | ⟨j, hj, hrun, _, hfr, hget⟩
    · refine (h.quiet (.of_sched (by simp only [SchedOp.apply, he]) (List.subset_append_right _ _))).awaitReboot
        hd hg fun j hj ha => ?_
      simp only [SchedOp.apply, he] at hj
      have hp := (howed j hj).2 (by simp)
      have hr := hne j hj
      cases hst : j.status <;> simp_all [JobStatus.isActive]
    · refine Ledger.awaitReboot ?_ hd hg fun j' hj' _ => ?_
      · refine h.evolve (List.subset_append_right _ _) (fun k j' hj' => .inl ?_)
          (fun m r hm => hfr.rebootPending.trans ((h.guards m r true hm).2.1 rfl)) (fun k j' hj' hop ha => ?_)
          (fun k j' hj' hop ha => hfr.rebootPending.trans ?_) fun su hsu => h.update su (hfr.selfUpdate ▸ hsu)
        · simp only [SchedOp.apply, hget] at hj'
          split at hj'
          · next hk =>
            cases hj'
            exact ⟨j, by rw [hk]; exact hj, rfl, fun hp => by cases hp⟩
          · exact ⟨j', hj', rfl, fun hp => hp⟩
        · simp only [SchedOp.apply, hget] at hj'
          split at hj'
          · next hk => exact ⟨n, .started, by rw [hk]; exact hd, fun hs => by cases hs⟩
          · exact h.covered k j' hj' hop ha
        · simp only [SchedOp.apply, hget] at hj'
          split at hj'
          · cases hj'
            exact absurd hop (howed j hj).1
          · exact h.reboot k j' hj' hop ha
      · simp only [SchedOp.apply, hget, if_true] at hj'
        cases hj'
        rfl

/-- `delete_job`, by anybody. -/
theorem Ledger.deleteJob (h : Ledger w δ) {id : Uuid} (hs : w.step (.op (.deleteJob id)) = some w') : Ledger w' δ := by
  cases World.step_cases hs with
  | op _ _ =>
    rcases w.sched.deleteJob_spec id with he | ⟨_, _, _, he⟩
    · exact h.quiet (.of_sched (by simp only [SchedOp.apply, he]) (List.subset_append_right _ _))
    · refine h.quiet ⟨List.subset_append_right _ _, fun k j' hj' => ⟨j', ?_, rfl, .inl rfl⟩, ?_, ?_⟩
      all_goals simp only [SchedOp.apply, he] at *
      rw [FinMap.get?_erase] at hj'
      split at hj'
      · cases hj'
      · exact hj'

/-! ## Self-updates -/

/-- `release_self_update`, by the task that owes it. -/
theorem Ledger.releaseSelfUpdate (h : Ledger w δ) {id : Uuid} (hd : (δ n).update = some id)
    (hs : w.step (.op (.releaseSelfUpdate id)) = some w') : Ledger w' (Function.update δ n (δ n).released) := by
  cases World.step_cases hs with
  | op _ hid =>
    rcases w.sched.releaseSelfUpdate_spec id with ⟨hne, he⟩ | ⟨su, _, _, he⟩
    · exact (h.quiet (.of_sched (by simp only [SchedOp.apply, he]) (List.subset_append_right _ _))).release hd
        (by simpa only [SchedOp.apply, he] using hne)
    · refine Ledger.release ?_ hd (by simp [SchedOp.apply, he, SchedulerState.notifyOne])
      refine h.evolve (List.subset_append_right _ _) (fun k j' hj' => .inl ?_) (fun m r hm => ?_)
        (fun k j' hj' => ?_) (fun k j' hj' => ?_) (by simp [SchedOp.apply, he, SchedulerState.notifyOne])
      all_goals simp only [SchedOp.apply, he, SchedulerState.notifyOne_jobs,
        SchedulerState.notifyOne_rebootPending] at *
      · exact ⟨j', hj', rfl, fun hp => hp⟩
      · exact (h.guards m r true hm).2.1 rfl
      · exact h.covered k j' hj'
      · exact h.reboot k j' hj'

end Operations

end LinuxPatchApi.Api
