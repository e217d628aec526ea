/-
Unacknowledged reboots and package mutations. A reservation granted without the corruption
acknowledgement finds no self-update, and a free slot or one held by an internal job, exactly when
no step has ended or deleted the job of a mutation that the non-forced tier looks past; and while a
reservation stands nothing acquires the slot and no self-update is reserved.
-/
import LinuxPatchApi.Jobs.Control
import LinuxPatchApi.Jobs.Terminal

namespace LinuxPatchApi.Jobs

open LinuxPatchApi.Packages Transition

/-! ## While a reservation stands -/

/-- Only its own roll-back clears a reservation. -/
theorem apply_reserved {env : Env} {s : SchedulerState} {o : SchedOp} {id : Uuid}
    (h : s.rebootPending = some id) (ho : ∀ e, o ≠ .rollbackReboot id e) :
    (o.apply env s).rebootPending = some id := by
  rcases apply_rebootPending env s o with hr | ⟨_, _, _, _, _, hr, _⟩ | ⟨i, e, rfl, hr, _⟩
  · exact hr.trans h
  · rw [h] at hr; cases hr
  · rw [h] at hr; cases hr
    exact absurd rfl (ho e)

/-- The step calls `rollback_reboot` for the reservation. -/
def RollsBack (f : Fired World Act) (id : Uuid) : Prop := ∃ e, f.act = .op (.rollbackReboot id e)

theorem reserved_step {f : Fired World Act} (hf : IsStep agent f) {id : Uuid} (hn : ¬ RollsBack f id)
    (h : f.pre.sched.rebootPending = some id) : f.post.sched.rebootPending = some id := by
  obtain ⟨w, a, w'⟩ := f
  have hs : WorldStep w a w' := agent_step hf
  simp only at h ⊢
  cases hs with
  | op o _ => exact apply_reserved h fun e he => hn ⟨e, by rw [he]⟩
  | dispatch | tick => exact h
  | call c a call call' s' hc hcs =>
    cases hcs with
    | acquired b s' _ hr _ _ => rw [hr.unreserved] at h; cases h
    | finalized r i _ =>
      exact (SchedulerState.finalizeMutation_frame w.env w.sched call.jobId call.generation r
        (decide (call.caller = .awaiting))).rebootPending.trans h
    | rejected | waiting | registered | woken | spawned | started | ran | exited | joined | elapsed
    | received | dropped => exact h

/-- The step reserves a self-update. -/
def ReservesSelfUpdate (f : Fired World Act) : Prop :=
  ∃ id ps v w, f.act = .op (.tryReserveSelfUpdate id ps v w) ∧
    (f.pre.sched.tryReserveSelfUpdate f.pre.env id ps v w).2 = .ok id

theorem sealed_step {f : Fired World Act} {id : Uuid} (h : f.pre.sched.rebootPending = some id) :
    (∀ c call, ¬ Acquires f c call) ∧ ¬ ReservesSelfUpdate f := by
  refine ⟨fun c call ha => ?_, ?_⟩
  · rw [ha.ready.unreserved] at h; cases h
  · rintro ⟨i, ps, v, w, _, hok⟩
    rcases f.pre.sched.tryReserveSelfUpdate_spec f.pre.env i ps v w with ⟨e, he⟩ | ⟨_, _, hr, _⟩
    · rw [he] at hok; cases hok
    · rw [hr] at h; cases h

/-! ## Granting a reservation -/

/-- The step grants a reboot reservation to the new job `id`. -/
def GrantsReboot (f : Fired World Act) (id : Uuid) (force ack : Bool) : Prop :=
  f.act = .op (.reserveReboot id force ack) ∧ (f.pre.sched.reserveReboot f.pre.env id force ack).2 = .ok id

theorem grants_reserved {f : Fired World Act} (hf : IsStep agent f) {id : Uuid} {force ack : Bool}
    (hg : GrantsReboot f id force ack) : f.post.sched.rebootPending = some id := by
  obtain ⟨w, a, w'⟩ := f
  obtain ⟨hact, hok⟩ := hg
  have hs : WorldStep w a w' := agent_step hf
  simp only at hact hok ⊢
  subst hact
  cases hs with
  | op o _ =>
    simp only [SchedOp.apply]
    rcases w.sched.reserveReboot_spec w.env id force ack with ⟨_, e, he⟩ | ⟨_, _, hfr, _⟩
    · rw [he] at hok; cases hok
    · exact hfr.rebootPending

/-- No package mutation is cut: no self-update, and the slot is free or, for a non-forced reboot,
held by a job in the map that is internal. -/
structure CutsNoMutation (s : SchedulerState) (force : Bool) : Prop where
  selfUpdate : s.selfUpdate = none
  slot : s.activeMutation = none ∨
    (force = false ∧ ∃ m j, s.activeMutation = some m ∧ s.jobs.get? m = some j ∧ j.isInternal = true)

/-- On the run, unacknowledged reservations cut no mutation when they are granted, and until such a
reservation is rolled back nothing acquires the slot and no self-update is reserved. -/
structure RebootSafe (tr : List (Fired World Act)) : Prop where
  granted : ∀ f ∈ tr, ∀ id force, GrantsReboot f id force false → CutsNoMutation f.pre.sched force
  held : ∀ pre f mid g post id force, tr = pre ++ f :: mid ++ g :: post → GrantsReboot f id force false →
    (∀ h ∈ mid, ¬ RollsBack h id) → (∀ c call, ¬ Acquires g c call) ∧ ¬ ReservesSelfUpdate g

/-- An active job that the non-forced tier lets pass is an internal one. -/
theorem internal_of_active {s : SchedulerState} (h : s.activeUserJobs = 0) {m : Uuid} {j : Job}
    (hj : s.jobs.get? m = some j) (ha : j.status.isActive = true) : j.isInternal = true := by
  have := FinMap.count_eq_zero.1 h m j hj
  simpa [ha] using this

/-! ## The holder of the slot -/

/-- A job of this status has not ended. -/
def Active (st : Option JobStatus) : Prop := ∃ status, st = some status ∧ status.isActive = true

/-- The step creates the job, and as an internal one. -/
def CreatesInternal (k : Uuid) (f : Fired World Act) : Prop :=
  (∃ o, f.act = .op o ∧ o.created f.pre.env f.pre.sched = some k) ∧
    ∃ j, f.post.sched.jobs.get? k = some j ∧ j.isInternal = true

/-- The job was admitted or started, and since then no step has ended or deleted it. -/
def NotEnded (tr : List (Fired World Act)) (k : Uuid) : Prop :=
  Since False (SetsStatus Active k) (OnlySetsStatus Active k) tr

/-- The job was loaded or admitted as an internal one, and since then no step has deleted it. -/
def InternalNotDeleted (w : World) (tr : List (Fired World Act)) (k : Uuid) : Prop :=
  Since (w.sched.heldByInternal k = true) (CreatesInternal k) (fun f => ¬ StatusWrite f.pre k f.act none) tr

/-- A non-forced reservation that passes every check of the code while a job holds the slot comes before any step that
ends or deletes the job; an internal job may have ended. -/
def HolderNotEnded (w : World) (pre : List (Fired World Act)) (f : Fired World Act) : Prop :=
  ∀ id m, f.act = .op (.reserveReboot id false false) → f.pre.sched.RebootAdmitted false false →
    f.pre.sched.activeMutation = some m → NotEnded pre m ∨ InternalNotDeleted w pre m

theorem heldByInternal_iff {s : SchedulerState} {k : Uuid} :
    s.heldByInternal k = true ↔ ∃ j, s.jobs.get? k = some j ∧ j.isInternal = true := by
  unfold SchedulerState.heldByInternal
  cases s.jobs.get? k <;> simp

/-- A job keeps its packages as long as it is in the map. -/
theorem step_packages {f : Fired World Act} (hf : IsStep agent f) {k : Uuid} {j j' : Job}
    (hk : Known f.pre) (hj : f.pre.sched.jobs.get? k = some j) (hj' : f.post.sched.jobs.get? k = some j') :
    j'.packages = j.packages := by
  cases hu : f.act.isUpdateJob with
  | false =>
    rcases step_jobs hf hu hj' with ⟨hnew, _⟩ | ⟨i, hi, hm | ⟨_, _, _, _, _, hps, _⟩⟩
    · exact absurd (hk k j hj) hnew
    · rw [hj] at hi; cases hi
      exact hm.packages
    · rw [hj] at hi; cases hi
      exact hps
  | true =>
    obtain ⟨w, a, w'⟩ := f
    have hs : WorldStep w a w' := agent_step hf
    cases hs with
    | op o _ =>
      cases o with
      | updateJob id st p m =>
        simp only [SchedOp.apply] at hj hj'
        rcases w.sched.updateJob_spec w.env id st p m with ⟨e, he⟩ | ⟨_, _, hg⟩
        · rw [he, hj] at hj'
          cases hj'; rfl
        · rw [hg] at hj'
          split at hj'
          · next hid =>
            rw [← hid, hj] at hj'
            cases hj'; rfl
          · rw [hj] at hj'
            cases hj'; rfl
      | _ => cases hu
    | _ => cases hu

/-- Only a creation and a deletion change whether an internal job is there. -/
theorem heldByInternal_step {f : Fired World Act} (hf : IsStep agent f) (hk : Known f.pre) {k : Uuid} :
    f.post.sched.heldByInternal k = true ↔
      CreatesInternal k f ∨ (¬ StatusWrite f.pre k f.act none ∧ f.pre.sched.heldByInternal k = true) := by
  rw [heldByInternal_iff, heldByInternal_iff]
  constructor
  · rintro ⟨j', hj', hint⟩
    cases hj : f.pre.sched.jobs.get? k with
    | none => exact .inl ⟨created_of_new hf hj hj', j', hj', hint⟩
    | some j =>
      refine .inr ⟨fun hw => ?_, j, rfl, ?_⟩
      · have hgone := status_written hf hw
        rw [statusIn, hj'] at hgone
        cases hgone
      · rw [← Job.isInternal_congr (step_packages hf hk hj hj')]
        exact hint
  · rintro (⟨_, h⟩ | ⟨hkept, j, hj, hint⟩)
    · exact h
    · -- the job is still there, for no step but a deletion takes it out of the map
      have hthere : statusIn k f.post ≠ none := by
        rw [ne_eq, status_step hf (A := fun st => st = none)]
        rintro (⟨_, hw, rfl⟩ | ⟨_, hnone⟩)
        · exact hkept hw
        · rw [statusIn, hj] at hnone
          cases hnone
      obtain ⟨st, hst⟩ := Option.ne_none_iff_exists'.1 hthere
      obtain ⟨j', hj', _⟩ := Option.map_eq_some_iff.1 hst
      exact ⟨j', hj', by rw [Job.isInternal_congr (step_packages hf hk hj hj')]; exact hint⟩

section Holder

variable {w w' : World} {tr : List (Fired World Act)} {k : Uuid}

theorem notEnded_iff (hw : w.Startup) (hr : Run agent w tr w') :
    NotEnded tr k ↔ ∃ j, w'.sched.jobs.get? k = some j ∧ j.status.isActive = true := by
  have hsince : Active (statusIn k w') ↔ NotEnded tr k := status_since hw hr fun _ h => h
  rw [← hsince, Active, statusIn]
  cases w'.sched.jobs.get? k <;> simp

theorem internalNotDeleted_iff (hw : w.Startup) (hr : Run agent w tr w') :
    InternalNotDeleted w tr k ↔ w'.sched.heldByInternal k = true := by
  have hknown := run_known hw hr
  exact (hr.since_iff (I := fun v : World => v.sched.heldByInternal k = true) (P := CreatesInternal k)
    (Q := fun f => ¬ StatusWrite f.pre k f.act none) fun f hf hs => heldByInternal_step hs (hknown f hf)).symm

/-- After a run, the state cuts no mutation exactly when the job that holds the slot has not ended or is internal. -/
theorem cutsNoMutation_iff (hw : w.Startup) (hr : Run agent w tr w') (hadm : w'.sched.RebootAdmitted false false) :
    CutsNoMutation w'.sched false ↔
      ∀ m, w'.sched.activeMutation = some m → NotEnded tr m ∨ InternalNotDeleted w tr m := by
  constructor
  · rintro ⟨_, hslot⟩ m hm
    rcases hslot with h | ⟨_, m', j, hm', hj, hint⟩
    · rw [hm] at h; cases h
    · rw [hm] at hm'; cases hm'
      exact .inr ((internalNotDeleted_iff hw hr).2 (heldByInternal_iff.2 ⟨j, hj, hint⟩))
  · intro h
    refine ⟨(hadm.unforced rfl).1, ?_⟩
    cases hm : w'.sched.activeMutation with
    | none => exact .inl rfl
    | some m =>
      refine .inr ⟨rfl, m, ?_⟩
      rcases h m hm with hactive | hint
      · -- the tier counts the active jobs, and lets only an internal one pass
        obtain ⟨j, hj, ha⟩ := (notEnded_iff hw hr).1 hactive
        exact ⟨j, rfl, hj, internal_of_active (hadm.unforced rfl).2 hj ha⟩
      · obtain ⟨j, hj, hint⟩ := heldByInternal_iff.1 ((internalNotDeleted_iff hw hr).1 hint)
        exact ⟨j, rfl, hj, hint⟩

end Holder

theorem held_until_rollback {w w' : World} {tr pre mid post : List (Fired World Act)} {f g : Fired World Act}
    (hr : Run agent w tr w') (htr : tr = pre ++ f :: mid ++ g :: post) {id : Uuid} {force : Bool}
    (hg : GrantsReboot f id force false) (hmid : ∀ h ∈ mid, ¬ RollsBack h id) :
    g.pre.sched.rebootPending = some id := by
  obtain ⟨hbefore, _⟩ := hr.split htr
  obtain ⟨_, hbetween⟩ := hbefore.split rfl
  exact hbetween.invariant (I := fun v => v.sched.rebootPending = some id)
    (G := fun h => ¬ RollsBack h id) (fun h hs hn hi => reserved_step hs hn hi)
    (grants_reserved (hr.step_of_mem f (by simp [htr])) hg) hmid

/-- Unacknowledged reboots never cut a package mutation on a run from startup exactly when, at every non-forced
reservation that the code lets pass, no step has ended or deleted the job that holds the slot, unless it is internal. -/
theorem reboot_safe_iff {w w' : World} {tr : List (Fired World Act)} (hw : w.Startup) (hr : Run agent w tr w') :
    RebootSafe tr ↔ ∀ pre f post, tr = pre ++ f :: post → HolderNotEnded w pre f := by
  constructor
  · rintro h pre f post rfl id m hact hadm hm
    obtain ⟨hpre, _⟩ := hr.split rfl
    have hok : (f.pre.sched.reserveReboot f.pre.env id false false).2 = .ok id := by
      rcases f.pre.sched.reserveReboot_spec f.pre.env id false false with ⟨hn, _⟩ | ⟨_, hok, _⟩
      · exact absurd hadm hn
      · exact hok
    exact (cutsNoMutation_iff hw hpre hadm).1 (h.granted f (by simp) id false ⟨hact, hok⟩) m hm
  · intro h
    refine ⟨fun f hf id force hg => ?_, fun pre f mid g post id force htr hg hmid =>
      sealed_step (held_until_rollback hr htr hg hmid)⟩
    obtain ⟨hact, hok⟩ := hg
    obtain ⟨pre, post, htr, hpre, _⟩ := hr.split_of_mem hf
    rcases f.pre.sched.reserveReboot_spec f.pre.env id force false with ⟨_, e, he⟩ | ⟨hadm, _⟩
    · rw [he] at hok; cases hok
    · cases force with
      | false => exact (cutsNoMutation_iff hw hpre hadm).2 fun m hm => h pre f post htr id m hact hadm hm
      | true =>
        obtain ⟨hu, hm⟩ := hadm.unacknowledged rfl rfl
        exact ⟨hu, .inl hm⟩

/-- Job 1 is cancelled by a forced reboot that is rolled back, deleted, and dispatched all the same;
then a plain reboot is requested. -/
def rebootDuringGhost : List Act :=
  [.op (.admitJob 1 .install ["vim"]), .dispatch 1, .op (.reserveReboot 2 true true),
    .op (.rollbackReboot 2 (some "reboot failed")), .op (.deleteJob 1), .call 0 .check,
    .call 0 .spawnWatchdog, .call 0 .startWatchdog, .call 0 .runClosure, .op (.reserveReboot 3 false false)]

/-- The non-forced reservation is granted while a package mutation executes. -/
theorem reboot_cuts_mutation : ∃ (w w' : World) (tr : List (Fired World Act)), w.Startup ∧ Run agent w tr w' ∧
    ¬ RebootSafe tr := by
  refine ⟨freshAgent 2 10, _, _, freshAgent_startup 2 10,
    run_trace agent (freshAgent 2 10) rebootDuringGhost (by decide), fun h => ?_⟩
  have hcut := h.granted _ (List.get_mem _ ⟨9, by decide⟩) 3 false ⟨by decide, by decide⟩
  rcases hcut.slot with hs | ⟨_, m, j, hm, hj, _⟩
  · exact absurd hs (by decide)
  · rw [show SchedulerState.activeMutation _ = some 1 from by decide] at hm
    cases hm
    rw [show FinMap.get? _ _ = none from by decide] at hj
    cases hj

/-- A plain reboot of an idle agent after an orderly run. -/
def rebootWhenIdle : List Act := orderlyInstall ++ [.op (.reserveReboot 2 false false)]

theorem reboot_safe_idle : RebootSafe ((trace agent (freshAgent 2 10) rebootWhenIdle).getD []) ↔
    ∀ pre f post, (trace agent (freshAgent 2 10) rebootWhenIdle).getD [] = pre ++ f :: post →
      HolderNotEnded (freshAgent 2 10) pre f :=
  reboot_safe_iff (freshAgent_startup 2 10) (run_trace agent _ rebootWhenIdle (by decide))

end LinuxPatchApi.Jobs
