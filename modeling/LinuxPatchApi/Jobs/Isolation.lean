/-
Isolation of self-updates. While a self-update is reserved only its own job acquires the slot, nothing is
admitted, and the active jobs are internal ones, the job of the self-update and reboots that were forced
with the corruption risk acknowledged.
-/
import LinuxPatchApi.Jobs.Ownership

namespace LinuxPatchApi.Jobs

open LinuxPatchApi.Packages Transition

/-! ## One step -/

/-- The step creates a job by `admit_job` or `create_rollback_job`. -/
def Admits (f : Fired World Act) : Prop :=
  (∃ id op ps i, f.act = .op (.admitJob id op ps) ∧ (f.pre.sched.admitJob f.pre.env id op ps).2 = .ok i) ∨
  ∃ id original i, f.act = .op (.createRollbackJob id original) ∧
    (f.pre.sched.createRollbackJob f.pre.env id original).2 = .ok (some i)

theorem not_admits {f : Fired World Act} {su : UpgradeOperation} (hsu : f.pre.sched.selfUpdate = some su) :
    ¬ Admits f := by
  rintro (⟨id, op, ps, i, _, hok⟩ | ⟨id, original, i, _, hok⟩)
  · rcases f.pre.sched.admitJob_spec f.pre.env id op ps with ⟨e, he⟩ | ⟨_, hu, _⟩
    · rw [he] at hok; cases hok
    · rw [hsu] at hu; cases hu
  · rcases f.pre.sched.createRollbackJob_spec f.pre.env id original with ⟨r, he, hr⟩ | ⟨_, _, _, _, hu, _⟩
    · rw [he] at hok; exact hr i hok
    · rw [hsu] at hu; cases hu

/-- An operation that leaves a new job behind while a self-update is reserved is an acknowledged, forced
reboot. -/
theorem new_job_is_reboot {f : Fired World Act} {o : SchedOp} (hact : f.act = .op o) {su : UpgradeOperation}
    (hsu : f.pre.sched.selfUpdate = some su) {id : Uuid} {j : Job} (hnew : o.newId = some id)
    (habsent : f.pre.sched.jobs.get? id = none) (hj : (o.apply f.pre.env f.pre.sched).jobs.get? id = some j) :
    j.operation = .reboot ∧ GrantsReboot f id true true := by
  have same : (o.apply f.pre.env f.pre.sched).jobs = f.pre.sched.jobs → False := by
    intro hs
    rw [hs, habsent] at hj
    cases hj
  cases o with
  | admitJob i op ps =>
    rcases f.pre.sched.admitJob_spec f.pre.env i op ps with ⟨e, he⟩ | ⟨_, hu, _⟩
    · exact (same (by simp only [SchedOp.apply, he])).elim
    · rw [hsu] at hu; cases hu
  | createRollbackJob i original =>
    rcases f.pre.sched.createRollbackJob_spec f.pre.env i original with ⟨r, he, _⟩ | ⟨_, _, _, _, hu, _⟩
    · exact (same (by simp only [SchedOp.apply, he])).elim
    · rw [hsu] at hu; cases hu
  | tryReserveSelfUpdate i ps v t =>
    rcases f.pre.sched.tryReserveSelfUpdate_spec f.pre.env i ps v t with ⟨e, he⟩ | ⟨_, hu, _⟩
    · exact (same (by simp only [SchedOp.apply, he])).elim
    · rw [hsu] at hu; cases hu
  | reserveReboot i force ack =>
    cases hnew
    rcases f.pre.sched.reserveReboot_spec f.pre.env id force ack with ⟨_, e, he⟩ | ⟨hadm, hok, _, hget⟩
    · exact (same (by simp only [SchedOp.apply, he])).elim
    · have hforce : force = true := by
        by_contra hforce
        have := (hadm.unforced (by simpa using hforce)).1
        rw [hsu] at this; cases this
      have hack : ack = true := by
        by_contra hack
        have := (hadm.unacknowledged hforce (by simpa using hack)).1
        rw [hsu] at this; cases this
      subst hforce hack
      simp only [SchedOp.apply, hget, if_true] at hj
      cases hj
      exact ⟨rfl, hact, hok⟩
  | _ => cases hnew

theorem step_selfUpdate {f : Fired World Act} (hf : IsStep agent f) :
    f.post.sched.selfUpdate = f.pre.sched.selfUpdate ∨
    (∃ id ps v t, f.act = .op (.tryReserveSelfUpdate id ps v t) ∧
      (f.pre.sched.tryReserveSelfUpdate f.pre.env id ps v t).2 = .ok id ∧ f.pre.sched.selfUpdate = none ∧
      f.post.sched.selfUpdate = some ⟨id, v, t, f.pre.sched.generationCounter⟩) ∨
    ∃ su o, f.act = .op o ∧ f.pre.sched.selfUpdate = some su ∧ o.ReleasesUpdate su.jobId ∧
      f.post.sched.selfUpdate = none := by
  obtain ⟨w, a, w'⟩ := f
  have hs : WorldStep w a w' := agent_step hf
  cases hs with
  | op o _ =>
    rcases apply_selfUpdate w.env w.sched o with h | ⟨id, ps, v, t, rfl, hok, hn, hu⟩ | ⟨su, hsu, hrel, hn⟩
    · exact .inl h
    · exact .inr (.inl ⟨id, ps, v, t, rfl, hok, hn, hu⟩)
    · exact .inr (.inr ⟨su, o, rfl, hsu, hrel, hn⟩)
  | dispatch | tick => exact .inl rfl
  | call c a call call' s' _ hcs =>
    cases hcs with
    | acquired b s' _ _ hfr _ => exact .inl hfr.selfUpdate
    | finalized r i _ => exact .inl (w.sched.finalizeMutation_frame w.env _ _ r _).selfUpdate
    | _ => exact .inl rfl

/-! ## Runs -/

/-- An active job that is no tracking job is the job of the self-update, or a reboot that was forced with
the risk acknowledged. -/
def Isolated (tr : List (Fired World Act)) (s : SchedulerState) : Prop :=
  ∀ su, s.selfUpdate = some su → ∀ id j, s.jobs.get? id = some j → j.status.isActive = true → j.isInternal = false →
    id = su.jobId ∨ j.operation = .reboot ∧ ∃ f ∈ tr, GrantsReboot f id true true

theorem isolated_step {tr : List (Fired World Act)} {f : Fired World Act} (hf : IsStep agent f) (hu : NoUpdateJob f)
    (hk : Known f.pre) (h : Isolated tr f.pre.sched) : Isolated (tr ++ [f]) f.post.sched := by
  intro su hsu id j' hj' ha hint
  rcases step_selfUpdate hf with hsame | ⟨i, ps, v, t, hact, hok, _, hu'⟩ | ⟨_, _, _, _, _, hn⟩
  · rw [hsame] at hsu
    -- a job that was active before is accounted for already
    have old : ∀ j, f.pre.sched.jobs.get? id = some j → j'.packages = j.packages → j'.operation = j.operation →
        j.status.isActive = true →
        id = su.jobId ∨ j'.operation = .reboot ∧ ∃ g ∈ tr ++ [f], GrantsReboot g id true true := by
      intro j hj hps hop hact
      rcases h su hsu id j hj hact (by rw [← hint]; exact (Job.isInternal_congr hps).symm) with hid | ⟨hreb, g, hg, hgr⟩
      · exact .inl hid
      · exact .inr ⟨hop.trans hreb, g, List.mem_append_left _ hg, hgr⟩
    rcases step_jobs hf hu hj' with ⟨hnew, _⟩ | ⟨j, hj, hm | ⟨c, call, hacq, hid, _⟩⟩
    · obtain ⟨w, a, w'⟩ := f
      have hs : WorldStep w a w' := agent_step hf
      have habsent : w.sched.jobs.get? id = none := by
        cases hg : w.sched.jobs.get? id with
        | none => rfl
        | some j => exact absurd (hk id j hg) hnew
      cases hs with
      | op o hid =>
        rcases apply_get? hu hj' with ⟨hnewId, _, _⟩ | ⟨j, hj, _⟩
        · obtain ⟨hop, hgr⟩ := new_job_is_reboot (f := ⟨w, .op o, _⟩) rfl hsu hnewId habsent hj'
          exact .inr ⟨hop, _, List.mem_append_right _ (List.mem_singleton_self _), hgr⟩
        · rw [habsent] at hj; cases hj
      | dispatch | tick => simp only at hj'; rw [habsent] at hj'; cases hj'
      | call c a call call' s' _ hcs =>
        obtain ⟨j, hj⟩ := callStep_job hcs hj'
        rw [habsent] at hj; cases hj
    · exact old j hj hm.packages hm.operation (hm.active ha)
    · exact .inl (hid ▸ (hacq.ready.selfUpdate su hsu).symm)
  · -- the step reserves the self-update, which it does only beside internal jobs
    rw [hu'] at hsu
    cases hsu
    obtain ⟨w, a, w'⟩ := f
    have hs : WorldStep w a w' := agent_step hf
    simp only at hact hok
    subst hact
    cases hs with
    | op o _ =>
      rcases w.sched.tryReserveSelfUpdate_spec w.env i ps v t with ⟨e, he⟩ | ⟨_, _, _, _, hzero, _, _, hget⟩
      · rw [he] at hok; cases hok
      · simp only [SchedOp.apply, hget] at hj'
        split at hj'
        · next hid => exact .inl hid
        · rw [internal_of_active hzero hj' ha] at hint
          cases hint
  · rw [hn] at hsu
    cases hsu

/-- On every run from startup, while a self-update is reserved: only its job acquires the slot, neither
`admit_job` nor `create_rollback_job` creates a job, and every active job that is no tracking job is its
own or a reboot that was reserved with `force` and `ack`. -/
theorem selfUpdate_isolated {w w' : World} {tr : List (Fired World Act)} (hw : w.Startup) (hr : Run agent w tr w')
    (hu : ∀ f ∈ tr, NoUpdateJob f) :
    (∀ f ∈ tr, ∀ su, f.pre.sched.selfUpdate = some su →
      (∀ c call, Acquires f c call → call.jobId = su.jobId) ∧ ¬ Admits f) ∧ Isolated tr w'.sched := by
  refine ⟨fun f _ su hsu => ⟨fun c call ha => (ha.ready.selfUpdate su hsu).symm, not_admits hsu⟩, ?_⟩
  have hinv : Known w' ∧ Isolated tr w'.sched := by
    induction hr with
    | nil =>
      refine ⟨startup_known hw, fun su hsu => ?_⟩
      obtain ⟨_, _, _, hs, _, _⟩ := hw
      rw [hs] at hsu
      cases hsu
    | @snoc tr v v' a _ hs ih =>
      obtain ⟨hk, hi⟩ := ih fun f hf => hu f (List.mem_append_left _ hf)
      have hf : IsStep agent ⟨v, a, v'⟩ := hs
      have huf := hu ⟨v, a, v'⟩ (by simp)
      exact ⟨known_step hf hk, isolated_step hf huf hk hi⟩
  exact hinv.2

/-- A self-update is reserved while a cache refresh holds the slot, a second refresh is queued, and a
reboot is forced and rolled back. -/
def updateBesideRefresh : List Act :=
  [.op (.admitJob 1 .install ["__health_refresh__"]), .dispatch 1, .call 0 .check,
    .op (.admitJob 2 .install ["__patch_list_refresh__"]), .dispatch 2, .call 1 .check,
    .op (.tryReserveSelfUpdate 3 ["linux-patch-api"] "" ""), .op (.admitJob 4 .install ["vim"]), .dispatch 3,
    .op (.reserveReboot 5 true true), .op (.rollbackReboot 5 none), .call 2 .check]

theorem selfUpdate_isolated_refresh :
    let tr := (trace agent (freshAgent 3 10) updateBesideRefresh).getD []
    (∀ f ∈ tr, ∀ su, f.pre.sched.selfUpdate = some su →
      (∀ c call, Acquires f c call → call.jobId = su.jobId) ∧ ¬ Admits f) ∧
      Isolated tr (endState (freshAgent 3 10) tr).sched :=
  selfUpdate_isolated (freshAgent_startup 3 10) (run_trace agent _ updateBesideRefresh (by decide)) (by decide)

end LinuxPatchApi.Jobs
