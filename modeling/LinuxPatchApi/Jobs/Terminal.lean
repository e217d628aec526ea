/-
Terminal statuses and the admission gate of `dispatch_mutation`: on a run, terminal statuses are
absorbing exactly when no call acquires the slot while its job is terminal, and the gate that the
comments of the wait loop describe holds exactly when no step ends, cancels or deletes a job
between its admission and the pass that dispatches it.
-/
import LinuxPatchApi.Jobs.Statuses

namespace LinuxPatchApi.Jobs

open LinuxPatchApi.Packages Transition

/-! ## One step -/

/-- Every job in the map has an id that was drawn or handed to the process. -/
def Known (w : World) : Prop := ∀ k j, w.sched.jobs.get? k = some j → k ∈ w.issued

theorem startup_known {w : World} (h : w.Startup) : Known w := by
  obtain ⟨mc, mq, loaded, hs, hl, _⟩ := h
  intro k j hj
  rw [hs] at hj
  obtain ⟨_, o, ho, rfl⟩ := startup_jobs hj
  exact hl o ho

/-- The step does not call `update_job`. -/
def NoUpdateJob (f : Fired World Act) : Prop := f.act.isUpdateJob = false

instance (f : Fired World Act) : Decidable (NoUpdateJob f) := inferInstanceAs (Decidable (_ = _))

/-- Every job after a step is new and Pending, moved from before, or started by an acquisition. -/
theorem step_jobs {f : Fired World Act} (hf : IsStep agent f) (hu : NoUpdateJob f) {k : Uuid} {j' : Job}
    (h : f.post.sched.jobs.get? k = some j') :
    (k ∉ f.pre.issued ∧ k ∈ f.post.issued ∧ j'.status = .pending) ∨
      ∃ j, f.pre.sched.jobs.get? k = some j ∧
        (JobMove j j' ∨ ∃ c call, Acquires f c call ∧ call.jobId = k ∧ j'.status = .running ∧
          j'.packages = j.packages ∧ j'.operation = j.operation) := by
  obtain ⟨w, a, w'⟩ := f
  have hs : WorldStep w a w' := agent_step hf
  cases hs with
  | op o hid =>
    rcases apply_get? hu h with ⟨hk, hp, _⟩ | ⟨j, hj, hm⟩
    · exact .inl ⟨hid k hk, by simp [hk], hp⟩
    · exact .inr ⟨j, hj, .inl hm⟩
  | dispatch jobId => exact .inr ⟨j', h, .inl (.refl j')⟩
  | tick n => exact .inr ⟨j', h, .inl (.refl j')⟩
  | call c a call call' s' hc hs =>
    cases hs with
    | rejected | waiting | registered | woken | spawned | started | ran | exited | joined | elapsed
    | received | dropped => exact .inr ⟨j', h, .inl (.refl j')⟩
    | acquired b s' hl hr _ hg =>
      simp only at h
      rw [hg] at h
      split at h
      · next hk =>
        obtain ⟨j, hj, rfl⟩ := Option.map_eq_some_iff.1 h
        refine .inr ⟨j, by rw [hk]; exact hj, .inr ⟨c, call, acquires_iff.2 ⟨rfl, hc, hl, hr⟩, hk.symm, ?_, ?_, ?_⟩⟩
        · exact SchedulerState.startJob_status w.env w.sched hj
        · unfold SchedulerState.startJob; split <;> rfl
        · unfold SchedulerState.startJob; split <;> rfl
      · exact .inr ⟨j', h, .inl (.refl j')⟩
    | finalized r i hw =>
      simp only [SchedulerState.finalizeMutation_get?] at h
      split at h
      · next hk =>
        obtain ⟨j, hj, rfl⟩ := Option.map_eq_some_iff.1 h
        exact .inr ⟨j, by rw [hk.1]; exact hj, .inl (abandonJob_move r j)⟩
      · exact .inr ⟨j', h, .inl (.refl j')⟩

theorem step_issued {f : Fired World Act} (hf : IsStep agent f) : f.pre.issued ⊆ f.post.issued := by
  obtain ⟨w, a, w'⟩ := f
  have hs : WorldStep w a w' := agent_step hf
  cases hs with
  | op o _ => exact List.subset_append_right _ _
  | dispatch jobId => exact List.subset_cons_self _ _
  | tick | call => exact List.Subset.refl _

theorem known_step {f : Fired World Act} (hf : IsStep agent f) (hk : Known f.pre) : Known f.post := by
  intro k j' hj'
  cases hj : f.pre.sched.jobs.get? k with
  | some j => exact step_issued hf (hk k j hj)
  | none =>
    obtain ⟨o, hact, hcreated⟩ := created_of_new hf hj hj'
    obtain ⟨w, a, w'⟩ := f
    have hs : WorldStep w a w' := agent_step hf
    simp only at hact hcreated
    subst hact
    cases hs with
    | op o _ => simp [(created_spec hcreated).1]

theorem run_known {w w' : World} {tr : List (Fired World Act)} (hw : w.Startup) (hr : Run agent w tr w') :
    ∀ f ∈ tr, Known f.pre :=
  fun f hf => (hr.always_at (fun _ hs hk => known_step hs hk) (startup_known hw) f hf).1

/-! ## Terminal statuses are absorbing -/

/-- A job that is terminal in `v` and still in the map in `w` is terminal in `w`. -/
def TerminalKept (v w : World) : Prop :=
  ∀ id j j', v.sched.jobs.get? id = some j → j.status.isTerminal = true →
    w.sched.jobs.get? id = some j' → j'.status.isTerminal = true

/-- No call acquires the slot at this step while its job is in the map and terminal. -/
def NoTerminalAcquisition (f : Fired World Act) : Prop :=
  ∀ c call j, Acquires f c call → f.pre.sched.jobs.get? call.jobId = some j → j.status.isTerminal = false

/-- The id is of no job that is in the map and active. -/
def Over (w : World) (id : Uuid) : Prop :=
  ∀ j, w.sched.jobs.get? id = some j → j.status.isTerminal = true

/-- Ids seen in `v` that are over in `v` are over in `w`: the transitive relation that carries
terminal statuses from any state of a run to any later one. -/
def StaysOver (v w : World) : Prop :=
  v.issued ⊆ w.issued ∧ ∀ id ∈ v.issued, Over v id → Over w id

theorem StaysOver.trans {u v w : World} (h : StaysOver u v) (h' : StaysOver v w) : StaysOver u w :=
  ⟨List.Subset.trans h.1 h'.1, fun id hi ho => h'.2 id (h.1 hi) (h.2 id hi ho)⟩

theorem step_staysOver {f : Fired World Act} (hf : IsStep agent f) (hu : NoUpdateJob f)
    (hn : NoTerminalAcquisition f) : StaysOver f.pre f.post := by
  refine ⟨step_issued hf, fun id hi ho j' hj' => ?_⟩
  rcases step_jobs hf hu hj' with ⟨hnew, _⟩ | ⟨j, hj, hm | ⟨c, call, ha, hid, _⟩⟩
  · exact absurd hi hnew
  · exact hm.terminal (ho j hj)
  · subst hid
    have := hn c call j ha hj
    rw [ho j hj] at this; cases this

/-- Terminal statuses are absorbing along a run from startup exactly when no step of the run
acquires the mutation slot for a job that is already terminal. -/
theorem terminal_absorbing_iff {w w' : World} {tr : List (Fired World Act)} (hw : w.Startup)
    (hr : Run agent w tr w') (hu : ∀ f ∈ tr, NoUpdateJob f) :
    (states w tr).Pairwise TerminalKept ↔ ∀ f ∈ tr, NoTerminalAcquisition f := by
  constructor
  · intro hp f hf c call j ha hj
    obtain ⟨j', hj', hrun⟩ := acquires_running (hr.step_of_mem f hf) ha hj
    cases ht : j.status.isTerminal with
    | false => rfl
    | true =>
      have := hr.of_pairwise hp f hf call.jobId j j' hj ht hj'
      rw [hrun] at this; cases this
  · intro hn
    have hstay : ∀ f ∈ tr, StaysOver f.pre f.post := fun f hf =>
      step_staysOver (hr.step_of_mem f hf) (hu f hf) (hn f hf)
    have hknown : ∀ v ∈ states w tr, Known v := forall_states (startup_known hw) fun f hf =>
      known_step (hr.step_of_mem f hf) (run_known hw hr f hf)
    refine ((hr.pairwise (R := StaysOver) StaysOver.trans hstay).1.imp_of_mem ?_)
    intro u v hu _ h id j j' hj ht hj'
    refine h.2 id (hknown u hu id j hj) (fun j₁ hj₁ => ?_) j' hj'
    rw [hj] at hj₁; cases hj₁; exact ht

/-- Job 1 is admitted and dispatched, cancelled by the forced reboot reservation of job 2 before its
dispatcher makes its first pass, and the reservation is rolled back. -/
def cancelledWhileWaiting : List Act :=
  [.op (.admitJob 1 .install ["vim"]), .dispatch 1, .op (.reserveReboot 2 true false),
    .op (.rollbackReboot 2 (some "reboot failed")), .call 0 .check]

/-- The cancelled job runs: terminal statuses are not absorbing on every run. -/
theorem cancelled_job_runs : ∃ (w w' : World) (tr : List (Fired World Act)), w.Startup ∧ Run agent w tr w' ∧
    (∀ f ∈ tr, NoUpdateJob f) ∧ ¬ (states w tr).Pairwise TerminalKept := by
  refine ⟨freshAgent 2 10, _, _, freshAgent_startup 2 10,
    run_trace agent (freshAgent 2 10) cancelledWhileWaiting (by decide), by decide, ?_⟩
  intro hp
  have h := List.pairwise_iff_getElem.1 hp 4 5 (by decide) (by decide) (by decide) 1 _ _
    (Option.some_get (by decide)).symm (by decide) (Option.some_get (by decide)).symm
  exact absurd h (by decide)

theorem terminal_absorbing_orderly :
    (states (freshAgent 2 10) ((trace agent (freshAgent 2 10) orderlyInstall).getD [])).Pairwise TerminalKept ↔
      ∀ f ∈ (trace agent (freshAgent 2 10) orderlyInstall).getD [], NoTerminalAcquisition f :=
  terminal_absorbing_iff (freshAgent_startup 2 10) (run_trace agent _ orderlyInstall (by decide)) (by decide)

/-! ## The admission gate -/

/-- What the acquisition of the slot by a call promises about the states around it. -/
structure GateKept (f : Fired World Act) (call : Call) : Prop where
  job : ∃ j, f.pre.sched.jobs.get? call.jobId = some j ∧ (j.status = .pending ∨ j.status = .running)
  admission : f.pre.sched.admission = .open
  unreserved : f.pre.sched.rebootPending = none
  selfUpdate : ∀ su, f.pre.sched.selfUpdate = some su → su.jobId = call.jobId
  free : f.pre.sched.activeMutation = none
  running : ∃ j', f.post.sched.jobs.get? call.jobId = some j' ∧ j'.status = .running

/-- On the run every acquisition keeps the gate, and every closure that starts to execute does so
after such an acquisition by its own call. -/
structure AdmissionGate (tr : List (Fired World Act)) : Prop where
  acquisitions : ∀ f ∈ tr, ∀ c call, Acquires f c call → GateKept f call
  closures : ∀ pre g post c, tr = pre ++ g :: post → g.act = .call c .runClosure →
    ∃ f ∈ pre, ∃ call, Acquires f c call ∧ GateKept f call

/-- A job of this status is one that a dispatcher may start. -/
def Startable (st : Option JobStatus) : Prop := st = some .pending ∨ st = some .running

/-- The job was admitted, or made Pending or Running again, and since then no step has ended, cancelled or deleted it
or made it Rebooting. -/
def InOrder (tr : List (Fired World Act)) (k : Uuid) : Prop :=
  Since False (SetsStatus Startable k) (OnlySetsStatus Startable k) tr

/-- A pass of the wait loop that the checks of the code let through finds its job in order, after the steps `pre`. -/
def PassesInOrder (pre : List (Fired World Act)) (f : Fired World Act) : Prop :=
  ∀ c call, f.act = .call c .check → f.pre.calls[c]? = some call → call.caller = .locking →
    f.pre.sched.DispatchReady call.jobId → InOrder pre call.jobId

theorem startable_iff {w : World} {k : Uuid} : Startable (statusIn k w) ↔
    ∃ j, w.sched.jobs.get? k = some j ∧ (j.status = .pending ∨ j.status = .running) := by
  unfold Startable statusIn
  cases w.sched.jobs.get? k <;> simp

/-- What is in order at the end of a run is what a dispatcher may start there. -/
theorem inOrder_iff {w w' : World} {tr : List (Fired World Act)} (hw : w.Startup) (hr : Run agent w tr w') {k : Uuid} :
    InOrder tr k ↔ ∃ j, w'.sched.jobs.get? k = some j ∧ (j.status = .pending ∨ j.status = .running) := by
  rw [← startable_iff]
  refine (status_since hw hr fun st hst => ?_).symm
  rcases hst with rfl | rfl
  · exact ⟨_, rfl, rfl⟩
  · exact ⟨_, rfl, rfl⟩

/-- Only the acquisition sets a call on its way to a watchdog and a closure. -/
def Underway (call : Call) : Prop :=
  call.caller = .persisting ∨ call.watchdog ≠ .absent ∨ call.closure ≠ .absent

theorem underway_acquired {w w' : World} {tr : List (Fired World Act)} (hw : w.Startup)
    (hr : Run agent w tr w') : ∀ c call, w'.calls[c]? = some call → Underway call →
      ∃ f ∈ tr, ∃ call₀, Acquires f c call₀ := by
  induction hr with
  | nil =>
    obtain ⟨_, _, _, _, _, hc⟩ := hw
    intro c call h
    simp [hc] at h
  | @snoc tr v v' a _ hs ih =>
    have later : ∀ c, (∃ f ∈ tr, ∃ call₀, Acquires f c call₀) →
        ∃ f ∈ tr ++ [⟨v, a, v'⟩], ∃ call₀, Acquires f c call₀ :=
      fun c ⟨f, hf, h⟩ => ⟨f, List.mem_append_left _ hf, h⟩
    intro c call h hu
    cases World.step_cases hs with
    | op | tick => exact later c (ih c call h hu)
    | dispatch jobId =>
      rcases Entries.append_cases h with h | ⟨_, rfl⟩
      · exact later c (ih c call h hu)
      · simp [Underway, Call.new] at hu
    | call c' a call₁ call' s' hc hcs =>
      rcases Entries.set_cases h with ⟨rfl, rfl⟩ | ⟨_, h⟩
      · by_cases hu₁ : Underway call₁
        · exact later c (ih c call₁ hc hu₁)
        · -- the move set the call on its way, so it is the acquisition
          cases hcs with
          | acquired b s' hl hrdy _ _ =>
            exact ⟨_, List.mem_append_right _ (List.mem_singleton_self _), call₁, acquires_iff.2 ⟨rfl, hc, hl, hrdy⟩⟩
          | _ => simp_all [Underway]
      · exact later c (ih c call h hu)

/-- The admission gate holds on a run from startup exactly when every pass of the wait loop that the checks of the code
let through comes after the admission of its job, with no step between them that ends, cancels or deletes it. -/
theorem admission_gate_iff {w w' : World} {tr : List (Fired World Act)} (hw : w.Startup) (hr : Run agent w tr w') :
    AdmissionGate tr ↔ ∀ pre f post, tr = pre ++ f :: post → PassesInOrder pre f := by
  constructor
  · rintro h pre f post rfl c call hact hc hl hready
    obtain ⟨hpre, _⟩ := hr.split rfl
    have hacquires : Acquires f c call := acquires_iff.2 ⟨hact, hc, hl, hready⟩
    exact (inOrder_iff hw hpre).2 (h.acquisitions f (by simp) c call hacquires).job
  · intro h
    have hgate : ∀ f ∈ tr, ∀ c call, Acquires f c call → GateKept f call := by
      intro f hf c call ha
      obtain ⟨pre, post, htr, hpre, _⟩ := hr.split_of_mem hf
      have hjob := (inOrder_iff hw hpre).1 (h pre f post htr c call ha.act ha.entry ha.locking ha.ready)
      have ⟨j, hj, _⟩ := hjob
      exact ⟨hjob, ha.ready.admission, ha.ready.unreserved, ha.ready.selfUpdate, ha.ready.free,
        acquires_running (hr.step_of_mem f hf) ha hj⟩
    refine ⟨hgate, ?_⟩
    rintro pre g post c rfl hact
    obtain ⟨hpre, _⟩ := hr.split rfl
    have hg := agent_step (hr.step_of_mem g (by simp))
    rw [hact] at hg
    obtain ⟨call, hcall, hu⟩ : ∃ call, g.pre.calls[c]? = some call ∧ Underway call := by
      generalize g.post = v at hg
      cases hg with
      | call c a call call' s' hc hcs =>
        cases hcs with
        | ran hq => exact ⟨call, hc, .inr (.inr (by simp [hq]))⟩
    obtain ⟨f, hf, call₀, ha⟩ := underway_acquired hw hpre c call hcall hu
    exact ⟨f, hf, call₀, ha, hgate f (by simp [hf]) c call₀ ha⟩

/-- Job 1 is cancelled by a reboot reservation and deleted before its dispatcher looks. -/
def deletedWhileWaiting : List Act :=
  [.op (.admitJob 1 .install ["vim"]), .dispatch 1, .op (.reserveReboot 2 true false),
    .op (.rollbackReboot 2 (some "reboot failed")), .op (.deleteJob 1), .call 0 .check,
    .call 0 .spawnWatchdog, .call 0 .startWatchdog, .call 0 .runClosure]

/-- The closure of the deleted job is executed: the gate is not kept on every run. -/
theorem deleted_job_dispatched : ∃ (w w' : World) (tr : List (Fired World Act)), w.Startup ∧
    Run agent w tr w' ∧ ¬ AdmissionGate tr := by
  refine ⟨freshAgent 2 10, _, _, freshAgent_startup 2 10,
    run_trace agent (freshAgent 2 10) deletedWhileWaiting (by decide), fun h => ?_⟩
  obtain ⟨j, hj, _⟩ := (h.acquisitions _ (List.get_mem _ ⟨5, by decide⟩) 0 (Call.new 1)
    ⟨by decide, by decide, rfl, _, _, rfl⟩).job
  rw [show FinMap.get? _ _ = none from by decide] at hj
  cases hj

theorem admission_gate_orderly : AdmissionGate ((trace agent (freshAgent 2 10) orderlyInstall).getD []) ↔
    ∀ pre f post, (trace agent (freshAgent 2 10) orderlyInstall).getD [] = pre ++ f :: post → PassesInOrder pre f :=
  admission_gate_iff (freshAgent_startup 2 10) (run_trace agent _ orderlyInstall (by decide))

end LinuxPatchApi.Jobs
