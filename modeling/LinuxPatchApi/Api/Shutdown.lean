/-
The shutdown of `src/main.rs`: the SIGTERM handler freezes the admission while requests, tasks and calls of
`dispatch_mutation` go on. From then on nothing new is started, whatever comes in, and what is under way only ends.
-/
import LinuxPatchApi.Api.JobQueries

namespace LinuxPatchApi.Jobs

open LinuxPatchApi.Packages Transition SchedulerState

/-! ## What becomes of a job -/

theorem JobMove.trans {i j k : Job} (h : JobMove i j) (h' : JobMove j k) : JobMove i k := by
  refine ⟨h'.packages.trans h.packages, h'.operation.trans h.operation, ?_⟩
  rcases h'.status with hs | ht | ⟨ha, hr⟩
  · rw [hs]
    exact h.status
  · exact .inr (.inl ht)
  · exact .inr (.inr ⟨h.active ha, hr⟩)

theorem RecordMove.jobMove {env : Env} {j j' : Job} (h : RecordMove env j j') : JobMove j j' := by
  cases h with
  | kept | logged => exact ⟨rfl, rfl, .inl rfl⟩
  | completed | failed => exact ⟨rfl, rfl, .inr (.inl rfl)⟩
  | diagnosed error => exact failWithDiagnostics_move error j
  | cancelled => exact cancelForReboot_move j
  | released error => exact rollbackJobState_move error j
  | rebooting _ hs => exact ⟨rfl, rfl, .inr (.inr ⟨by rw [hs]; rfl, rfl⟩)⟩
  | begun hs => exact ⟨rfl, rfl, .inr (.inr ⟨by rw [hs]; rfl, rfl⟩)⟩
  | abandoned result => cases result <;> exact ⟨rfl, rfl, .inr (.inl rfl)⟩

/-! ## The agent after the freeze -/

/-- What is left at `t` of an agent whose admission was frozen at `v`. -/
structure WindsDown (v t : World) : Prop where
  frozen : t.sched.admission = .frozen
  jobs : ∀ k j', t.sched.jobs.get? k = some j' → ∃ j, v.sched.jobs.get? k = some j ∧ JobMove j j'
  slot : t.sched.activeMutation = none ∨ t.sched.activeMutation = v.sched.activeMutation
  generation : t.sched.mutationGeneration = v.sched.mutationGeneration
  selfUpdate : t.sched.selfUpdate = none ∨ t.sched.selfUpdate = v.sched.selfUpdate
  reboot : t.sched.rebootPending = none ∨ t.sched.rebootPending = v.sched.rebootPending
  calls : ∀ (c : ℕ) (call : Call), t.calls[c]? = some call → Underway call →
    ∃ call₀, v.calls[c]? = some call₀ ∧ Underway call₀

theorem WindsDown.refl {v : World} (h : v.sched.admission = .frozen) : WindsDown v v :=
  ⟨h, fun _ j' hj => ⟨j', hj, .refl j'⟩, .inr rfl, rfl, .inr rfl, .inr rfl, fun _ call hc hu => ⟨call, hc, hu⟩⟩

section Frozen

variable {env : Env} {s : SchedulerState} {id : Uuid}

theorem not_ready_of_frozen (h : s.admission = .frozen) : ¬ s.DispatchReady id := by
  intro hr
  rw [hr.admission] at h
  cases h

/-- What `dispatch_mutation` returns. -/
def frozenError : AnyhowError := anyhow "Mutation admission frozen — shutdown in progress"

theorem dispatchCheck_frozen (h : s.admission = .frozen) :
    s.dispatchCheck env id = (s, .rejected frozenError) := by
  simp only [dispatchCheck, dispatchRejection, h, if_true]
  rfl

/-- Where the admission is frozen a move of a call leaves the control fields, but for the slot, which it can only give
up, and does not set the call on its way. -/
theorem callStep_frozen {c : Nat} {call call' : Call} {a : CallAct} {s' : SchedulerState}
    (h : s.admission = .frozen) (hcs : CallStep env c s call a s' call') :
    Frame { s with activeMutation := s'.activeMutation } s' ∧
      (s'.activeMutation = none ∨ s'.activeMutation = s.activeMutation) ∧ (Underway call' → Underway call) := by
  have same : Frame { s with activeMutation := s.activeMutation } s := Frame.refl s
  cases hcs with
  | acquired _ _ _ hr => exact absurd hr (not_ready_of_frozen h)
  | rejected | waiting | spawned | started | ran | exited | joined | elapsed | received =>
    exact ⟨same, .inr rfl, by simp_all [Underway]⟩
  | registered _ _ _ hp =>
    exact ⟨⟨rfl, rfl, rfl, rfl, rfl, rfl, rfl⟩, .inr rfl, by rcases hp with rfl | rfl <;> simp_all [Underway]⟩
  | woken | dropped => exact ⟨⟨rfl, rfl, rfl, rfl, rfl, rfl, rfl⟩, .inr rfl, by simp_all [Underway]⟩
  | finalized r i hw =>
    have hf := finalizeMutation_frame env s call.jobId call.generation r (decide (call.caller = .awaiting))
    refine ⟨⟨hf.admission, rfl, hf.mutationGeneration, hf.selfUpdate, hf.rebootPending, hf.maxConcurrent,
      hf.maxQueueDepth⟩, ?_, by simp_all [Underway]⟩
    rw [hf.activeMutation]
    show (if s.stillOwns call.jobId call.generation then none else s.activeMutation) = none ∨ _
    split
    · exact .inl rfl
    · exact .inr rfl

variable (env) in
/-- The admission stays frozen, and the reservations can only be given up. -/
theorem apply_frozen (o : SchedOp) (h : s.admission = .frozen) : (o.apply env s).admission = .frozen ∧
    ((o.apply env s).selfUpdate = none ∨ (o.apply env s).selfUpdate = s.selfUpdate) ∧
    ((o.apply env s).rebootPending = none ∨ (o.apply env s).rebootPending = s.rebootPending) := by
  refine ⟨?_, ?_, ?_⟩
  · by_cases ho : o = .freezeAdmission
    · rw [ho]
      rfl
    · obtain ⟨_, _, _, hf, ha⟩ := apply_frame env s o
      exact hf.admission.trans ((ha ho).trans h)
  · rcases apply_selfUpdate env s o with hsame | ⟨id, ps, v, w, _, hok, _⟩ | ⟨_, _, _, hnone⟩
    · exact .inr hsame
    · simp [tryReserveSelfUpdate, h] at hok
    · exact .inl hnone
  · rcases apply_rebootPending env s o with hsame | ⟨id, force, ack, _, hok, _⟩ | ⟨_, _, _, _, hnone⟩
    · exact .inr hsame
    · simp [reserveReboot, h] at hok
    · exact .inl hnone

end Frozen

theorem WindsDown.step {v t t' : World} {a : Act} (h : WindsDown v t) (hs : t.step a = some t')
    (hu : a.isUpdateJob = false) : WindsDown v t' := by
  have hjobs : ∀ k j', t'.sched.jobs.get? k = some j' → ∃ j, v.sched.jobs.get? k = some j ∧ JobMove j j' := by
    intro k j' hj'
    rcases world_records hs hu hj' with ⟨o, _, hc⟩ | ⟨j, hj, hm | ⟨c, call, _, ha, _⟩⟩
    · have hopen := hc.new.2.2
      rw [h.frozen] at hopen
      cases hopen
    · obtain ⟨i, hi, hmove⟩ := h.jobs k j hj
      exact ⟨i, hi, hmove.trans hm.jobMove⟩
    · exact absurd ha.ready (not_ready_of_frozen h.frozen)
  -- what was given up stays given up
  have given : ∀ {α : Type} {x y z : Option α}, x = none ∨ x = y → y = none ∨ y = z → x = none ∨ x = z := by
    rintro α x y z (rfl | rfl) hy
    · exact .inl rfl
    · exact hy
  cases World.step_cases hs with
  | op o =>
    obtain ⟨hfrozen, hupdate, hreboot⟩ := apply_frozen t.env o h.frozen
    obtain ⟨hslot, hgen⟩ := apply_slot t.env t.sched o
    exact ⟨hfrozen, hjobs, given (.inr hslot) h.slot, hgen.trans h.generation, given hupdate h.selfUpdate,
      given hreboot h.reboot, h.calls⟩
  | tick => exact ⟨h.frozen, hjobs, h.slot, h.generation, h.selfUpdate, h.reboot, h.calls⟩
  | dispatch jobId =>
    refine ⟨h.frozen, hjobs, h.slot, h.generation, h.selfUpdate, h.reboot, fun c call hc hunder => ?_⟩
    rcases Entries.append_cases hc with hold | ⟨_, rfl⟩
    · exact h.calls c call hold hunder
    · simp [Underway, Call.new] at hunder
  | call c a call call' s' hc hcs =>
    obtain ⟨hf, hslot, hunder⟩ := callStep_frozen h.frozen hcs
    refine ⟨hf.admission.trans h.frozen, hjobs, given hslot h.slot, hf.mutationGeneration.trans h.generation,
      given (.inr hf.selfUpdate) h.selfUpdate, given (.inr hf.rebootPending) h.reboot, fun d call₁ hd hu₁ => ?_⟩
    rcases Entries.set_cases hd with ⟨rfl, rfl⟩ | ⟨_, hold⟩
    · exact h.calls d call hc (hunder hu₁)
    · exact h.calls d call₁ hold hu₁

end LinuxPatchApi.Jobs

namespace LinuxPatchApi.Api

open LinuxPatchApi.Packages LinuxPatchApi.Jobs Transition

/-! ## The shutdown of the process -/

/-- What happens in a run that begins at `v`, where the admission has just been frozen, and ends at `s'`. -/
structure ShutsDown (v : Service) (post : List (Fired Service ProcessAct)) (s' : Service) : Prop where
  windsDown : WindsDown v.world s'.world
  /-- Every call that looks at the scheduler is sent away. -/
  refused : ∀ f ∈ post, ∀ c, f.act = .service (.call c .check) →
    ∃ call, f.post.world.calls[c]? = some call ∧ call.caller = .returned (.error frozenError)
  /-- A closure that begins belongs to a call that had acquired the slot before the freeze. -/
  closures : ∀ f ∈ post, ∀ c, f.act = .service (.call c .runClosure) →
    ∃ call, v.world.calls[c]? = some call ∧ Underway call

section Process

variable {s s' : Service}

theorem process_call {c : Nat} {a : CallAct} (h : s.processStep (.service (.call c a)) = some s') :
    s.world.step (.call c a) = some s'.world := by
  have hstep : s.step (.call c a) = some s' := h
  simp only [Service.step] at hstep
  split at hstep
  · cases hstep
  · obtain ⟨w, hw, rfl⟩ := Option.map_eq_some_iff.1 hstep
    exact hw

theorem process_discreet {tr : List (Fired Service ProcessAct)} (hs : s.Startup) (hr : Run process s tr s') :
    ∀ t ∈ s'.tasks, DiscreetTask t := by
  refine hr.always (I := fun s => ∀ t ∈ s.tasks, DiscreetTask t) (fun f hf ht => (process_kept hf ht).1) ?_
  rw [hs.2]
  rintro t ⟨⟩

/-- The invariant of a process that shuts down. -/
def ShuttingDown (v s : Service) : Prop := (∀ t ∈ s.tasks, DiscreetTask t) ∧ WindsDown v.world s.world

theorem shuttingDown_step {v : Service} {f : Fired Service ProcessAct} (hf : IsStep process f)
    (h : ShuttingDown v f.pre) : ShuttingDown v f.post := by
  obtain ⟨htasks, hw⟩ := h
  refine ⟨(process_kept hf htasks).1, ?_⟩
  rcases process_acts hf htasks with hsame | ⟨act, hstep, hu, _⟩
  · rw [hsame]
    exact hw
  · exact hw.step hstep hu

theorem runClosure_underway {w w' : World} {c : Nat} (h : w.step (.call c .runClosure) = some w') :
    ∃ call, w.calls[c]? = some call ∧ Underway call := by
  cases World.step_cases h with
  | call _ _ call call' _ hc hcs =>
    cases hcs with
    | ran hq => exact ⟨call, hc, .inr (.inr (by rw [hq]; exact ClosurePhase.noConfusion))⟩

theorem frozen_check {w w' : World} {c : Nat} (hf : w.sched.admission = .frozen)
    (h : w.step (.call c .check) = some w') :
    ∃ call, w'.calls[c]? = some call ∧ call.caller = .returned (.error frozenError) := by
  simp only [World.step] at h
  split at h
  · cases h
  next call hc =>
  obtain ⟨⟨s₁, call'⟩, hcall, rfl⟩ := Option.map_eq_some_iff.1 h
  simp only [callStep, dispatchCheck_frozen hf] at hcall
  split at hcall
  · cases hcall
    exact ⟨_, List.getElem?_set_self (List.getElem?_eq_some_iff.1 hc).1, rfl⟩
  · cases hcall

theorem processStep_freeze (s : Service) : s.processStep .freeze =
    some { s with world := { s.world with sched := s.world.sched.freezeAdmission } } := by
  simp [Service.processStep, World.step, SchedOp.newId, SchedOp.apply]

theorem process_freeze (h : s.processStep .freeze = some s') : s'.world.sched.admission = .frozen := by
  rw [processStep_freeze] at h
  cases h
  rfl

/-- From the freeze of a SIGTERM on no job is created and no mutation is started, in whatever order requests, tasks and
calls go on: jobs only end or go into a reboot that was reserved, the slot and the reservations are only given up, every
call of `dispatch_mutation` that looks is refused, and a closure that still begins is of a call that had acquired the
slot. -/
theorem shutdown_winds_down {pre post : List (Fired Service ProcessAct)} {g : Fired Service ProcessAct}
    (hs : s.Startup) (hr : Run process s (pre ++ g :: post) s') (hg : g.act = .freeze) :
    ShutsDown g.post post s' := by
  obtain ⟨hpre, hpost⟩ := hr.split rfl
  have hstep : IsStep process g := hr.step_of_mem g (by simp)
  have hfreeze : g.pre.processStep .freeze = some g.post := hg ▸ hstep
  have hstart : ShuttingDown g.post g.post :=
    ⟨(process_kept hstep (process_discreet hs hpre)).1, .refl (process_freeze hfreeze)⟩
  have hall : ∀ f ∈ post, WindsDown g.post.world f.pre.world := fun f hf =>
    (hpost.always_at (fun f hf => shuttingDown_step hf) hstart f hf).1.2
  refine ⟨(hpost.always (fun f hf => shuttingDown_step hf) hstart).2, fun f hf c hact => ?_, fun f hf c hact => ?_⟩
  · have hfired : f.pre.processStep f.act = some f.post := hpost.step_of_mem f hf
    rw [hact] at hfired
    exact frozen_check (hall f hf).frozen (process_call hfired)
  · have hfired : f.pre.processStep f.act = some f.post := hpost.step_of_mem f hf
    rw [hact] at hfired
    obtain ⟨call, hc, hu⟩ := runClosure_underway (process_call hfired)
    exact (hall f hf).calls c call hc hu

end Process

def freshProcess : Service := ⟨freshAgent 2 10, []⟩

/-- Two removals are requested, and the first one has the slot. -/
def twoRemovals : List ProcessAct :=
  let x : Answers := ⟨0, .error (anyhow ""), .ok ()⟩
  [.service (.request (.removePackage "curl") 1 false), .service (.run 0 x), .service (.call 0 .check),
    .service (.call 0 .spawnWatchdog), .service (.request (.removePackage "wget") 2 false), .service (.run 1 x)]

def busyProcess : Service := endState freshProcess ((trace process freshProcess twoRemovals).getD [])

def frozenProcess : Service :=
  { busyProcess with world := { busyProcess.world with sched := busyProcess.world.sched.freezeAdmission } }

/-- The second one is refused while the first one runs to its end, and a third one does not get in. -/
def lastRemoval : List ProcessAct :=
  [.service (.call 1 .check), .service (.call 0 .startWatchdog), .service (.call 0 .runClosure),
    .service (.request (.removePackage "nano") 3 false), .service (.call 0 (.exitClosure (.ok ()))),
    .service (.call 0 .join), .service (.call 0 .finalize)]

theorem shutdown_winds_down_removals :
    (endState frozenProcess ((trace process frozenProcess lastRemoval).getD [])).world.sched.jobs.values.map Job.id =
      [2, 1] ∧
    ShutsDown frozenProcess ((trace process frozenProcess lastRemoval).getD [])
      (endState frozenProcess ((trace process frozenProcess lastRemoval).getD [])) :=
  ⟨by decide +kernel, shutdown_winds_down (g := ⟨busyProcess, .freeze, frozenProcess⟩) ⟨freshAgent_startup 2 10, rfl⟩
    ((run_trace process freshProcess twoRemovals (by decide +kernel)).append
      (.cons (processStep_freeze busyProcess) (run_trace process frozenProcess lastRemoval (by decide +kernel)))) rfl⟩

end LinuxPatchApi.Api
