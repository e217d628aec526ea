/-
Staffed services. Along every run the tasks obey the duties that the ledger has for them, as long as no
rollback request creates its job: a step of a task, of a call or of a handler leads from a staffed state
to a staffed state.
-/
import LinuxPatchApi.Api.Accounts

namespace LinuxPatchApi.Api

open Interaction LinuxPatchApi.Packages LinuxPatchApi.Jobs Transition

/-! ## The agent under the service -/

/-- What the service asks of the agent: no direct `update_job`, no freeze, and no caller is dropped. -/
def Orderly : Act → Prop
  | .op o => o.isUpdateJob = false ∧ o ≠ .freezeAdmission
  | .call _ a => a ≠ .drop
  | .dispatch _ | .tick _ => True

/-- The job is not Pending any more, if it is in the map. -/
def Started (w : World) (id : Uuid) : Prop := ∀ j, w.sched.jobs.get? id = some j → j.status ≠ .pending

/-- The caller passed the checks of the wait loop. -/
def Begun (call : Call) : Prop :=
  call.caller = .persisting ∨ call.caller = .awaiting ∨ call.caller = .returned (.ok ())

structure Sound (w : World) : Prop where
  known : Known w
  slot : SlotInv w
  owned : SlotOwned w
  issued : ∀ call ∈ w.calls, call.jobId ∈ w.issued
  started : ∀ call ∈ w.calls, Begun call → Started w call.jobId
  admission : w.sched.admission = .open
  capacity : 0 < w.sched.maxQueueDepth

theorem startup_sound {w : World} (h : w.Startup) : Sound w := by
  refine ⟨startup_known h, startup_slotInv h, ?_, ?_, ?_, ?_, ?_⟩
  all_goals obtain ⟨mc, mq, loaded, hs, _, hc⟩ := h
  · intro j hj
    rw [hs] at hj
    cases hj
  · simp [hc]
  · simp [hc]
  · rw [hs]; rfl
  · rw [hs]
    show 0 < max mq 1
    omega

theorem started_step {f : Fired World Act} (hf : IsStep agent f) (hu : NoUpdateJob f) {id : Uuid}
    (hid : id ∈ f.pre.issued) (h : Started f.pre id) : Started f.post id := by
  intro j' hj' hp
  rcases step_jobs hf hu hj' with ⟨hnew, _⟩ | ⟨j, hj, hm | ⟨_, _, _, _, hrun, _⟩⟩
  · exact hnew hid
  · exact h j hj (hm.pending hp)
  · rw [hrun] at hp
    cases hp

/-- A call that passed the checks did so before this move, or its job is Running now. -/
theorem begun_move {env : Env} {c : Nat} {s s' : SchedulerState} {call call' : Call} {a : CallAct}
    (h : CallStep env c s call a s' call') (hb : Begun call') :
    Begun call ∨ ∀ j, s'.jobs.get? call.jobId = some j → j.status ≠ .pending := by
  cases h with
  | acquired b s' _ _ _ hget =>
    refine .inr fun j' hj' hp => ?_
    rw [hget, if_pos rfl] at hj'
    obtain ⟨j, hj, rfl⟩ := Option.map_eq_some_iff.1 hj'
    rw [SchedulerState.startJob_status env s hj] at hp
    cases hp
  | rejected | waiting | woken | dropped =>
    rcases hb with hb | hb | hb <;> cases hb
  | registered n p _ hp =>
    rcases hp with rfl | rfl <;> rcases hb with hb | hb | hb <;> cases hb
  | spawned hl => exact .inl (.inl hl)
  | received r hl _ => exact .inl (.inr (.inl hl))
  | started | ran | exited | joined | elapsed | finalized => exact .inl hb

theorem callStep_jobId {env : Env} {c : Nat} {s s' : SchedulerState} {call call' : Call} {a : CallAct}
    (h : CallStep env c s call a s' call') : call'.jobId = call.jobId := by
  cases h <;> rfl

/-- A caller that has returned moves no more. -/
theorem callStep_returned {env : Env} {c : Nat} {s s' : SchedulerState} {call call' : Call} {a : CallAct}
    (h : CallStep env c s call a s' call') {r : MutationResult} (hr : call.caller = .returned r) :
    call'.caller = .returned r := by
  cases h with
  | started | ran | exited | joined | elapsed | finalized => exact hr
  | rejected _ hl | waiting hl | acquired _ _ hl | registered _ _ hl | woken _ hl | spawned hl | received _ hl =>
    rw [hl] at hr
    cases hr
  | dropped n hl =>
    rw [hr] at hl
    rcases hl with hl | hl | hl | hl <;> cases hl

/-- No move of a call changes the admission or the limits. -/
theorem callStep_admission {env : Env} {c : Nat} {s s' : SchedulerState} {call call' : Call} {a : CallAct}
    (h : CallStep env c s call a s' call') : s'.admission = s.admission ∧ s'.maxQueueDepth = s.maxQueueDepth := by
  cases h with
  | acquired b s' _ _ hfr _ => exact ⟨hfr.admission, hfr.maxQueueDepth⟩
  | finalized r i _ =>
    have hfr := s.finalizeMutation_frame env call.jobId call.generation r (decide (call.caller = .awaiting))
    exact ⟨hfr.admission, hfr.maxQueueDepth⟩
  | _ => exact ⟨rfl, rfl⟩

theorem callsIssued_step {f : Fired World Act} (hf : IsStep agent f)
    (h : ∀ call ∈ f.pre.calls, call.jobId ∈ f.pre.issued) :
    ∀ call ∈ f.post.calls, call.jobId ∈ f.post.issued := by
  obtain ⟨w, a, w'⟩ := f
  have hs : WorldStep w a w' := agent_step hf
  intro call hc
  cases hs with
  | op o _ => exact List.mem_append_right _ (h call hc)
  | tick => exact h call hc
  | dispatch jobId =>
    rcases List.mem_append.1 hc with hc | hc
    · exact List.mem_cons_of_mem _ (h call hc)
    · rw [List.mem_singleton.1 hc]
      exact List.mem_cons_self
  | call c a call₁ call' s' hc₁ hcs =>
    rcases List.mem_or_eq_of_mem_set hc with hc | rfl
    · exact h call hc
    · rw [callStep_jobId hcs]
      exact h call₁ (List.mem_of_getElem? hc₁)

/-- A call that passed the checks has a job that is not Pending. -/
theorem callsStarted_step {f : Fired World Act} (hf : IsStep agent f) (hu : NoUpdateJob f)
    (hissued : ∀ call ∈ f.pre.calls, call.jobId ∈ f.pre.issued)
    (h : ∀ call ∈ f.pre.calls, Begun call → Started f.pre call.jobId) :
    ∀ call ∈ f.post.calls, Begun call → Started f.post call.jobId := by
  have keep : ∀ x ∈ f.pre.calls, Begun x → Started f.post x.jobId := fun x hx hb =>
    started_step hf hu (hissued x hx) (h x hx hb)
  obtain ⟨w, a, w'⟩ := f
  have hs : WorldStep w a w' := agent_step hf
  intro call hc hb
  cases hs with
  | op | tick => exact keep call hc hb
  | dispatch jobId =>
    rcases List.mem_append.1 hc with hc | hc
    · exact keep call hc hb
    · rw [List.mem_singleton.1 hc] at hb
      rcases hb with hb | hb | hb <;> cases hb
  | call c a call₁ call' s' hc₁ hcs =>
    rcases List.mem_or_eq_of_mem_set hc with hc | rfl
    · exact keep call hc hb
    · rw [callStep_jobId hcs]
      rcases begun_move hcs hb with hb | hst
      · exact keep call₁ (List.mem_of_getElem? hc₁) hb
      · exact hst

theorem noUpdateJob_of_orderly {f : Fired World Act} (ho : Orderly f.act) : NoUpdateJob f := by
  unfold NoUpdateJob
  cases ha : f.act with
  | op o => rw [ha] at ho; exact ho.1
  | _ => rfl

theorem sound_step {f : Fired World Act} (hf : IsStep agent f) (ho : Orderly f.act) (h : Sound f.pre) :
    Sound f.post := by
  have hu : NoUpdateJob f := noUpdateJob_of_orderly ho
  have hd : NotDroppedPersisting f := fun c call ha _ => by
    rw [ha] at ho
    exact absurd rfl ho
  refine ⟨known_step hf h.known, slotInv_step hf h.slot, slotOwned_step hf h.slot hd h.owned,
    callsIssued_step hf h.issued, callsStarted_step hf hu h.issued h.started, ?_, ?_⟩
  all_goals
    obtain ⟨w, a, w'⟩ := f
    have hs : WorldStep w a w' := agent_step hf
    cases hs with
    | op o _ =>
      obtain ⟨_, _, _, hfr, ha⟩ := apply_frame w.env w.sched o
      first
        | exact hfr.admission.trans ((ha ho.2).trans h.admission)
        | exact hfr.maxQueueDepth.symm ▸ h.capacity
    | tick | dispatch => first | exact h.admission | exact h.capacity
    | call c a call₁ call' s' _ hcs =>
      obtain ⟨ha, hq⟩ := callStep_admission hcs
      first
        | exact ha.trans h.admission
        | exact hq.symm ▸ h.capacity

/-- The agent took no step, or made one operation. -/
def Operates (w w' : World) : Prop := w' = w ∨ ∃ o, w.step (.op o) = some w' ∧ Orderly (.op o)

theorem Operates.sound {w w' : World} (h : Operates w w') (hs : Sound w) : Sound w' := by
  rcases h with rfl | ⟨o, hstep, ho⟩
  · exact hs
  · exact sound_step (f := ⟨w, .op o, w'⟩) hstep ho hs

theorem Operates.calls {w w' : World} (h : Operates w w') : w'.calls = w.calls := by
  rcases h with rfl | ⟨o, hstep, _⟩
  · rfl
  · cases World.step_cases hstep
    rfl

/-! ## One call of a task -/

section Calls

variable {w w' : World} {δ : Nat → Duty} {n : Nat}

theorem perform_operates {d : Duty} {x : Answers} {e : TaskCall} {r : TaskResponse e} (ha : d.Allows e)
    (hp : perform w x e = some (w', r)) : Operates w w' := by
  cases perform_cases hp with
  | admitJob _ _ _ hv | reserveReboot _ _ _ hv | beginRebootExecution _ _ hv =>
    exact .inr ⟨_, hv, rfl, SchedOp.noConfusion⟩
  | op o _ hv =>
    refine .inr ⟨o, hv, ?_⟩
    cases o with
    | addJobLog | deleteJob | completeJob | failJob | failJobWithDiagnostics | setJobRebooting | rollbackReboot
    | releaseSelfUpdate => exact ⟨rfl, SchedOp.noConfusion⟩
    | _ => exact ha.elim
  | getSystemInfo | rebootSystem => exact .inl rfl

/-- An operation that the duty allows. -/
theorem op_ledger (h : Ledger w δ) {o : SchedOp} (ha : (δ n).Allows (.op o)) (hs : w.step (.op o) = some w') :
    Ledger w' (Function.update δ n ((δ n).after (.op o) ())) := by
  cases o with
  | completeJob id =>
    cases World.step_cases hs with
    | op _ _ =>
      exact h.finish ha (by rfl) (w.sched.completeJob_frame w.env id)
        (fun k => w.sched.completeJob_get? w.env id k) fun j => ⟨rfl, rfl⟩
  | failJob id e =>
    cases World.step_cases hs with
    | op _ _ =>
      exact h.finish ha (by rfl) (w.sched.failJob_frame w.env id e)
        (fun k => w.sched.failJob_get? w.env id k e) fun j => ⟨rfl, rfl⟩
  | failJobWithDiagnostics id e =>
    cases World.step_cases hs with
    | op _ _ =>
      exact h.finish ha (by rfl) (w.sched.failJobWithDiagnostics_frame w.env id e)
        (fun k => w.sched.failJobWithDiagnostics_get? w.env id k e) fun j => ⟨by simp, by simp [JobStatus.isTerminal]⟩
  | addJobLog id m =>
    simp only [Duty.after, Function.update_eq_self]
    cases World.step_cases hs with
    | op _ _ =>
      exact h.quiet (.of_update (by rfl) ⟨rfl, rfl, rfl, rfl, rfl, rfl, rfl⟩
        (fun k => w.sched.addJobLog_get? w.env id k m) fun j => ⟨rfl, .inl rfl⟩)
  | deleteJob id =>
    simp only [Duty.after, Function.update_eq_self]
    exact h.deleteJob hs
  | setJobRebooting id m =>
    obtain ⟨hd, r, hg⟩ := ha
    exact h.setJobRebooting hd hg hs
  | rollbackReboot id e =>
    obtain ⟨live, hg⟩ := ha
    exact h.rollbackReboot hg hs
  | releaseSelfUpdate id => exact h.releaseSelfUpdate ha hs
  | _ => exact ha.elim

/-- A call that the duty allows keeps the ledger with the duty that follows. -/
theorem perform_ledger (h : Ledger w δ) (hk : Known w) {x : Answers} {e : TaskCall} {r : TaskResponse e}
    (ha : (δ n).Allows e) (hp : perform w x e = some (w', r)) :
    Ledger w' (Function.update δ n ((δ n).after e r)) := by
  cases perform_cases hp with
  | admitJob operation packages _ hv => exact h.admitJob hk ha.1 ha.2 hv
  | reserveReboot force ack _ hv => exact (h.reserveReboot hv).2
  | beginRebootExecution id _ hv =>
    obtain ⟨live, hg⟩ := ha
    simp only [Duty.after, Function.update_eq_self]
    exact h.beginRebootExecution hg hv
  | op o _ hv => exact op_ledger h ha hv
  | getSystemInfo | rebootSystem =>
    simp only [Duty.after, Function.update_eq_self]
    exact h

end Calls

/-! ## Tasks and their duties -/

/-- A waiting task owes the job of its call. -/
def Task.Obeys (w : World) (d : Duty) : Task → Prop
  | .ready script => Api.Obeys d script
  | .awaiting c resume => ∃ call, w.calls[c]? = some call ∧ d.job = some (call.jobId, .queued) ∧
      ∀ r, Api.Obeys (d.dispatched r) (resume r)

/-- Task number `n` obeys the duty `δ n`, and every call that has not returned is awaited by a task. -/
structure Staffed (s : Service) (δ : Nat → Duty) : Prop where
  sound : Sound s.world
  ledger : Ledger s.world δ
  tasks : ∀ (n : Nat) (task : Task), s.tasks[n]? = some task → task.Obeys s.world (δ n)
  idle : ∀ n, s.tasks.length ≤ n → δ n = .free
  awaited : ∀ (c : Nat) (call : Call), s.world.calls[c]? = some call → (∀ r, call.caller ≠ .returned r) →
    ∃ (n : Nat) (k : MutationResult → Script Unit), s.tasks[n]? = some (.awaiting c k)

theorem startup_staffed {s : Service} (h : s.Startup) : Staffed s fun _ => .free := by
  obtain ⟨hw, ht⟩ := h
  refine ⟨startup_sound hw, startup_ledger hw, ?_, fun _ _ => rfl, ?_⟩
  · simp [ht]
  · obtain ⟨_, _, _, _, _, hc⟩ := hw
    simp [hc]

/-- The calls of `w` are calls of `w'` about the same jobs. -/
def CallsKept (w w' : World) : Prop :=
  ∀ (c : Nat) (call : Call), w.calls[c]? = some call → ∃ call' : Call, w'.calls[c]? = some call' ∧
    call'.jobId = call.jobId

theorem CallsKept.of_eq {w w' : World} (h : w'.calls = w.calls) : CallsKept w w' :=
  fun _ call hc => ⟨call, by rw [h]; exact hc, rfl⟩

theorem Task.Obeys.mono {w w' : World} (hc : CallsKept w w') {d : Duty} {task : Task} (h : task.Obeys w d) :
    task.Obeys w' d := by
  cases task with
  | ready script => exact h
  | awaiting c k =>
    obtain ⟨call, hcall, hd, hk⟩ := h
    obtain ⟨call', hcall', hid⟩ := hc c call hcall
    exact ⟨call', hcall', by rw [hid]; exact hd, hk⟩

section Staffed

variable {s : Service} {w' : World} {δ : Nat → Duty} {n : Nat}

/-- Task number `n` goes on, under a new duty. -/
theorem Staffed.goOn (h : Staffed s δ) {old task : Task} {d : Duty} (hn : s.tasks[n]? = some old)
    (hsound : Sound w') (hledger : Ledger w' (Function.update δ n d)) (hobeys : task.Obeys w' d)
    (hkept : CallsKept s.world w')
    (hawaited : ∀ (c : Nat) (call : Call), w'.calls[c]? = some call → (∀ r, call.caller ≠ .returned r) →
      (∃ k, task = .awaiting c k) ∨ ((∀ k, old ≠ .awaiting c k) ∧ s.world.calls[c]? = some call)) :
    Staffed ⟨w', s.tasks.set n task⟩ (Function.update δ n d) := by
  have hlt : n < s.tasks.length := (List.getElem?_eq_some_iff.1 hn).1
  refine ⟨hsound, hledger, fun m x hm => ?_, fun m hm => ?_, fun c call hc hr => ?_⟩
  · rcases Entries.set_cases hm with ⟨rfl, rfl⟩ | ⟨hne, hm⟩
    · rw [Function.update_self]
      exact hobeys
    · rw [Function.update_of_ne hne]
      exact (h.tasks m x hm).mono hkept
  · rw [List.length_set] at hm
    rw [Function.update_of_ne (by omega)]
    exact h.idle m hm
  · rcases hawaited c call hc hr with ⟨k, rfl⟩ | ⟨hold, hc⟩
    · exact ⟨n, k, Entries.set_self hn⟩
    · obtain ⟨m, k, hm⟩ := h.awaited c call hc hr
      have hne : m ≠ n := by
        rintro rfl
        rw [hn] at hm
        cases hm
        exact hold k rfl
      exact ⟨m, k, (Entries.set_ne hne).trans hm⟩

/-- A handler spawned a task, under a duty of its own. -/
theorem Staffed.spawn (h : Staffed s δ) {script : Script Unit} {d : Duty} (hop : Operates s.world w')
    (hledger : Ledger w' (Function.update δ s.tasks.length d)) (hobeys : Api.Obeys d script) :
    Staffed ⟨w', s.tasks ++ [.ready script]⟩ (Function.update δ s.tasks.length d) := by
  refine ⟨hop.sound h.sound, hledger, fun m x hm => ?_, fun m hm => ?_, fun c call hc hr => ?_⟩
  · rcases Entries.append_cases hm with hm | ⟨rfl, rfl⟩
    · have hlt := (List.getElem?_eq_some_iff.1 hm).1
      rw [Function.update_of_ne (by omega)]
      exact (h.tasks m x hm).mono (.of_eq hop.calls)
    · rw [Function.update_self]
      exact hobeys
  · rw [List.length_append, List.length_singleton] at hm
    rw [Function.update_of_ne (by omega)]
    exact h.idle m (by omega)
  · simp only [hop.calls] at hc
    obtain ⟨m, k, hm⟩ := h.awaited c call hc hr
    exact ⟨m, k, Entries.append_kept hm⟩

/-- The agent changed without a task. -/
theorem Staffed.evolve (h : Staffed s δ) (hsound : Sound w') (hledger : Ledger w' δ) (hkept : CallsKept s.world w')
    (hreturned : ∀ (c : Nat) (call' : Call), w'.calls[c]? = some call' → (∀ r, call'.caller ≠ .returned r) →
      ∃ call : Call, s.world.calls[c]? = some call ∧ ∀ r, call.caller ≠ .returned r) :
        Staffed { s with world := w' } δ := by
  refine ⟨hsound, hledger, fun m x hm => (h.tasks m x hm).mono hkept, h.idle, fun c call' hc hr => ?_⟩
  obtain ⟨call, hc, hr⟩ := hreturned c call' hc hr
  exact h.awaited c call hc hr

theorem Staffed.operate (h : Staffed s δ) (hop : Operates s.world w') (hledger : Ledger w' δ) :
    Staffed { s with world := w' } δ :=
  h.evolve (hop.sound h.sound) hledger (.of_eq hop.calls) fun c call hc hr => ⟨call, by rw [← hop.calls]; exact hc, hr⟩

end Staffed

/-! ## Requests -/

/-- `create_rollback_job` creates a job. -/
def RollbackAdmitted (s : SchedulerState) (original : Uuid) : Prop :=
  (s.jobs.get? original).any (fun j => j.status == .failed || j.status == .completed) = true ∧
    s.admission = .open ∧ s.selfUpdate = none ∧ s.rebootPending = none ∧ s.activeUserJobs < s.maxQueueDepth

instance (s : SchedulerState) (original : Uuid) : Decidable (RollbackAdmitted s original) :=
  inferInstanceAs (Decidable (_ ∧ _))

/-- What a handler leaves behind: at most one operation was made, and the task that was spawned, if any,
has a duty with which the ledger is kept. -/
def Leaves (w : World) (δ : Nat → Duty) (n : Nat) (handled : Handled) : Prop :=
  Operates w handled.1 ∧ ((handled.2 = [] ∧ Ledger handled.1 δ) ∨
    ∃ script d, handled.2 = [script] ∧ Obeys d script ∧ Ledger handled.1 (Function.update δ n d))

section Requests

variable {w : World} {δ : Nat → Duty} {n : Nat} {handled : Handled} {newId : Uuid}

theorem leaves_unchanged (h : Ledger w δ) : Leaves w δ n (w, []) := ⟨.inl rfl, .inl ⟨rfl, h⟩⟩

theorem admitAndSpawn_leaves (hk : Known w) (h : Ledger w δ) (hn : δ n = .free) {operation : JobOperation}
    {packages : List String} {task : Uuid → Script Unit} (hop : operation ≠ .reboot)
    (htask : ∀ id, Obeys (.ofJob id) (task id))
    (hh : Handlers.admitAndSpawn w newId operation packages task = some handled) : Leaves w δ n handled := by
  obtain ⟨w', hs, rfl⟩ := Option.map_eq_some_iff.1 hh
  have hops : Operates w w' := .inr ⟨_, hs, rfl, SchedOp.noConfusion⟩
  have hl := h.admitJob (n := n) hk (by rw [hn]; rfl) hop hs
  cases hr : (w.sched.admitJob w.env newId operation packages).2 with
  | ok id =>
    simp only [hr, hn] at hl ⊢
    exact ⟨hops, .inr ⟨_, _, rfl, htask id, hl⟩⟩
  | error e =>
    simp only [hr, Duty.admitted, Function.update_eq_self] at hl ⊢
    exact ⟨hops, .inl ⟨rfl, hl⟩⟩

theorem selfUpdate_leaves (hk : Known w) (h : Ledger w δ) (hn : δ n = .free) {name : String}
    (hh : Handlers.selfUpdate w newId name = some handled) : Leaves w δ n handled := by
  obtain ⟨w', hs, rfl⟩ := Option.map_eq_some_iff.1 hh
  have hops : Operates w w' := .inr ⟨_, hs, rfl, SchedOp.noConfusion⟩
  have hl := h.tryReserveSelfUpdate hk hn hs
  cases hr : (w.sched.tryReserveSelfUpdate w.env newId [name] "" "").2 with
  | ok id =>
    simp only [hr] at hl ⊢
    exact ⟨hops, .inr ⟨_, _, rfl, obeys_selfUpdateTask name id, hl⟩⟩
  | error e =>
    simp only [hr] at hl ⊢
    rw [← hn, Function.update_eq_self] at hl
    exact ⟨hops, .inl ⟨rfl, hl⟩⟩

theorem rebootSystem_leaves (h : Ledger w δ) (hn : δ n = .free) {dropped : Bool} {delaySeconds : Nat} {force ack : Bool}
    (hh : Handlers.rebootSystem w newId dropped delaySeconds force ack = some handled) : Leaves w δ n handled := by
  obtain ⟨w', hs, rfl⟩ := Option.map_eq_some_iff.1 hh
  have hops : Operates w w' := .inr ⟨_, hs, rfl, SchedOp.noConfusion⟩
  obtain ⟨hl, hl'⟩ := h.reserveReboot (n := n) hs
  cases hr : (w.sched.reserveReboot w.env newId force ack).2 with
  | ok id =>
    cases dropped with
    | true => exact ⟨hops, .inl ⟨rfl, hl⟩⟩
    | false =>
      simp only [hr, hn] at hl'
      exact ⟨hops, .inr ⟨_, _, rfl, obeys_rebootTask delaySeconds id, hl'⟩⟩
  | error e => exact ⟨hops, .inl ⟨rfl, hl⟩⟩

/-- A refused rollback request changes nothing. -/
theorem rollbackJob_leaves (h : Ledger w δ) {original : Uuid} (hg : ¬ RollbackAdmitted w.sched original)
    (hh : Handlers.rollbackJob w newId original = some handled) : Leaves w δ n handled := by
  obtain ⟨w', hs, rfl⟩ := Option.map_eq_some_iff.1 hh
  refine ⟨.inr ⟨_, hs, rfl, SchedOp.noConfusion⟩, .inl ⟨rfl, ?_⟩⟩
  cases World.step_cases hs with
  | op _ _ =>
    rcases w.sched.createRollbackJob_spec w.env newId original with ⟨r, he, _⟩ | ⟨j, hj, hst, ha, hu, hr, hq, _⟩
    · exact h.quiet (.of_sched (by simp only [SchedOp.apply, he]) (List.subset_append_right _ _))
    · refine absurd ⟨?_, ha, hu, hr, hq⟩ hg
      rw [hj]
      simpa using hst

theorem deleteJob_leaves (h : Ledger w δ) {id : Uuid} (hh : Handlers.deleteJob w id = some handled) :
    Leaves w δ n handled := by
  obtain ⟨w', hs, rfl⟩ := Option.map_eq_some_iff.1 hh
  exact ⟨.inr ⟨_, hs, rfl, SchedOp.noConfusion⟩, .inl ⟨rfl, h.deleteJob hs⟩⟩

theorem refreshing_leaves (h : Ledger w δ) (hn : δ n = .free) (stale : Bool) (origin : RefreshOrigin) :
    Leaves w δ n (Handlers.refreshing w stale origin) := by
  cases stale with
  | false => exact leaves_unchanged h
  | true =>
    refine ⟨.inl rfl, .inr ⟨_, _, rfl, obeys_refreshTask origin, ?_⟩⟩
    rw [← hn, Function.update_eq_self]
    exact h

theorem handle_leaves (hk : Known w) (h : Ledger w δ) (hn : δ n = .free) {req : Request} {dropped : Bool}
    (hg : ∀ original, req = .rollbackJob original → ¬ RollbackAdmitted w.sched original)
    (hh : req.handle w newId dropped = some handled) : Leaves w δ n handled := by
  cases req with
  | installPackages packages options =>
    simp only [Request.handle, Handlers.installPackages] at hh
    split at hh
    · cases hh
      exact leaves_unchanged h
    · exact admitAndSpawn_leaves hk h hn JobOperation.noConfusion (obeys_mutationTask _) hh
  | updatePackage name =>
    simp only [Request.handle, Handlers.updatePackage] at hh
    split at hh
    · cases hh
      exact leaves_unchanged h
    split at hh
    · exact selfUpdate_leaves hk h hn hh
    · exact admitAndSpawn_leaves hk h hn JobOperation.noConfusion (obeys_mutationTask _) hh
  | removePackage name =>
    simp only [Request.handle, Handlers.removePackage] at hh
    split at hh
    · cases hh
      exact leaves_unchanged h
    · exact admitAndSpawn_leaves hk h hn JobOperation.noConfusion (obeys_mutationTask _) hh
  | applyPatches packages allowReboot delaySeconds =>
    simp only [Request.handle, Handlers.applyPatches] at hh
    split at hh
    · cases hh
      exact leaves_unchanged h
    · exact admitAndSpawn_leaves hk h hn JobOperation.noConfusion (obeys_patchTask _ _ _) hh
  | listPatches stale =>
    cases hh
    exact refreshing_leaves h hn stale .patchList
  | healthCheck stale =>
    cases hh
    exact refreshing_leaves h hn stale .healthCheck
  | rebootSystem delaySeconds force ack => exact rebootSystem_leaves h hn hh
  | rollbackJob original => exact rollbackJob_leaves h (hg original rfl) hh
  | deleteJob id => exact deleteJob_leaves h hh
  | _ =>
    cases hh
    exact leaves_unchanged h

end Requests

/-! ## Steps of the service -/

/-- A rollback request of this step creates no job. -/
def RefusesRollback (f : Fired Service ServiceAct) : Prop :=
  match f.act with
  | .request (.rollbackJob original) _ _ => ¬ RollbackAdmitted f.pre.world.sched original
  | _ => True

instance (f : Fired Service ServiceAct) : Decidable (RefusesRollback f) := by
  unfold RefusesRollback
  split <;> infer_instance

section Steps

variable {s s' : Service} {δ : Nat → Duty}

/-- Task number `n` makes a call, or hands its mutation to `dispatch_mutation`. -/
theorem staffed_run (h : Staffed s δ) {n : Nat} {x : Answers} (hs : s.step (.run n x) = some s') :
    ∃ δ', Staffed s' δ' := by
  simp only [Service.step] at hs
  split at hs
  next script hn =>
    obtain ⟨⟨w', task⟩, hr, rfl⟩ := Option.map_eq_some_iff.1 hs
    have hobeys : Obeys (δ n) script := h.tasks n _ hn
    cases runTask_cases hr with
    | dispatched id closure k _ hv =>
      obtain ⟨ha, hk⟩ := hobeys
      have hsound : Sound w' := sound_step (f := ⟨s.world, .dispatch id, w'⟩) hv trivial h.sound
      cases World.step_cases hv with
      | dispatch =>
        have hl : Ledger { s.world with calls := s.world.calls ++ [Call.new id], issued := id :: s.world.issued } δ :=
          h.ledger.quiet (.of_sched rfl (List.subset_cons_self _ _))
        refine ⟨_, h.goOn (d := δ n) hn hsound (by rw [Function.update_eq_self]; exact hl) ?_ ?_ ?_⟩
        · exact ⟨Call.new id, by simp, ha.1, hk⟩
        · intro c call hc
          exact ⟨call, Entries.append_kept hc, rfl⟩
        · intro c call hc _
          rcases Entries.append_cases hc with hc | ⟨rfl, _⟩
          · exact .inr ⟨fun k => Task.noConfusion, hc⟩
          · exact .inl ⟨k, rfl⟩
    | performed e k _ r hp =>
      obtain ⟨ha, hk⟩ := hobeys
      have hop := perform_operates ha hp
      exact ⟨_, h.goOn hn (hop.sound h.sound) (perform_ledger h.ledger h.sound.known ha hp) (hk r)
        (.of_eq hop.calls) fun c call hc _ => .inr ⟨fun k => Task.noConfusion, by rw [← hop.calls]; exact hc⟩⟩
  next => cases hs

/-- The mutation of task number `n` has returned. -/
theorem staffed_resume (h : Staffed s δ) {n : Nat} (hs : s.step (.resume n) = some s') : ∃ δ', Staffed s' δ' := by
  simp only [Service.step] at hs
  split at hs
  next c resume hn =>
    obtain ⟨r, hr, rfl⟩ := Option.map_eq_some_iff.1 hs
    obtain ⟨call, hc, hd, hk⟩ := h.tasks n _ hn
    have hcaller : call.caller = .returned r := by
      simp only [returned?, hc] at hr
      split at hr
      · cases hr
        assumption
      · cases hr
    have hl : Ledger s.world (Function.update δ n ((δ n).dispatched r)) := by
      cases r with
      | ok u => exact h.ledger.start hd (h.sound.started call (List.mem_of_getElem? hc) (.inr (.inr hcaller)))
      | error e =>
        simp only [Duty.dispatched, Function.update_eq_self]
        exact h.ledger
    refine ⟨_, h.goOn hn h.sound hl (hk r) (.of_eq rfl) fun c' call' hc' hr' => .inr ⟨?_, hc'⟩⟩
    rintro k ⟨⟩
    rw [hc] at hc'
    cases hc'
    exact hr' r hcaller
  next => cases hs

/-- A move of a call whose job is owed while it is in the wait loop. -/
theorem Ledger.moved {w : World} {s' : SchedulerState} {c : Nat} {call call' : Call} {a : CallAct} (h : Ledger w δ)
    (ha : a ≠ .drop) (howed : call.caller = .locking → ∃ n, (δ n).job = some (call.jobId, .queued))
    (hcs : CallStep w.env c w.sched call a s' call') :
    Ledger { w with sched := s', calls := w.calls.set c call' } δ := by
  have quiet : s'.jobs = w.sched.jobs → s'.rebootPending = w.sched.rebootPending →
      s'.selfUpdate = w.sched.selfUpdate → Ledger { w with sched := s', calls := w.calls.set c call' } δ :=
    fun hj hr hu => h.quiet
      ⟨List.Subset.refl _, fun id j' hj' => ⟨j', by rw [← hj]; exact hj', rfl, .inl rfl⟩, hr, hu⟩
  cases hcs with
  | rejected | waiting | registered | woken | spawned | started | ran | exited | joined | elapsed
  | received => exact quiet rfl rfl rfl
  | dropped => exact absurd rfl ha
  | finalized r i hl =>
    have hfr := w.sched.finalizeMutation_frame w.env call.jobId call.generation r
      (decide (call.caller = .awaiting))
    refine h.quiet ⟨List.Subset.refl _, fun id j' hj' => ?_, hfr.rebootPending, hfr.selfUpdate⟩
    simp only [SchedulerState.finalizeMutation_get?] at hj'
    split at hj'
    · next hk =>
      obtain ⟨j, hj, rfl⟩ := Option.map_eq_some_iff.1 hj'
      refine ⟨j, by rw [hk.1]; exact hj, (abandonJob_move r j).operation, ?_⟩
      unfold SchedulerState.abandonJob
      split
      · rw [SchedulerState.failAbandoned_status]
        exact .inr rfl
      · exact .inl rfl
    · exact ⟨j', hj', rfl, .inl rfl⟩
  | acquired b s' hl hrdy hfr hget =>
    obtain ⟨n, hd⟩ := howed hl
    refine h.evolve (List.Subset.refl _) (fun id j' hj' => .inl ?_)
      (fun m r hm => hfr.rebootPending.trans ((h.guards m r true hm).2.1 rfl)) (fun id j' hj' hop hact => ?_)
      (fun id j' hj' hop hact => hfr.rebootPending.trans ?_) fun su hsu => h.update su (hfr.selfUpdate ▸ hsu)
    all_goals
      simp only [hget] at hj'
      split at hj'
    · next hk =>
      obtain ⟨j, hj, rfl⟩ := Option.map_eq_some_iff.1 hj'
      refine ⟨j, by rw [hk]; exact hj, by unfold SchedulerState.startJob; split <;> rfl, fun hp => ?_⟩
      rw [SchedulerState.startJob_status _ _ hj] at hp
      cases hp
    · exact ⟨j', hj', rfl, fun hp => hp⟩
    · next hk => exact ⟨n, .queued, by rw [hk]; exact hd, fun hs => by cases hs⟩
    · exact h.covered id j' hj' hop hact
    · obtain ⟨j, hj, rfl⟩ := Option.map_eq_some_iff.1 hj'
      refine absurd ?_ (((h.owed n _ _ hd).2 j hj).1)
      rw [← hop]
      unfold SchedulerState.startJob
      split <;> rfl
    · exact h.reboot id j' hj' hop hact

/-- A move of a call leaves the calls there are, and no caller comes back. -/
theorem CallsKept.moved {w : World} {s' : SchedulerState} {c : Nat} {call call' : Call} {a : CallAct}
    (hc : w.calls[c]? = some call) (hcs : CallStep w.env c w.sched call a s' call') :
    CallsKept w { w with sched := s', calls := w.calls.set c call' } := by
  intro i x hx
  by_cases hi : i = c
  · subst hi
    rw [hc] at hx
    cases hx
    exact ⟨call', Entries.set_self hc, callStep_jobId hcs⟩
  · exact ⟨x, (Entries.set_ne hi).trans hx, rfl⟩

theorem unreturned_moved {w : World} {s' : SchedulerState} {c : Nat} {call call' : Call} {a : CallAct}
    (hc : w.calls[c]? = some call) (hcs : CallStep w.env c w.sched call a s' call') :
    ∀ (i : Nat) (x : Call), (w.calls.set c call')[i]? = some x → (∀ r, x.caller ≠ .returned r) →
      ∃ y : Call, w.calls[i]? = some y ∧ ∀ r, y.caller ≠ .returned r := by
  intro i x hx hr
  rcases Entries.set_cases hx with ⟨rfl, rfl⟩ | ⟨_, hx⟩
  · exact ⟨call, hc, fun r hcr => hr r (callStep_returned hcs hcr)⟩
  · exact ⟨x, hx, hr⟩

/-- A move of a call: the job that it starts is owed by the task that awaits it. -/
theorem staffed_call (h : Staffed s δ) {c : Nat} {a : CallAct} (hs : s.step (.call c a) = some s') :
    Staffed s' δ := by
  simp only [Service.step] at hs
  split at hs
  · cases hs
  next ha =>
    obtain ⟨w', hw, rfl⟩ := Option.map_eq_some_iff.1 hs
    have hsound : Sound w' := sound_step (f := ⟨s.world, .call c a, w'⟩) hw ha h.sound
    cases World.step_cases hw with
    | call c a call call' s' hc hcs =>
      refine h.evolve hsound (h.ledger.moved ha (fun hl => ?_) hcs) (.moved hc hcs) (unreturned_moved hc hcs)
      -- the caller is in the wait loop, so that a task awaits it
      obtain ⟨n, k, hn⟩ := h.awaited c call hc fun r hr => by rw [hl] at hr; cases hr
      obtain ⟨call₁, hc₁, hd, _⟩ := h.tasks n _ hn
      rw [hc] at hc₁
      cases hc₁
      exact ⟨n, hd⟩

theorem staffed_step {f : Fired Service ServiceAct} (hf : IsStep service f) (hg : RefusesRollback f)
    (h : ∃ δ, Staffed f.pre δ) : ∃ δ, Staffed f.post δ := by
  obtain ⟨s, a, s'⟩ := f
  obtain ⟨δ, h⟩ := h
  have hs : s.step a = some s' := hf
  cases a with
  | request req newId dropped =>
    simp only [Service.step] at hs
    obtain ⟨⟨w', scripts⟩, hh, rfl⟩ := Option.map_eq_some_iff.1 hs
    have hidle := h.idle s.tasks.length le_rfl
    obtain ⟨hop, ⟨rfl, hl⟩ | ⟨script, d, rfl, hobeys, hl⟩⟩ := handle_leaves h.sound.known h.ledger hidle
      (fun original hr => by subst hr; exact hg) hh
    · simp only [List.map_nil, List.append_nil]
      exact ⟨δ, h.operate hop hl⟩
    · exact ⟨_, h.spawn hop hl hobeys⟩
  | run n x => exact staffed_run h hs
  | resume n => exact staffed_resume h hs
  | call c a => exact ⟨δ, staffed_call h hs⟩
  | tick seconds =>
    simp only [Service.step] at hs
    obtain ⟨w', hw, rfl⟩ := Option.map_eq_some_iff.1 hs
    have hsound : Sound w' := sound_step (f := ⟨s.world, .tick seconds, w'⟩) hw trivial h.sound
    cases World.step_cases hw
    exact ⟨δ, h.evolve hsound (h.ledger.quiet (.of_sched rfl (List.Subset.refl _))) (.of_eq rfl)
      fun c call hc hr => ⟨call, hc, hr⟩⟩

end Steps

end LinuxPatchApi.Api
