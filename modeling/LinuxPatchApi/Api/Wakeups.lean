/-
No lost wake-up. Whenever a caller of a mutation waits in the queue, or is on its way there, somebody will
hear of it: a permit is stored, a woken caller is still to make its next pass, the slot is held by a call
whose watchdog is still to notify, or a task is still to notify. Carried by: a job that is Running belongs
to a task that is still to notify, or to the call that holds the slot.
-/
import LinuxPatchApi.Api.Promptness
import LinuxPatchApi.Jobs.Limit

namespace LinuxPatchApi.Api

open Interaction LinuxPatchApi.Packages LinuxPatchApi.Jobs Transition

/-! ## Jobs that are not Running -/

/-- The job is not Running, if it is in the map. -/
def Resting (w : World) (id : Uuid) : Prop := ∀ j, w.sched.jobs.get? id = some j → j.status ≠ .running

/-- The caller is in the wait loop. -/
def InLoop (call : Call) : Prop := call.caller = .locking ∨ call.caller = .registering ∨ call.caller = .suspended

section Resting

variable {w w' : World} {id : Uuid}

theorem Resting.op {o : SchedOp} (h : Resting w id) (hs : w.step (.op o) = some w') (hu : o.isUpdateJob = false) :
    Resting w' id := by
  intro j' hj' hrun
  cases World.step_cases hs with
  | op _ _ =>
    rcases apply_get? hu hj' with ⟨_, hp, _⟩ | ⟨j, hj, hm⟩
    · rw [hp] at hrun
      cases hrun
    · exact h j hj (hm.running hrun)

theorem Resting.performed {d : Duty} {x : Answers} {e : TaskCall} {r : TaskResponse e} (h : Resting w id)
    (ha : d.Allows e)
    (hp : perform w x e = some (w', r)) : Resting w' id := by
  rcases perform_operates ha hp with rfl | ⟨o, hs, ho, _⟩
  · exact h
  · exact h.op hs ho

theorem Resting.handled {newId : Uuid} {scripts : List (Script Unit)} {d : Option Duty} (h : Resting w id)
    (hs : HandlerStep w newId w' scripts d) : Resting w' id := by
  rcases hs.operated with rfl | ⟨o, ho, hreq⟩
  · exact h
  · exact h.op ho hreq.notUpdateJob

/-- A job starts to run only when a call for it acquires the slot. -/
theorem Resting.moved {c : Nat} {call call' : Call} {a : CallAct} {s' : SchedulerState} (h : Resting w id)
    (hcs : callStep w.env c w.sched call a = some (s', call')) (hd : a ≠ .drop) (hatt : Attended call)
    (hno : call.jobId = id → call'.caller ≠ .persisting) :
    Resting { w with sched := s', calls := w.calls.set c call' } id := by
  intro j' hj' hrun
  rcases callStep_jobs (callStep_cases hcs) hd hatt with ⟨hsame, _⟩ | ⟨_, hp, hget⟩
  · simp only [hsame] at hj'
    exact h j' hj' hrun
  · simp only [hget] at hj'
    split at hj'
    · next hid => exact hno hid.symm hp
    · exact h j' hj' hrun

theorem resting_absent (h : w.sched.jobs.get? id = none) : Resting w id := fun j hj => by
  rw [h] at hj
  cases hj

/-- A job whose id was drawn by a step is Pending, if it was created at all. -/
theorem resting_performed {d : Duty} {x : Answers} {e : TaskCall} {r : TaskResponse e} (hk : Known w) (ha : d.Allows e)
    (hp : perform w x e = some (w', r)) (hid : id ∉ w.issued) : Resting w' id := by
  rcases perform_operates ha hp with rfl | ⟨o, hs, ho, _⟩
  · exact resting_absent (fresh_absent hk hid)
  · intro j hj hrun
    rw [new_pending hk hs ho hid j hj] at hrun
    cases hrun

theorem callStep_inLoop {env : Env} {c : Nat} {s s' : SchedulerState} {call call' : Call} {a : CallAct}
    (h : CallStep env c s call a s' call') (hl : InLoop call') : InLoop call := by
  cases h with
  | rejected | acquired | spawned | received | dropped => rcases hl with hl | hl | hl <;> cases hl
  | waiting h | registered _ _ h | woken _ h => simp only [InLoop, h, true_or, or_true]
  | started | ran | exited | joined | elapsed | finalized => exact hl

end Resting

/-! ## Wakeful services -/

/-- A task will respond: before its mutation its job rests. -/
def Task.Prompt (w : World) (d : Duty) : Task → Prop
  | .ready script => Responds true d script ∨
      Responds false d script ∧ ∀ id stage, d.job = some (id, stage) → Resting w id
  | .awaiting c resume => (∀ r, Responds true (d.dispatched r) (resume r)) ∧
      ∃ call : Call, w.calls[c]? = some call ∧ (InLoop call → Resting w call.jobId)

/-- Every task responds, and a job that no task was spawned for rests. -/
structure Wakeful (s : Service) (δ : Nat → Duty) : Prop where
  capacity : 0 < s.world.sched.maxConcurrent
  queue : Queued s.world
  forsaken : ∀ k id stage, (δ (2 * k + 1)).job = some (id, stage) → Resting s.world id
  prompt : ∀ (n : Nat) (task : Task), s.tasks[n]? = some task → task.Prompt s.world (δ (seat n))

theorem startup_wakeful {s : Service} (h : s.Startup) : Wakeful s fun _ => .free := by
  obtain ⟨hw, ht⟩ := h
  refine ⟨?_, startup_queued hw, fun k id stage hd => (by cases hd), fun n task hn => ?_⟩
  · obtain ⟨mc, mq, loaded, hs, _⟩ := hw
    rw [hs]
    show 0 < max mc 1
    omega
  · rw [ht] at hn
    cases hn

section Wakeful

variable {s s' : Service} {w' : World} {δ δ' : Nat → Duty} {a : ProcessAct}

/-- The task stays, and no job starts to run. -/
theorem Task.Prompt.kept {w w' : World} {d : Duty} {task : Task} (h : task.Prompt w d)
    (hrest : ∀ id, Resting w id → Resting w' id)
    (hcalls : ∀ (c : Nat) (call : Call), w.calls[c]? = some call → w'.calls[c]? = some call) : task.Prompt w' d := by
  cases task with
  | ready script =>
    rcases h with h | ⟨h, hr⟩
    · exact .inl h
    · exact .inr ⟨h, fun id stage hd => hrest id (hr id stage hd)⟩
  | awaiting c resume =>
    obtain ⟨h, call, hc, hl⟩ := h
    exact ⟨h, call, hcalls c call hc, fun hin => hrest call.jobId (hl hin)⟩

theorem op_maxConcurrent {w w' : World} {o : SchedOp} (hs : w.step (.op o) = some w') :
    w'.sched.maxConcurrent = w.sched.maxConcurrent := by
  cases World.step_cases hs with
  | op _ _ => exact apply_maxConcurrent w.env w.sched o

/-- The agent after an operation, or as it was. -/
theorem Wakeful.operated (h : Wakeful s δ) (hop : w' = s.world ∨ ∃ o, s.world.step (.op o) = some w') :
    0 < w'.sched.maxConcurrent ∧ Queued w' := by
  rcases hop with rfl | ⟨o, hs⟩
  · exact ⟨h.capacity, h.queue⟩
  · exact ⟨by rw [op_maxConcurrent hs]; exact h.capacity, queued_op h.queue hs⟩

theorem HandlerStep.calls {w w' : World} {newId : Uuid} {scripts : List (Script Unit)} {d : Option Duty}
    (h : HandlerStep w newId w' scripts d) : w'.calls = w.calls := by
  rcases h.operated with rfl | ⟨o, ho, _⟩
  · rfl
  · exact op_calls ho

theorem wakeful_handled (h : Wakeful s δ) (hm : Manned s δ)
    {newId : Uuid} {scripts : List (Script Unit)} {d : Option Duty}
    (hs : HandlerStep s.world newId w' scripts d) (hh : Hires s w' scripts δ δ') :
    Wakeful ⟨w', s.tasks ++ scripts.map .ready⟩ δ' := by
  have hop : w' = s.world ∨ ∃ o, s.world.step (.op o) = some w' := by
    rcases hs.operated with he | ⟨o, ho, _⟩
    · exact .inl he
    · exact .inr ⟨o, ho⟩
  obtain ⟨hcap, hq⟩ := h.operated hop
  -- a job of a new duty is Pending
  have fresh : ∀ m id stage, (δ' m).job = some (id, stage) → δ' m = δ m ∨ Resting w' id := by
    intro m id stage hd
    rcases hh.fresh m with he | ⟨hnew, _⟩
    · exact .inl he
    · refine .inr fun j hj hrun => ?_
      rw [(hnew id stage hd).2 j hj] at hrun
      cases hrun
  refine ⟨hcap, hq, fun k id stage hd => ?_, fun n task hn => ?_⟩
  · rcases fresh _ id stage hd with he | hr
    · rw [he] at hd
      exact (h.forsaken k id stage hd).handled hs
    · exact hr
  · rw [List.getElem?_append] at hn
    split at hn
    · next hlt =>
      rw [hh.kept n hlt]
      exact (h.prompt n task hn).kept (fun id hr => hr.handled hs) fun c call hc => by rw [hs.calls]; exact hc
    · next hle =>
      rcases hh.scripts with rfl | ⟨newId', script, rfl, hspawn⟩
      · cases hn
      · obtain ⟨hlt, hx⟩ := List.getElem?_eq_some_iff.1 hn
        simp only [List.map_cons, List.map_nil, List.length_singleton] at hlt
        obtain rfl : n = s.tasks.length := by omega
        simp only [List.map_cons, List.map_nil, Nat.sub_self, List.getElem_cons_zero] at hx
        rw [← hx]
        refine .inr ⟨hspawn.responds, fun id stage hd => ?_⟩
        rcases fresh _ id stage hd with he | hr
        · rw [he, hm.idle s.tasks.length le_rfl] at hd
          cases hd
        · exact hr

/-- Task number `n` goes on. -/
theorem Wakeful.goOn (h : Wakeful s δ) {n : Nat} {old task : Task} {d : Duty} (hn : s.tasks[n]? = some old)
    (hcap : 0 < w'.sched.maxConcurrent) (hq : Queued w') (hrest : ∀ id, Resting s.world id → Resting w' id)
    (hcalls : ∀ (c : Nat) (call : Call), s.world.calls[c]? = some call → w'.calls[c]? = some call)
    (hprompt : task.Prompt w' d) :
    Wakeful ⟨w', s.tasks.set n task⟩ (Function.update δ (seat n) d) := by
  refine ⟨hcap, hq, fun k id stage hd => ?_, fun m x hm => ?_⟩
  · rw [Function.update_of_ne (seat_ne_odd n k).symm] at hd
    exact hrest id (h.forsaken k id stage hd)
  · rcases Entries.set_cases hm with ⟨rfl, rfl⟩ | ⟨hne, hm⟩
    · rw [Function.update_self]
      exact hprompt
    · rw [Function.update_of_ne (seat_ne hne)]
      exact (h.prompt m x hm).kept hrest hcalls

theorem performed_dispatches {w w' : World} {x : Answers} {e : TaskCall} {r : TaskResponse e}
    (hp : perform w x e = some (w', r)) :
    e.dispatches = false := by
  cases e with
  | dispatchMutation => cases hp
  | _ => rfl

theorem wakeful_ran (h : Wakeful s δ) (hm : Manned s δ)
    {n : Nat} {x : Answers} {e : TaskCall} {k : TaskResponse e → Script Unit}
    {r : TaskResponse e} (hn : s.tasks[n]? = some (.ready (.call e k))) (ha : (δ (seat n)).Allows e)
    (hp : perform s.world x e = some (w', r)) :
    Wakeful ⟨w', s.tasks.set n (.ready (k r))⟩ (Function.update δ (seat n) ((δ (seat n)).after e r)) := by
  have hop : w' = s.world ∨ ∃ o, s.world.step (.op o) = some w' := by
    rcases perform_operates ha hp with he | ⟨o, hs, _⟩
    · exact .inl he
    · exact .inr ⟨o, hs⟩
  obtain ⟨hcap, hq⟩ := h.operated hop
  refine h.goOn hn hcap hq (fun id hr => hr.performed ha hp) (fun c call hc => ?_) ?_
  · rw [(perform_operates ha hp).calls]
    exact hc
  · rcases h.prompt n _ hn with hr | ⟨hr, hrest⟩
    · exact .inl (hr.2 r)
    · have hk := hr.2 r
      rw [performed_dispatches hp] at hk
      refine .inr ⟨hk, fun id stage hd => ?_⟩
      rcases after_job ha hp id stage hd with ⟨stage', hd'⟩ | hnew
      · exact (hrest id stage' hd').performed ha hp
      · exact resting_performed hm.steady.known ha hp hnew

/-- A task that awaits its mutation has a job that rests until the slot is acquired. -/
theorem wakeful_dispatched (h : Wakeful s δ) {n : Nat} {id : Uuid} {closure : MutationClosure}
    {k : MutationResult → Script Unit}
    (hn : s.tasks[n]? = some (.ready (.call (.dispatchMutation id closure) k)))
    (hd : (δ (seat n)).job = some (id, .queued)) :
    Wakeful ⟨{ s.world with calls := s.world.calls ++ [Call.new id], issued := id :: s.world.issued },
      s.tasks.set n (.awaiting s.world.calls.length k)⟩ δ := by
  have hcalls : ∀ (c : Nat) (call : Call), s.world.calls[c]? = some call →
    (s.world.calls ++ [Call.new id])[c]? = some call :=
    fun _ _ => Entries.append_kept
  have hresting : ∀ k, Resting s.world k →
      Resting { s.world with calls := s.world.calls ++ [Call.new id], issued := id :: s.world.issued } k :=
    fun k hr => hr
  have hq : Queued { s.world with calls := s.world.calls ++ [Call.new id], issued := id :: s.world.issued } :=
    h.queue.same (.refl _) fun c call hc hs => ⟨call, hcalls c call hc, hs⟩
  have hnew : (s.world.calls ++ [Call.new id])[s.world.calls.length]? = some (Call.new id) := by simp
  have hgo := @Wakeful.goOn s
    { s.world with calls := s.world.calls ++ [Call.new id], issued := id :: s.world.issued } δ h n _
    (.awaiting s.world.calls.length k) (δ (seat n)) hn h.capacity hq hresting hcalls ?_
  · rw [Function.update_eq_self] at hgo
    exact hgo
  · rcases h.prompt n _ hn with hr | ⟨hr, hrest⟩
    · -- a script that has its mutation behind it would notify now
      have hwill := hr.1 rfl ⟨id, .queued, hd, Stage.noConfusion⟩
      cases hwill.1
    · exact ⟨fun r => hr.2 r, Call.new id, hnew, fun _ => hrest id .queued hd⟩

theorem wakeful_resumed (h : Wakeful s δ) {n c : Nat} {resume : MutationResult → Script Unit} {r : MutationResult}
    (hn : s.tasks[n]? = some (.awaiting c resume)) :
    Wakeful { s with tasks := s.tasks.set n (.ready (resume r)) }
      (Function.update δ (seat n) ((δ (seat n)).dispatched r)) :=
  h.goOn hn h.capacity h.queue (fun _ hr => hr) (fun _ _ hc => hc) (.inl ((h.prompt n _ hn).1 r))

/-- The job of a call that has not returned is owed by the task that awaits it, and by nobody else. -/
theorem Manned.owner_unique (h : Manned s δ) {c p : Nat} {call : Call} {id : Uuid} {stage : Stage}
    (hc : s.world.calls[c]? = some call) (hr : ∀ r, call.caller ≠ .returned r) (hp : (δ p).job = some (id, stage))
    (hid : call.jobId = id) : ∃ n k, p = seat n ∧ s.tasks[n]? = some (.awaiting c k) := by
  obtain ⟨n, k, hn, hd⟩ := h.owes_waiting hc hr
  exact ⟨n, k, h.distinct p (seat n) id stage .queued hp (hid ▸ hd), hn⟩

theorem wakeful_moved (h : Wakeful s δ) (hm : Manned s δ)
    {c : Nat} {a : CallAct} {call call' : Call} {s₁ : SchedulerState}
    (hd : a ≠ .drop) (hc : s.world.calls[c]? = some call)
    (hcs : callStep s.world.env c s.world.sched call a = some (s₁, call')) :
    Wakeful ⟨{ s.world with sched := s₁, calls := s.world.calls.set c call' }, s.tasks⟩ δ := by
  have hatt := hm.steady.attended call (List.mem_of_getElem? hc)
  have hstep := callStep_cases hcs
  -- a call that acquires the slot had not returned
  have hlive : call'.caller = .persisting → ∀ r, call.caller ≠ .returned r := fun hp r hr => by
    rw [callStep_returned hstep hr] at hp
    cases hp
  refine ⟨?_, queued_call h.queue hc (queueMove_of_step hcs hd), fun k id stage hd' => ?_, fun n task hn => ?_⟩
  · show 0 < s₁.maxConcurrent
    have hcap : s₁.maxConcurrent = s.world.sched.maxConcurrent := by
      cases hstep with
      | acquired b s' _ _ hfr _ => exact hfr.maxConcurrent
      | finalized r i _ => exact (s.world.sched.finalizeMutation_frame s.world.env _ _ r _).maxConcurrent
      | _ => rfl
    rw [hcap]
    exact h.capacity
  · refine (h.forsaken k id stage hd').moved hcs hd hatt fun hid hp => ?_
    obtain ⟨n, _, hseat, _⟩ := hm.owner_unique hc (hlive hp) hd' hid
    exact seat_ne_odd n k hseat.symm
  · cases task with
    | ready script =>
      rcases h.prompt n _ hn with hr | ⟨hr, hrest⟩
      · exact .inl hr
      · refine .inr ⟨hr, fun id stage hd' => (hrest id stage hd').moved hcs hd hatt fun hid hp => ?_⟩
        obtain ⟨m, k, hseat, hm'⟩ := hm.owner_unique hc (hlive hp) hd' hid
        rw [← seat_inj hseat, hn] at hm'
        cases hm'
    | awaiting c₀ resume =>
      obtain ⟨hr, call₀, hc₀, hrest⟩ := h.prompt n _ hn
      obtain ⟨call₁, hc₁, hd', _⟩ := hm.tasks n _ hn
      rw [hc₀] at hc₁
      cases hc₁
      by_cases hcc : c₀ = c
      · subst hcc
        rw [hc] at hc₀
        cases hc₀
        refine ⟨hr, call', Entries.set_self hc, fun hl => ?_⟩
        rw [callStep_jobId hstep]
        refine (hrest (callStep_inLoop hstep hl)).moved hcs hd hatt fun _ hp => ?_
        rcases hl with hl | hl | hl <;> rw [hp] at hl <;> cases hl
      · refine ⟨hr, call₀, (Entries.set_ne hcc).trans hc₀, fun hl => (hrest hl).moved hcs hd hatt fun hid hp => hcc ?_⟩
        obtain ⟨m, k, hseat, hm'⟩ := hm.owner_unique hc (hlive hp) hd' hid
        rw [← seat_inj hseat, hn] at hm'
        cases hm'
        rfl

theorem wakeful_step (h : Wakeful s δ) (hm : Manned s δ) (hs : Shift s δ a s' δ') : Wakeful s' δ' := by
  cases hs with
  | handled _ _ _ w' scripts d _ _ hstep hhire => exact wakeful_handled h hm hstep hhire
  | ran n x e k w' r hn ha hp => exact wakeful_ran h hm hn ha hp
  | dispatched n x id closure k hn hd => exact wakeful_dispatched h hn hd
  | resumed n c resume r call hn => exact wakeful_resumed h hn
  | moved c b call call' s₁ hd hc hcs => exact wakeful_moved h hm hd hc hcs
  | ticked seconds =>
    exact ⟨h.capacity, h.queue.same (.refl _) fun c call hc hs => ⟨call, hc, hs⟩, h.forsaken, fun n task hn =>
      (h.prompt n task hn).kept (fun _ hr => hr) fun _ _ hc => hc⟩
  | froze =>
    exact ⟨h.capacity, h.queue.same s.world.sched.notify.notifyOne_parked fun c call hc hs =>
      ⟨call, hc, hs⟩, h.forsaken,
      fun n task hn => (h.prompt n task hn).kept (fun _ hr => hr) fun _ _ hc => hc⟩

end Wakeful

/-! ## Who will hear -/

/-- The task is due to call `notify_one`: at its script, or as soon as it gets the result of its mutation. -/
def Task.Due (w : World) : Task → Prop
  | .ready script => WillNotify script
  | .awaiting c resume => ∃ call r, w.calls[c]? = some call ∧ (call.inbox = some r ∨ call.caller = .returned r) ∧
    WillNotify (resume r)

/-- Call number `c` made a pass of the wait loop. -/
def Checked (tr : List (Fired Service ProcessAct)) (c : Nat) : Prop := ∃ f ∈ tr, f.act = .service (.call c .check)

/-- The caller was woken and has not made its next pass: it is to be polled, or about to take the lock again. -/
def Woken (tr : List (Fired Service ProcessAct)) (w : World) (c : Nat) (call : Call) : Prop :=
  call.caller = .suspended ∧ c ∈ w.sched.notify.notified ∨ call.caller = .locking ∧ Checked tr c

/-- Somebody is still to look at the queue, or to call `notify_one`. -/
inductive Heard (tr : List (Fired Service ProcessAct)) (s : Service) : Prop
  | permit : s.world.sched.notify.permit = true → Heard tr s
  | woken (c : Nat) (call : Call) : s.world.calls[c]? = some call → Woken tr s.world c call → Heard tr s
  | watchdog (c : Nat) (call : Call) : s.world.calls[c]? = some call → call.Holds → Heard tr s
  | task (n : Nat) (task : Task) : s.tasks[n]? = some task → task.Due s.world → Heard tr s

/-- The caller waits in the queue, or is on its way there. -/
def Waiting (call : Call) : Prop := call.caller = .registering ∨ call.caller = .suspended

section Due

variable {s : Service} {δ : Nat → Duty}

/-- A task that has its mutation behind it and a pressing duty is due. -/
theorem willNotify_of_responds {d : Duty} {script : Script Unit} (hr : Responds true d script) (hp : d.Pressing)
    (ho : Obeys d script) : WillNotify script := by
  cases script with
  | pure _ =>
    obtain ⟨id, stage, hd, hne⟩ := hp
    exact absurd (ho.1 id stage hd).1 hne
  | call e k => exact hr.1 rfl hp

/-- Whatever the result of its mutation, a task notifies afterwards. -/
theorem Wakeful.resumes (h : Wakeful s δ) (hm : Manned s δ) {n c : Nat} {resume : MutationResult → Script Unit}
    (hn : s.tasks[n]? = some (.awaiting c resume)) (r : MutationResult) : WillNotify (resume r) := by
  obtain ⟨call, _, hd, ho⟩ := hm.tasks n _ hn
  refine willNotify_of_responds ((h.prompt n _ hn).1 r) ?_ (ho r)
  cases r with
  | ok u => exact ⟨call.jobId, .started, by simp [Duty.dispatched, hd], Stage.noConfusion⟩
  | error e => exact ⟨call.jobId, .queued, hd, Stage.noConfusion⟩

/-- While no reboot is reserved, a Running job is that of the call that holds the slot, or of a task that is due. -/
theorem Wakeful.running (h : Wakeful s δ) (hm : Manned s δ) (hnone : s.world.sched.rebootPending = none)
    {id : Uuid} {j : Job}
    (hj : s.world.sched.jobs.get? id = some j) (hrun : j.status = .running) :
    (∃ (c : Nat) (call : Call), s.world.calls[c]? = some call ∧ call.Holds) ∨
      ∃ (n : Nat) (task : Task), s.tasks[n]? = some task ∧ task.Due s.world := by
  have hact : j.status.isActive = true := by rw [hrun]; rfl
  have hop : j.operation ≠ .reboot := fun he => by
    have hheld := hm.ledger.reboot id j hj he hact
    rw [hnone] at hheld
    cases hheld
  obtain ⟨p, stage, hd, hst⟩ := hm.ledger.covered id j hj hop hact
  have hstage : stage ≠ .rebooting := fun he => by
    have := (hst he).1
    rw [hrun] at this
    cases this
  -- the duty is not one of a job that nobody was spawned for
  obtain ⟨n, rfl⟩ : ∃ n, p = seat n := by
    rcases Nat.even_or_odd' p with ⟨k, he | ho⟩
    · exact ⟨k, he⟩
    · exact absurd hrun (h.forsaken k id stage (ho ▸ hd) j hj)
  have hlt : n < s.tasks.length := by
    by_contra hle
    rw [hm.idle n (by omega)] at hd
    cases hd
  obtain ⟨task, hn⟩ : ∃ task, s.tasks[n]? = some task := ⟨_, List.getElem?_eq_getElem hlt⟩
  cases task with
  | ready script =>
    refine .inr ⟨n, _, hn, ?_⟩
    rcases h.prompt n _ hn with hr | ⟨_, hrest⟩
    · exact willNotify_of_responds hr ⟨id, stage, hd, hstage⟩ (hm.tasks n _ hn)
    · exact absurd hrun (hrest id stage hd j hj)
  | awaiting c resume =>
    obtain ⟨_, call, hc, hrest⟩ := h.prompt n _ hn
    obtain ⟨call', hc', hd', _⟩ := hm.tasks n _ hn
    rw [hc] at hc'
    cases hc'
    rw [hd] at hd'
    cases hd'
    have hin : ¬ InLoop call := fun hl => hrest hl j hj hrun
    have hatt := hm.steady.attended call (List.mem_of_getElem? hc)
    have hdue : ∀ r, call.inbox = some r ∨ call.caller = .returned r →
      (Task.awaiting c resume).Due s.world := fun r hr =>
      ⟨call, r, hc, hr, h.resumes hm hn r⟩
    cases hcaller : call.caller with
    | locking => exact absurd (.inl hcaller) hin
    | registering => exact absurd (.inr (.inl hcaller)) hin
    | suspended => exact absurd (.inr (.inr hcaller)) hin
    | persisting => exact .inl ⟨c, call, hc, .inl hcaller⟩
    | awaiting =>
      rcases hatt.delivered hcaller with hlive | ⟨r, hr⟩
      · exact .inl ⟨c, call, hc, .inr hlive⟩
      · exact .inr ⟨n, _, hn, hdue r (.inl hr)⟩
    | returned r => exact .inr ⟨n, _, hn, hdue r (.inr hcaller)⟩
    | dropped => exact absurd hcaller hatt.kept

/-- A pass that waits has somebody to wait for. -/
theorem Wakeful.waits (h : Wakeful s δ) (hm : Manned s δ) {jobId : Uuid}
    (hw : (s.world.sched.dispatchCheck s.world.env jobId).2 = .wait) :
    (∃ (c : Nat) (call : Call), s.world.calls[c]? = some call ∧ call.Holds) ∨
      ∃ (n : Nat) (task : Task), s.tasks[n]? = some task ∧ task.Due s.world := by
  obtain ⟨hrej, hor⟩ := SchedulerState.dispatchCheck_wait s.world.env s.world.sched hw
  obtain ⟨_, hnone, _⟩ := (SchedulerState.dispatchRejection_eq_none s.world.sched jobId).1 hrej
  rcases hor with hslot | hfull
  · obtain ⟨m, hm'⟩ := Option.isSome_iff_exists.1 hslot
    obtain ⟨c, call, hc, hh, _⟩ := hm.steady.owned m hm'
    exact .inl ⟨c, call, hc, hh⟩
  · -- the limit is at least one, so that some job is Running
    have hcapacity := h.capacity
    have hpos : s.world.sched.runningCount ≠ 0 := by omega
    rw [SchedulerState.runningCount, Ne, FinMap.count_eq_zero] at hpos
    push Not at hpos
    obtain ⟨id, j, hj, hrun⟩ := hpos
    exact h.running hm hnone hj (by simpa using hrun)

end Due

/-! ## Steps -/

section Hearing

variable {s s' : Service} {w' : World} {δ δ' : Nat → Duty} {tr : List (Fired Service ProcessAct)}
  {f : Fired Service ProcessAct}

theorem Checked.snoc {c : Nat} (h : Checked tr c) : Checked (tr ++ [f]) c := by
  obtain ⟨g, hg, ha⟩ := h
  exact ⟨g, List.mem_append_left _ hg, ha⟩

/-- A notification is heard: it is stored, or the caller that it woke is still in the queue's books. -/
theorem Heard.of_notifyOne {n : Notify} (hq : Queued s.world)
    (hn : s.world.sched.notify = n.notifyOne) : Heard tr s := by
  rcases n.notifyOne_heard with hp | hne
  · exact .permit (by rw [hn]; exact hp)
  · obtain ⟨c, hc⟩ := List.exists_mem_of_ne_nil _ hne
    rw [← hn] at hc
    obtain ⟨call, hcall, hs⟩ := hq.suspended c (List.mem_append_right _ hc)
    exact .woken c call hcall (.inl ⟨hs, hc⟩)

/-- The queue and the calls stay, and whoever was due still is. -/
theorem Heard.kept (h : Heard tr s) (hn : s'.world.sched.notify = s.world.sched.notify)
    (hcalls : ∀ (c : Nat) (call : Call), s.world.calls[c]? = some call → s'.world.calls[c]? = some call)
    (htasks : ∀ (n : Nat) (task : Task), s.tasks[n]? = some task → task.Due s.world → Heard (tr ++ [f]) s') :
    Heard (tr ++ [f]) s' := by
  cases h with
  | permit hp => exact .permit (by rw [hn]; exact hp)
  | woken c call hc hw =>
    refine .woken c call (hcalls c call hc) ?_
    rcases hw with ⟨hs, hm⟩ | ⟨hl, hk⟩
    · exact .inl ⟨hs, by rw [hn]; exact hm⟩
    · exact .inr ⟨hl, hk.snoc⟩
  | watchdog c call hc hh => exact .watchdog c call (hcalls c call hc) hh
  | task n task hn hd => exact htasks n task hn hd

theorem Task.Due.calls {w w' : World} {task : Task} (h : task.Due w)
    (hcalls : ∀ (c : Nat) (call : Call), w.calls[c]? = some call → w'.calls[c]? = some call) : task.Due w' := by
  cases task with
  | ready script => exact h
  | awaiting c resume =>
    obtain ⟨call, r, hc, hr, hw⟩ := h
    exact ⟨call, r, hcalls c call hc, hr, hw⟩

/-- Task number `n` goes on; if it was due, it has notified or still is. -/
theorem Heard.goOn (h : Heard tr s) {n : Nat} {old task : Task} (hn : s.tasks[n]? = some old)
    (hsame : w'.sched.notify = s.world.sched.notify)
    (hcalls : ∀ (c : Nat) (call : Call), s.world.calls[c]? = some call → w'.calls[c]? = some call)
    (hdue : old.Due s.world → task.Due w') : Heard (tr ++ [f]) ⟨w', s.tasks.set n task⟩ := by
  refine h.kept hsame hcalls fun m x hm hx => ?_
  by_cases hmn : m = n
  · subst hmn
    rw [hn] at hm
    cases hm
    exact .task m task (Entries.set_self hn) (hdue hx)
  · exact .task m x ((Entries.set_ne hmn).trans hm) (hx.calls hcalls)

section Moves

variable {c : Nat} {call call' : Call} {s₁ : SchedulerState}

/-- A call that holds the slot still does, if the call that moves keeps it. -/
theorem heard_of_holds (hc : s.world.calls[c]? = some call) (hh : call.Holds → call'.Holds)
    (h : ∃ (i : Nat) (x : Call), s.world.calls[i]? = some x ∧ x.Holds) :
    Heard tr ⟨{ s.world with sched := s₁, calls := s.world.calls.set c call' }, s.tasks⟩ := by
  obtain ⟨i, x, hx, hxh⟩ := h
  by_cases hi : i = c
  · subst hi
    rw [hc] at hx
    cases hx
    exact .watchdog i call' (Entries.set_self hc) (hh hxh)
  · exact .watchdog i x ((Entries.set_ne hi).trans hx) hxh

/-- A task that is due still is, if the call that moves keeps its result. -/
theorem heard_of_due (hc : s.world.calls[c]? = some call)
    (hr : ∀ r, call.inbox = some r ∨ call.caller = .returned r → call'.inbox = some r ∨ call'.caller = .returned r)
    (h : ∃ (n : Nat) (task : Task), s.tasks[n]? = some task ∧ task.Due s.world) :
    Heard tr ⟨{ s.world with sched := s₁, calls := s.world.calls.set c call' }, s.tasks⟩ := by
  obtain ⟨n, task, hn, hd⟩ := h
  refine .task n task hn ?_
  cases task with
  | ready script => exact hd
  | awaiting i resume =>
    obtain ⟨x, r, hx, hxr, hw⟩ := hd
    by_cases hi : i = c
    · subst hi
      rw [hc] at hx
      cases hx
      exact ⟨call', r, Entries.set_self hc, hr r hxr, hw⟩
    · exact ⟨x, r, (Entries.set_ne hi).trans hx, hxr, hw⟩

/-- A move after which the queue is as before, or one longer. -/
theorem Heard.moved (h : Heard tr s) (hc : s.world.calls[c]? = some call) (hh : call.Holds → call'.Holds)
    (hr : ∀ r, call.inbox = some r ∨ call.caller = .returned r → call'.inbox = some r ∨ call'.caller = .returned r)
    (hp : s.world.sched.notify.permit = true → s₁.notify.permit = true)
    (hn : s₁.notify.notified = s.world.sched.notify.notified)
    (hw : call.caller = .suspended ∨ call.caller = .locking → call'.caller = call.caller) :
    Heard (tr ++ [f]) ⟨{ s.world with sched := s₁, calls := s.world.calls.set c call' }, s.tasks⟩ := by
  cases h with
  | permit hpermit => exact .permit (hp hpermit)
  | woken i x hx hxw =>
    by_cases hi : i = c
    · subst hi
      rw [hc] at hx
      cases hx
      refine .woken i call' (Entries.set_self hc) ?_
      rcases hxw with ⟨hs, hm⟩ | ⟨hl, hk⟩
      · exact .inl ⟨by rw [hw (.inl hs), hs], by simp only [hn]; exact hm⟩
      · exact .inr ⟨by rw [hw (.inr hl), hl], hk.snoc⟩
    · refine .woken i x ((Entries.set_ne hi).trans hx) ?_
      rcases hxw with ⟨hs, hm⟩ | ⟨hl, hk⟩
      · exact .inl ⟨hs, by simp only [hn]; exact hm⟩
      · exact .inr ⟨hl, hk.snoc⟩
  | watchdog i x hx hxh => exact heard_of_holds hc hh ⟨i, x, hx, hxh⟩
  | task n task hn hd => exact heard_of_due hc hr ⟨n, task, hn, hd⟩

end Moves

/-- Along a run: the services are manned and wakeful, whoever waits has made a pass before, and is heard. -/
structure Hearing (tr : List (Fired Service ProcessAct)) (s : Service) (δ : Nat → Duty) : Prop where
  manned : Manned s δ
  wakeful : Wakeful s δ
  checked : ∀ (c : Nat) (call : Call), s.world.calls[c]? = some call → Waiting call → Checked tr c
  heard : (∃ (c : Nat) (call : Call), s.world.calls[c]? = some call ∧ Waiting call) → Heard tr s

/-- A move of a call: what it takes away from the queue is made up for. -/
theorem heard_moved (h : Hearing tr s δ) {c : Nat} {b : CallAct} {call call' : Call}
    {s₁ : SchedulerState} (hd : b ≠ .drop)
    (hc : s.world.calls[c]? = some call) (hcs : callStep s.world.env c s.world.sched call b = some (s₁, call'))
    (hq : Queued { s.world with sched := s₁, calls := s.world.calls.set c call' })
    (hwait : ∃ (i : Nat) (x : Call), (s.world.calls.set c call')[i]? = some x ∧ Waiting x) :
    Heard (tr ++ [f]) ⟨{ s.world with sched := s₁, calls := s.world.calls.set c call' }, s.tasks⟩ := by
  have hself : (s.world.calls.set c call')[c]? = some call' := Entries.set_self hc
  have hmove := queueMove_of_step hcs hd
  generalize hn : s₁.notify = n at hmove
  cases hmove with
  | rejected e hl =>
    -- its task will fail the job
    obtain ⟨m, resume, hm, _⟩ := h.manned.owes_waiting hc fun r hr => by rw [hl] at hr; cases hr
    exact .task m _ hm ⟨_, .error e, hself, .inr rfl, h.wakeful.resumes h.manned hm _⟩
  | waits hl hw =>
    -- what keeps the caller waiting is somebody who will notify
    rcases h.wakeful.waits h.manned hw with hholds | hdue
    · refine heard_of_holds hc (fun hh => ?_) hholds
      rcases hh with hh | hh
      · rw [hl] at hh
        cases hh
      · exact .inr hh
    · refine heard_of_due hc (fun r hr => ?_) hdue
      rcases hr with hr | hr
      · exact .inl hr
      · rw [hl] at hr
        cases hr
  | acquires g b hl => exact .watchdog c _ hself (.inl rfl)
  | permitted hl hp => exact .woken c _ hself (.inr ⟨rfl, (h.checked c call hc (.inl hl)).snoc⟩)
  | woken hl hmem => exact .woken c _ hself (.inr ⟨rfl, (h.checked c call hc (.inr hl)).snoc⟩)
  | finalized r i hw => exact .of_notifyOne hq hn
  | queued hl hp =>
    rcases s.world.sched.notify.poll_parked c with ⟨ht, _⟩ | ⟨_, _, hnotified, hpermit⟩
    · rw [hp] at ht
      cases ht
    · refine (h.heard ⟨c, call, hc, .inl hl⟩).moved hc (fun hh => ?_) (fun r hr => ?_) (fun ht => ?_)
        (by rw [hn, hnotified]) fun hor => ?_
      · rcases hh with hh | hh
        · rw [hl] at hh
          cases hh
        · exact .inr hh
      · rcases hr with hr | hr
        · exact .inl hr
        · rw [hl] at hr
          cases hr
      · rw [hpermit] at ht
        cases ht
      · rcases hor with hor | hor <;> rw [hl] at hor <;> cases hor
  | onward _ _ _ ho =>
    have hbefore : ∃ (i : Nat) (x : Call), s.world.calls[i]? = some x ∧ Waiting x := by
      obtain ⟨i, x, hx, hw⟩ := hwait
      rcases Entries.set_cases hx with ⟨rfl, rfl⟩ | ⟨_, hx⟩
      · refine ⟨i, call, hc, ?_⟩
        rcases ho.caller with he | ⟨_, he⟩ | ⟨r, _, _, he⟩
        · unfold Waiting at hw ⊢
          rw [← he]
          exact hw
        · rcases hw with hw | hw <;> rw [he] at hw <;> cases hw
        · rcases hw with hw | hw <;> rw [he] at hw <;> cases hw
      · exact ⟨i, x, hx, hw⟩
    refine (h.heard hbefore).moved hc ho.holds (fun r hr => ?_) (fun hp => by rw [hn]; exact hp)
      (by rw [hn]) fun hor => ?_
    · rcases hr with hr | hr
      · exact .inl (ho.inbox.trans hr)
      · rcases ho.caller with he | ⟨he, _⟩ | ⟨_, he, _⟩
        · exact .inr (he.trans hr)
        · rw [he] at hr
          cases hr
        · rw [he] at hr
          cases hr
    · rcases ho.caller with he | ⟨he, _⟩ | ⟨_, he, _⟩
      · exact he
      · rcases hor with hor | hor <;> rw [he] at hor <;> cases hor
      · rcases hor with hor | hor <;> rw [he] at hor <;> cases hor

/-- Whoever waits after a step waited before, or has just made a pass. -/
theorem shift_waiting {a : ProcessAct} (hs : Shift s δ a s' δ')
    {c : Nat} {call' : Call} (hc : s'.world.calls[c]? = some call')
    (hw : Waiting call') : (∃ call, s.world.calls[c]? = some call ∧ Waiting call) ∨ a = .service (.call c .check) := by
  cases hs with
  | handled _ _ _ w' scripts _ _ _ hstep =>
    simp only [hstep.calls] at hc
    exact .inl ⟨call', hc, hw⟩
  | ran n x e k w' r _ ha hp =>
    simp only [(perform_operates ha hp).calls] at hc
    exact .inl ⟨call', hc, hw⟩
  | dispatched =>
    rcases Entries.append_cases hc with hc | ⟨_, rfl⟩
    · exact .inl ⟨call', hc, hw⟩
    · rcases hw with hw | hw <;> cases hw
  | resumed | ticked | froze => exact .inl ⟨call', hc, hw⟩
  | moved i b call call₁ s₁ hd hi hcs =>
    rcases Entries.set_cases hc with ⟨rfl, rfl⟩ | ⟨_, hc⟩
    · have hmove := queueMove_of_step hcs hd
      generalize s₁.notify = n at hmove
      cases hmove with
      | rejected | permitted | woken => rcases hw with hw | hw <;> cases hw
      | acquires => rcases hw with hw | hw <;> cases hw
      | waits => exact .inr rfl
      | queued hl => exact .inl ⟨call, hi, .inl hl⟩
      | finalized => exact .inl ⟨call, hi, hw⟩
      | onward _ _ _ ho =>
        rcases ho.caller with he | ⟨_, he⟩ | ⟨r, _, _, he⟩
        · unfold Waiting at hw
          rw [he] at hw
          exact .inl ⟨call, hi, hw⟩
        · rcases hw with hw | hw <;> rw [he] at hw <;> cases hw
        · rcases hw with hw | hw <;> rw [he] at hw <;> cases hw
    · exact .inl ⟨call', hc, hw⟩

/-- Somebody is still to hear after every step. -/
theorem hearing_step {a : ProcessAct} (h : Hearing tr s δ) (hs : s.processStep a = some s') :
    ∃ δ', Hearing (tr ++ [⟨s, a, s'⟩]) s' δ' := by
  obtain ⟨δ', hshift, hm'⟩ := process_shift h.manned hs
  have hw' := wakeful_step h.wakeful h.manned hshift
  have hbefore : ∀ {c : Nat} {call' : Call}, s'.world.calls[c]? = some call' → Waiting call' →
      (∃ call, s.world.calls[c]? = some call ∧ Waiting call) ∨ a = .service (.call c .check) := shift_waiting hshift
  refine ⟨δ', hm', hw', fun c call hc hw => ?_, fun hwait => ?_⟩
  · rcases hbefore hc hw with ⟨call₀, hc₀, hw₀⟩ | rfl
    · exact (h.checked c call₀ hc₀ hw₀).snoc
    · exact ⟨_, List.mem_append_right _ (List.mem_singleton.2 rfl), rfl⟩
  · have hold : (∀ c, a ≠ .service (.call c .check)) → Heard tr s := fun hne => by
      obtain ⟨c, call, hc, hw⟩ := hwait
      rcases hbefore hc hw with ⟨call₀, hc₀, hw₀⟩ | he
      · exact h.heard ⟨c, call₀, hc₀, hw₀⟩
      · exact absurd he (hne c)
    cases hshift with
    | handled req newId dropped w' scripts d _ _ hstep _ =>
      have hcalls : ∀ (c : Nat) (call : Call), s.world.calls[c]? = some call → w'.calls[c]? = some call :=
        fun c call hc => by rw [hstep.calls]; exact hc
      have hnotify : w'.sched.notify = s.world.sched.notify ∨ w'.sched.notify = s.world.sched.notify.notifyOne := by
        rcases hstep.operated with rfl | ⟨o, ho, _⟩
        · exact .inl rfl
        · cases World.step_cases ho with
          | op _ _ => exact apply_notify
      rcases hnotify with hn | hn
      · refine (hold fun c he => by cases he).kept hn hcalls fun n task hn hd => ?_
        exact .task n task (Entries.append_kept hn) (hd.calls hcalls)
      · exact .of_notifyOne hw'.queue hn
    | ran n x e k w' r hn ha hp =>
      have hcalls : ∀ (c : Nat) (call : Call), s.world.calls[c]? = some call → w'.calls[c]? = some call :=
        fun c call hc => by rw [(perform_operates ha hp).calls]; exact hc
      have hnotify : w'.sched.notify = s.world.sched.notify ∨ w'.sched.notify = s.world.sched.notify.notifyOne := by
        rcases perform_operates ha hp with rfl | ⟨o, ho, _⟩
        · exact .inl rfl
        · cases World.step_cases ho with
          | op _ _ => exact apply_notify
      -- a call that notifies is heard itself; after any other the task is as due as before
      by_cases hnot : Notified e r
      · exact .of_notifyOne hw'.queue (perform_notified hnot hp)
      · rcases hnotify with hsame | hone
        · refine (hold fun c he => by cases he).goOn hn hsame hcalls fun hd => ?_
          exact (hd.2 r).resolve_left hnot
        · exact .of_notifyOne hw'.queue hone
    | dispatched n x id closure k hn _ =>
      refine (hold fun c he => by cases he).goOn hn rfl (fun c call hc => ?_) fun hd => by cases hd.1
      exact Entries.append_kept hc
    | resumed n c resume r call hn _ _ =>
      exact (hold fun c he => by cases he).goOn hn rfl (fun _ _ hc => hc) fun _ => h.wakeful.resumes h.manned hn r
    | moved c b call call' s₁ hd hc hcs => exact heard_moved h hd hc hcs hw'.queue hwait
    | ticked seconds =>
      exact (hold fun c he => by cases he).kept rfl (fun _ _ hc => hc) fun n task hn hd =>
        .task n task hn (hd.calls fun _ _ hc => hc)
    | froze => exact .of_notifyOne hw'.queue rfl

theorem hearing_run {s₀ : Service} (h0 : s₀.Startup) (hr : Run process s₀ tr s) : ∃ δ, Hearing tr s δ := by
  induction hr with
  | nil =>
    have hnone : ∀ (c : Nat) (call : Call), s₀.world.calls[c]? = some call → False := fun c call hc => by
      obtain ⟨⟨_, _, _, _, _, hcalls⟩, _⟩ := h0
      rw [hcalls] at hc
      cases hc
    exact ⟨_, startup_manned h0, startup_wakeful h0, fun c call hc _ => (hnone c call hc).elim,
      fun ⟨c, call, hc, _⟩ => (hnone c call hc).elim⟩
  | snoc _ hs ih =>
    obtain ⟨δ, h⟩ := ih
    exact hearing_step h hs

end Hearing

/-- In every reachable state, a suspended caller whose next pass of the wait loop would not wait is heard. -/
theorem no_lost_wakeup {s₀ s : Service} {tr : List (Fired Service ProcessAct)} (h0 : s₀.Startup)
    (hr : Run process s₀ tr s) :
    ∀ (c : Nat) (call : Call), s.world.calls[c]? = some call → call.caller = .suspended →
      (s.world.sched.dispatchCheck s.world.env call.jobId).2 ≠ .wait → Heard tr s := by
  intro c call hc hs _
  obtain ⟨δ, h⟩ := hearing_run h0 hr
  exact h.heard ⟨c, call, hc, .inr hs⟩

/-- Two background refreshes; the second one waits until the watchdog of the first one has released the slot. -/
def twoRefreshes : List ProcessAct :=
  let x : Answers := ⟨1, .error (anyhow ""), .ok ()⟩
  let y : Answers := ⟨2, .error (anyhow ""), .ok ()⟩
  let moves : List CallAct := [.spawnWatchdog, .startWatchdog, .runClosure, .exitClosure (.ok ()), .join, .finalize]
  [.service (.request (.healthCheck true) 0 false), .service (.request (.listPatches true) 0 false),
    .service (.run 0 x),
    .service (.run 0 x), .service (.run 1 y), .service (.run 1 y), .service (.call 0 .check), .service (.call 1 .check),
    -- the first registration takes the permit that the admissions left
    .service (.call 1 .register), .service (.call 1 .check), .service (.call 1 .register)] ++
    moves.map fun a => .service (.call 0 a)

def refreshRun : List (Fired Service ProcessAct) := (trace process ⟨freshAgent 2 10, []⟩ twoRefreshes).getD []

theorem no_lost_wakeup_refresh : Heard refreshRun (endState ⟨freshAgent 2 10, []⟩ refreshRun) := by
  have hr : Run process ⟨freshAgent 2 10, []⟩ refreshRun (endState ⟨freshAgent 2 10, []⟩ refreshRun) :=
    run_trace process ⟨freshAgent 2 10, []⟩ twoRefreshes (by decide)
  have hc : (endState ⟨freshAgent 2 10, []⟩ refreshRun).world.calls[1]? =
      some ⟨2, .suspended, 0, 0, .absent, .absent, none⟩ := by decide
  exact no_lost_wakeup ⟨freshAgent_startup 2 10, rfl⟩ hr 1 _ hc rfl (by decide)

end LinuxPatchApi.Api
