/-
The process: the service together with the SIGTERM handler, which freezes the admission. Here nothing is
assumed about the requests, so that a rollback may create its job. Every task still obeys the duty that
the ledger has for it; the duties of the jobs that no task was spawned for are kept beside them.
-/
import LinuxPatchApi.Api.Staffed

namespace LinuxPatchApi.Api

open Interaction LinuxPatchApi.Packages LinuxPatchApi.Jobs Transition

/-! ## The machine -/

inductive ProcessAct where
  | service (a : ServiceAct)
  /-- `freeze_admission`, by the SIGTERM handler. -/
  | freeze

def Service.processStep (s : Service) : ProcessAct → Option Service
  | .service a => s.step a
  | .freeze => (s.world.step (.op .freezeAdmission)).map fun w => { s with world := w }

def process : Machine Service ProcessAct := ⟨Service.Startup, Service.processStep⟩

/-! ## Calls that nobody drops -/

/-- The caller of a live watchdog awaits its result, and a caller that awaits has it or will get it. -/
structure Attended (call : Call) : Prop where
  kept : call.caller ≠ .dropped
  alive : call.watchdog.Live → call.caller = .awaiting
  delivered : call.caller = .awaiting → call.watchdog.Live ∨ ∃ r, call.inbox = some r
  sent : call.inbox ≠ none → call.watchdog = .finished

theorem attended_new (jobId : Uuid) : Attended (Call.new jobId) :=
  ⟨CallerPhase.noConfusion, False.elim, CallerPhase.noConfusion, fun h => absurd rfl h⟩

/-- The watchdog's last critical section sends its result to a caller that awaits it. -/
theorem finalize_sends {env : Env} {c : Nat} {s s' : SchedulerState} {call call' : Call} {r : MutationResult}
    (h : callStep env c s call .finalize = some (s', call')) (hw : call.watchdog = .finalizing r) :
    call'.inbox = if call.caller = .awaiting then some r else none := by
  simp only [callStep, hw, Option.some.injEq, Prod.mk.injEq] at h
  rw [← h.2]
  simp

theorem attended_move {env : Env} {c : Nat} {s s' : SchedulerState} {call call' : Call} {a : CallAct}
    (h : callStep env c s call a = some (s', call')) (ha : a ≠ .drop) (ho : call.Ordered) (hc : Attended call) :
    Attended call' := by
  -- before the acquisition there is no watchdog, and afterwards an empty inbox until it is finished
  have none_live : call.watchdog = .absent → call.watchdog.Live → False :=
    fun hw hlive => by rw [hw] at hlive; exact hlive
  have unsent : call.watchdog ≠ .finished → call.inbox ≠ none → ∀ p : Prop, p := fun hw hi _ => absurd (hc.sent hi) hw
  have hmove := callStep_cases h
  cases hmove with
  | dropped => exact absurd rfl ha
  | rejected e hl _ =>
    exact ⟨CallerPhase.noConfusion, fun hlive => (none_live (ho.watchdog (.inl hl)) hlive).elim,
      CallerPhase.noConfusion, hc.sent⟩
  | waiting hl _ =>
    exact ⟨CallerPhase.noConfusion, fun hlive => (none_live (ho.watchdog (.inl hl)) hlive).elim,
      CallerPhase.noConfusion, hc.sent⟩
  | acquired b s' hl _ _ _ =>
    exact ⟨CallerPhase.noConfusion, fun hlive => (none_live (ho.watchdog (.inl hl)) hlive).elim,
      CallerPhase.noConfusion, hc.sent⟩
  | registered n p hl hp =>
    have hw := ho.watchdog (.inr (.inl hl))
    refine ⟨?_, fun hlive => (none_live hw hlive).elim, ?_, hc.sent⟩ <;> rcases hp with rfl | rfl <;>
      exact CallerPhase.noConfusion
  | woken n hl =>
    exact ⟨CallerPhase.noConfusion, fun hlive => (none_live (ho.watchdog (.inr (.inr (.inl hl)))) hlive).elim,
      CallerPhase.noConfusion, hc.sent⟩
  | spawned hl =>
    have hw := ho.watchdog (.inr (.inr (.inr hl)))
    exact ⟨CallerPhase.noConfusion, fun _ => rfl, fun _ => .inl trivial, fun hi => unsent (by rw [hw]; simp) hi _⟩
  | started hl =>
    exact ⟨hc.kept, fun _ => hc.alive (by rw [hl]; trivial), fun _ => .inl trivial, fun hi =>
      unsent (by rw [hl]; simp) hi _⟩
  | joined d r hl _ =>
    exact ⟨hc.kept, fun _ => hc.alive (by rw [hl]; trivial), fun _ => .inl trivial, fun hi =>
      unsent (by rw [hl]; simp) hi _⟩
  | elapsed d r hl _ _ =>
    exact ⟨hc.kept, fun _ => hc.alive (by rw [hl]; trivial), fun _ => .inl trivial, fun hi =>
      unsent (by rw [hl]; simp) hi _⟩
  | ran | exited => exact ⟨hc.kept, hc.alive, hc.delivered, hc.sent⟩
  | finalized r i hl =>
    have hi := finalize_sends h hl
    have hcaller := hc.alive (by rw [hl]; trivial)
    simp only [hcaller, if_true] at hi
    exact ⟨hc.kept, False.elim, fun _ => .inr ⟨r, hi⟩, fun _ => rfl⟩
  | received r hl hi =>
    refine ⟨CallerPhase.noConfusion, fun hlive => ?_, CallerPhase.noConfusion, hc.sent⟩
    have hw := hc.sent (by rw [hi]; exact Option.some_ne_none r)
    simp only [hw] at hlive
    exact hlive.elim

/-- A move of a call changes a job only when it acquires the slot for it. -/
theorem callStep_jobs {env : Env} {c : Nat} {s s' : SchedulerState} {call call' : Call} {a : CallAct}
    (h : CallStep env c s call a s' call') (ha : a ≠ .drop) (hatt : Attended call) :
    (∀ k, s'.jobs.get? k = s.jobs.get? k) ∧ (Begun call' → Begun call) ∨ call.caller = .locking ∧
      call'.caller = .persisting ∧ ∀ k, s'.jobs.get? k = if k = call.jobId then
        (s.jobs.get? call.jobId).map (SchedulerState.startJob env (s.jobAlreadyRunning call.jobId))
      else s.jobs.get? k := by
  cases h with
  | acquired b s' hl _ _ hget => exact .inr ⟨hl, rfl, hget⟩
  | dropped => exact absurd rfl ha
  | rejected | waiting | woken => exact .inl ⟨fun k => rfl, fun hb => by rcases hb with hb | hb | hb <;> cases hb⟩
  | registered n p _ hp =>
    exact .inl ⟨fun k => rfl, fun hb => by rcases hp with rfl | rfl <;> rcases hb with hb | hb | hb <;> cases hb⟩
  | spawned hl => exact .inl ⟨fun k => rfl, fun _ => .inl hl⟩
  | received r hl _ => exact .inl ⟨fun k => rfl, fun _ => .inr (.inl hl)⟩
  | started | ran | exited | joined | elapsed => exact .inl ⟨fun k => rfl, fun hb => hb⟩
  | finalized r i hl =>
    have hcaller := hatt.alive (by rw [hl]; trivial)
    refine .inl ⟨fun k => ?_, fun hb => hb⟩
    rw [SchedulerState.finalizeMutation_get?, if_neg]
    simp [hcaller]

/-! ## The agent under the process -/

/-- What the process asks of the agent: no direct `update_job`, and no caller is dropped. -/
def Gentle : Act → Prop
  | .op o => o.isUpdateJob = false
  | .call _ a => a ≠ .drop
  | .dispatch _ | .tick _ => True

structure Steady (w : World) : Prop where
  known : Known w
  slot : SlotInv w
  owned : SlotOwned w
  issued : ∀ call ∈ w.calls, call.jobId ∈ w.issued
  started : ∀ call ∈ w.calls, Begun call → Started w call.jobId
  attended : ∀ call ∈ w.calls, Attended call

theorem startup_steady {w : World} (h : w.Startup) : Steady w := by
  have hs := startup_sound h
  obtain ⟨_, _, _, _, _, hc⟩ := h
  exact ⟨hs.known, hs.slot, hs.owned, hs.issued, hs.started, by simp [hc]⟩

/-- The call that moves, as the machine moves it. -/
theorem World.step_call {w w' : World} {c : Nat} {a : CallAct} (h : w.step (.call c a) = some w') :
    ∃ call s' call', w.calls[c]? = some call ∧ callStep w.env c w.sched call a = some (s', call') ∧
      w' = { w with sched := s', calls := w.calls.set c call' } := by
  simp only [World.step] at h
  split at h
  · cases h
  next call hc =>
    obtain ⟨⟨s', call'⟩, hs, rfl⟩ := Option.map_eq_some_iff.1 h
    exact ⟨call, s', call', hc, hs, rfl⟩

theorem steady_step {w w' : World} {a : Act} (hs : w.step a = some w') (hg : Gentle a) (h : Steady w) : Steady w' := by
  have hf : IsStep agent ⟨w, a, w'⟩ := hs
  have hu : NoUpdateJob ⟨w, a, w'⟩ := by
    cases a with
    | op o => exact hg
    | _ => rfl
  have hd : NotDroppedPersisting ⟨w, a, w'⟩ := fun c call ha _ => by
    simp only at ha
    subst ha
    exact absurd rfl hg
  refine ⟨known_step hf h.known, slotInv_step hf h.slot, slotOwned_step hf h.slot hd h.owned,
    callsIssued_step hf h.issued, callsStarted_step hf hu h.issued h.started, fun x hx => ?_⟩
  cases a with
  | op o =>
    cases World.step_cases hs
    exact h.attended x hx
  | tick n =>
    cases World.step_cases hs
    exact h.attended x hx
  | dispatch jobId =>
    cases World.step_cases hs
    rcases List.mem_append.1 hx with hx | hx
    · exact h.attended x hx
    · rw [List.mem_singleton.1 hx]
      exact attended_new jobId
  | call c a =>
    obtain ⟨call, s', call', hc, hcs, rfl⟩ := World.step_call hs
    rcases List.mem_or_eq_of_mem_set hx with hx | rfl
    · exact h.attended x hx
    · exact attended_move hcs hg (h.slot.ordered c call hc) (h.attended call (List.mem_of_getElem? hc))

/-! ## What the handlers do -/

/-- The scripts that handlers spawn, with the duties of their tasks. -/
inductive Spawns (newId : Uuid) : Script Unit → Duty → Prop
  | mutation (closure : MutationClosure) : Spawns newId (mutationTask closure newId) (.ofJob newId)
  | selfUpdate (name : String) : Spawns newId (selfUpdateTask name newId) { Duty.ofJob newId with update := some newId }
  | refresh (origin : RefreshOrigin) : Spawns newId (refreshTask origin) .free
  | patch (packages : Option (List String)) (allowReboot : Bool) (delaySeconds : Nat) :
      Spawns newId (patchTask packages allowReboot delaySeconds newId) (.ofJob newId)
  | reboot (delaySeconds : Nat) : Spawns newId (rebootTask delaySeconds newId) ⟨none, some (newId, true), none⟩

theorem Spawns.obeys {newId : Uuid} {script : Script Unit} {d : Duty} (h : Spawns newId script d) : Obeys d script := by
  cases h with
  | mutation closure => exact obeys_mutationTask closure newId
  | selfUpdate name => exact obeys_selfUpdateTask name newId
  | refresh origin => exact obeys_refreshTask origin
  | patch packages allowReboot delaySeconds => exact obeys_patchTask packages allowReboot delaySeconds newId
  | reboot delaySeconds => exact obeys_rebootTask delaySeconds newId

/-- The duty of a new task is about its new id. -/
theorem Spawns.newId {newId : Uuid} {script : Script Unit} {d : Duty} (h : Spawns newId script d) :
    (∀ id stage, d.job = some (id, stage) → id = newId) ∧ ∀ r live, d.guard = some (r, live) → r = newId := by
  cases h with
  | mutation | selfUpdate | patch => exact ⟨fun id stage hd => (by cases hd; rfl), fun r live hd => (by cases hd)⟩
  | refresh => exact ⟨fun id stage hd => (by cases hd), fun r live hd => (by cases hd)⟩
  | reboot => exact ⟨fun id stage hd => (by cases hd), fun r live hd => (by cases hd; rfl)⟩

/-- The operation of a handler, the tasks that it spawned, and the duty that this leaves: of the task, or
of nobody for the job of a rollback. -/
inductive HandlerStep (w : World) (newId : Uuid) : World → List (Script Unit) → Option Duty → Prop
  | unchanged : HandlerStep w newId w [] none
  | refresh (origin : RefreshOrigin) : HandlerStep w newId w [refreshTask origin] (some .free)
  | refused (o : SchedOp) (w' : World) : w.step (.op o) = some w' → o.newId = some newId → w'.sched = w.sched →
      HandlerStep w newId w' [] none
  | deleted (id : Uuid) (w' : World) : w.step (.op (.deleteJob id)) = some w' → HandlerStep w newId w' [] none
  | admitted (operation : JobOperation) (packages : List String) (script : Script Unit) (w' : World) :
      w.step (.op (.admitJob newId operation packages)) = some w' →
      (w.sched.admitJob w.env newId operation packages).2 = .ok newId → operation ≠ .reboot →
      Spawns newId script (.ofJob newId) → HandlerStep w newId w' [script] (some (.ofJob newId))
  | updating (name : String) (w' : World) : w.step (.op (.tryReserveSelfUpdate newId [name] "" "")) = some w' →
      (w.sched.tryReserveSelfUpdate w.env newId [name] "" "").2 = .ok newId →
      HandlerStep w newId w' [selfUpdateTask name newId] (some { Duty.ofJob newId with update := some newId })
  | rebooting (delaySeconds : Nat) (force ack : Bool) (w' : World) :
      w.step (.op (.reserveReboot newId force ack)) = some w' →
      (w.sched.reserveReboot w.env newId force ack).2 = .ok newId →
      HandlerStep w newId w' [rebootTask delaySeconds newId] (some ⟨none, some (newId, true), none⟩)
  | rebootDropped (force ack : Bool) (w' : World) : w.step (.op (.reserveReboot newId force ack)) = some w' →
      (w.sched.reserveReboot w.env newId force ack).2 = .ok newId → HandlerStep w newId w' [] none
  | rollingBack (original : Uuid) (w' : World) : w.step (.op (.createRollbackJob newId original)) = some w' →
      (w.sched.createRollbackJob w.env newId original).2 = .ok (some newId) →
      HandlerStep w newId w' [] (some (.ofJob newId))

/-- An operation of a handler: one that draws an id, or a deletion. -/
def SchedOp.IsRequest (o : SchedOp) : Prop := o.newId ≠ none ∨ ∃ id, o = .deleteJob id

theorem SchedOp.IsRequest.notUpdateJob {o : SchedOp} (h : SchedOp.IsRequest o) : o.isUpdateJob = false := by
  rcases h with h | ⟨id, rfl⟩
  · cases o with
    | updateJob => exact absurd rfl h
    | _ => rfl
  · rfl

theorem HandlerStep.operated {w w' : World} {newId : Uuid} {scripts : List (Script Unit)} {d : Option Duty}
    (h : HandlerStep w newId w' scripts d) : w' = w ∨ ∃ o, w.step (.op o) = some w' ∧ SchedOp.IsRequest o := by
  have drawn : ∀ {o : SchedOp}, w.step (.op o) = some w' → o.newId = some newId →
      w' = w ∨ ∃ o, w.step (.op o) = some w' ∧ SchedOp.IsRequest o :=
    fun {o} hs ho => .inr ⟨o, hs, .inl (by rw [ho]; exact Option.some_ne_none newId)⟩
  cases h with
  | unchanged | refresh => exact .inl rfl
  | refused o w' hs ho _ => exact drawn hs ho
  | deleted id w' hs => exact .inr ⟨_, hs, .inr ⟨id, rfl⟩⟩
  | admitted _ _ _ w' hs => exact drawn hs rfl
  | updating _ w' hs => exact drawn hs rfl
  | rebooting _ _ _ w' hs => exact drawn hs rfl
  | rebootDropped _ _ w' hs => exact drawn hs rfl
  | rollingBack _ w' hs => exact drawn hs rfl

section Handlers

variable {w w' : World} {newId : Uuid} {scripts : List (Script Unit)} {handled : Handled}

theorem admitAndSpawn_step {operation : JobOperation} {packages : List String} {task : Uuid → Script Unit}
    (hop : operation ≠ .reboot) (htask : Spawns newId (task newId) (.ofJob newId))
    (h : Handlers.admitAndSpawn w newId operation packages task = some handled) :
    ∃ d, HandlerStep w newId handled.1 handled.2 d := by
  obtain ⟨w', hs, rfl⟩ := Option.map_eq_some_iff.1 h
  rcases w.sched.admitJob_spec w.env newId operation packages with ⟨e, he⟩ | ⟨_, _, _, _, he⟩
  · rw [he]
    refine ⟨_, .refused _ w' hs rfl ?_⟩
    cases World.step_cases hs
    simp only [SchedOp.apply, he]
  · have hok : (w.sched.admitJob w.env newId operation packages).2 = .ok newId := by rw [he]
    rw [hok]
    exact ⟨_, .admitted operation packages _ w' hs hok hop htask⟩

theorem selfUpdate_step {name : String} (h : Handlers.selfUpdate w newId name = some handled) :
    ∃ d, HandlerStep w newId handled.1 handled.2 d := by
  obtain ⟨w', hs, rfl⟩ := Option.map_eq_some_iff.1 h
  rcases w.sched.tryReserveSelfUpdate_spec w.env newId [name] "" "" with ⟨e, he⟩ | ⟨_, _, _, _, _, hok, _⟩
  · rw [he]
    refine ⟨_, .refused _ w' hs rfl ?_⟩
    cases World.step_cases hs
    simp only [SchedOp.apply, he]
  · rw [hok]
    exact ⟨_, .updating name w' hs hok⟩

theorem rebootSystem_step {dropped : Bool} {delaySeconds : Nat} {force ack : Bool}
    (h : Handlers.rebootSystem w newId dropped delaySeconds force ack = some handled) :
    ∃ d, HandlerStep w newId handled.1 handled.2 d := by
  obtain ⟨w', hs, rfl⟩ := Option.map_eq_some_iff.1 h
  rcases w.sched.reserveReboot_spec w.env newId force ack with ⟨_, e, he⟩ | ⟨_, hok, _⟩
  · rw [he]
    refine ⟨_, .refused _ w' hs rfl ?_⟩
    cases World.step_cases hs
    simp only [SchedOp.apply, he]
  · rw [hok]
    cases dropped with
    | true => exact ⟨_, .rebootDropped force ack w' hs hok⟩
    | false => exact ⟨_, .rebooting delaySeconds force ack w' hs hok⟩

theorem rollbackJob_step {original : Uuid} (h : Handlers.rollbackJob w newId original = some handled) :
    ∃ d, HandlerStep w newId handled.1 handled.2 d := by
  obtain ⟨w', hs, rfl⟩ := Option.map_eq_some_iff.1 h
  rcases w.sched.createRollbackJob_spec w.env newId original with ⟨r, he, _⟩ | ⟨_, _, _, _, _, _, _, hok, _⟩
  · refine ⟨_, .refused _ w' hs rfl ?_⟩
    cases World.step_cases hs
    simp only [SchedOp.apply, he]
  · exact ⟨_, .rollingBack original w' hs hok⟩

theorem handle_cases {req : Request} {dropped : Bool} (h : req.handle w newId dropped = some (w', scripts)) :
    ∃ d, HandlerStep w newId w' scripts d := by
  cases req with
  | installPackages packages options =>
    simp only [Request.handle, Handlers.installPackages] at h
    split at h
    · cases h
      exact ⟨_, .unchanged⟩
    · exact admitAndSpawn_step JobOperation.noConfusion (.mutation _) h
  | updatePackage name =>
    simp only [Request.handle, Handlers.updatePackage] at h
    split at h
    · cases h
      exact ⟨_, .unchanged⟩
    split at h
    · exact selfUpdate_step h
    · exact admitAndSpawn_step JobOperation.noConfusion (.mutation _) h
  | removePackage name =>
    simp only [Request.handle, Handlers.removePackage] at h
    split at h
    · cases h
      exact ⟨_, .unchanged⟩
    · exact admitAndSpawn_step JobOperation.noConfusion (.mutation _) h
  | applyPatches packages allowReboot delaySeconds =>
    simp only [Request.handle, Handlers.applyPatches] at h
    split at h
    · cases h
      exact ⟨_, .unchanged⟩
    · exact admitAndSpawn_step JobOperation.noConfusion (.patch _ _ _) h
  | listPatches stale =>
    cases h
    cases stale with
    | true => exact ⟨_, .refresh .patchList⟩
    | false => exact ⟨_, .unchanged⟩
  | healthCheck stale =>
    cases h
    cases stale with
    | true => exact ⟨_, .refresh .healthCheck⟩
    | false => exact ⟨_, .unchanged⟩
  | rebootSystem delaySeconds force ack => exact rebootSystem_step h
  | rollbackJob original => exact rollbackJob_step h
  | deleteJob id =>
    simp only [Request.handle, Handlers.deleteJob, Option.map_eq_some_iff] at h
    obtain ⟨v, hs, he⟩ := h
    cases he
    exact ⟨_, .deleted id w' hs⟩
  | _ =>
    cases h
    exact ⟨_, .unchanged⟩

end Handlers

/-! ## Duties by seats -/

/-- The number of the duty of task `n`. The odd numbers stand for jobs of rollbacks, which nobody resolves. -/
def seat (n : Nat) : Nat := 2 * n

theorem seat_inj {n m : Nat} (h : seat n = seat m) : n = m := by
  unfold seat at h
  omega

theorem seat_ne {n m : Nat} (h : n ≠ m) : seat n ≠ seat m := fun he => h (seat_inj he)

/-- Task number `n` obeys the duty in its seat, no job is owed twice, and every call that has not returned is
awaited by a task. -/
structure Manned (s : Service) (δ : Nat → Duty) : Prop where
  steady : Steady s.world
  ledger : Ledger s.world δ
  distinct : ∀ n m id stage stage', (δ n).job = some (id, stage) → (δ m).job = some (id, stage') → n = m
  tasks : ∀ (n : Nat) (task : Task), s.tasks[n]? = some task → task.Obeys s.world (δ (seat n))
  idle : ∀ n, s.tasks.length ≤ n → δ (seat n) = .free
  room : ∃ k₀, ∀ k, k₀ ≤ k → δ (2 * k + 1) = .free
  awaited : ∀ (c : Nat) (call : Call), s.world.calls[c]? = some call → (∀ r, call.caller ≠ .returned r) →
    ∃ (n : Nat) (k : MutationResult → Script Unit), s.tasks[n]? = some (.awaiting c k)

theorem startup_manned {s : Service} (h : s.Startup) : Manned s fun _ => .free := by
  have hst := startup_staffed h
  exact ⟨startup_steady h.1, hst.ledger, fun _ _ _ _ _ hn => (by cases hn), hst.tasks,
    fun _ _ => rfl, ⟨0, fun _ _ => rfl⟩,
    hst.awaited⟩

/-- What a handler does to the duties: at most one is new, for a job or a reservation that is new. -/
structure Hires (s : Service) (w' : World) (scripts : List (Script Unit)) (δ δ' : Nat → Duty) : Prop where
  kept : ∀ n, n < s.tasks.length → δ' (seat n) = δ (seat n)
  fresh : ∀ m, δ' m = δ m ∨
    (∀ id stage, (δ' m).job = some (id, stage) → id ∉ s.world.issued ∧ ∀ j, w'.sched.jobs.get? id = some j →
      j.status = .pending) ∧
      ∀ r live, (δ' m).guard = some (r, live) → r ∉ s.world.issued
  one : ∀ m m', δ' m ≠ δ m → δ' m' ≠ δ m' → m = m'
  scripts : scripts = [] ∨ ∃ newId script, scripts = [script] ∧ Spawns newId script (δ' (seat s.tasks.length))

/-- What one step of the process does, to the tasks and to their duties. -/
inductive Shift (s : Service) (δ : Nat → Duty) : ProcessAct → Service → (Nat → Duty) → Prop
  | handled (req : Request) (newId : Uuid) (dropped : Bool) (w' : World) (scripts : List (Script Unit))
    (d : Option Duty)
      (δ' : Nat → Duty) : req.handle s.world newId dropped = some (w', scripts) →
        HandlerStep s.world newId w' scripts d →
      Hires s w' scripts δ δ' → Shift s δ (.service (.request req newId dropped)) ⟨w', s.tasks ++ scripts.map .ready⟩ δ'
  | ran (n : Nat) (x : Answers) (e : TaskCall) (k : TaskResponse e → Script Unit) (w' : World) (r : TaskResponse e) :
      s.tasks[n]? = some (.ready (.call e k)) → (δ (seat n)).Allows e → perform s.world x e = some (w', r) →
      Shift s δ (.service (.run n x)) ⟨w', s.tasks.set n (.ready (k r))⟩
        (Function.update δ (seat n) ((δ (seat n)).after e r))
  | dispatched (n : Nat) (x : Answers) (id : Uuid) (closure : MutationClosure) (k : MutationResult → Script Unit) :
      s.tasks[n]? = some (.ready (.call (.dispatchMutation id closure) k)) → (δ (seat n)).job = some (id, .queued) →
      Shift s δ (.service (.run n x))
        ⟨{ s.world with calls := s.world.calls ++ [Call.new id], issued := id :: s.world.issued },
          s.tasks.set n (.awaiting s.world.calls.length k)⟩ δ
  | resumed (n c : Nat) (resume : MutationResult → Script Unit) (r : MutationResult) (call : Call) :
      s.tasks[n]? = some (.awaiting c resume) → s.world.calls[c]? = some call → call.caller = .returned r →
      Shift s δ (.service (.resume n)) { s with tasks := s.tasks.set n (.ready (resume r)) }
        (Function.update δ (seat n) ((δ (seat n)).dispatched r))
  | moved (c : Nat) (a : CallAct) (call call' : Call) (s' : SchedulerState) : a ≠ .drop →
      s.world.calls[c]? = some call → callStep s.world.env c s.world.sched call a = some (s', call') →
      Shift s δ (.service (.call c a)) ⟨{ s.world with sched := s', calls := s.world.calls.set c call' }, s.tasks⟩ δ
  | ticked (seconds : Nat) :
      Shift s δ (.service (.tick seconds)) ⟨{ s.world with clock := s.world.clock + seconds }, s.tasks⟩ δ
  | froze : Shift s δ .freeze ⟨{ s.world with sched := s.world.sched.freezeAdmission }, s.tasks⟩ δ

section Manned

variable {s s' : Service} {w' : World} {δ : Nat → Duty}

/-- One duty changes, and it owes the job that it owed or a new one. -/
theorem Manned.distinct_update (h : Manned s δ) {p : Nat} {d : Duty}
    (hjob : ∀ id stage, d.job = some (id, stage) → (∃ stage', (δ p).job = some (id, stage')) ∨ id ∉ s.world.issued) :
    ∀ n m id stage stage', (Function.update δ p d n).job = some (id, stage) →
      (Function.update δ p d m).job = some (id, stage') → n = m := by
  have other : ∀ m id stage stage', m ≠ p → (δ m).job = some (id, stage) → d.job = some (id, stage') → False := by
    intro m id stage stage' hm hd hd'
    rcases hjob id stage' hd' with ⟨stage'', hp⟩ | hnew
    · exact hm (h.distinct m p id stage stage'' hd hp)
    · exact hnew (h.ledger.owed m id stage hd).1
  intro n m id stage stage' hn hm
  by_cases hnp : n = p
  · by_cases hmp : m = p
    · rw [hnp, hmp]
    · rw [hnp, Function.update_self] at hn
      rw [Function.update_of_ne hmp] at hm
      exact (other m id stage' stage hmp hm hn).elim
  · rw [Function.update_of_ne hnp] at hn
    by_cases hmp : m = p
    · rw [hmp, Function.update_self] at hm
      exact (other n id stage stage' hnp hn hm).elim
    · rw [Function.update_of_ne hmp] at hm
      exact h.distinct n m id stage stage' hn hm

theorem seat_ne_odd (n k : Nat) : seat n ≠ 2 * k + 1 := by
  unfold seat
  omega

/-- Task number `n` goes on, under a new duty. -/
theorem Manned.goOn (h : Manned s δ) {n : Nat} {old task : Task} {d : Duty} (hn : s.tasks[n]? = some old)
    (hsteady : Steady w') (hledger : Ledger w' (Function.update δ (seat n) d))
    (hjob : ∀ id stage, d.job = some (id, stage) → (∃ stage', (δ (seat n)).job = some (id, stage')) ∨
      id ∉ s.world.issued)
    (hobeys : task.Obeys w' d) (hkept : CallsKept s.world w')
    (hawaited : ∀ (c : Nat) (call : Call), w'.calls[c]? = some call → (∀ r, call.caller ≠ .returned r) →
      (∃ k, task = .awaiting c k) ∨ ((∀ k, old ≠ .awaiting c k) ∧ s.world.calls[c]? = some call)) :
    Manned ⟨w', s.tasks.set n task⟩ (Function.update δ (seat n) d) := by
  have hlt : n < s.tasks.length := (List.getElem?_eq_some_iff.1 hn).1
  refine ⟨hsteady, hledger, h.distinct_update hjob, fun m x hm => ?_, fun m hm => ?_, ?_, fun c call hc hr => ?_⟩
  · rcases Entries.set_cases hm with ⟨rfl, rfl⟩ | ⟨hne, hm⟩
    · rw [Function.update_self]
      exact hobeys
    · rw [Function.update_of_ne (seat_ne hne)]
      exact (h.tasks m x hm).mono hkept
  · rw [List.length_set] at hm
    rw [Function.update_of_ne (seat_ne (by omega))]
    exact h.idle m hm
  · obtain ⟨k₀, hk₀⟩ := h.room
    exact ⟨k₀, fun k hk => by rw [Function.update_of_ne (seat_ne_odd n k).symm]; exact hk₀ k hk⟩
  · rcases hawaited c call hc hr with ⟨k, rfl⟩ | ⟨hold, hc⟩
    · exact ⟨n, k, Entries.set_self hn⟩
    · obtain ⟨m, k, hm⟩ := h.awaited c call hc hr
      have hne : m ≠ n := by
        rintro rfl
        rw [hn] at hm
        cases hm
        exact hold k rfl
      exact ⟨m, k, (Entries.set_ne hne).trans hm⟩

/-- The agent changed without a task. -/
theorem Manned.evolve (h : Manned s δ) (hsteady : Steady w') (hledger : Ledger w' δ) (hkept : CallsKept s.world w')
    (hreturned : ∀ (c : Nat) (call' : Call), w'.calls[c]? = some call' → (∀ r, call'.caller ≠ .returned r) →
      ∃ call : Call, s.world.calls[c]? = some call ∧ ∀ r, call.caller ≠ .returned r) : Manned ⟨w', s.tasks⟩ δ := by
  refine ⟨hsteady, hledger, h.distinct, fun m x hm => (h.tasks m x hm).mono hkept, h.idle, h.room,
    fun c call' hc hr => ?_⟩
  obtain ⟨call, hc, hr⟩ := hreturned c call' hc hr
  exact h.awaited c call hc hr

theorem op_calls {w w' : World} {o : SchedOp} (hs : w.step (.op o) = some w') : w'.calls = w.calls := by
  cases World.step_cases hs
  rfl

/-- A handler made an operation and spawned nothing. -/
theorem Manned.operate (h : Manned s δ) {o : SchedOp} (hs : s.world.step (.op o) = some w') (ho : o.isUpdateJob = false)
    (hledger : Ledger w' δ) : Manned ⟨w', s.tasks⟩ δ :=
  h.evolve (steady_step hs ho h.steady) hledger (.of_eq (op_calls hs)) fun c call hc hr =>
    ⟨call, by rw [← op_calls hs]; exact hc, hr⟩

/-- A handler spawned a task, under a duty of its own. -/
theorem Manned.spawn (h : Manned s δ) {script : Script Unit} {d : Duty} (hsteady : Steady w')
    (hcalls : w'.calls = s.world.calls)
    (hledger : Ledger w' (Function.update δ (seat s.tasks.length) d))
    (hjob : ∀ id stage, d.job = some (id, stage) → id ∉ s.world.issued) (hobeys : Api.Obeys d script) :
    Manned ⟨w', s.tasks ++ [.ready script]⟩ (Function.update δ (seat s.tasks.length) d) := by
  refine ⟨hsteady, hledger, h.distinct_update fun id stage hd => .inr (hjob id stage hd),
    fun m x hm => ?_, fun m hm => ?_, ?_,
    fun c call hc hr => ?_⟩
  · rcases Entries.append_cases hm with hm | ⟨rfl, rfl⟩
    · have hlt := (List.getElem?_eq_some_iff.1 hm).1
      rw [Function.update_of_ne (seat_ne (by omega))]
      exact (h.tasks m x hm).mono (.of_eq hcalls)
    · rw [Function.update_self]
      exact hobeys
  · rw [List.length_append, List.length_singleton] at hm
    rw [Function.update_of_ne (seat_ne (by omega))]
    exact h.idle m (by omega)
  · obtain ⟨k₀, hk₀⟩ := h.room
    exact ⟨k₀, fun k hk => by rw [Function.update_of_ne (seat_ne_odd _ k).symm]; exact hk₀ k hk⟩
  · simp only [hcalls] at hc
    obtain ⟨m, k, hm⟩ := h.awaited c call hc hr
    exact ⟨m, k, Entries.append_kept hm⟩

/-- A job was created for which no task was spawned. -/
theorem Manned.forsake (h : Manned s δ) {k : Nat} {d : Duty} (hsteady : Steady w') (hcalls : w'.calls = s.world.calls)
    (hledger : Ledger w' (Function.update δ (2 * k + 1) d))
    (hjob : ∀ id stage, d.job = some (id, stage) → id ∉ s.world.issued) :
    Manned ⟨w', s.tasks⟩ (Function.update δ (2 * k + 1) d) := by
  refine ⟨hsteady, hledger, h.distinct_update fun id stage hd => .inr (hjob id stage hd),
    fun m x hm => ?_, fun m hm => ?_, ?_,
    fun c call hc hr => ?_⟩
  · rw [Function.update_of_ne (seat_ne_odd m k)]
    exact (h.tasks m x hm).mono (.of_eq hcalls)
  · rw [Function.update_of_ne (seat_ne_odd m k)]
    exact h.idle m hm
  · obtain ⟨k₀, hk₀⟩ := h.room
    refine ⟨max k₀ (k + 1), fun m hm => ?_⟩
    rw [Function.update_of_ne (by omega)]
    exact hk₀ m (by omega)
  · simp only [hcalls] at hc
    exact h.awaited c call hc hr

/-! ## Steps -/

theorem op_fresh {w w' : World} {o : SchedOp} {id : Uuid} (hs : w.step (.op o) = some w') (ho : o.newId = some id) :
    id ∉ w.issued := by
  cases World.step_cases hs with
  | op _ hid => exact hid id ho

/-- A job that an operation creates is Pending. -/
theorem new_pending {w w' : World} {o : SchedOp} {id : Uuid} (hk : Known w) (hs : w.step (.op o) = some w')
    (hu : o.isUpdateJob = false) (hid : id ∉ w.issued) : ∀ j, w'.sched.jobs.get? id = some j → j.status = .pending := by
  intro j hj
  cases World.step_cases hs with
  | op _ _ =>
    rcases apply_get? hu hj with ⟨_, hp, _⟩ | ⟨j₀, hj₀, _⟩
    · exact hp
    · rw [fresh_absent hk hid] at hj₀
      cases hj₀

/-- `create_rollback_job`, whose job is owed by nobody. -/
theorem Ledger.createRollbackJob {w : World} (h : Ledger w δ) (hk : Known w)
    {n : Nat} {id original : Uuid} (hn : δ n = .free)
    (hs : w.step (.op (.createRollbackJob id original)) = some w')
    (hok : (w.sched.createRollbackJob w.env id original).2 = .ok (some id)) :
    Ledger w' (Function.update δ n (.ofJob id)) := by
  have hid : id ∉ w.issued := op_fresh hs rfl
  cases World.step_cases hs with
  | op _ _ =>
    rcases w.sched.createRollbackJob_spec w.env id original with ⟨r, he, hne⟩ | ⟨j, _, _, _, hu, _, _, _, hfr, hget⟩
    · rw [he] at hok
      exact absurd hok (hne id)
    · refine h.admit hk hid rfl rfl (by rw [hn]; rfl) (by rw [hn]; rfl) hget (by simp [Job.new]) hu hfr.rebootPending
        fun su hsu => ?_
      simp only [SchedOp.apply, hfr.selfUpdate, hu] at hsu
      cases hsu

theorem update_one {p : Nat} {d : Duty} :
    ∀ m m', Function.update δ p d m ≠ δ m → Function.update δ p d m' ≠ δ m' → m = m' := by
  have changed : ∀ m, Function.update δ p d m ≠ δ m → m = p := fun m hm => by
    by_contra hne
    exact hm (Function.update_of_ne hne d δ)
  intro m m' hm hm'
  rw [changed m hm, changed m' hm']

/-- A handler leaves a manned service behind. -/
theorem manned_handled (h : Manned s δ) {newId : Uuid} {scripts : List (Script Unit)} {d : Option Duty}
    (hs : HandlerStep s.world newId w' scripts d) :
    ∃ δ', Hires s w' scripts δ δ' ∧ Manned ⟨w', s.tasks ++ scripts.map .ready⟩ δ' := by
  have hk := h.steady.known
  have hidle := h.idle s.tasks.length le_rfl
  have stay : Hires s w' [] δ δ := ⟨fun _ _ => rfl, fun _ => .inl rfl, fun _ _ hm => absurd rfl hm, .inl rfl⟩
  -- the duty of a new task
  have hire : ∀ {o : SchedOp} {script : Script Unit} {d : Duty}, s.world.step (.op o) = some w' →
    o.isUpdateJob = false →
      o.newId = some newId → Spawns newId script d → Ledger w' (Function.update δ (seat s.tasks.length) d) →
      ∃ δ', Hires s w' [script] δ δ' ∧ Manned ⟨w', s.tasks ++ [.ready script]⟩ δ' := by
    intro o script d hs ho hnew hspawn hl
    obtain ⟨hjob, hguard⟩ := hspawn.newId
    have hid := op_fresh hs hnew
    refine ⟨_, ⟨fun n hn => ?_, fun m => ?_, update_one, .inr ⟨newId, script, rfl, ?_⟩⟩,
      h.spawn (steady_step hs ho h.steady) (op_calls hs)
        hl (fun id stage hd => by rw [hjob id stage hd]; exact hid) hspawn.obeys⟩
    · rw [Function.update_of_ne (seat_ne (by omega))]
    · by_cases hm : m = seat s.tasks.length
      · subst hm
        rw [Function.update_self]
        refine .inr ⟨fun id stage hd => ?_, fun r live hd => ?_⟩
        · rw [hjob id stage hd]
          exact ⟨hid, new_pending hk hs ho hid⟩
        · rw [hguard r live hd]
          exact hid
      · rw [Function.update_of_ne hm]
        exact .inl rfl
    · rw [Function.update_self]
      exact hspawn
  cases hs with
  | unchanged =>
    simp only [List.map_nil, List.append_nil]
    exact ⟨δ, stay, h⟩
  | refused o w' hs ho hsame =>
    simp only [List.map_nil, List.append_nil]
    have ho : o.isUpdateJob = false := SchedOp.IsRequest.notUpdateJob
      (.inl (by rw [ho]; exact Option.some_ne_none newId))
    refine ⟨δ, stay, h.operate hs ho (h.ledger.quiet (.of_sched hsame (step_issued (f := ⟨s.world, .op o, w'⟩) hs)))⟩
  | deleted id w' hs =>
    simp only [List.map_nil, List.append_nil]
    exact ⟨δ, stay, h.operate hs rfl (h.ledger.deleteJob hs)⟩
  | rebootDropped force ack w' hs _ =>
    simp only [List.map_nil, List.append_nil]
    exact ⟨δ, stay, h.operate hs rfl (h.ledger.reserveReboot (n := 0) hs).1⟩
  | refresh origin =>
    have hl : Ledger s.world (Function.update δ (seat s.tasks.length) .free) := by
      rw [← hidle, Function.update_eq_self]
      exact h.ledger
    refine ⟨_, ⟨fun n hn => ?_, fun m => .inl ?_, update_one, .inr ⟨newId, _, rfl, ?_⟩⟩,
      h.spawn h.steady rfl hl (fun id stage hd => by cases hd) (obeys_refreshTask origin)⟩
    · rw [Function.update_of_ne (seat_ne (by omega))]
    · rw [← hidle, Function.update_eq_self]
    · rw [Function.update_self]
      exact .refresh origin
  | admitted operation packages script w' hs hok hop hspawn =>
    have hl := h.ledger.admitJob hk (by rw [hidle]; rfl) hop hs
    rw [hok, hidle] at hl
    exact hire hs rfl rfl hspawn hl
  | updating name w' hs hok =>
    have hl := h.ledger.tryReserveSelfUpdate hk hidle hs
    rw [hok] at hl
    exact hire hs rfl rfl (.selfUpdate name) hl
  | rebooting delaySeconds force ack w' hs hok =>
    have hl := (h.ledger.reserveReboot (n := seat s.tasks.length) hs).2
    rw [hok, hidle] at hl
    exact hire hs rfl rfl (.reboot delaySeconds) hl
  | rollingBack original w' hs hok =>
    simp only [List.map_nil, List.append_nil]
    -- the duty of the new job takes an odd number, where no task will come
    obtain ⟨k, hk₀⟩ := h.room
    have hid := op_fresh hs rfl
    have hl := h.ledger.createRollbackJob hk (hk₀ k le_rfl) hs hok
    refine ⟨_, ⟨fun n _ => ?_, fun m => ?_, update_one, .inl rfl⟩,
      h.forsake (steady_step hs rfl h.steady) (op_calls hs) hl
      fun id stage hd => by cases hd; exact hid⟩
    · rw [Function.update_of_ne (seat_ne_odd n k)]
    · by_cases hm : m = 2 * k + 1
      · subst hm
        rw [Function.update_self]
        refine .inr ⟨fun id stage hd => ?_, fun r live hd => by cases hd⟩
        cases hd
        exact ⟨hid, new_pending hk hs rfl hid⟩
      · rw [Function.update_of_ne hm]
        exact .inl rfl

theorem after_job {d : Duty} {e : TaskCall} {r : TaskResponse e} {w : World} {x : Answers} (ha : d.Allows e)
    (hp : perform w x e = some (w', r)) : ∀ id stage, (d.after e r).job = some (id, stage) →
      (∃ stage', d.job = some (id, stage')) ∨ id ∉ w.issued := by
  intro id stage hd
  have mapped : ∀ f : Uuid × Stage → Uuid × Stage, (∀ p, (f p).1 = p.1) → d.job.map f = some (id, stage) →
      (∃ stage', d.job = some (id, stage')) ∨ id ∉ w.issued := by
    intro f hf hd
    obtain ⟨⟨id', stage'⟩, hj, he⟩ := Option.map_eq_some_iff.1 hd
    have := hf (id', stage')
    rw [he] at this
    obtain rfl : id = id' := this
    exact .inl ⟨stage', hj⟩
  cases perform_cases hp with
  | admitJob operation packages _ hv =>
    rcases w.sched.admitJob_spec w.env x.newId operation packages with ⟨e, he⟩ | ⟨_, _, _, _, he⟩
    · simp only [Duty.after, he, Duty.admitted] at hd
      exact .inl ⟨stage, hd⟩
    · simp only [Duty.after, he, Duty.admitted] at hd
      cases hd
      exact .inr (op_fresh hv rfl)
  | reserveReboot force ack =>
    simp only [Duty.after, Duty.reserved] at hd
    split at hd <;> exact .inl ⟨stage, hd⟩
  | op o =>
    cases o with
    | completeJob | failJob | failJobWithDiagnostics => cases hd
    | setJobRebooting => exact mapped (fun p => (p.1, .rebooting)) (fun _ => rfl) hd
    | rollbackReboot => exact mapped (fun p => (p.1, p.2.unreserved)) (fun _ => rfl) hd
    | _ => exact .inl ⟨stage, hd⟩
  | beginRebootExecution | getSystemInfo | rebootSystem => exact .inl ⟨stage, hd⟩

theorem after_guard {d : Duty} {e : TaskCall} {r : TaskResponse e} {w : World} {x : Answers}
    (hp : perform w x e = some (w', r)) : ∀ id live, (d.after e r).guard = some (id, live) →
      (∃ live', d.guard = some (id, live')) ∨ id ∉ w.issued := by
  intro id live hd
  cases perform_cases hp with
  | reserveReboot force ack _ hv =>
    rcases w.sched.reserveReboot_spec w.env x.newId force ack with ⟨_, e, he⟩ | ⟨_, hok, _⟩
    · simp only [Duty.after, he, Duty.reserved] at hd
      exact .inl ⟨live, hd⟩
    · simp only [Duty.after, hok, Duty.reserved] at hd
      cases hd
      exact .inr (op_fresh hv rfl)
  | admitJob operation packages =>
    simp only [Duty.after, Duty.admitted] at hd
    split at hd <;> exact .inl ⟨live, hd⟩
  | op o =>
    cases o with
    | rollbackReboot =>
      simp only [Duty.after, Duty.rolledBack, Option.map_eq_some_iff, Prod.mk.injEq] at hd
      obtain ⟨⟨id', live'⟩, hg, rfl, _⟩ := hd
      exact .inl ⟨live', hg⟩
    | _ => exact .inl ⟨live, hd⟩
  | beginRebootExecution | getSystemInfo | rebootSystem => exact .inl ⟨live, hd⟩

theorem perform_steady {d : Duty} {w : World} {x : Answers} {e : TaskCall} {r : TaskResponse e} (ha : d.Allows e)
    (hp : perform w x e = some (w', r)) (h : Steady w) : Steady w' := by
  rcases perform_operates ha hp with rfl | ⟨o, hs, ho, _⟩
  · exact h
  · exact steady_step hs ho h

theorem manned_ran (h : Manned s δ) {n : Nat} {x : Answers} (hs : s.step (.run n x) = some s') :
    ∃ δ', Shift s δ (.service (.run n x)) s' δ' ∧ Manned s' δ' := by
  simp only [Service.step] at hs
  split at hs
  next script hn =>
    obtain ⟨⟨w', task⟩, hr, rfl⟩ := Option.map_eq_some_iff.1 hs
    have hobeys : Obeys (δ (seat n)) script := h.tasks n _ hn
    cases runTask_cases hr with
    | dispatched id closure k _ hv =>
      obtain ⟨ha, hk⟩ := hobeys
      have hsteady : Steady w' := steady_step hv trivial h.steady
      cases World.step_cases hv with
      | dispatch =>
        have hl : Ledger { s.world with calls := s.world.calls ++ [Call.new id], issued := id :: s.world.issued } δ :=
          h.ledger.quiet (.of_sched rfl (List.subset_cons_self _ _))
        have hobeys' : (Task.awaiting s.world.calls.length k).Obeys
            { s.world with calls := s.world.calls ++ [Call.new id], issued := id :: s.world.issued } (δ (seat n)) :=
          ⟨Call.new id, by simp, ha.1, hk⟩
        have hm := h.goOn hn hsteady (by rw [Function.update_eq_self]; exact hl)
          (fun _ stage hd => .inl ⟨stage, hd⟩) hobeys'
          (fun c call hc => ?_) (fun c call hc _ => ?_)
        · rw [Function.update_eq_self] at hm
          exact ⟨δ, .dispatched n x id closure k hn ha.1, hm⟩
        · exact ⟨call, Entries.append_kept hc, rfl⟩
        · rcases Entries.append_cases hc with hc | ⟨rfl, _⟩
          · exact .inr ⟨fun k => Task.noConfusion, hc⟩
          · exact .inl ⟨k, rfl⟩
    | performed e k _ r hp =>
      obtain ⟨ha, hk⟩ := hobeys
      have hcalls := (perform_operates ha hp).calls
      exact ⟨_, .ran n x e k w' r hn ha hp, h.goOn hn (perform_steady ha hp h.steady)
        (perform_ledger h.ledger h.steady.known ha hp) (after_job ha hp) (hk r) (.of_eq hcalls)
        fun c call hc _ => .inr ⟨fun k => Task.noConfusion, by rw [← hcalls]; exact hc⟩⟩
  next => cases hs

theorem manned_resumed (h : Manned s δ) {n : Nat} (hs : s.step (.resume n) = some s') :
    ∃ δ', Shift s δ (.service (.resume n)) s' δ' ∧ Manned s' δ' := by
  simp only [Service.step] at hs
  split at hs
  next c resume hn =>
    obtain ⟨r, hr, rfl⟩ := Option.map_eq_some_iff.1 hs
    obtain ⟨call, hc, hd, hk⟩ := h.tasks n _ hn
    have hcaller : call.caller = .returned r := by
      simp only [returned?, hc] at hr
      split at hr
      · cases hr
        assumption
      · cases hr
    have hl : Ledger s.world (Function.update δ (seat n) ((δ (seat n)).dispatched r)) := by
      cases r with
      | ok u => exact h.ledger.start hd (h.steady.started call (List.mem_of_getElem? hc) (.inr (.inr hcaller)))
      | error e =>
        simp only [Duty.dispatched, Function.update_eq_self]
        exact h.ledger
    refine ⟨_, .resumed n c resume r call hn hc hcaller,
      h.goOn hn h.steady hl (fun id stage hj => ?_) (hk r) (.of_eq rfl)
      fun c' call' hc' hr' => .inr ⟨?_, hc'⟩⟩
    · cases r with
      | ok u =>
        simp only [Duty.dispatched, hd, Option.map_some, Option.some.injEq, Prod.mk.injEq] at hj
        exact .inl ⟨.queued, by rw [hd, hj.1]⟩
      | error e => exact .inl ⟨stage, hj⟩
    · rintro k ⟨⟩
      rw [hc] at hc'
      cases hc'
      exact hr' r hcaller
  next => cases hs

theorem Manned.owes_waiting (h : Manned s δ) {c : Nat} {call : Call} (hc : s.world.calls[c]? = some call)
    (hr : ∀ r, call.caller ≠ .returned r) :
    ∃ n k, s.tasks[n]? = some (.awaiting c k) ∧ (δ (seat n)).job = some (call.jobId, .queued) := by
  obtain ⟨n, k, hn⟩ := h.awaited c call hc hr
  obtain ⟨call₁, hc₁, hd, _⟩ := h.tasks n _ hn
  rw [hc] at hc₁
  cases hc₁
  exact ⟨n, k, hn, hd⟩

theorem manned_moved (h : Manned s δ) {c : Nat} {a : CallAct} (hs : s.step (.call c a) = some s') :
    Shift s δ (.service (.call c a)) s' δ ∧ Manned s' δ := by
  simp only [Service.step] at hs
  split at hs
  · cases hs
  next ha =>
    obtain ⟨w', hw, rfl⟩ := Option.map_eq_some_iff.1 hs
    have hsteady : Steady w' := steady_step hw ha h.steady
    obtain ⟨call, s', call', hc, hraw, rfl⟩ := World.step_call hw
    have hcs := callStep_cases hraw
    refine ⟨.moved c a call call' s' ha hc hraw,
      h.evolve hsteady (h.ledger.moved ha (fun hl => ?_) hcs) (.moved hc hcs) (unreturned_moved hc hcs)⟩
    obtain ⟨n, _, _, hd⟩ := h.owes_waiting hc fun r hr => by rw [hl] at hr; cases hr
    exact ⟨seat n, hd⟩

/-- Every step of the process leads from a manned service to a manned service. -/
theorem process_shift (h : Manned s δ) {a : ProcessAct} (hs : s.processStep a = some s') :
    ∃ δ', Shift s δ a s' δ' ∧ Manned s' δ' := by
  cases a with
  | freeze =>
    simp only [Service.processStep, Option.map_eq_some_iff] at hs
    obtain ⟨w', hw, rfl⟩ := hs
    have hsteady : Steady w' := steady_step hw rfl h.steady
    cases World.step_cases hw
    exact ⟨δ, .froze, h.evolve hsteady (h.ledger.quiet ⟨List.Subset.refl _, fun id j' hj' =>
      ⟨j', hj', rfl, .inl rfl⟩, rfl, rfl⟩)
      (.of_eq rfl) fun c call hc hr => ⟨call, hc, hr⟩⟩
  | service a =>
    simp only [Service.processStep] at hs
    cases a with
    | request req newId dropped =>
      simp only [Service.step] at hs
      obtain ⟨⟨w', scripts⟩, hh, rfl⟩ := Option.map_eq_some_iff.1 hs
      obtain ⟨d, hstep⟩ := handle_cases hh
      obtain ⟨δ', hhire, hm⟩ := manned_handled h hstep
      exact ⟨δ', .handled req newId dropped w' scripts d δ' hh hstep hhire, hm⟩
    | run n x => exact manned_ran h hs
    | resume n => exact manned_resumed h hs
    | call c a => exact ⟨δ, manned_moved h hs⟩
    | tick seconds =>
      simp only [Service.step] at hs
      obtain ⟨w', hw, rfl⟩ := Option.map_eq_some_iff.1 hs
      have hsteady : Steady w' := steady_step hw trivial h.steady
      cases World.step_cases hw
      exact ⟨δ, .ticked seconds, h.evolve hsteady (h.ledger.quiet (.of_sched rfl (List.Subset.refl _))) (.of_eq rfl)
        fun c call hc hr => ⟨call, hc, hr⟩⟩

end Manned

end LinuxPatchApi.Api
