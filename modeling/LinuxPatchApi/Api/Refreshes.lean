/-
Background refreshes and the state of the cache. Every poll that finds the cache stale spawns a refresh of
its own, and a refresh that waits for the slot does not look at the cache again: so the refreshes that
accumulate all run, unless no poll finds the cache stale while an earlier refresh is outstanding.
-/
import LinuxPatchApi.Packages.Cache
import LinuxPatchApi.Api.Internals

namespace LinuxPatchApi.Api

open Interaction LinuxPatchApi.Packages LinuxPatchApi.Jobs Transition

/-! ## The machine -/

/-- The process with the state of its package cache, the backend's name for itself, and the closure of each
mutation that was dispatched, by the number of its call. -/
structure Polling where
  service : Service
  cache : PackageCacheState
  label : String
  closures : List MutationClosure

inductive PollAct where
  | process (a : ProcessAct)
  /-- The closure of mutation number `c` panics in its refresh. -/
  | panic (c : Nat) (text : String)
  /-- The transaction of mutation number `c`, a patch or a self-update, refreshes the cache with this result. -/
  | transactionRefresh (c : Nat) (result : MutationResult)

/-- What `refresh_package_cache` does to the state of the cache. -/
def refreshed (cache : PackageCacheState) (label : String) (now : Nat) : MutationResult → PackageCacheState
  | .ok () => cache.updateSuccess now
  | .error e => cache.updateFailure now (label ++ " cache refresh failed: " ++ formatErrorForCache e)

namespace Polling

variable (p : Polling)

/-- The clock of the process counts whole seconds. -/
def now : Nat := p.service.world.clock * PackageCacheState.nanosPerSec

def isStale : Bool := p.cache.isStale p.now

/-- A poll reports the state of the cache as it is. -/
def truthful : ProcessAct → Bool
  | .service (.request (.healthCheck stale) _ _) | .service (.request (.listPatches stale) _ _) => stale == p.isStale
  | _ => true

/-- The mutation that the step dispatches. -/
def dispatches : ProcessAct → Option MutationClosure
  | .service (.run n _) => match p.service.tasks[n]? with
    | some (.ready (.call (.dispatchMutation _ closure) _)) => some closure
    | _ => none
  | _ => none

def isRefresh (c : Nat) : Bool :=
  match p.closures[c]? with
  | some (.cacheRefresh _) => true
  | _ => false

/-- The closure's own refreshes come before its end. -/
def refreshesWithin (c : Nat) : Bool :=
  match p.closures[c]? with
  | some (.patchApply _) | some (.selfUpdate _) => true
  | _ => false

/-- The refresh and the end of its closure are one step. -/
def cacheAfter : ProcessAct → PackageCacheState
  | .service (.call c (.exitClosure r)) =>
    if p.isRefresh c then refreshed p.cache p.label p.now r else p.cache
  | _ => p.cache

def step : PollAct → Option Polling
  | .process a =>
    if p.truthful a then
      (p.service.processStep a).map fun s =>
        { p with service := s, cache := p.cacheAfter a, closures := p.closures ++ (p.dispatches a).toList }
    else none
  | .panic c text =>
    if p.isRefresh c then
      (p.service.step (.call c (.exitClosure (SchedulerState.closurePanicked text)))).map fun s =>
        { p with service := s }
    else none
  | .transactionRefresh c r =>
    if p.refreshesWithin c ∧ (p.service.world.calls[c]?).any (fun call => call.closure == .executing) then
      some { p with cache := refreshed p.cache p.label p.now r }
    else none

def Startup : Prop := p.service.Startup ∧ p.closures = []

end Polling

def polling : Machine Polling PollAct := ⟨Polling.Startup, Polling.step⟩

/-! ## Outstanding refreshes -/

/-- The script is a background refresh before its mutation; no other task admits a job. -/
def willRefresh : Script Unit → Bool
  | .call (.admitJob _ _) _ => true
  | .call (.dispatchMutation _ (.cacheRefresh _)) _ => true
  | _ => false

/-- The closure of the call has yet to start or to end. -/
def unfinished (call : Call) : Bool :=
  match call.closure with
  | .exited _ => false
  | .queued | .executing => true
  | .absent => call.watchdog == .spawned || call.caller == .locking || call.caller == .registering ||
      call.caller == .suspended || call.caller == .persisting

/-- Where a background refresh is: in a task, or in the mutation that the task dispatched. -/
inductive RefreshRef where
  | task (n : Nat)
  | call (c : Nat)
  deriving DecidableEq, Repr

namespace Polling

def outstanding (p : Polling) : RefreshRef → Bool
  | .task n => match p.service.tasks[n]? with
    | some (.ready script) => willRefresh script
    | _ => false
  | .call c => p.isRefresh c && (p.service.world.calls[c]?).any unfinished

def anyOutstanding (p : Polling) : Bool :=
  (List.range p.service.tasks.length).any (fun n => p.outstanding (.task n)) ||
    (List.range p.service.world.calls.length).any fun c => p.outstanding (.call c)

theorem anyOutstanding_of {p : Polling} {i : RefreshRef} (h : p.outstanding i = true) : p.anyOutstanding = true := by
  unfold anyOutstanding
  rw [Bool.or_eq_true, List.any_eq_true, List.any_eq_true]
  cases i with
  | task n =>
    refine .inl ⟨n, List.mem_range.2 ?_, h⟩
    by_contra hn
    rw [outstanding, List.getElem?_eq_none (Nat.le_of_not_lt hn)] at h
    cases h
  | call c =>
    refine .inr ⟨c, List.mem_range.2 ?_, h⟩
    by_contra hc
    rw [outstanding, List.getElem?_eq_none (Nat.le_of_not_lt hc), Bool.and_eq_true] at h
    cases h.2

end Polling

/-! ## Starts and ends of refreshes -/

/-- The closure of a background refresh starts. -/
def RefreshStarts (f : Fired Polling PollAct) : Prop :=
  ∃ c, f.act = .process (.service (.call c .runClosure)) ∧ f.pre.isRefresh c = true

/-- The closure of a background refresh ends with success. -/
def RefreshSucceeds (f : Fired Polling PollAct) : Prop :=
  ∃ c, f.act = .process (.service (.call c (.exitClosure (.ok ())))) ∧ f.pre.isRefresh c = true

/-- After a background refresh has succeeded none starts before the cache has been stale again. -/
def Deduplicated (tr : List (Fired Polling PollAct)) : Prop :=
  ∀ pre f mid g post, tr = pre ++ f :: (mid ++ g :: post) → RefreshSucceeds f → RefreshStarts g →
    ∃ v ∈ states f.post mid, v.isStale = true

/-- A health check or a patch list that finds the cache stale. -/
def isStalePoll : PollAct → Bool
  | .process (.service (.request (.healthCheck true) _ _)) | .process (.service (.request (.listPatches true) _ _)) =>
    true
  | _ => false

/-- A poll finds the cache stale while the refresh of an earlier poll is outstanding. -/
def pollsAgain (f : Fired Polling PollAct) : Bool := isStalePoll f.act && f.pre.anyOutstanding

/-! ## One step -/

/-- A background refresh up to its mutation, or a task that refreshes nothing from where it is. -/
def RefreshTask : Task → Prop
  | .ready script => (∃ origin, script = refreshTask origin) ∨ (∃ origin id, script = refreshAdmitted origin id) ∨
      Asks Ordinary script
  | .awaiting _ resume => ∀ r, Asks Ordinary (resume r)

theorem not_willRefresh {script : Script Unit} (h : Asks Ordinary script) : willRefresh script = false := by
  cases script with
  | pure _ => rfl
  | call e k =>
    cases e with
    | admitJob operation packages => exact h.1.elim
    | dispatchMutation id closure =>
      cases closure with
      | cacheRefresh origin => exact absurd rfl (h.1 origin)
      | _ => rfl
    | _ => rfl

/-- What a step of the process does to the tasks and to the calls. -/
inductive Moves (s : Service) : ProcessAct → Service → Prop
  | spawned (req : Request) (newId : Uuid) (dropped : Bool) (w : World) (scripts : List (Script Unit)) :
      w.calls = s.world.calls →
      (∃ origin, req = RefreshOrigin.stalePoll origin ∧ scripts = [refreshTask origin]) ∨
        (∀ script ∈ scripts, Asks Ordinary script) →
      Moves s (.service (.request req newId dropped)) ⟨w, s.tasks ++ scripts.map .ready⟩
  | performed (n : Nat) (x : Answers) (e : TaskCall) (k : TaskResponse e → Script Unit) (w : World)
    (r : TaskResponse e) :
      s.tasks[n]? = some (.ready (.call e k)) → (∀ id closure, e ≠ .dispatchMutation id closure) →
      w.calls = s.world.calls → Moves s (.service (.run n x)) ⟨w, s.tasks.set n (.ready (k r))⟩
  | dispatched (n : Nat) (x : Answers) (id : Uuid) (closure : MutationClosure)
    (k : MutationResult → Script Unit) (w : World) :
      s.tasks[n]? = some (.ready (.call (.dispatchMutation id closure) k)) → w.calls = s.world.calls ++ [Call.new id] →
      Moves s (.service (.run n x)) ⟨w, s.tasks.set n (.awaiting s.world.calls.length k)⟩
  | resumed (n c : Nat) (resume : MutationResult → Script Unit) (r : MutationResult) :
      s.tasks[n]? = some (.awaiting c resume) →
      Moves s (.service (.resume n)) { s with tasks := s.tasks.set n (.ready (resume r)) }
  | called (c : Nat) (a : CallAct) (call call' : Call) (sched : SchedulerState) : s.world.calls[c]? = some call →
      CallStep s.world.env c s.world.sched call a sched call' →
      Moves s (.service (.call c a)) { s with world := { s.world with sched, calls := s.world.calls.set c call' } }
  | ticked (seconds : Nat) (w : World) : w.calls = s.world.calls →
    Moves s (.service (.tick seconds)) { s with world := w }
  | frozen (w : World) : w.calls = s.world.calls → Moves s .freeze { s with world := w }

theorem process_moves {s s' : Service} {a : ProcessAct} (h : s.processStep a = some s') : Moves s a s' := by
  cases a with
  | freeze =>
    simp only [Service.processStep, Option.map_eq_some_iff] at h
    obtain ⟨w, hw, rfl⟩ := h
    exact .frozen w (op_calls hw)
  | service a =>
    have hstep : s.step a = some s' := h
    cases a with
    | request req newId dropped =>
      simp only [Service.step, Option.map_eq_some_iff] at hstep
      obtain ⟨⟨w, scripts⟩, hreq, rfl⟩ := hstep
      obtain ⟨d, hd⟩ := handle_cases hreq
      have hcalls : w.calls = s.world.calls := by
        rcases hd.operated with rfl | ⟨o, ho, _⟩
        · rfl
        · exact op_calls ho
      refine .spawned req newId dropped w scripts hcalls ?_
      rcases handle_scripts hreq with ⟨origin, he, _, hs⟩ | hnone
      · exact .inl ⟨origin, he, hs⟩
      · exact .inr hnone
    | run n x =>
      simp only [Service.step] at hstep
      split at hstep
      · next script hn =>
        simp only [Option.map_eq_some_iff] at hstep
        obtain ⟨⟨w, task⟩, hrun, rfl⟩ := hstep
        cases runTask_cases hrun with
        | dispatched id closure k w' hs =>
          cases World.step_cases hs
          exact .dispatched n x id closure k _ hn rfl
        | performed e k w' r hp =>
          refine .performed n x e k w r hn (fun id closure he => ?_) ?_
          · subst he
            cases hp
          · cases perform_cases hp with
            | admitJob _ _ _ hs | reserveReboot _ _ _ hs | beginRebootExecution _ _ hs | op _ _ hs => exact op_calls hs
            | getSystemInfo | rebootSystem => rfl
      · cases hstep
    | resume n =>
      simp only [Service.step] at hstep
      split at hstep
      · next c resume hn =>
        simp only [Option.map_eq_some_iff] at hstep
        obtain ⟨r, _, rfl⟩ := hstep
        exact .resumed n c resume r hn
      · cases hstep
    | call c a =>
      simp only [Service.step] at hstep
      split at hstep
      · cases hstep
      · obtain ⟨w, hw, rfl⟩ := Option.map_eq_some_iff.1 hstep
        cases World.step_cases hw with
        | call _ _ call call' sched hc hcs => exact .called c a call call' sched hc hcs
    | tick seconds =>
      simp only [Service.step, Option.map_eq_some_iff] at hstep
      obtain ⟨w, hw, rfl⟩ := hstep
      cases World.step_cases hw
      exact .ticked seconds _ rfl

/-- A move of a call finishes its closure or leaves it unfinished. -/
theorem unfinished_move {env : Env} {c : Nat} {s s' : SchedulerState} {call call' : Call} {a : CallAct}
    (h : CallStep env c s call a s' call') (ho : call.Ordered) (hu : unfinished call' = true) :
    unfinished call = true := by
  have queuing : call.caller = .locking ∨ call.caller = .registering ∨ call.caller = .suspended ∨
    call.caller = .persisting →
      unfinished call = true := fun hp => by
    rw [unfinished, ho.closure (.inl (ho.watchdog hp))]
    rcases hp with hp | hp | hp | hp <;> simp [hp]
  cases h with
  | rejected e hl | waiting hl | acquired b s' hl => exact queuing (.inl hl)
  | registered n p hl => exact queuing (.inr (.inl hl))
  | woken n hl => exact queuing (.inr (.inr (.inl hl)))
  | spawned hl => exact queuing (.inr (.inr (.inr hl)))
  | started hl => simp [unfinished, ho.closure (.inr hl), hl]
  | ran hl | exited r hl => simp [unfinished, hl]
  | joined d r hl he => simp [unfinished, he] at hu
  | elapsed d r hl | finalized r i hl | received r hl | dropped n hl =>
    simp only [unfinished] at hu ⊢
    split at hu <;> simp_all

/-! ## The invariant -/

namespace Polling

/-- What every state of a run satisfies. -/
structure Sound (p : Polling) : Prop where
  slot : SlotInv p.service.world
  closures : p.closures.length = p.service.world.calls.length
  tasks : ∀ t ∈ p.service.tasks, RefreshTask t

/-- At most one background refresh is outstanding. -/
def Sole (p : Polling) : Prop := ∀ i j, p.outstanding i = true → p.outstanding j = true → i = j

end Polling

theorem startup_refreshes {p : Polling} (h : p.Startup) : p.Sound ∧ p.Sole := by
  obtain ⟨⟨hw, ht⟩, hc⟩ := h
  have hcalls : p.service.world.calls = [] := hw.choose_spec.choose_spec.choose_spec.2.2
  refine ⟨⟨startup_slotInv hw, by simp [hc, hcalls], by simp [ht]⟩, fun i j hi => ?_⟩
  cases i with
  | task n => simp [Polling.outstanding, ht] at hi
  | call c => simp [Polling.outstanding, hcalls] at hi

section Step

variable {p p' : Polling}

/-- A step of the process within a step of the machine. -/
theorem polling_process {a : ProcessAct} (h : p.step (.process a) = some p') : p.truthful a = true ∧
    ∃ s, p.service.processStep a = some s ∧
      p' = { p with service := s, cache := p.cacheAfter a, closures := p.closures ++ (p.dispatches a).toList } := by
  simp only [Polling.step] at h
  split at h
  · next ht =>
    obtain ⟨s, hs, rfl⟩ := Option.map_eq_some_iff.1 h
    exact ⟨ht, s, hs, rfl⟩
  · cases h

/-- A panic ends the closure, as the process would see it. -/
theorem polling_panic {c : Nat} {text : String} (h : p.step (.panic c text) = some p') :
    ∃ s, p.service.processStep (.service (.call c (.exitClosure (SchedulerState.closurePanicked text)))) = some s ∧
      p' = { p with service := s } := by
  simp only [Polling.step] at h
  split at h
  · obtain ⟨s, hs, rfl⟩ := Option.map_eq_some_iff.1 h
    exact ⟨s, hs, rfl⟩
  · cases h

theorem polling_transactionRefresh {c : Nat} {r : MutationResult} (h : p.step (.transactionRefresh c r) = some p') :
    p' = { p with cache := refreshed p.cache p.label p.now r } := by
  simp only [Polling.step] at h
  split at h
  · exact (Option.some.inj h).symm
  · cases h

theorem refreshTask_next {origin : RefreshOrigin} {e : TaskCall} {k : TaskResponse e → Script Unit}
    (h : .call e k = refreshTask origin) (r : TaskResponse e) : RefreshTask (.ready (k r)) := by
  obtain ⟨k', hk, hrest⟩ := refreshTask_eq origin
  rw [hk] at h
  cases h
  rw [hrest r]
  split
  · next _ id => exact .inr (.inl ⟨origin, id, rfl⟩)
  · exact .inr (.inr trivial)

theorem refreshTask_moves {s s' : Service} {a : ProcessAct} (h : Moves s a s') (ht : ∀ t ∈ s.tasks, RefreshTask t) :
    ∀ t ∈ s'.tasks, RefreshTask t := by
  have hset : ∀ {n task}, RefreshTask task → ∀ t ∈ s.tasks.set n task, RefreshTask t := fun hd t hmem => by
    rcases List.mem_or_eq_of_mem_set hmem with hmem | rfl
    · exact ht t hmem
    · exact hd
  cases h with
  | spawned req newId dropped w scripts _ hscripts =>
    intro t hmem
    rcases List.mem_append.1 hmem with hmem | hmem
    · exact ht t hmem
    · obtain ⟨script, hscript, rfl⟩ := List.mem_map.1 hmem
      rcases hscripts with ⟨origin, _, rfl⟩ | hscripts
      · exact .inl ⟨origin, List.mem_singleton.1 hscript⟩
      · exact .inr (.inr (hscripts script hscript))
  | performed n x e k w r hn hnot _ =>
    refine hset ?_
    rcases ht _ (List.mem_of_getElem? hn) with ⟨origin, he⟩ | ⟨origin, id, he⟩ | ho
    · exact refreshTask_next he r
    · obtain ⟨k', hk', _⟩ := refreshAdmitted_eq origin id
      rw [hk'] at he
      cases he
      exact absurd rfl (hnot _ _)
    · exact .inr (.inr (ho.2 r))
  | dispatched n x id closure k w hn _ =>
    refine hset ?_
    rcases ht _ (List.mem_of_getElem? hn) with ⟨origin, he⟩ | ⟨origin, id', he⟩ | ho
    · cases he
    · obtain ⟨k', hk', hafter⟩ := refreshAdmitted_eq origin id'
      rw [hk'] at he
      cases he
      exact hafter
    · exact ho.2
  | resumed n c resume r hn => exact hset (.inr (.inr (ht _ (List.mem_of_getElem? hn) r)))
  | called | ticked | frozen => exact ht

/-- A step of the machine is one of the process, or it leaves the process as it is. -/
theorem polling_moves {a : PollAct} (h : p.step a = some p') : (p'.service = p.service ∧ p'.closures = p.closures) ∨
    ∃ b, p.service.processStep b = some p'.service ∧ p'.closures = p.closures ++ (p.dispatches b).toList ∧
      isStalePoll a = isStalePoll (.process b) := by
  cases a with
  | process b =>
    obtain ⟨_, s, hs, rfl⟩ := polling_process h
    exact .inr ⟨b, hs, rfl, rfl⟩
  | panic c text =>
    obtain ⟨s, hs, rfl⟩ := polling_panic h
    exact .inr ⟨_, hs, (List.append_nil _).symm, rfl⟩
  | transactionRefresh c r =>
    rw [polling_transactionRefresh h]
    exact .inl ⟨rfl, rfl⟩

/-- The mutation that a step of the process dispatches is the one of the call that it adds. -/
theorem dispatches_moves {b : ProcessAct} {s' : Service} (h : Moves p.service b s') :
    (p.dispatches b = none ∧ s'.world.calls.length = p.service.world.calls.length) ∨
      ∃ closure, p.dispatches b = some closure ∧ s'.world.calls.length = p.service.world.calls.length + 1 := by
  cases h with
  | spawned req newId dropped w scripts hw => exact .inl ⟨rfl, congrArg List.length hw⟩
  | ticked seconds w hw | frozen w hw => exact .inl ⟨rfl, congrArg List.length hw⟩
  | resumed => exact .inl ⟨rfl, rfl⟩
  | called => exact .inl ⟨rfl, List.length_set⟩
  | dispatched n x id closure k w hn hw =>
    refine .inr ⟨closure, ?_, by simp [hw]⟩
    simp only [Polling.dispatches, hn]
  | performed n x e k w r hn hnot hw =>
    refine .inl ⟨?_, congrArg List.length hw⟩
    simp only [Polling.dispatches, hn]
    cases e with
    | dispatchMutation id closure => exact absurd rfl (hnot id closure)
    | _ => rfl

theorem refreshes_sound {a : PollAct} (h : p.step a = some p') (hi : p.Sound) : p'.Sound := by
  rcases polling_moves h with ⟨hs, hc⟩ | ⟨b, hb, hc, _⟩
  · exact ⟨by rw [hs]; exact hi.slot, by rw [hs, hc]; exact hi.closures, by rw [hs]; exact hi.tasks⟩
  · have hm := process_moves hb
    refine ⟨?_, ?_, refreshTask_moves hm hi.tasks⟩
    · rcases process_world hb with hw | ⟨act, hw⟩
      · rw [hw]
        exact hi.slot
      · exact slotInv_step (f := ⟨_, act, _⟩) hw hi.slot
    · rcases dispatches_moves hm with ⟨hd, hl⟩ | ⟨closure, hd, hl⟩ <;> simp [hc, hd, hl, hi.closures]

theorem outstanding_task {n : Nat} : p.outstanding (.task n) = true ↔
    ∃ script, p.service.tasks[n]? = some (.ready script) ∧ willRefresh script = true := by
  simp only [Polling.outstanding]
  split
  · next script hn =>
    exact ⟨fun h => ⟨script, hn, h⟩, fun ⟨script', hs, h⟩ => by
      rw [hn] at hs
      cases hs
      exact h⟩
  · next hn => exact ⟨fun h => (by cases h), fun ⟨script, hs, _⟩ => (hn script hs).elim⟩

theorem outstanding_call {c : Nat} : p.outstanding (.call c) = true ↔
    p.isRefresh c = true ∧ ∃ call, p.service.world.calls[c]? = some call ∧ unfinished call = true := by
  simp [Polling.outstanding, Option.any_eq_true]

theorem isRefresh_append {c : Nat} {cs : List MutationClosure} (hc : p'.closures = p.closures ++ cs)
    (h : c < p.closures.length) : p'.isRefresh c = p.isRefresh c := by
  unfold Polling.isRefresh
  rw [hc, List.getElem?_append_left h]

/-- The closures of earlier calls stay. -/
theorem isRefresh_kept (hi : p.Sound) {cs : List MutationClosure} (hc : p'.closures = p.closures ++ cs) {c : Nat}
    {call : Call} (h : p.service.world.calls[c]? = some call) : p'.isRefresh c = p.isRefresh c := by
  refine isRefresh_append hc ?_
  rw [hi.closures]
  exact (List.getElem?_eq_some_iff.1 h).1

theorem outstanding_call_kept {c : Nat} (ho : p'.outstanding (.call c) = true) (hi : p.Sound)
    {cs : List MutationClosure} (hc : p'.closures = p.closures ++ cs)
    (hcalls : p'.service.world.calls = p.service.world.calls) : p.outstanding (.call c) = true := by
  obtain ⟨hr, call, hcall, hu⟩ := outstanding_call.1 ho
  rw [hcalls] at hcall
  rw [isRefresh_kept hi hc hcall] at hr
  exact outstanding_call.2 ⟨hr, call, hcall, hu⟩

/-- A call that took a move was outstanding if it still is. -/
theorem outstanding_call_moved (hi : p.Sound) {cs : List MutationClosure} (hc : p'.closures = p.closures ++ cs)
    {c : Nat} {a : CallAct} {call call' : Call} {sched : SchedulerState} (hcall : p.service.world.calls[c]? = some call)
    (hcs : CallStep p.service.world.env c p.service.world.sched call a sched call')
    (hcalls : p'.service.world.calls = p.service.world.calls.set c call') {m : Nat}
    (ho : p'.outstanding (.call m) = true) : p.outstanding (.call m) = true := by
  obtain ⟨hr, x, hx, hu⟩ := outstanding_call.1 ho
  rw [hcalls] at hx
  rcases Entries.set_cases hx with ⟨rfl, rfl⟩ | ⟨_, hx⟩
  · rw [isRefresh_kept hi hc hcall] at hr
    exact outstanding_call.2 ⟨hr, call, hcall, unfinished_move hcs (hi.slot.ordered _ call hcall) hu⟩
  · rw [isRefresh_kept hi hc hx] at hr
    exact outstanding_call.2 ⟨hr, x, hx, hu⟩

/-- A new call is outstanding in the place of the task that dispatched it. -/
theorem outstanding_call_dispatched (hi : p.Sound) {n : Nat} {id : Uuid} {closure : MutationClosure}
    {k : MutationResult → Script Unit} {task : Task}
    (hn : p.service.tasks[n]? = some (.ready (.call (.dispatchMutation id closure) k)))
    (hc : p'.closures = p.closures ++ [closure])
    (hcalls : p'.service.world.calls = p.service.world.calls ++ [Call.new id])
    (htasks : p'.service.tasks = p.service.tasks.set n task) (hwaits : ∀ script, task ≠ .ready script) {c : Nat}
    (ho : p'.outstanding (.call c) = true) : p.outstanding (.call c) = true ∨
      ∃ n, p.outstanding (.task n) = true ∧ p'.outstanding (.task n) = false ∧ c = p.service.world.calls.length := by
  obtain ⟨hr, call, hcall, hu⟩ := outstanding_call.1 ho
  rw [hcalls] at hcall
  rcases Entries.append_cases hcall with hcall | ⟨rfl, _⟩
  · rw [isRefresh_kept hi hc hcall] at hr
    exact .inl (outstanding_call.2 ⟨hr, call, hcall, hu⟩)
  · refine .inr ⟨n, outstanding_task.2 ⟨_, hn, ?_⟩, Bool.eq_false_iff.2 fun hafter => ?_, rfl⟩
    · simp only [Polling.isRefresh, hc, ← hi.closures, List.getElem?_concat_length] at hr
      cases closure with
      | cacheRefresh origin => rfl
      | _ => cases hr
    · obtain ⟨script, hs, _⟩ := outstanding_task.1 hafter
      rw [htasks, Entries.set_self hn] at hs
      exact hwaits script (Option.some.inj hs)

/-- Of the tasks that a step leaves or replaces only the new one can have become outstanding. -/
theorem outstanding_task_set {n : Nat} {task : Task} (htasks : p'.service.tasks = p.service.tasks.set n task)
    (hnew : ∀ script, task = .ready script → willRefresh script = true → p.outstanding (.task n) = true) {m : Nat}
    (ho : p'.outstanding (.task m) = true) : p.outstanding (.task m) = true := by
  obtain ⟨script, hm, hw⟩ := outstanding_task.1 ho
  rw [htasks] at hm
  rcases Entries.set_cases hm with ⟨rfl, hscript⟩ | ⟨_, hm⟩
  · exact hnew script hscript.symm hw
  · exact outstanding_task.2 ⟨script, hm, hw⟩

/-- A task that is spawned is outstanding only when a stale poll spawned it. -/
theorem outstanding_task_spawned {req : Request} {scripts : List (Script Unit)}
    (htasks : p'.service.tasks = p.service.tasks ++ scripts.map .ready)
    (hscripts : (∃ origin, req = RefreshOrigin.stalePoll origin ∧ scripts = [refreshTask origin]) ∨
      ∀ script ∈ scripts, Asks Ordinary script) {m : Nat} (ho : p'.outstanding (.task m) = true) :
    p.outstanding (.task m) = true ∨
      (∃ origin, req = RefreshOrigin.stalePoll origin) ∧ m = p.service.tasks.length := by
  obtain ⟨script, hm, hwill⟩ := outstanding_task.1 ho
  rw [htasks] at hm
  rcases hscripts with ⟨origin, rfl, rfl⟩ | hscripts
  · rcases Entries.append_cases hm with hm | ⟨rfl, _⟩
    · exact .inl (outstanding_task.2 ⟨script, hm, hwill⟩)
    · exact .inr ⟨⟨origin, rfl⟩, rfl⟩
  · refine .inl (outstanding_task.2 ⟨script, ?_, hwill⟩)
    rcases Nat.lt_or_ge m p.service.tasks.length with hlt | hge
    · rwa [List.getElem?_append_left hlt] at hm
    · rw [List.getElem?_append_right hge] at hm
      obtain ⟨script', hs', he⟩ := List.mem_map.1 (List.mem_of_getElem? hm)
      cases he
      rw [not_willRefresh (hscripts script hs')] at hwill
      cases hwill

/-- What is outstanding after a step was outstanding before it, unless a poll spawned it or the task of an
outstanding refresh dispatched it. -/
theorem outstanding_step {a : PollAct} (h : p.step a = some p') (hi : p.Sound) {i : RefreshRef}
    (ho : p'.outstanding i = true) : p.outstanding i = true ∨
      (isStalePoll a = true ∧ i = .task p.service.tasks.length) ∨
      ∃ n, p.outstanding (.task n) = true ∧ p'.outstanding (.task n) = false ∧
        i = .call p.service.world.calls.length := by
  rcases polling_moves h with ⟨hs, hc⟩ | ⟨b, hb, hc, hpoll⟩
  · refine .inl ?_
    cases i <;> simpa only [Polling.outstanding, Polling.isRefresh, hs, hc] using ho
  rw [hpoll]
  obtain ⟨s', cache', label', closures'⟩ := p'
  simp only at hb hc
  cases process_moves hb with
  | spawned req newId dropped w scripts hw hscripts =>
    cases i with
    | call c => exact .inl (outstanding_call_kept ho hi hc hw)
    | task m =>
      rcases outstanding_task_spawned rfl hscripts ho with hold | ⟨⟨origin, rfl⟩, rfl⟩
      · exact .inl hold
      · exact .inr (.inl ⟨by cases origin <;> rfl, rfl⟩)
  | performed n x e k w r hn hnot hw =>
    cases i with
    | call c => exact .inl (outstanding_call_kept ho hi hc hw)
    | task m =>
      refine .inl (outstanding_task_set rfl (fun script he hwill => ?_) ho)
      cases he
      rcases hi.tasks _ (List.mem_of_getElem? hn) with ⟨origin, he⟩ | ⟨origin, id, he⟩ | hord
      · obtain ⟨k', hk, _⟩ := refreshTask_eq origin
        rw [hk] at he
        exact outstanding_task.2 ⟨_, hn, by rw [he]; rfl⟩
      · obtain ⟨k', hk, _⟩ := refreshAdmitted_eq origin id
        rw [hk] at he
        exact outstanding_task.2 ⟨_, hn, by rw [he]; rfl⟩
      · rw [not_willRefresh (hord.2 r)] at hwill
        cases hwill
  | dispatched n x id closure k w hn hw =>
    cases i with
    | task m => exact .inl (outstanding_task_set rfl (fun script he => by cases he) ho)
    | call c =>
      have hlast : closures' = p.closures ++ [closure] := by
        rw [hc]
        simp only [Polling.dispatches, hn, Option.toList_some]
      have hwaits : ∀ script, Task.awaiting p.service.world.calls.length k ≠ .ready script := fun script he => by
        cases he
      refine (outstanding_call_dispatched hi hn hlast hw rfl hwaits ho).imp_right fun ⟨n, hpre, hpost, he⟩ => ?_
      exact .inr ⟨n, hpre, hpost, congrArg RefreshRef.call he⟩
  | resumed n c resume r hn =>
    cases i with
    | call c => exact .inl (outstanding_call_kept ho hi hc rfl)
    | task m =>
      refine .inl (outstanding_task_set rfl (fun script he hwill => ?_) ho)
      cases he
      rw [not_willRefresh (hi.tasks _ (List.mem_of_getElem? hn) r)] at hwill
      cases hwill
  | called c a call call' sched hcall hcs =>
    cases i with
    | task m => exact .inl ho
    | call m => exact .inl (outstanding_call_moved hi hc hcall hcs rfl ho)
  | ticked seconds w hw | frozen w hw =>
    cases i with
    | task m => exact .inl ho
    | call c => exact .inl (outstanding_call_kept ho hi hc hw)

/-- A second refresh becomes outstanding only when a poll spawns it. -/
theorem sole_step {a : PollAct} (h : p.step a = some p') (hi : p.Sound) (hone : p.Sole)
    (hn : pollsAgain ⟨p, a, p'⟩ = false) : p'.Sole := by
  intro i j hi' hj'
  have idle : isStalePoll a = true → ∀ {k}, p.outstanding k = true → False := fun hpoll k hk => by
    simp only [pollsAgain, hpoll, Bool.true_and] at hn
    rw [Polling.anyOutstanding_of hk] at hn
    cases hn
  -- a mutation that was just dispatched has taken the place of its task
  have dispatched : ∀ {n k}, p.outstanding (.task n) = true → p'.outstanding (.task n) = false →
    p'.outstanding k = true →
      p.outstanding k = true → False := fun {n k} hpre hpost hk' hk => by
    rw [← hone _ _ hpre hk, hpost] at hk'
    cases hk'
  rcases outstanding_step h hi hi' with hoi | ⟨hpi, hei⟩ | ⟨n, hpre, hpost, hei⟩
  · rcases outstanding_step h hi hj' with hoj | ⟨hpj, _⟩ | ⟨m, hpre, hpost, _⟩
    · exact hone i j hoi hoj
    · exact (idle hpj hoi).elim
    · exact (dispatched hpre hpost hi' hoi).elim
  · rcases outstanding_step h hi hj' with hoj | ⟨_, hej⟩ | ⟨m, hpre, _, _⟩
    · exact (idle hpi hoj).elim
    · rw [hei, hej]
    · exact (idle hpi hpre).elim
  · rcases outstanding_step h hi hj' with hoj | ⟨hpj, _⟩ | ⟨_, _, _, hej⟩
    · exact (dispatched hpre hpost hj' hoj).elim
    · exact (idle hpj hpre).elim
    · rw [hei, hej]

/-- What a move of call number `c` found its closure in, and what it made of it. -/
theorem polling_call {c : Nat} {a : CallAct} (h : p.step (.process (.service (.call c a))) = some p') :
    ∃ call call' sched, p.service.world.calls[c]? = some call ∧
      CallStep p.service.world.env c p.service.world.sched call a sched call' ∧
        p'.service.world.calls[c]? = some call' := by
  obtain ⟨_, s, hs, rfl⟩ := polling_process h
  cases process_moves hs with
  | called _ _ call call' sched hc hcs =>
    exact ⟨call, call', sched, hc, hcs, Entries.set_self hc⟩

/-- The state has no outstanding background refresh. -/
def Polling.Idle (p : Polling) : Prop := ∀ i, p.outstanding i = false

theorem idle_of_succeeds {a : PollAct} (h : p.step a = some p') (hi : p.Sound) (hone : p.Sole)
    (hsucc : RefreshSucceeds ⟨p, a, p'⟩) : p'.Idle := by
  obtain ⟨c, ha, hr⟩ := hsucc
  simp only at ha hr
  subst ha
  obtain ⟨call, call', sched, hc, hcs, hc'⟩ := polling_call h
  cases hcs with
  | exited r hexec =>
    have hpre : p.outstanding (.call c) = true := outstanding_call.2 ⟨hr, call, hc, by simp [unfinished, hexec]⟩
    intro i
    by_contra ho
    rw [Bool.not_eq_false] at ho
    rcases outstanding_step h hi ho with hoi | ⟨hp, _⟩ | ⟨n, hn, _, _⟩
    · rw [← hone _ _ hpre hoi] at ho
      obtain ⟨_, x, hx, hu⟩ := outstanding_call.1 ho
      rw [hc'] at hx
      cases hx
      cases hu
    · cases hp
    · cases hone _ _ hpre hn

/-- Only a poll that finds the cache stale ends the calm. -/
theorem idle_step {a : PollAct} (h : p.step a = some p') (hi : p.Sound) (hidle : p.Idle) :
    p'.Idle ∨ p.isStale = true := by
  by_cases hpoll : isStalePoll a = true
  · refine .inr ?_
    cases a with
    | process b =>
      have ht := (polling_process h).1
      unfold isStalePoll at hpoll
      split at hpoll
      · next he =>
        cases he
        simpa [Polling.truthful] using ht
      · next he =>
        cases he
        simpa [Polling.truthful] using ht
      · cases hpoll
    | panic | transactionRefresh => cases hpoll
  · refine .inl fun i => ?_
    by_contra ho
    rw [Bool.not_eq_false] at ho
    rcases outstanding_step h hi ho with hoi | ⟨hp, _⟩ | ⟨n, hn, _, _⟩
    · rw [hidle i] at hoi
      cases hoi
    · exact hpoll hp
    · rw [hidle] at hn
      cases hn

end Step

/-! ## Runs -/

section Runs

variable {p p' : Polling} {tr : List (Fired Polling PollAct)}

theorem run_refreshes (hp : p.Startup) (hr : Run polling p tr p') (hn : ∀ f ∈ tr, pollsAgain f = false) :
    p'.Sound ∧ p'.Sole :=
  hr.invariant (I := fun q => q.Sound ∧ q.Sole)
    (fun _ hs hf hi => ⟨refreshes_sound hs hi.1, sole_step hs hi.1 hi.2 hf⟩) (startup_refreshes hp) hn

/-- Along a run from a calm state, the state stays calm or the cache has been stale. -/
theorem run_idle (hi : p.Sound) (hidle : p.Idle) (hr : Run polling p tr p') :
    p'.Sound ∧ (p'.Idle ∨ ∃ v ∈ states p tr, v.isStale = true) := by
  induction hr with
  | nil => exact ⟨hi, .inl hidle⟩
  | @snoc tr v v' a hr hs ih =>
    obtain ⟨hv, hcalm⟩ := ih
    refine ⟨refreshes_sound hs hv, ?_⟩
    rw [states_snoc]
    rcases hcalm with hcalm | ⟨u, hu, hstale⟩
    · rcases idle_step hs hv hcalm with hcalm | hstale
      · exact .inl hcalm
      · exact .inr ⟨v, List.mem_append_left _ hr.end_mem, hstale⟩
    · exact .inr ⟨u, List.mem_append_left _ hu, hstale⟩

/-- Refreshes are deduplicated in every run in which no poll finds the cache stale while the refresh of an
earlier one is outstanding. -/
theorem refreshes_deduplicated (hp : p.Startup) (hr : Run polling p tr p') (hn : ∀ f ∈ tr, pollsAgain f = false) :
    Deduplicated tr := by
  rintro pre f mid g post rfl hf hg
  obtain ⟨hpre, hrest⟩ := hr.split rfl
  obtain ⟨hmid, _⟩ := hrest.split rfl
  obtain ⟨hsound, hsole⟩ := run_refreshes hp hpre fun x hx => hn x (List.mem_append_left _ hx)
  have hstep : IsStep polling f := hr.step_of_mem f (by simp)
  have hidle : f.post.Idle := idle_of_succeeds hstep hsound hsole hf
  refine (run_idle (refreshes_sound hstep hsound) hidle hmid).2.resolve_left fun hcalm => ?_
  -- the closure that starts was queued, and its refresh outstanding
  obtain ⟨c, ha, hrefresh⟩ := hg
  have hstart : g.pre.step g.act = some g.post := hr.step_of_mem g (by simp)
  rw [ha] at hstart
  obtain ⟨call, call', sched, hc, hcs, _⟩ := polling_call hstart
  cases hcs with
  | ran hqueued =>
    have ho : g.pre.outstanding (.call c) = true :=
      outstanding_call.2 ⟨hrefresh, call, hc, by simp [unfinished, hqueued]⟩
    rw [hcalm] at ho
    cases ho

end Runs

/-- An agent whose cache was never refreshed. -/
def neverRefreshed : Polling where
  service := ⟨freshAgent 2 10, []⟩
  cache := {
    lastUpdate := none
    lastUpdateSuccess := false
    lastUpdateError := none
    staleThresholdSecs := 3600
    jitterSecs := 0 }
  label := "apt"
  closures := []

theorem neverRefreshed_startup : neverRefreshed.Startup := ⟨⟨freshAgent_startup 2 10, rfl⟩, rfl⟩

/-- Task number `n` admits its job under `id`, and dispatches its mutation. -/
def PollAct.admitAndDispatch (n : Nat) (id : Uuid) : List PollAct :=
  [.process (.service (.run n ⟨id, .error (anyhow "unavailable"), .ok ()⟩)),
    .process (.service (.run n ⟨0, .error (anyhow "unavailable"), .ok ()⟩))]

/-- Mutation number `c` takes the slot and runs its closure. -/
def PollAct.startClosure (c : Nat) : List PollAct :=
  [.process (.service (.call c .check)), .process (.service (.call c .spawnWatchdog)),
    .process (.service (.call c .startWatchdog)), .process (.service (.call c .runClosure))]

def PollAct.releaseSlot (c : Nat) : List PollAct :=
  [.process (.service (.call c .join)), .process (.service (.call c .finalize))]

def PollAct.succeed (c : Nat) : PollAct := .process (.service (.call c (.exitClosure (.ok ()))))

/-- A health check finds the cache stale, and the refresh that it spawns begins. -/
def stalePoll : List PollAct :=
  .process (.service (.request (.healthCheck true) 0 false)) :: PollAct.admitAndDispatch 0 1 ++ PollAct.startClosure 0

/-- The cache is fresh at the next health check. -/
def onePoll : List PollAct :=
  stalePoll ++ .succeed 0 :: PollAct.releaseSlot 0 ++ [.process (.service (.request (.healthCheck false) 0 false))]

theorem refreshes_deduplicated_onePoll : Deduplicated ((trace polling neverRefreshed onePoll).getD []) :=
  refreshes_deduplicated neverRefreshed_startup (run_trace polling neverRefreshed onePoll (by decide)) (by decide)

/-- A patch list finds the cache stale while the refresh of the health check is at work. -/
def twoPolls : List PollAct :=
  stalePoll ++ .process (.service (.request (.listPatches true) 0 false)) :: PollAct.admitAndDispatch 1 2

def bothDispatched : Polling := endState neverRefreshed ((trace polling neverRefreshed twoPolls).getD [])

def firstSucceeded : Polling := (bothDispatched.step (.succeed 0)).get (by decide)

/-- The second refresh takes the slot after the first and comes to its closure. -/
def untilSecond : List PollAct := PollAct.releaseSlot 0 ++ (PollAct.startClosure 1).dropLast

def secondQueued : Polling := endState firstSucceeded ((trace polling firstSucceeded untilSecond).getD [])

theorem refreshes_twice : ∃ (p p' : Polling) (tr : List (Fired Polling PollAct)), p.Startup ∧ Run polling p tr p' ∧
    ¬ Deduplicated tr := by
  have hpre := run_trace polling neverRefreshed twoPolls (by decide)
  have hsucc : polling.step bothDispatched (.succeed 0) = some firstSucceeded := (Option.some_get _).symm
  have hmid := run_trace polling firstSucceeded untilSecond (by decide)
  obtain ⟨v, hstart⟩ := Option.isSome_iff_exists.1 (show (polling.step secondQueued
    (.process (.service (.call 1 .runClosure)))).isSome = true by decide)
  have hrefresh : secondQueued.isRefresh 1 = true := by decide
  refine ⟨neverRefreshed, v, _, neverRefreshed_startup, hpre.append ((hmid.snoc hstart).cons hsucc), fun hd => ?_⟩
  obtain ⟨u, hu, hstale⟩ := hd _ ⟨_, _, _⟩ _ ⟨_, _, _⟩ [] rfl ⟨0, rfl, by decide⟩ ⟨1, rfl, hrefresh⟩
  have hfresh : (states firstSucceeded ((trace polling firstSucceeded untilSecond).getD [])).all
      (fun u => !u.isStale) = true := by
    decide
  rw [List.all_eq_true] at hfresh
  simpa [hstale] using hfresh u hu

end LinuxPatchApi.Api
