/-
The waiters of the scheduler's `Notify`: which critical sections wake one of them, what each move of a
call does to the queue, and that the queue holds suspended callers only, each of them once.
-/
import LinuxPatchApi.Jobs.Slot

namespace LinuxPatchApi.Jobs

open LinuxPatchApi.Packages Transition

/-! ## Critical sections that notify -/

namespace SchedulerState

variable (env : Env) (s : SchedulerState)

@[simp] theorem notifyOne_notify : s.notifyOne.notify = s.notify.notifyOne := rfl

@[simp] theorem mutateJob_notify (id : Uuid) (f : Job → Job) : (s.mutateJob env id f).notify = s.notify := by
  unfold mutateJob
  split <;> rfl

@[simp] theorem insertNewJob_notify (id : Uuid) (op : JobOperation) (ps : List String) :
    (s.insertNewJob env id op ps).notify = s.notify := rfl

theorem cancelAll_notify : ∀ (ids : List Uuid) (s : SchedulerState), (s.cancelAll env ids).notify = s.notify
  | [], _ => rfl
  | id :: ids, s => by
    show ((s.mutateJob env id (cancelForReboot env)).cancelAll env ids).notify = s.notify
    rw [cancelAll_notify ids, mutateJob_notify]

theorem resolveAbandoned_notify (jobId : Uuid) (result : MutationResult) :
    (s.resolveAbandoned env jobId result).notify = s.notify := by
  unfold resolveAbandoned
  split
  · rfl
  · split
    · exact mutateJob_notify env s jobId _
    · rfl

/-- The last critical section of a watchdog always notifies. -/
theorem finalizeMutation_notify (jobId : Uuid) (gen : UInt64) (result : MutationResult) (alive : Bool) :
    (s.finalizeMutation env jobId gen result alive).notify = s.notify.notifyOne := by
  unfold finalizeMutation
  cases s.stillOwns jobId gen <;> cases alive <;> simp [resolveAbandoned_notify]

/-- A pass of the wait loop notifies nobody. -/
theorem dispatchCheck_notify (jobId : Uuid) : (s.dispatchCheck env jobId).1.notify = s.notify := by
  unfold dispatchCheck
  split
  · rfl
  · simp only
    split
    · rfl
    · split
      · rfl
      · exact mutateJob_notify env _ jobId _

/-- A pass that waits has found the slot held or the limit reached, and nothing to reject. -/
theorem dispatchCheck_wait {jobId : Uuid} (h : (s.dispatchCheck env jobId).2 = .wait) :
    s.dispatchRejection jobId = none ∧ (s.activeMutation.isSome = true ∨ s.maxConcurrent ≤ s.runningCount) := by
  unfold dispatchCheck at h
  split at h
  · cases h
  · next hrej =>
    refine ⟨hrej, ?_⟩
    simp only at h
    split at h
    · next hc =>
      simp only [Bool.and_eq_true, Bool.not_eq_true', decide_eq_true_eq] at hc
      exact .inr hc.2
    · split at h
      · next hm => exact .inl hm
      · cases h

end SchedulerState

/-- Operations whose critical section always notifies. -/
def SchedOp.notifies : SchedOp → Bool
  | .rollbackSelfUpdate _ | .completeJob _ | .failJob .. | .failJobWithDiagnostics .. | .freezeAdmission |
    .notifyWaiters => true
  | _ => false

section Apply

variable {env : Env} {s : SchedulerState} {o : SchedOp}

theorem apply_notifies (h : o.notifies = true) : (o.apply env s).notify = s.notify.notifyOne := by
  cases o with
  | rollbackSelfUpdate id =>
    show (s.rollbackSelfUpdate id).notify = _
    unfold SchedulerState.rollbackSelfUpdate
    cases s.selfUpdate with
    | none => rfl
    | some su => by_cases hid : su.jobId = id <;> simp [hid]
  | completeJob id => exact congrArg Notify.notifyOne (s.mutateJob_notify env id _)
  | failJob id e => exact congrArg Notify.notifyOne (s.mutateJob_notify env id _)
  | failJobWithDiagnostics id e =>
    show (s.failJobWithDiagnostics env id e).notify = _
    unfold SchedulerState.failJobWithDiagnostics
    cases s.jobs.get? id <;> rfl
  | freezeAdmission | notifyWaiters => rfl
  | _ => cases h

theorem admitJob_notify (id : Uuid) (op : JobOperation) (ps : List String) :
    ((∃ e, (s.admitJob env id op ps).2 = .error e) ∧ (s.admitJob env id op ps).1.notify = s.notify) ∨
      (s.admitJob env id op ps).1.notify = s.notify.notifyOne := by
  rcases s.admitJob_spec env id op ps with ⟨e, he⟩ | ⟨_, _, _, _, he⟩
  · exact .inl ⟨⟨e, by rw [he]⟩, by rw [he]⟩
  · exact .inr (by rw [he]; rfl)

theorem reserveReboot_notify (id : Uuid) (force ack : Bool) :
    ((∃ e, (s.reserveReboot env id force ack).2 = .error e) ∧ (s.reserveReboot env id force ack).1.notify = s.notify) ∨
      (s.reserveReboot env id force ack).1.notify = s.notify.notifyOne := by
  unfold SchedulerState.reserveReboot
  simp only
  split
  · exact .inl ⟨⟨_, rfl⟩, rfl⟩
  split
  · exact .inl ⟨⟨_, rfl⟩, rfl⟩
  split
  · exact .inl ⟨⟨_, rfl⟩, rfl⟩
  split
  · exact .inl ⟨⟨_, rfl⟩, rfl⟩
  split
  · exact .inl ⟨⟨_, rfl⟩, rfl⟩
  split
  · exact .inl ⟨⟨_, rfl⟩, rfl⟩
  · exact .inr (congrArg Notify.notifyOne (SchedulerState.cancelAll_notify env _ _))

theorem beginRebootExecution_notify (id : Uuid) :
    ((s.beginRebootExecution env id).2 = false ∧ (s.beginRebootExecution env id).1.notify = s.notify) ∨
      (s.beginRebootExecution env id).1.notify = s.notify.notifyOne := by
  unfold SchedulerState.beginRebootExecution
  split
  · exact .inl ⟨rfl, rfl⟩
  split
  · exact .inl ⟨rfl, rfl⟩
  split
  · exact .inl ⟨rfl, rfl⟩
  · exact .inr (congrArg Notify.notifyOne (s.mutateJob_notify env id _))

/-- Every operation notifies once or not at all. -/
theorem apply_notify : (o.apply env s).notify = s.notify ∨ (o.apply env s).notify = s.notify.notifyOne := by
  cases o with
  | admitJob id op ps =>
    rcases @admitJob_notify env s id op ps with ⟨_, he⟩ | he
    · exact .inl he
    · exact .inr he
  | createRollbackJob id orig =>
    simp only [SchedOp.apply, SchedulerState.createRollbackJob]
    split
    · exact .inl rfl
    split
    · next j _ _ =>
      rcases s.admitJobInner_spec env id .rollback j.packages with ⟨e, he⟩ | ⟨_, _, _, _, he⟩
      · rw [he]
        exact .inl rfl
      · rw [he]
        exact .inr rfl
    · exact .inl rfl
  | tryReserveSelfUpdate id ps v w =>
    simp only [SchedOp.apply, SchedulerState.tryReserveSelfUpdate]
    split
    · exact .inl rfl
    split
    · exact .inl rfl
    split
    · exact .inl rfl
    split
    · exact .inl rfl
    split
    · exact .inl rfl
    split
    · exact .inl rfl
    · exact .inr rfl
  | releaseSelfUpdate id =>
    rcases s.releaseSelfUpdate_spec id with ⟨_, he⟩ | ⟨_, _, _, he⟩
    · exact .inl (by simp only [SchedOp.apply, he])
    · exact .inr (by simp only [SchedOp.apply, he]; rfl)
  | reserveReboot id force ack =>
    rcases @reserveReboot_notify env s id force ack with ⟨_, he⟩ | he
    · exact .inl he
    · exact .inr he
  | rollbackReboot id e =>
    simp only [SchedOp.apply, SchedulerState.rollbackReboot]
    split
    · exact .inl rfl
    · exact .inr (congrArg Notify.notifyOne (SchedulerState.mutateJob_notify env _ id _))
  | beginRebootExecution id =>
    rcases @beginRebootExecution_notify env s id with ⟨_, he⟩ | he
    · exact .inl he
    · exact .inr he
  | setJobRebooting id m =>
    simp only [SchedOp.apply, SchedulerState.setJobRebooting]
    split
    · exact .inl rfl
    split
    · exact .inl rfl
    · exact .inr (congrArg Notify.notifyOne (SchedulerState.mutateJob_notify env _ id _))
  | updateJob id st p m =>
    simp only [SchedOp.apply, SchedulerState.updateJob]
    split
    · exact .inl rfl
    · exact .inl (s.mutateJob_notify env id _)
  | addJobLog id m => exact .inl rfl
  | deleteJob id =>
    rcases s.deleteJob_spec id with he | ⟨_, _, _, he⟩ <;> exact .inl (by simp only [SchedOp.apply, he])
  | _ => exact .inr (apply_notifies rfl)

end Apply

/-! ## Moves of a call -/

/-- Moves that are not about the queue: the call stays where it is, acquired the slot and keeps it, or has
received its result. -/
structure Onward (call call' : Call) : Prop where
  caller : call'.caller = call.caller ∨ call.caller = .persisting ∧ call'.caller = .awaiting ∨
    ∃ r, call.caller = .awaiting ∧ call.inbox = some r ∧ call'.caller = .returned r
  holds : call.Holds → call'.Holds
  inbox : call'.inbox = call.inbox

/-- What a move of call number `c` does to the queue. -/
inductive QueueMove (env : Env) (c : Nat) (s : SchedulerState) (call : Call) : CallAct → Notify → Call → Prop
  | rejected (e : AnyhowError) : call.caller = .locking →
      QueueMove env c s call .check s.notify { call with caller := .returned (.error e) }
  | waits : call.caller = .locking → (s.dispatchCheck env call.jobId).2 = .wait →
      QueueMove env c s call .check s.notify { call with caller := .registering }
  | acquires (g : UInt64) (b : Nat) : call.caller = .locking →
      QueueMove env c s call .check s.notify { call with caller := .persisting, generation := g, backstop := b }
  | permitted : call.caller = .registering → (s.notify.poll c).1 = true →
      QueueMove env c s call .register (s.notify.poll c).2 { call with caller := .locking }
  | queued : call.caller = .registering → (s.notify.poll c).1 = false →
      QueueMove env c s call .register (s.notify.poll c).2 { call with caller := .suspended }
  | woken : call.caller = .suspended → c ∈ s.notify.notified →
      QueueMove env c s call .wake (s.notify.take c) { call with caller := .locking }
  | finalized (r : MutationResult) (i : Option MutationResult) : call.watchdog = .finalizing r →
      QueueMove env c s call .finalize s.notify.notifyOne { call with watchdog := .finished, inbox := i }
  | onward (a : CallAct) (call' : Call) : a ≠ .check → Onward call call' → QueueMove env c s call a s.notify call'

theorem queueMove_of_step {env : Env} {c : Nat} {s s' : SchedulerState} {call call' : Call} {a : CallAct}
    (h : callStep env c s call a = some (s', call')) (hd : a ≠ .drop) : QueueMove env c s call a s'.notify call' := by
  have still : ∀ {x : Call}, x.caller = call.caller → (call.Holds → x.Holds) → x.inbox = call.inbox → Onward call x :=
    fun hc hh hi => ⟨.inl hc, hh, hi⟩
  cases a with
  | check =>
    simp only [callStep] at h
    split at h
    next hl =>
      have hn := s.dispatchCheck_notify env call.jobId
      split at h <;> next he =>
        rw [he] at hn
        cases h
        simp only at hn
        rw [hn]
        first
          | exact .rejected _ hl
          | exact .waits hl (by rw [he])
          | exact .acquires _ _ hl
    next => cases h
  | register =>
    simp only [callStep] at h
    split at h
    next hl =>
      split at h <;> next n hp =>
        cases h
        have hn : (s.notify.poll c).2 = n := by rw [hp]
        show QueueMove env c s call .register n _
        rw [← hn]
        first
          | exact .permitted hl (by rw [hp])
          | exact .queued hl (by rw [hp])
    next => cases h
  | wake =>
    simp only [callStep] at h
    split at h
    next hl =>
      cases h
      exact .woken hl.1 hl.2
    next => cases h
  | finalize =>
    simp only [callStep] at h
    split at h
    next r hw =>
      cases h
      rw [SchedulerState.finalizeMutation_notify]
      exact .finalized r _ hw
    next => cases h
  | spawnWatchdog =>
    simp only [callStep] at h
    split at h
    next hl =>
      cases h
      exact .onward _ _ CallAct.noConfusion ⟨.inr (.inl ⟨hl, rfl⟩), fun _ => .inr trivial, rfl⟩
    next => cases h
  | startWatchdog =>
    simp only [callStep] at h
    split at h
    next hl =>
      cases h
      exact .onward _ _ CallAct.noConfusion (still rfl (fun _ => .inr trivial) rfl)
    next => cases h
  | runClosure | exitClosure =>
    simp only [callStep] at h
    split at h
    next =>
      cases h
      exact .onward _ _ CallAct.noConfusion (still rfl (fun hh => hh) rfl)
    next => cases h
  | join =>
    simp only [callStep] at h
    split at h
    next =>
      cases h
      exact .onward _ _ CallAct.noConfusion (still rfl (fun _ => .inr trivial) rfl)
    next => cases h
  | elapse =>
    simp only [callStep] at h
    split at h
    next => cases h
    next =>
      split at h
      next =>
        cases h
        exact .onward _ _ CallAct.noConfusion (still rfl (fun _ => .inr trivial) rfl)
      next => cases h
    next => cases h
  | receive =>
    simp only [callStep] at h
    split at h
    next r hc hi =>
      cases h
      refine .onward _ _ CallAct.noConfusion ⟨.inr (.inr ⟨r, hc, hi, rfl⟩), fun hh => ?_, rfl⟩
      rcases hh with hh | hh
      · rw [hc] at hh
        cases hh
      · exact .inr hh
    next => cases h
  | drop => exact absurd rfl hd

/-! ## The queue -/

/-- The queue holds callers that are suspended, each of them once. -/
structure Queued (w : World) : Prop where
  nodup : w.sched.notify.parked.Nodup
  suspended : ∀ c ∈ w.sched.notify.parked, ∃ call : Call, w.calls[c]? = some call ∧ call.caller = .suspended

theorem startup_queued {w : World} (h : w.Startup) : Queued w := by
  obtain ⟨mc, mq, loaded, hs, _⟩ := h
  have hn : w.sched.notify.parked = [] := by
    rw [hs]
    rfl
  constructor <;> simp [hn]

section Queue

variable {w w' : World}

theorem Queued.same (h : Queued w) (hp : w'.sched.notify.parked.Perm w.sched.notify.parked)
    (hc : ∀ (c : Nat) (call : Call), w.calls[c]? = some call → call.caller = .suspended →
      ∃ call' : Call, w'.calls[c]? = some call' ∧ call'.caller = .suspended) : Queued w' := by
  refine ⟨hp.nodup_iff.2 h.nodup, fun c hmem => ?_⟩
  obtain ⟨call, hcall, hs⟩ := h.suspended c (hp.mem_iff.1 hmem)
  exact hc c call hcall hs

/-- A caller that is not suspended is not in the queue. -/
theorem Queued.absent (h : Queued w) {c : Nat} {call : Call} (hc : w.calls[c]? = some call)
    (hs : call.caller ≠ .suspended) :
    c ∉ w.sched.notify.parked := by
  intro hmem
  obtain ⟨call', hc', hs'⟩ := h.suspended c hmem
  rw [hc] at hc'
  cases hc'
  exact hs hs'

theorem queued_op (h : Queued w) {o : SchedOp} (hs : w.step (.op o) = some w') : Queued w' := by
  cases World.step_cases hs with
  | op _ _ =>
    refine h.same ?_ fun c call hc hsus => ⟨call, hc, hsus⟩
    show (o.apply w.env w.sched).notify.parked.Perm _
    rcases @apply_notify w.env w.sched o with he | he
    · rw [he]
    · rw [he]
      exact w.sched.notify.notifyOne_parked

theorem queued_call (h : Queued w) {c : Nat} {call call' : Call} {a : CallAct} {s' : SchedulerState}
    (hc : w.calls[c]? = some call) (hq : QueueMove w.env c w.sched call a s'.notify call') :
    Queued { w with sched := s', calls := w.calls.set c call' } := by
  -- another call is as it was
  have other : ∀ {i : Nat} {x : Call}, i ≠ c → w.calls[i]? = some x → x.caller = .suspended →
      ∃ x' : Call, (w.calls.set c call')[i]? = some x' ∧ x'.caller = .suspended :=
    fun hi hx hs => ⟨_, (Entries.set_ne hi).trans hx, hs⟩
  have same : s'.notify.parked.Perm w.sched.notify.parked → (call.caller = .suspended → call'.caller = .suspended) →
      Queued { w with sched := s', calls := w.calls.set c call' } := by
    intro hp hs
    refine h.same hp fun i x hx hsus => ?_
    by_cases hi : i = c
    · subst hi
      rw [hc] at hx
      cases hx
      exact ⟨call', Entries.set_self hc, hs hsus⟩
    · exact other hi hx hsus
  generalize hn : s'.notify = n at hq
  cases hq with
  | rejected e hl | waits hl _ | acquires g b hl => exact same (by rw [hn]) fun hs => by rw [hl] at hs; cases hs
  | permitted hl hr =>
    rcases w.sched.notify.poll_parked c with ⟨_, he, _⟩ | ⟨hf, _⟩
    · exact same (by rw [hn, he]) fun hs => by rw [hl] at hs; cases hs
    · rw [hr] at hf
      cases hf
  | queued hl hr =>
    rcases w.sched.notify.poll_parked c with ⟨ht, _⟩ | ⟨_, hp, _⟩
    · rw [hr] at ht
      cases ht
    · have habsent := h.absent hc (by rw [hl]; exact CallerPhase.noConfusion)
      refine ⟨?_, fun i hi => ?_⟩
      · show s'.notify.parked.Nodup
        rw [hn]
        exact hp.nodup_iff.2 (List.nodup_cons.2 ⟨habsent, h.nodup⟩)
      · have hmem : i ∈ s'.notify.parked := hi
        rw [hn] at hmem
        rcases List.mem_cons.1 (hp.mem_iff.1 hmem) with rfl | hmem
        · exact ⟨_, Entries.set_self hc, rfl⟩
        · obtain ⟨x, hx, hs⟩ := h.suspended i hmem
          exact other (fun he => habsent (he ▸ hmem)) hx hs
  | woken hl hmem =>
    have hp := Notify.take_parked hmem
    obtain ⟨hnot, hnodup⟩ := List.nodup_cons.1 (hp.nodup_iff.1 h.nodup)
    refine ⟨?_, fun i hi => ?_⟩
    · show s'.notify.parked.Nodup
      rw [hn]
      exact hnodup
    · have hmem' : i ∈ s'.notify.parked := hi
      rw [hn] at hmem'
      obtain ⟨x, hx, hs⟩ := h.suspended i (hp.mem_iff.2 (List.mem_cons_of_mem _ hmem'))
      exact other (fun he => hnot (he ▸ hmem')) hx hs
  | finalized r i hw =>
    refine same ?_ fun hs => hs
    rw [hn]
    exact w.sched.notify.notifyOne_parked
  | onward _ _ _ ho =>
    refine same (by rw [hn]) fun hs => ?_
    rcases ho.caller with he | ⟨he, _⟩ | ⟨_, he, _⟩
    · rw [he, hs]
    · rw [hs] at he
      cases he
    · rw [hs] at he
      cases he

end Queue

end LinuxPatchApi.Jobs
