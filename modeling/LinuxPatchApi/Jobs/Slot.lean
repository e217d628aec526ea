/-
The mutation slot. A call holds the slot from its acquisition to its watchdog's last critical
section; at most one call holds it, with the job and the generation that the state shows. From this
invariant: mutations are single-flight as long as closures exit before their backstop, and the slot
never leaks exactly when no caller is dropped between acquiring it and spawning its watchdog.
-/
import LinuxPatchApi.Jobs.Control

namespace LinuxPatchApi.Jobs

open LinuxPatchApi.Packages Transition

/-! ## Holding the slot -/

/-- The watchdog was spawned and has not made its last critical section. -/
def WatchdogPhase.Live : WatchdogPhase → Prop
  | .spawned | .timing _ | .finalizing _ => True
  | .absent | .finished => False

/-- The call acquired the slot and one of its tasks is still to release it: the caller, on its way
to spawning the watchdog, or the watchdog. -/
def Call.Holds (call : Call) : Prop := call.caller = .persisting ∨ call.watchdog.Live

/-- The order of the phases of one call: no watchdog before the acquisition, no closure before the
watchdog has run. -/
structure Call.Ordered (call : Call) : Prop where
  watchdog : call.caller = .locking ∨ call.caller = .registering ∨ call.caller = .suspended ∨
    call.caller = .persisting → call.watchdog = .absent
  closure : call.watchdog = .absent ∨ call.watchdog = .spawned → call.closure = .absent

theorem Call.new_ordered (jobId : Uuid) : (Call.new jobId).Ordered := ⟨fun _ => rfl, fun _ => rfl⟩

theorem Call.new_not_holds (jobId : Uuid) : ¬ (Call.new jobId).Holds := by
  rintro (h | h)
  · cases h
  · exact h

/-- The slot is the holder's, and there is at most one holder. -/
structure SlotInv (w : World) : Prop where
  holder : ∀ (c : Nat) (call : Call), w.calls[c]? = some call → call.Holds →
    w.sched.activeMutation = some call.jobId ∧ w.sched.mutationGeneration = call.generation
  unique : ∀ (c c' : Nat) (call call' : Call), w.calls[c]? = some call → w.calls[c']? = some call' →
    call.Holds → call'.Holds → c = c'
  ordered : ∀ (c : Nat) (call : Call), w.calls[c]? = some call → call.Ordered

theorem startup_slotInv {w : World} (h : w.Startup) : SlotInv w := by
  obtain ⟨_, _, _, _, _, hc⟩ := h
  constructor <;> simp [hc]

/-! ## One step -/

section Step

variable {w : World} {c : Nat} {call call' : Call}

/-- A move that leaves the slot alone and makes nobody a holder keeps the invariant. -/
theorem SlotInv.quiet (hi : SlotInv w) (hc : w.calls[c]? = some call) {s' : SchedulerState}
    (ha : s'.activeMutation = w.sched.activeMutation)
    (hg : s'.mutationGeneration = w.sched.mutationGeneration) (hj : call'.jobId = call.jobId)
    (hgen : call'.generation = call.generation) (hh : call'.Holds → call.Holds) (ho : call'.Ordered) :
    SlotInv { w with sched := s', calls := w.calls.set c call' } := by
  -- a holder afterwards was a holder before, under the same number
  have before : ∀ (i : Nat) (x : Call), (w.calls.set c call')[i]? = some x → x.Holds →
      ∃ y : Call, w.calls[i]? = some y ∧ y.Holds ∧ y.jobId = x.jobId ∧ y.generation = x.generation := by
    intro i x hx hxh
    rcases Entries.set_cases hx with ⟨rfl, rfl⟩ | ⟨_, hx⟩
    · exact ⟨call, hc, hh hxh, hj.symm, hgen.symm⟩
    · exact ⟨x, hx, hxh, rfl, rfl⟩
  refine ⟨?_, ?_, ?_⟩
  · intro i x hx hxh
    obtain ⟨y, hy, hyh, h₁, h₂⟩ := before i x hx hxh
    obtain ⟨h₃, h₄⟩ := hi.holder i y hy hyh
    exact ⟨by rw [ha, h₃, h₁], by rw [hg, h₄, h₂]⟩
  · intro i i' x x' hx hx' hxh hxh'
    obtain ⟨y, hy, hyh, _⟩ := before i x hx hxh
    obtain ⟨y', hy', hyh', _⟩ := before i' x' hx' hxh'
    exact hi.unique i i' y y' hy hy' hyh hyh'
  · intro i x hx
    rcases Entries.set_cases hx with ⟨_, rfl⟩ | ⟨_, hx⟩
    · exact ho
    · exact hi.ordered i x hx

/-- While the slot is free nobody holds it. -/
theorem SlotInv.not_holds (hi : SlotInv w) (hfree : w.sched.activeMutation = none) {i : Nat} {x : Call}
    (hx : w.calls[i]? = some x) : ¬ x.Holds := by
  intro h
  rw [(hi.holder i x hx h).1] at hfree
  cases hfree

end Step

theorem slotInv_step {f : Fired World Act} (hf : IsStep agent f) (hi : SlotInv f.pre) : SlotInv f.post := by
  obtain ⟨w, a, w'⟩ := f
  have hs : WorldStep w a w' := agent_step hf
  simp only at hi ⊢
  cases hs with
  | op o _ =>
    obtain ⟨ha, hg⟩ := apply_slot w.env w.sched o
    refine ⟨fun c call hc hh => ?_, hi.unique, hi.ordered⟩
    rw [ha, hg]; exact hi.holder c call hc hh
  | tick n => exact ⟨hi.holder, hi.unique, hi.ordered⟩
  | dispatch jobId =>
    refine ⟨?_, ?_, ?_⟩
    · intro c call hc hh
      rcases Entries.append_cases hc with hc | ⟨_, rfl⟩
      · exact hi.holder c call hc hh
      · exact absurd hh (Call.new_not_holds jobId)
    · intro c c' call call' hc hc' hh hh'
      rcases Entries.append_cases hc with hc | ⟨_, rfl⟩
      · rcases Entries.append_cases hc' with hc' | ⟨_, rfl⟩
        · exact hi.unique c c' call call' hc hc' hh hh'
        · exact absurd hh' (Call.new_not_holds jobId)
      · exact absurd hh (Call.new_not_holds jobId)
    · intro c call hc
      rcases Entries.append_cases hc with hc | ⟨_, rfl⟩
      · exact hi.ordered c call hc
      · exact Call.new_ordered jobId
  | call c a call call' s' hc hcs =>
    have ho := hi.ordered c call hc
    cases hcs with
    | rejected e hl _ =>
      exact hi.quiet hc rfl rfl rfl rfl (by rintro (h | h); cases h; exact .inr h) ⟨by simp, ho.closure⟩
    | waiting hl _ =>
      exact hi.quiet hc rfl rfl rfl rfl (by rintro (h | h); cases h; exact .inr h)
        ⟨fun _ => ho.watchdog (.inl hl), ho.closure⟩
    | acquired b s' hl hr hfr _ =>
      have hw := ho.watchdog (.inl hl)
      have hnone : ∀ (i : Nat) (x : Call), w.calls[i]? = some x → ¬ x.Holds := fun i x hx => hi.not_holds hr.free hx
      refine ⟨?_, ?_, ?_⟩
      · intro i x hx hh
        rcases Entries.set_cases hx with ⟨rfl, rfl⟩ | ⟨_, hx⟩
        · exact ⟨hfr.activeMutation, hfr.mutationGeneration⟩
        · exact absurd hh (hnone i x hx)
      · intro i i' x x' hx hx' hh hh'
        rcases Entries.set_cases hx with ⟨rfl, _⟩ | ⟨_, hx⟩
        · rcases Entries.set_cases hx' with ⟨rfl, _⟩ | ⟨_, hx'⟩
          · rfl
          · exact absurd hh' (hnone i' x' hx')
        · exact absurd hh (hnone i x hx)
      · intro i x hx
        rcases Entries.set_cases hx with ⟨_, rfl⟩ | ⟨_, hx⟩
        · exact ⟨fun _ => hw, ho.closure⟩
        · exact hi.ordered i x hx
    | registered n p hl hp =>
      have hw := ho.watchdog (.inr (.inl hl))
      refine hi.quiet hc rfl rfl rfl rfl ?_ ⟨fun _ => hw, ho.closure⟩
      rintro (h | h)
      · rcases hp with rfl | rfl <;> cases h
      · exact .inr h
    | woken n hl =>
      exact hi.quiet hc rfl rfl rfl rfl (by rintro (h | h); cases h; exact .inr h)
        ⟨fun _ => ho.watchdog (.inr (.inr (.inl hl))), ho.closure⟩
    | spawned hl =>
      exact hi.quiet hc rfl rfl rfl rfl (fun _ => .inl hl)
        ⟨by simp, fun _ => ho.closure (.inl (ho.watchdog (.inr (.inr (.inr hl)))))⟩
    | started hl =>
      refine hi.quiet hc rfl rfl rfl rfl (fun _ => .inr (by rw [hl]; trivial)) ⟨fun h => ?_, by simp⟩
      rw [ho.watchdog h] at hl; cases hl
    | ran hl =>
      refine hi.quiet hc rfl rfl rfl rfl (fun h => h) ⟨ho.watchdog, fun h => ?_⟩
      rw [ho.closure h] at hl; cases hl
    | exited r hl =>
      refine hi.quiet hc rfl rfl rfl rfl (fun h => h) ⟨ho.watchdog, fun h => ?_⟩
      rw [ho.closure h] at hl; cases hl
    | joined d r hl hcl =>
      refine hi.quiet hc rfl rfl rfl rfl (fun _ => .inr (by rw [hl]; trivial)) ⟨fun h => ?_, by simp⟩
      rw [ho.watchdog h] at hl; cases hl
    | elapsed d r hl _ _ =>
      refine hi.quiet hc rfl rfl rfl rfl (fun _ => .inr (by rw [hl]; trivial)) ⟨fun h => ?_, by simp⟩
      rw [ho.watchdog h] at hl; cases hl
    | finalized r inbox hl =>
      -- the only holder gives the slot up, so nobody holds it afterwards
      have hh : call.Holds := .inr (by rw [hl]; trivial)
      have hcaller : call.caller ≠ .persisting := by
        intro hp
        rw [ho.watchdog (.inr (.inr (.inr hp)))] at hl; cases hl
      have hnone : ∀ (i : Nat) (x : Call),
          (w.calls.set c { call with watchdog := .finished, inbox := inbox })[i]? = some x → ¬ x.Holds := by
        intro i x hx hxh
        rcases Entries.set_cases hx with ⟨_, rfl⟩ | ⟨hne, hx⟩
        · rcases hxh with h | h
          · exact hcaller h
          · exact h
        · exact hne (hi.unique i c x call hx hc hxh hh)
      refine ⟨fun i x hx h => absurd h (hnone i x hx), fun i _ x _ hx _ h _ => absurd h (hnone i x hx), ?_⟩
      intro i x hx
      rcases Entries.set_cases hx with ⟨_, rfl⟩ | ⟨_, hx⟩
      · refine ⟨fun h => ?_, by simp⟩
        rw [ho.watchdog h] at hl; cases hl
      · exact hi.ordered i x hx
    | received r hl _ =>
      exact hi.quiet hc rfl rfl rfl rfl (by rintro (h | h); cases h; exact .inr h) ⟨by simp, ho.closure⟩
    | dropped n hl =>
      exact hi.quiet hc rfl rfl rfl rfl (by rintro (h | h); cases h; exact .inr h) ⟨by simp, ho.closure⟩

theorem run_slotInv {w w' : World} {tr : List (Fired World Act)} (hw : w.Startup) (hr : Run agent w tr w') :
    SlotInv w' :=
  hr.always (fun _ hf hi => slotInv_step hf hi) (startup_slotInv hw)

/-! ## Single-flight -/

/-- The call's closure has exited, or the instant at which the backstop elapses is still to come. -/
def Call.InTime (now : Nat) (call : Call) : Prop :=
  match call.watchdog, call.closure with
  | .timing _, .exited _ => True
  | .timing deadline, _ => now < deadline
  | _, _ => True

instance (now : Nat) (call : Call) : Decidable (call.InTime now) := by
  unfold Call.InTime; split <;> infer_instance

/-- Every closure of the state exits before its backstop, as far as the state shows. -/
def Timely (w : World) : Prop := ∀ call ∈ w.calls, call.InTime w.clock

instance (w : World) : Decidable (Timely w) := inferInstanceAs (Decidable (∀ call ∈ w.calls, _))

/-- While no backstop elapses, a closure that has not exited is watched by its watchdog, and a
watchdog that is done waiting has the closure's own result. -/
structure Call.Guarded (call : Call) : Prop where
  watched : call.closure = .queued ∨ call.closure = .executing → ∃ d, call.watchdog = .timing d
  result : ∀ r, call.watchdog = .finalizing r → call.closure = .exited r

theorem guarded_step {f : Fired World Act} (hf : IsStep agent f) (hi : SlotInv f.pre) (ht : Timely f.pre)
    (h : ∀ call ∈ f.pre.calls, call.Guarded) : ∀ call ∈ f.post.calls, call.Guarded := by
  refine calls_step (P := Call.Guarded) (fun _ => ⟨by simp [Call.new], by simp [Call.new]⟩) hf ?_ h
  intro c a call s' call' hc hcs hg
  have ho := hi.ordered c call hc
  have hin := ht call (List.mem_of_getElem? hc)
  cases hcs with
  | rejected | waiting | acquired | registered | woken | received | dropped => exact ⟨hg.watched, hg.result⟩
  | spawned hl =>
    have hcl := ho.closure (.inl (ho.watchdog (.inr (.inr (.inr hl)))))
    refine ⟨fun h => ?_, by simp⟩
    rcases h with h | h <;> (rw [hcl] at h; cases h)
  | started _ => exact ⟨fun _ => ⟨_, rfl⟩, by simp⟩
  | ran hl =>
    refine ⟨fun _ => hg.watched (.inl hl), fun r h => ?_⟩
    rw [hg.result r h] at hl; cases hl
  | exited r hl =>
    refine ⟨by simp, fun r' h => ?_⟩
    rw [hg.result r' h] at hl; cases hl
  | joined d r _ hcl => exact ⟨by simp [hcl], fun r' h => by cases h; exact hcl⟩
  | elapsed d r hl hd hne =>
    -- the deadline is over although the closure has not exited
    unfold Call.InTime at hin
    rw [hl] at hin
    cases hcl : call.closure with
    | exited r' => exact absurd hcl (hne r')
    | absent | queued | executing =>
      rw [hcl] at hin
      exact absurd hd (Nat.not_le.2 hin)
  | finalized r inbox hl =>
    refine ⟨fun h => ?_, by simp⟩
    obtain ⟨d, hd⟩ := hg.watched h
    rw [hd] at hl; cases hl

/-- What a run whose closures all exit in time keeps. -/
structure FlightInv (w : World) : Prop where
  slot : SlotInv w
  guarded : ∀ call ∈ w.calls, call.Guarded

/-- At most one closure executes, and while it does the slot is its call's. -/
structure SingleFlight (w : World) : Prop where
  exclusive : ∀ (c c' : Nat) (call call' : Call), w.calls[c]? = some call → w.calls[c']? = some call' →
    call.closure = .executing → call'.closure = .executing → c = c'
  owned : ∀ (c : Nat) (call : Call), w.calls[c]? = some call → call.closure = .executing →
    w.sched.activeMutation = some call.jobId ∧ w.sched.mutationGeneration = call.generation

/-- The step keeps a held slot and its generation, or it is the last critical section of the
holder's watchdog, whose closure has exited. -/
def ReleasedAfterExit (f : Fired World Act) : Prop :=
  ∀ j, f.pre.sched.activeMutation = some j →
    (f.post.sched.activeMutation = some j ∧
      f.post.sched.mutationGeneration = f.pre.sched.mutationGeneration) ∨
    ∃ c call r, f.act = .call c .finalize ∧ f.pre.calls[c]? = some call ∧ call.jobId = j ∧
      call.generation = f.pre.sched.mutationGeneration ∧ call.closure = .exited r

theorem FlightInv.singleFlight {w : World} (h : FlightInv w) : SingleFlight w := by
  have holds : ∀ (c : Nat) (call : Call), w.calls[c]? = some call → call.closure = .executing → call.Holds := by
    intro c call hc he
    obtain ⟨d, hd⟩ := (h.guarded call (List.mem_of_getElem? hc)).watched (.inr he)
    exact .inr (by rw [hd]; trivial)
  exact ⟨fun c c' call call' hc hc' he he' =>
      h.slot.unique c c' call call' hc hc' (holds c call hc he) (holds c' call' hc' he'),
    fun c call hc he => h.slot.holder c call hc (holds c call hc he)⟩

/-- Whoever holds the slot, a step keeps it unless it is the finalization by the holder. -/
theorem slot_step {f : Fired World Act} (hf : IsStep agent f) {j : Uuid}
    (hj : f.pre.sched.activeMutation = some j) :
    (f.post.sched.activeMutation = some j ∧
      f.post.sched.mutationGeneration = f.pre.sched.mutationGeneration) ∨
    ∃ c call r, f.act = .call c .finalize ∧ f.pre.calls[c]? = some call ∧ call.watchdog = .finalizing r := by
  obtain ⟨w, a, w'⟩ := f
  have hs : WorldStep w a w' := agent_step hf
  simp only at hj ⊢
  cases hs with
  | op o _ =>
    obtain ⟨ha, hg⟩ := apply_slot w.env w.sched o
    exact .inl ⟨ha.trans hj, hg⟩
  | dispatch | tick => exact .inl ⟨hj, rfl⟩
  | call c a call call' s' hc hcs =>
    cases hcs with
    | acquired b s' _ hr _ _ => rw [hr.free] at hj; cases hj
    | finalized r inbox hl => exact .inr ⟨c, call, r, rfl, hc, hl⟩
    | rejected | waiting | registered | woken | spawned | started | ran | exited | joined | elapsed
    | received | dropped => exact .inl ⟨hj, rfl⟩

/-- Package mutations are single-flight: on every run whose closures exit before their backstop
elapses, at most one closure executes in any state, the slot shows its job with the generation of
its acquisition, and the slot is released only by its own watchdog after the closure has exited. -/
theorem single_flight {w w' : World} {tr : List (Fired World Act)} (hw : w.Startup) (hr : Run agent w tr w')
    (ht : ∀ v ∈ states w tr, Timely v) :
    (∀ v ∈ states w tr, SingleFlight v) ∧ ∀ f ∈ tr, ReleasedAfterExit f := by
  have h0 : FlightInv w := by
    have ⟨_, _, _, _, _, hc⟩ := hw
    exact ⟨startup_slotInv hw, by simp [hc]⟩
  have hinv := hr.invariant_at (I := FlightInv) (G := fun f => Timely f.pre)
    (fun f hf ht hi => ⟨slotInv_step hf hi.slot, guarded_step hf hi.slot ht hi.guarded⟩) h0
    (fun f hf => ht f.pre (hr.mem_states hf).1)
  refine ⟨forall_states h0.singleFlight fun f hf => (hinv f hf).2.singleFlight, ?_⟩
  intro f hf j hj
  rcases slot_step (hr.step_of_mem f hf) hj with h | ⟨c, call, r, hact, hc, hl⟩
  · exact .inl h
  · obtain ⟨hi, _⟩ := hinv f hf
    obtain ⟨ha, hg⟩ := hi.slot.holder c call hc (.inr (by rw [hl]; trivial))
    rw [hj] at ha; cases ha
    exact .inr ⟨c, call, r, hact, hc, rfl, hg.symm, (hi.guarded call (List.mem_of_getElem? hc)).result r hl⟩

/-- Two jobs dispatched at once: the second waits for the first one's watchdog, although the first
caller is dropped while its closure executes. -/
def twoInstalls : List Act :=
  [.op (.admitJob 1 .install ["vim"]), .op (.admitJob 2 .install ["git"]), .dispatch 1, .dispatch 2,
    .call 0 .check, .call 1 .check, .call 1 .register, .call 1 .check, .call 1 .register,
    .call 0 .spawnWatchdog, .call 0 .startWatchdog, .call 0 .runClosure, .call 0 .drop, .tick 100,
    .call 0 (.exitClosure (.ok ())), .call 0 .join, .call 0 .finalize, .call 1 .wake, .call 1 .check,
    .call 1 .spawnWatchdog, .call 1 .startWatchdog, .call 1 .runClosure]

theorem single_flight_twoInstalls :
    (∀ v ∈ states (freshAgent 2 10) ((trace agent (freshAgent 2 10) twoInstalls).getD []), SingleFlight v) ∧
      ∀ f ∈ (trace agent (freshAgent 2 10) twoInstalls).getD [], ReleasedAfterExit f :=
  single_flight (freshAgent_startup 2 10) (run_trace agent _ twoInstalls (by decide)) (by decide)

end LinuxPatchApi.Jobs
