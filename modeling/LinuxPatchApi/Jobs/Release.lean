/-
Release of the mutation slot. Every watchdog that reaches its last critical section still owns the
slot, clears its own acquisition and no later one, and does so once; and in every state of a run the
held slot has a live task that is to clear it, exactly when no caller is dropped in the persistence
await between acquiring the slot and spawning the watchdog.
-/
import LinuxPatchApi.Jobs.Slot

namespace LinuxPatchApi.Jobs

open LinuxPatchApi.Packages Transition

/-! ## Holders come from acquisitions -/

/-- A holder after a step held the slot before it or acquires it at this step. -/
theorem holds_before {f : Fired World Act} (hf : IsStep agent f) (hi : SlotInv f.pre) {c : Nat} {call' : Call}
    (hc' : f.post.calls[c]? = some call') (hh : call'.Holds) :
    (∃ call, f.pre.calls[c]? = some call ∧ call.Holds ∧ call'.jobId = call.jobId ∧
      call'.generation = call.generation) ∨ ∃ call, Acquires f c call := by
  obtain ⟨w, a, w'⟩ := f
  have hs : WorldStep w a w' := agent_step hf
  cases hs with
  | op | tick => exact .inl ⟨call', hc', hh, rfl, rfl⟩
  | dispatch jobId =>
    rcases Entries.append_cases hc' with hc | ⟨_, rfl⟩
    · exact .inl ⟨call', hc, hh, rfl, rfl⟩
    · exact absurd hh (Call.new_not_holds jobId)
  | call i a call moved s' hc hcs =>
    rcases Entries.set_cases hc' with ⟨rfl, rfl⟩ | ⟨_, hc'⟩
    · cases hcs with
      | acquired b s' hl hr _ _ => exact .inr ⟨call, acquires_iff.2 ⟨rfl, hc, hl, hr⟩⟩
      | rejected | waiting | woken | received | dropped =>
        refine .inl ⟨call, hc, ?_, rfl, rfl⟩
        rcases hh with h | h
        · cases h
        · exact .inr h
      | registered n p _ hp =>
        refine .inl ⟨call, hc, ?_, rfl, rfl⟩
        rcases hh with h | h
        · rcases hp with rfl | rfl <;> cases h
        · exact .inr h
      | spawned hl => exact .inl ⟨call, hc, .inl hl, rfl, rfl⟩
      | started hl => exact .inl ⟨call, hc, .inr (by rw [hl]; trivial), rfl, rfl⟩
      | ran | exited => exact .inl ⟨call, hc, hh, rfl, rfl⟩
      | joined d r hl _ => exact .inl ⟨call, hc, .inr (by rw [hl]; trivial), rfl, rfl⟩
      | elapsed d r hl _ _ => exact .inl ⟨call, hc, .inr (by rw [hl]; trivial), rfl, rfl⟩
      | finalized r inbox hl =>
        exfalso
        rcases hh with h | h
        · rw [(hi.ordered c call hc).watchdog (.inr (.inr (.inr h)))] at hl; cases hl
        · exact h
    · exact .inl ⟨call', hc', hh, rfl, rfl⟩

/-- The steps end with an acquisition by call number `c` and later steps that acquire nothing. -/
def LastAcquiredBy (tr : List (Fired World Act)) (c : Nat) : Prop :=
  ∃ p f q, tr = p ++ f :: q ∧ (∃ call, Acquires f c call) ∧ ∀ h ∈ q, ∀ c' call, ¬ Acquires h c' call

/-- The last acquisition of a run that ends with a holder is the holder's. -/
theorem holder_lastAcquired {w w' : World} {tr : List (Fired World Act)} (hw : w.Startup)
    (hr : Run agent w tr w') : ∀ (c : Nat) (call : Call), w'.calls[c]? = some call → call.Holds →
      LastAcquiredBy tr c := by
  induction hr with
  | nil =>
    obtain ⟨_, _, _, _, _, hc⟩ := hw
    intro c call h
    simp [hc] at h
  | @snoc tr v v' a hr hs ih =>
    intro c call hc hh
    have hi := run_slotInv hw hr
    have hf : IsStep agent ⟨v, a, v'⟩ := hs
    rcases holds_before hf hi hc hh with ⟨call₀, hc₀, hh₀, _⟩ | hacq
    · obtain ⟨p, f, q, rfl, hacq, hq⟩ := ih c call₀ hc₀ hh₀
      refine ⟨p, f, q ++ [⟨v, a, v'⟩], by simp, hacq, fun h hm c' call' hacq' => ?_⟩
      rcases List.mem_append.1 hm with hm | hm
      · exact hq h hm c' call' hacq'
      · -- nothing is acquired while the slot is held
        rw [List.mem_singleton.1 hm] at hacq'
        exact hi.not_holds hacq'.ready.free hc₀ hh₀
    · exact ⟨tr, ⟨v, a, v'⟩, [], rfl, hacq, by simp⟩

/-! ## Watchdogs finalize once -/

/-- How often the watchdog of call number `c` made its last critical section. -/
def finalizations (tr : List (Fired World Act)) (c : Nat) : Nat :=
  tr.countP fun f => decide (f.act = .call c .finalize)

/-- The number of finalizations that a call's state stands for. -/
def Call.finalized (call : Call) : Nat := if call.watchdog = .finished then 1 else 0

theorem finalizations_snoc (tr : List (Fired World Act)) (f : Fired World Act) (c : Nat) :
    finalizations (tr ++ [f]) c = finalizations tr c + if f.act = .call c .finalize then 1 else 0 := by
  simp [finalizations, List.countP_append, List.countP_singleton]

/-- A move of a call finalizes exactly if it is the `finalize` move. -/
theorem callStep_finalized {env : Env} {c : Nat} {s s' : SchedulerState} {call call' : Call} {a : CallAct}
    (h : CallStep env c s call a s' call') (ho : call.Ordered) :
    call'.finalized = call.finalized + if a = .finalize then 1 else 0 := by
  unfold Call.finalized
  cases h with
  | finalized r inbox hl => simp [hl]
  | spawned hl => simp [ho.watchdog (.inr (.inr (.inr hl)))]
  | started hl | joined _ _ hl | elapsed _ _ hl => simp [hl]
  | _ => simp

theorem finalizations_eq {w w' : World} {tr : List (Fired World Act)} (hw : w.Startup) (hr : Run agent w tr w') :
    ∀ c, finalizations tr c = (w'.calls[c]?.map Call.finalized).getD 0 := by
  induction hr with
  | nil =>
    obtain ⟨_, _, _, _, _, hc⟩ := hw
    simp [hc, finalizations]
  | @snoc tr v v' a hr hs ih =>
    intro c
    rw [finalizations_snoc, ih c]
    cases World.step_cases hs with
    | op | tick => simp
    | dispatch jobId =>
      rcases lt_trichotomy c v.calls.length with h | h | h
      · simp [List.getElem?_append_left h]
      · subst h; simp [Call.finalized, Call.new]
      · rw [List.getElem?_eq_none (by omega), List.getElem?_eq_none (by simp; omega)]
        simp
    | call i a call call' s' hc hcs =>
      by_cases hi : c = i
      · subst hi
        have := callStep_finalized hcs ((run_slotInv hw hr).ordered c call hc)
        rw [Entries.set_self hc, hc]
        simp [this]
      · rw [Entries.set_ne hi]
        simp [Ne.symm hi]

/-! ## The slot never leaks -/

/-- The held slot has a live task that is to clear it. -/
def SlotOwned (w : World) : Prop :=
  ∀ j, w.sched.activeMutation = some j → ∃ (c : Nat) (call : Call), w.calls[c]? = some call ∧ call.Holds ∧
    call.jobId = j ∧ call.generation = w.sched.mutationGeneration

/-- A watchdog's last critical section owns the slot, clears it, and what it clears is the
acquisition of its own call. -/
structure ReleasesOwn (before : List (Fired World Act)) (g : Fired World Act) (c : Nat) : Prop where
  owns : ∃ call, g.pre.calls[c]? = some call ∧ g.pre.sched.stillOwns call.jobId call.generation = true
  cleared : g.post.sched.activeMutation = none
  own : LastAcquiredBy before c

structure SlotNeverLeaks (w : World) (tr : List (Fired World Act)) (w' : World) : Prop where
  owned : ∀ v ∈ states w tr, SlotOwned v
  released : ∀ pre g post c, tr = pre ++ g :: post → g.act = .call c .finalize → ReleasesOwn pre g c
  once : ∀ c, finalizations tr c = (w'.calls[c]?.map Call.finalized).getD 0

/-- No caller is dropped in the persistence await that follows its acquisition. -/
def NotDroppedPersisting (f : Fired World Act) : Prop :=
  ∀ c call, f.act = .call c .drop → f.pre.calls[c]? = some call → call.caller ≠ .persisting

theorem finalize_releases {w w' : World} {tr pre post : List (Fired World Act)} {g : Fired World Act} {c : Nat}
    (hw : w.Startup) (hr : Run agent w tr w') (htr : tr = pre ++ g :: post) (hact : g.act = .call c .finalize) :
    ReleasesOwn pre g c := by
  obtain ⟨hpre, _⟩ := hr.split htr
  have hi := run_slotInv hw hpre
  obtain ⟨v, a, v'⟩ := g
  simp only at hact hi hpre
  subst hact
  have hg : WorldStep v (.call c .finalize) v' :=
    agent_step (hr.step_of_mem ⟨v, .call c .finalize, v'⟩ (by simp [htr]))
  cases hg with
  | call c a call call' s' hc hcs =>
    cases hcs with
    | finalized r inbox hl =>
      have hh : call.Holds := .inr (by rw [hl]; trivial)
      obtain ⟨ha, hgen⟩ := hi.holder c call hc hh
      have howns : v.sched.stillOwns call.jobId call.generation = true := by
        simp [SchedulerState.stillOwns, ha, hgen]
      refine ⟨⟨call, hc, howns⟩, ?_, holder_lastAcquired hw hpre c call hc hh⟩
      have hfr := SchedulerState.finalizeMutation_frame v.env v.sched call.jobId call.generation r
        (decide (call.caller = .awaiting))
      simpa [howns] using hfr.activeMutation

/-- A holder stays one until it finalizes, unless it is a caller dropped while it persists. -/
theorem holds_after {env : Env} {c : Nat} {s s' : SchedulerState} {call call' : Call} {a : CallAct}
    (h : CallStep env c s call a s' call') (ho : call.Ordered) (hh : call.Holds) (ha : a ≠ .finalize)
    (hd : a = .drop → call.caller ≠ .persisting) :
    call'.Holds ∧ call'.jobId = call.jobId ∧ call'.generation = call.generation := by
  -- before the acquisition there is no watchdog, so the call is no holder
  have early : call.caller = .locking ∨ call.caller = .registering ∨ call.caller = .suspended → False := by
    intro he
    have hw := ho.watchdog (by tauto)
    rcases hh with h | h
    · rw [h] at he; simp at he
    · rw [hw] at h; exact h
  cases h with
  | rejected _ hl _ => exact (early (.inl hl)).elim
  | waiting hl _ => exact (early (.inl hl)).elim
  | acquired _ _ hl => exact (early (.inl hl)).elim
  | registered _ _ hl _ => exact (early (.inr (.inl hl))).elim
  | woken _ hl => exact (early (.inr (.inr hl))).elim
  | spawned | started | joined | elapsed => exact ⟨.inr trivial, rfl, rfl⟩
  | ran | exited => exact ⟨hh, rfl, rfl⟩
  | finalized => exact absurd rfl ha
  | received r hl _ =>
    refine ⟨.inr ?_, rfl, rfl⟩
    rcases hh with h | h
    · rw [hl] at h; cases h
    · exact h
  | dropped n _ =>
    refine ⟨.inr ?_, rfl, rfl⟩
    rcases hh with h | h
    · exact absurd h (hd rfl)
    · exact h

theorem slotOwned_step {f : Fired World Act} (hf : IsStep agent f) (hi : SlotInv f.pre)
    (hn : NotDroppedPersisting f) (ho : SlotOwned f.pre) : SlotOwned f.post := by
  obtain ⟨w, a, w'⟩ := f
  have hs : WorldStep w a w' := agent_step hf
  intro j hj
  simp only at hi ho hj ⊢
  cases hs with
  | op o _ =>
    obtain ⟨ha, hg⟩ := apply_slot w.env w.sched o
    simp only [ha] at hj
    obtain ⟨c, call, hc, hh, hid, hgen⟩ := ho j hj
    exact ⟨c, call, hc, hh, hid, hgen.trans hg.symm⟩
  | tick n => exact ho j hj
  | dispatch jobId =>
    obtain ⟨c, call, hc, h⟩ := ho j hj
    exact ⟨c, call, Entries.append_kept hc, h⟩
  | call i a call₁ moved s' hc₁ hcs =>
    have keep : s'.activeMutation = w.sched.activeMutation →
        s'.mutationGeneration = w.sched.mutationGeneration → a ≠ .finalize →
        ∃ (c : Nat) (call : Call), (w.calls.set i moved)[c]? = some call ∧ call.Holds ∧ call.jobId = j ∧
          call.generation = s'.mutationGeneration := by
      intro ha hg hne
      simp only [ha] at hj
      obtain ⟨c, call, hc, hh, hid, hgen⟩ := ho j hj
      by_cases hci : c = i
      · subst hci
        rw [hc₁] at hc; cases hc
        obtain ⟨hh', hid', hgen'⟩ := holds_after hcs (hi.ordered c call₁ hc₁) hh hne
          (fun hd => hn c call₁ (by rw [hd]) hc₁)
        exact ⟨c, moved, Entries.set_self hc₁, hh', hid'.trans hid, by rw [hgen', hgen, hg]⟩
      · exact ⟨c, call, (Entries.set_ne hci).trans hc, hh, hid, by rw [hgen, hg]⟩
    cases hcs with
    | acquired b s' _ _ hfr _ =>
      refine ⟨i, _, Entries.set_self hc₁, .inl rfl, ?_, hfr.mutationGeneration.symm⟩
      have := hfr.activeMutation.symm.trans hj
      exact Option.some.inj this
    | finalized r inbox hl =>
      obtain ⟨ha, hgen⟩ := hi.holder i call₁ hc₁ (.inr (by rw [hl]; trivial))
      have hfr := SchedulerState.finalizeMutation_frame w.env w.sched call₁.jobId call₁.generation r
        (decide (call₁.caller = .awaiting))
      rw [hfr.activeMutation] at hj
      simp [SchedulerState.stillOwns, ha, hgen] at hj
    | rejected | waiting | registered | woken | spawned | started | ran | exited | joined | elapsed
    | received | dropped => exact keep rfl rfl (by simp)

/-- Dropping a persisting caller leaves the slot held with nobody to clear it. -/
theorem not_slotOwned_of_drop {f : Fired World Act} (hf : IsStep agent f) (hi : SlotInv f.pre)
    (hn : ¬ NotDroppedPersisting f) : ¬ SlotOwned f.post := by
  unfold NotDroppedPersisting at hn
  push Not at hn
  obtain ⟨c, call, hact, hc, hp⟩ := hn
  obtain ⟨w, a, w'⟩ := f
  have hs : WorldStep w a w' := agent_step hf
  simp only at hact hc hi ⊢
  subst hact
  cases hs with
  | call c a call₁ moved s' hc₁ hcs =>
    rw [hc] at hc₁; cases hc₁
    cases hcs with
    | dropped n _ =>
      obtain ⟨ha, hgen⟩ := hi.holder c call hc (.inl hp)
      intro ho
      obtain ⟨c', call', hc', hh', _⟩ := ho call.jobId ha
      rcases Entries.set_cases hc' with ⟨_, rfl⟩ | ⟨hne, hc'⟩
      · rcases hh' with h | h
        · cases h
        · simp only [(hi.ordered c call hc).watchdog (.inr (.inr (.inr hp)))] at h
          exact h
      · exact hne (hi.unique c' c call' call hc' hc hh' (.inl hp))

/-- The mutation slot never leaks on a run from startup, and every watchdog releases its own
acquisition once, exactly when no caller is dropped in the persistence await between acquiring the
slot and spawning the watchdog. -/
theorem slot_never_leaks_iff {w w' : World} {tr : List (Fired World Act)} (hw : w.Startup)
    (hr : Run agent w tr w') : SlotNeverLeaks w tr w' ↔ ∀ f ∈ tr, NotDroppedPersisting f := by
  have hslot := hr.always_at (I := SlotInv) (fun f hf hi => slotInv_step hf hi) (startup_slotInv hw)
  constructor
  · intro h f hf
    by_contra hn
    exact not_slotOwned_of_drop (hr.step_of_mem f hf) (hslot f hf).1 hn (h.owned _ (hr.mem_states hf).2)
  · intro hn
    have h0 : SlotOwned w := by
      obtain ⟨mc, mq, loaded, hs, _, _⟩ := hw
      intro j hj
      rw [hs] at hj; cases hj
    have howned := hr.invariant_at (I := fun v => SlotInv v ∧ SlotOwned v) (G := NotDroppedPersisting)
      (fun f hf hg hi => ⟨slotInv_step hf hi.1, slotOwned_step hf hi.1 hg hi.2⟩) ⟨startup_slotInv hw, h0⟩ hn
    exact ⟨forall_states h0 fun f hf => (howned f hf).2.2,
      fun pre g post c htr hact => finalize_releases hw hr htr hact, finalizations_eq hw hr⟩

/-- The caller of a dispatch is dropped right after it acquired the slot. -/
def droppedWhilePersisting : List Act :=
  [.op (.admitJob 1 .install ["vim"]), .dispatch 1, .call 0 .check, .call 0 .drop]

/-- The slot leaks: it stays held although no task of the call is left. -/
theorem dropped_caller_leaks_slot : ∃ (w w' : World) (tr : List (Fired World Act)), w.Startup ∧
    Run agent w tr w' ∧ ¬ SlotNeverLeaks w tr w' := by
  have hr := run_trace agent (freshAgent 2 10) droppedWhilePersisting (by decide)
  refine ⟨freshAgent 2 10, _, _, freshAgent_startup 2 10, hr, fun h => ?_⟩
  obtain ⟨c, call, hc, hh, _⟩ := h.owned _ hr.end_mem 1 (by decide)
  have hm := List.mem_of_getElem? hc
  rw [show World.calls _ = [{ Call.new 1 with caller := .dropped, generation := 1, backstop := 2400 }]
    from by decide, List.mem_singleton] at hm
  subst hm
  rcases hh with h | h
  · cases h
  · exact h

theorem slot_never_leaks_twoInstalls :
    SlotNeverLeaks (freshAgent 2 10) ((trace agent (freshAgent 2 10) twoInstalls).getD [])
        (endState (freshAgent 2 10) ((trace agent (freshAgent 2 10) twoInstalls).getD [])) ↔
      ∀ f ∈ (trace agent (freshAgent 2 10) twoInstalls).getD [], NotDroppedPersisting f :=
  slot_never_leaks_iff (freshAgent_startup 2 10) (run_trace agent _ twoInstalls (by decide))

end LinuxPatchApi.Jobs
