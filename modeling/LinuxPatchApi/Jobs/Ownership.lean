/-
Who owns the reboot reservation. There is at most one at a time, only the roll-back of its own job gives
it up, and it is given up once; a roll-back or a start of the reboot for any other job, however late,
changes nothing. The task that the drop of a guard spawns is one `rollback_reboot`, and the commit of a
guard is no operation, so that runs with guards are runs of the agent.
-/
import LinuxPatchApi.Jobs.Reboot
import LinuxPatchApi.Jobs.Terminal

namespace LinuxPatchApi.Jobs

open LinuxPatchApi.Packages Transition

/-! ## Giving a reservation up -/

/-- The step ends the reservation of job `id`. -/
def Releases (f : Fired World Act) (id : Uuid) : Prop :=
  f.pre.sched.rebootPending = some id ∧ f.post.sched.rebootPending ≠ some id

instance (f : Fired World Act) (id : Uuid) : Decidable (Releases f id) := inferInstanceAs (Decidable (_ ∧ _))

/-- How often the reservation of job `id` was given up. -/
def releases (tr : List (Fired World Act)) (id : Uuid) : Nat := tr.countP fun f => decide (Releases f id)

/-- The step is a call of `rollback_reboot` or `begin_reboot_execution` for a job that does not own the
reservation. -/
def Foreign (f : Fired World Act) (id : Uuid) : Prop :=
  f.pre.sched.rebootPending ≠ some id ∧ ((∃ e, f.act = .op (.rollbackReboot id e)) ∨
    f.act = .op (.beginRebootExecution id))

/-- What a foreign call returned. -/
def foreignResult (f : Fired World Act) : Option Bool :=
  match f.act with
  | .op (.rollbackReboot id e) => some (f.pre.sched.rollbackReboot f.pre.env id e).2
  | .op (.beginRebootExecution id) => some (f.pre.sched.beginRebootExecution f.pre.env id).2
  | _ => none

/-- The reservations of a run are owned. -/
structure ReservationsOwned (tr : List (Fired World Act)) : Prop where
  exclusive : ∀ pre f mid g post i j force ack force' ack', tr = pre ++ f :: mid ++ g :: post →
    GrantsReboot f i force ack → GrantsReboot g j force' ack' → ∃ h ∈ mid, Releases h i
  cleared : ∀ f ∈ tr, ∀ id, Releases f id → f.post.sched.rebootPending = none ∧ RollsBack f id
  foreign : ∀ f ∈ tr, ∀ id, Foreign f id → foreignResult f = some false ∧ f.post = f.pre
  once : ∀ id, releases tr id ≤ 1

/-! ## One step -/

/-- How a step can change the reservation. -/
theorem step_rebootPending {f : Fired World Act} (hf : IsStep agent f) :
    f.post.sched.rebootPending = f.pre.sched.rebootPending ∨
    (∃ id force ack, GrantsReboot f id force ack ∧ id ∉ f.pre.issued ∧ id ∈ f.post.issued ∧
      f.pre.sched.rebootPending = none ∧ f.post.sched.rebootPending = some id) ∨
    ∃ id, RollsBack f id ∧ f.pre.sched.rebootPending = some id ∧ f.post.sched.rebootPending = none := by
  obtain ⟨w, a, w'⟩ := f
  have hs : WorldStep w a w' := agent_step hf
  cases hs with
  | op o hid =>
    rcases apply_rebootPending w.env w.sched o with hr | ⟨id, force, ack, rfl, hok, hn, hr⟩ | ⟨id, e, rfl, hp, hr⟩
    · exact .inl hr
    · exact .inr (.inl ⟨id, force, ack, ⟨rfl, hok⟩, hid id rfl, List.mem_cons_self, hn, hr⟩)
    · exact .inr (.inr ⟨id, ⟨e, rfl⟩, hp, hr⟩)
  | dispatch | tick => exact .inl rfl
  | call c a call call' s' _ hcs =>
    cases hcs with
    | acquired b s' _ _ hfr _ => exact .inl hfr.rebootPending
    | finalized r i _ => exact .inl (w.sched.finalizeMutation_frame w.env _ _ r _).rebootPending
    | _ => exact .inl rfl

theorem released_by_owner {f : Fired World Act} (hf : IsStep agent f) {id : Uuid} (h : Releases f id) :
    f.post.sched.rebootPending = none ∧ RollsBack f id := by
  obtain ⟨hp, hne⟩ := h
  rcases step_rebootPending hf with hr | ⟨_, _, _, _, _, _, hn, _⟩ | ⟨i, hrb, hpi, hnone⟩
  · exact absurd (hr.trans hp) hne
  · rw [hp] at hn
    cases hn
  · rw [hp] at hpi
    cases hpi
    exact ⟨hnone, hrb⟩

/-- A stale, repeated or late call is without any effect. -/
theorem foreign_step {f : Fired World Act} (hf : IsStep agent f) {id : Uuid} (h : Foreign f id) :
    foreignResult f = some false ∧ f.post = f.pre := by
  obtain ⟨w, a, w'⟩ := f
  have hs : WorldStep w a w' := agent_step hf
  obtain ⟨hne, ⟨e, hact⟩ | hact⟩ := h
  · simp only at hne hact
    subst hact
    cases hs with
    | op o _ =>
      have he : w.sched.rollbackReboot w.env id e = (w.sched, false) := by
        rw [SchedulerState.rollbackReboot, if_pos hne]
      refine ⟨by simp only [foreignResult, he], ?_⟩
      simp only [SchedOp.apply, he]
      rfl
  · simp only at hne hact
    subst hact
    cases hs with
    | op o _ =>
      have he : w.sched.beginRebootExecution w.env id = (w.sched, false) := by
        rw [SchedulerState.beginRebootExecution, if_pos hne]
      refine ⟨by simp only [foreignResult, he], ?_⟩
      simp only [SchedOp.apply, he]
      rfl

/-! ## Runs -/

theorem releases_snoc (tr : List (Fired World Act)) (f : Fired World Act) (id : Uuid) :
    releases (tr ++ [f]) id = releases tr id + if Releases f id then 1 else 0 := by
  simp [releases, List.countP_append, List.countP_singleton]

/-- A reservation was not given up before its id was drawn, and once at most with the one that stands. -/
theorem releases_bound {w w' : World} {tr : List (Fired World Act)} (hw : w.Startup) (hr : Run agent w tr w') :
    ∀ id, (id ∉ w'.issued → releases tr id = 0 ∧ w'.sched.rebootPending ≠ some id) ∧
      releases tr id + (if w'.sched.rebootPending = some id then 1 else 0) ≤ 1 := by
  induction hr with
  | nil =>
    obtain ⟨_, _, _, hs, _, _⟩ := hw
    intro id
    have hnone : w.sched.rebootPending = none := by rw [hs]; rfl
    simp [releases, hnone]
  | @snoc tr v v' a hr hs ih =>
    intro id
    have hf : IsStep agent ⟨v, a, v'⟩ := hs
    obtain ⟨hfresh, hle⟩ := ih id
    have hissued : id ∉ v'.issued → id ∉ v.issued := fun h hin => h (step_issued hf hin)
    rw [releases_snoc]
    rcases step_rebootPending hf with hsame | ⟨i, _, _, _, hnew, hin, hn, hp⟩ | ⟨i, _, hp, hn⟩
    · simp only at hsame
      have hrel : ¬ Releases ⟨v, a, v'⟩ id := fun h => h.2 (hsame.trans h.1)
      rw [if_neg hrel, hsame]
      exact ⟨fun h => hfresh (hissued h), hle⟩
    · simp only at hnew hin hn hp
      have hrel : ¬ Releases ⟨v, a, v'⟩ id := fun h => by
        have := h.1
        simp only [hn] at this
        cases this
      rw [if_neg hrel, hp]
      by_cases hid : i = id
      · subst hid
        -- the id is new, so that it was never given up
        exact ⟨fun h => absurd hin h, by simp [(hfresh hnew).1]⟩
      · refine ⟨fun h => ⟨(hfresh (hissued h)).1, fun he => hid (Option.some.inj he)⟩, ?_⟩
        rw [if_neg fun he => hid (Option.some.inj he)]
        omega
    · simp only at hp hn
      rw [hn]
      by_cases hid : i = id
      · subst hid
        refine ⟨fun h => absurd hp (hfresh (hissued h)).2, ?_⟩
        -- it stands before the step and counts no more after it
        rw [if_pos hp] at hle
        split <;> simp <;> omega
      · have hrel : ¬ Releases ⟨v, a, v'⟩ id := fun h => hid (by
          have := h.1
          simp only [hp] at this
          cases this
          rfl)
        rw [if_neg hrel]
        refine ⟨fun h => ⟨(hfresh (hissued h)).1, by simp⟩, ?_⟩
        simp
        omega

/-- Between two grants the first reservation was given up. -/
theorem released_between {w w' : World} {tr pre mid post : List (Fired World Act)} {f g : Fired World Act}
    (hr : Run agent w tr w') (htr : tr = pre ++ f :: mid ++ g :: post) {i j : Uuid} {force ack force' ack' : Bool}
    (hf : GrantsReboot f i force ack) (hg : GrantsReboot g j force' ack') : ∃ h ∈ mid, Releases h i := by
  obtain ⟨hbefore, _⟩ := hr.split htr
  obtain ⟨_, hbetween⟩ := hbefore.split rfl
  by_contra hno
  push Not at hno
  have hheld : g.pre.sched.rebootPending = some i := hbetween.invariant
    (I := fun v => v.sched.rebootPending = some i) (G := fun h => ¬ Releases h i)
    (fun h hs hn hi => by
      by_contra hne
      exact hn ⟨hi, hne⟩)
    (grants_reserved (hr.step_of_mem f (by simp [htr])) hf) hno
  -- no reboot is reserved while another one is
  rcases g.pre.sched.reserveReboot_spec g.pre.env j force' ack' with ⟨_, e, he⟩ | ⟨hadm, _⟩
  · have := hg.2
    rw [he] at this
    cases this
  · rw [hadm.unreserved] at hheld
    cases hheld

/-- On every run from startup the reboot reservation is owned by its job until that job's roll-back. -/
theorem reservations_owned {w w' : World} {tr : List (Fired World Act)} (hw : w.Startup) (hr : Run agent w tr w') :
    ReservationsOwned tr where
  exclusive _ _ _ _ _ _ _ _ _ _ _ htr hf hg := released_between hr htr hf hg
  cleared f hf _ h := released_by_owner (hr.step_of_mem f hf) h
  foreign f hf _ h := foreign_step (hr.step_of_mem f hf) h
  once id := by
    have := (releases_bound hw hr id).2
    omega

/-- A failed reboot is rolled back by its task and, after the next reservation, by the drop of its guard. -/
def rolledBackTwice : List Act :=
  [.op (.reserveReboot 1 true false), .op (.beginRebootExecution 1), .op (.rollbackReboot 1 (some "Reboot failed: no")),
    .op (.reserveReboot 2 false false),
    .op (.rollbackReboot 1 (some "Reservation dropped without commit (cancelled)")), .op (.beginRebootExecution 1)]

theorem reservations_owned_twice :
    ReservationsOwned ((trace agent (freshAgent 2 10) rolledBackTwice).getD []) :=
  reservations_owned (freshAgent_startup 2 10) (run_trace agent _ rolledBackTwice (by decide))

end LinuxPatchApi.Jobs
