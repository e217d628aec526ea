/-
The outcome of a patch request. Whatever other clients do in between, the job of a patch task whose task
has ended says what happened: Failed when the mutation failed, Rebooting when the reboot is under way and
its reservation held, Completed otherwise. Carried by: nobody else owes the job or holds the reservation,
so that only steps of the task itself change them.
-/
import LinuxPatchApi.Api.Patches
import LinuxPatchApi.Jobs.Bystanders
import LinuxPatchApi.Jobs.Ownership

namespace LinuxPatchApi.Api

open Interaction LinuxPatchApi.Packages LinuxPatchApi.Jobs Transition

/-! ## Steps of others -/

/-- Only the duty number `p` is about this job or this reservation. -/
def Mine (δ : Nat → Duty) (p : Nat) (k : Uuid) : Prop :=
  ∀ m, m ≠ p → (∀ stage, (δ m).job ≠ some (k, stage)) ∧ ∀ live, (δ m).guard ≠ some (k, live)

/-- The step is one of task number `n` or of the call that it awaits. -/
def OwnStep (n : Nat) (s : Service) : ProcessAct → Prop
  | .service (.run m _) | .service (.resume m) => m = n
  | .service (.call c _) => ∃ k, s.tasks[n]? = some (.awaiting c k)
  | _ => False

/-- The job keeps its status as long as it stays, but a Pending one may be cancelled for a reboot; while a
reboot is reserved a Pending job stays. -/
structure Spares (w w' : World) (k : Uuid) : Prop where
  status : ∀ j', w'.sched.jobs.get? k = some j' → ∃ j, w.sched.jobs.get? k = some j ∧
    (j'.status = j.status ∨ j.status = .pending ∧ w.sched.rebootPending = none)
  pending : ∀ j, w.sched.jobs.get? k = some j → j.status = .pending → w.sched.rebootPending ≠ none →
    ∃ j', w'.sched.jobs.get? k = some j' ∧ j'.status = .pending

section Spares

variable {w w' : World} {k : Uuid}

theorem Spares.of_get? (h : w'.sched.jobs.get? k = w.sched.jobs.get? k) : Spares w w' k :=
  ⟨fun j' hj' => ⟨j', by rw [← h]; exact hj', .inl rfl⟩, fun j hj hp _ => ⟨j, by rw [h]; exact hj, hp⟩⟩

theorem Spares.of_op {o : SchedOp} (hs : w.step (.op o) = some w') (hk : k ∈ w.issued) (ht : ¬ o.Touches k)
    (hr : o ≠ .rollbackSelfUpdate k) : Spares w w' k := by
  cases World.step_cases hs with
  | op _ hid =>
    have hnew : o.newId ≠ some k := fun he => hid k he hk
    refine ⟨fun j' hj' => apply_bystander hnew ht hj', fun j hj hp hreb => ?_⟩
    cases hj' : (o.apply w.env w.sched).jobs.get? k with
    | none =>
      -- a Pending job is not deleted
      rcases apply_removed hj hj' with ⟨_, hterm⟩ | hback
      · rw [hp] at hterm
        cases hterm
      · exact absurd hback hr
    | some j' =>
      obtain ⟨j₀, hj₀, hst⟩ := apply_bystander hnew ht hj'
      rw [hj] at hj₀
      cases hj₀
      rcases hst with hst | ⟨_, hnone⟩
      · exact ⟨j', rfl, hst.trans hp⟩
      · exact absurd hnone hreb

/-- An operation that a duty allows is about a job or a reservation of the duty. -/
theorem Duty.Allows.about {d : Duty} {o : SchedOp} (h : d.Allows (.op o)) :
    (o.Touches k → (∃ stage, d.job = some (k, stage)) ∨ ∃ live, d.guard = some (k, live)) ∧
    o ≠ .rollbackSelfUpdate k := by
  cases o with
  | completeJob id =>
    refine ⟨fun ht => ?_, SchedOp.noConfusion⟩
    obtain rfl : id = k := ht
    exact .inl h
  | failJob id e =>
    refine ⟨fun ht => ?_, SchedOp.noConfusion⟩
    obtain rfl : id = k := ht
    exact .inl h
  | failJobWithDiagnostics id e =>
    refine ⟨fun ht => ?_, SchedOp.noConfusion⟩
    obtain rfl : id = k := ht
    exact .inl h
  | setJobRebooting id m =>
    refine ⟨fun ht => ?_, SchedOp.noConfusion⟩
    obtain rfl : id = k := ht
    exact .inl ⟨_, h.1⟩
  | rollbackReboot id e =>
    refine ⟨fun ht => ?_, SchedOp.noConfusion⟩
    obtain rfl : id = k := ht
    exact .inr h
  | addJobLog | deleteJob | releaseSelfUpdate => exact ⟨False.elim, SchedOp.noConfusion⟩
  | _ => exact h.elim

/-- A call of a task whose duty is not about `k`. -/
theorem perform_spares {d : Duty} {x : Answers} {e : TaskCall} {r : TaskResponse e} (ha : d.Allows e)
    (hp : perform w x e = some (w', r)) (hk : k ∈ w.issued) (hjob : ∀ stage, d.job ≠ some (k, stage))
    (hguard : ∀ live, d.guard ≠ some (k, live)) : Spares w w' k := by
  cases perform_cases hp with
  | admitJob operation packages _ hv => exact .of_op hv hk id SchedOp.noConfusion
  | reserveReboot force ack _ hv => exact .of_op hv hk id SchedOp.noConfusion
  | beginRebootExecution id _ hv =>
    refine .of_op hv hk (fun ht => ?_) SchedOp.noConfusion
    obtain rfl : id = k := ht
    obtain ⟨live, hg⟩ := ha
    exact hguard live hg
  | op o _ hv =>
    obtain ⟨habout, hne⟩ := Duty.Allows.about ha
    refine .of_op hv hk (fun ht => ?_) hne
    rcases habout ht with ⟨stage, hd⟩ | ⟨live, hd⟩
    · exact hjob stage hd
    · exact hguard live hd
  | getSystemInfo | rebootSystem => exact .of_get? rfl

theorem HandlerStep.spares {newId : Uuid} {scripts : List (Script Unit)} {d : Option Duty}
    (h : HandlerStep w newId w' scripts d) (hk : k ∈ w.issued) : Spares w w' k := by
  rcases h.operated with rfl | ⟨o, hs, hreq⟩
  · exact .of_get? rfl
  · refine .of_op hs hk (fun ht => ?_) ?_
    · rcases hreq with hnew | ⟨id, rfl⟩
      · cases o with
        | admitJob | createRollbackJob | tryReserveSelfUpdate | reserveReboot => exact ht
        | _ => exact hnew rfl
      · exact ht
    · rintro rfl
      rcases hreq with hnew | ⟨id, he⟩
      · exact hnew rfl
      · cases he

end Spares

section Shift

variable {s s' : Service} {δ δ' : Nat → Duty} {a : ProcessAct} {n p : Nat} {k : Uuid}

/-- Steps of others spare a job and a reservation that are nobody else's. -/
theorem shift_spares (h : Manned s δ) (hs : Shift s δ a s' δ') (hown : ¬ OwnStep n s a) (hk : k ∈ s.world.issued)
    (hm : Mine δ (seat n) k) : Spares s.world s'.world k := by
  cases hs with
  | handled _ _ _ _ _ _ _ _ hstep => exact hstep.spares hk
  | ran m x e k' w' r _ ha hp =>
    obtain ⟨hjob, hguard⟩ := hm (seat m) fun he => hown (seat_inj he)
    exact perform_spares ha hp hk hjob hguard
  | dispatched | resumed | ticked | froze => exact .of_get? rfl
  | moved c a call call' s' hd hc hcs =>
    refine .of_get? ?_
    rcases callStep_jobs (callStep_cases hcs) hd (h.steady.attended call (List.mem_of_getElem? hc)) with
      ⟨hsame, _⟩ | ⟨hl, _, hget⟩
    · exact hsame k
    · -- the call is awaited by another task, which owes its job
      obtain ⟨m, k', hmn, hdm⟩ := h.owes_waiting hc fun r hr => by rw [hl] at hr; cases hr
      have hne : m ≠ n := by
        rintro rfl
        exact hown ⟨k', hmn⟩
      show s'.jobs.get? k = _
      rw [hget, if_neg]
      rintro rfl
      exact (hm (seat m) fun he => hne (seat_inj he)).1 _ hdm

/-- The agent took no step, or one operation, or a move of a call or a tick. -/
theorem shift_world (hs : Shift s δ a s' δ') : s'.world = s.world ∨ (∃ o, s.world.step (.op o) = some s'.world) ∨
    s.world.issued ⊆ s'.world.issued ∧ s'.world.sched.rebootPending = s.world.sched.rebootPending := by
  cases hs with
  | handled _ _ _ _ _ _ _ _ hstep =>
    rcases hstep.operated with he | ⟨o, hs, _⟩
    · exact .inl he
    · exact .inr (.inl ⟨o, hs⟩)
  | ran m x e k' w' r _ ha hp =>
    rcases perform_operates ha hp with he | ⟨o, hs, _⟩
    · exact .inl he
    · exact .inr (.inl ⟨o, hs⟩)
  | dispatched => exact .inr (.inr ⟨List.subset_cons_self _ _, rfl⟩)
  | resumed => exact .inl rfl
  | ticked | froze => exact .inr (.inr ⟨List.Subset.refl _, rfl⟩)
  | moved c a call call' s' _ _ hcs =>
    refine .inr (.inr ⟨List.Subset.refl _, ?_⟩)
    cases callStep_cases hcs with
    | acquired b s' _ _ hfr _ => exact hfr.rebootPending
    | finalized r i _ => exact (s.world.sched.finalizeMutation_frame s.world.env _ _ r _).rebootPending
    | _ => rfl

theorem shift_issued (hs : Shift s δ a s' δ') : s.world.issued ⊆ s'.world.issued := by
  rcases shift_world hs with he | ⟨o, hstep⟩ | ⟨hi, _⟩
  · rw [he]
    exact List.Subset.refl _
  · exact step_issued (f := ⟨s.world, .op o, s'.world⟩) hstep
  · exact hi

theorem shift_mine (hs : Shift s δ a s' δ') (hk : k ∈ s.world.issued) (hm : Mine δ p k) : Mine δ' p k := by
  intro m hmp
  cases hs with
  | handled _ _ _ _ _ _ _ _ _ hhire =>
    rcases hhire.fresh m with he | ⟨hjob, hguard⟩
    · rw [he]
      exact hm m hmp
    · exact ⟨fun stage hd => (hjob k stage hd).1 hk, fun live hd => hguard k live hd hk⟩
  | ran i x e k' w' r _ ha hp =>
    by_cases hi : m = seat i
    · subst hi
      rw [Function.update_self]
      obtain ⟨hjob, hguard⟩ := hm (seat i) hmp
      refine ⟨fun stage hd => ?_, fun live hd => ?_⟩
      · rcases after_job ha hp k stage hd with ⟨stage', hd'⟩ | hnew
        · exact hjob stage' hd'
        · exact hnew hk
      · rcases after_guard hp k live hd with ⟨live', hd'⟩ | hnew
        · exact hguard live' hd'
        · exact hnew hk
    · rw [Function.update_of_ne hi]
      exact hm m hmp
  | resumed i c resume r call =>
    by_cases hi : m = seat i
    · subst hi
      rw [Function.update_self]
      obtain ⟨hjob, hguard⟩ := hm (seat i) hmp
      cases r with
      | error e => exact ⟨hjob, hguard⟩
      | ok u =>
        refine ⟨fun stage hd => ?_, hguard⟩
        simp only [Duty.dispatched, Option.map_eq_some_iff, Prod.mk.injEq] at hd
        obtain ⟨⟨id, stage'⟩, hd', rfl, _⟩ := hd
        exact hjob stage' hd'
    · rw [Function.update_of_ne hi]
      exact hm m hmp
  | dispatched | moved | ticked | froze => exact hm m hmp

/-- A reservation that was given up is not held again. -/
theorem shift_rebootPending (hs : Shift s δ a s' δ') {r : Uuid} (hr : r ∈ s.world.issued)
    (hp : s'.world.sched.rebootPending = some r) : s.world.sched.rebootPending = some r := by
  rcases shift_world hs with he | ⟨o, hstep⟩ | ⟨_, hsame⟩
  · exact he ▸ hp
  · have hf : IsStep agent ⟨s.world, .op o, s'.world⟩ := hstep
    rcases step_rebootPending hf with hsame | ⟨id, _, _, _, hnew, _, _, hid⟩ | ⟨_, _, _, hnone⟩
    · exact hsame ▸ hp
    · simp only [hp, Option.some.injEq] at hid
      subst hid
      exact absurd hr hnew
    · simp only [hp] at hnone
      cases hnone
  · exact hsame ▸ hp

end Shift

/-! ## The task of one request -/

/-- The job has this status as long as it is in the map, and is not Pending. -/
structure Stands (w : World) (k : Uuid) (st : JobStatus) : Prop where
  started : st ≠ .pending
  status : ∀ j, w.sched.jobs.get? k = some j → j.status = st

theorem Stands.spared {k : Uuid} {st : JobStatus} (h : Stands w k st) (hs : Spares w w' k) : Stands w' k st := by
  refine ⟨h.started, fun j' hj' => ?_⟩
  obtain ⟨j, hj, hst | ⟨hp, _⟩⟩ := hs.status j' hj'
  · rw [hst, h.status j hj]
  · rw [h.status j hj] at hp
    exact absurd hp h.started

/-- The reservation that the task of job `id` took: while it is held and the reboot was not begun, its job
is Pending. -/
structure Reserved (w : World) (δ : Nat → Duty) (p : Nat) (id r : Uuid) (live : Bool) (told : List Told) : Prop where
  other : r ≠ id
  issued : r ∈ w.issued
  mine : Mine δ p r
  dead : live = false → w.sched.rebootPending ≠ some r
  waiting : live = true → (∀ b, .begun b ∉ told) → ∃ j, w.sched.jobs.get? r = some j ∧ j.status = .pending

theorem Reserved.spared {δ δ' : Nat → Duty} {p : Nat} {id r : Uuid} {live : Bool} {told told' : List Told}
    (h : Reserved w δ p id r live told) (hs : Spares w w' r) (hi : w.issued ⊆ w'.issued) (hm : Mine δ' p r)
    (hback : w'.sched.rebootPending = some r → w.sched.rebootPending = some r)
    (hheld : live = true → w.sched.rebootPending = some r) (ht : told ⊆ told') : Reserved w' δ' p id r live told' := by
  refine ⟨h.other, hi h.issued, hm, fun hl hr => h.dead hl (hback hr), fun hl hb => ?_⟩
  obtain ⟨j, hj, hp⟩ := h.waiting hl fun b hmem => hb b (ht hmem)
  exact hs.pending j hj hp (by rw [hheld hl]; exact Option.some_ne_none r)

/-- Where a patch task is: at a script that ensures `Q`, or in its mutation, whose job is Running once the
slot was acquired. -/
def PatchTask (id : Uuid) (Q : Notes → Prop) (w : World) (a : Notes) : Task → Prop
  | .ready script => Ensures id Q a script
  | .awaiting c resume => a.status = none ∧ a.duty.guard = none ∧
      (∃ closure, ∀ r, Ensures id Q (a.after (.dispatchMutation id closure) r) (resume r)) ∧
      ∃ call, w.calls[c]? = some call ∧ call.jobId = id ∧ (Begun call → Stands w id .running)

/-- Task number `n` is the patch task of job `id`, with these notes. -/
structure PatchAt (Q : Notes → Prop) (n : Nat) (id : Uuid) (s : Service) (δ : Nat → Duty) (a : Notes) : Prop where
  issued : id ∈ s.world.issued
  mine : Mine δ (seat n) id
  duty : δ (seat n) = a.duty
  standing : ∀ st, a.status = some st → Stands s.world id st
  reserved : ∀ r live, a.duty.guard = some (r, live) → Reserved s.world δ (seat n) id r live a.told
  begun : .begun false ∉ a.told
  task : ∃ task, s.tasks[n]? = some task ∧ PatchTask id Q s.world a task

section PatchAt

variable {Q : Notes → Prop} {s s' : Service} {δ δ' : Nat → Duty} {act : ProcessAct} {n : Nat} {id : Uuid} {a : Notes}

/-! ### Steps of others -/

theorem shift_task (hs : Shift s δ act s' δ') (hown : ¬ OwnStep n s act) {task : Task} (hn : s.tasks[n]? = some task) :
    s'.tasks[n]? = some task ∧ δ' (seat n) = δ (seat n) := by
  have hlt : n < s.tasks.length := (List.getElem?_eq_some_iff.1 hn).1
  cases hs with
  | handled _ _ _ w' scripts _ _ _ _ hhire =>
    exact ⟨Entries.append_kept hn, hhire.kept n hlt⟩
  | ran m =>
    have hne : m ≠ n := hown
    exact ⟨(Entries.set_ne (Ne.symm hne)).trans hn, Function.update_of_ne (seat_ne (Ne.symm hne)) _ _⟩
  | dispatched m =>
    have hne : m ≠ n := hown
    exact ⟨(Entries.set_ne (Ne.symm hne)).trans hn, rfl⟩
  | resumed m =>
    have hne : m ≠ n := hown
    exact ⟨(Entries.set_ne (Ne.symm hne)).trans hn, Function.update_of_ne (seat_ne (Ne.symm hne)) _ _⟩
  | moved | ticked | froze => exact ⟨hn, rfl⟩

theorem shift_call (hs : Shift s δ act s' δ') (hown : ¬ OwnStep n s act)
    {c : Nat} {k : MutationResult → Script Unit} {call : Call}
    (hn : s.tasks[n]? = some (.awaiting c k)) (hc : s.world.calls[c]? = some call) :
    s'.world.calls[c]? = some call := by
  cases hs with
  | handled _ _ _ w' _ _ _ _ hstep =>
    rcases hstep.operated with rfl | ⟨o, ho, _⟩
    · exact hc
    · rw [op_calls ho]
      exact hc
  | ran m x e k' w' r _ ha hp =>
    rw [(perform_operates ha hp).calls]
    exact hc
  | dispatched => exact Entries.append_kept hc
  | moved c' =>
    have hne : c ≠ c' := by
      rintro rfl
      exact hown ⟨k, hn⟩
    rw [Entries.set_ne hne]
    exact hc
  | resumed | ticked | froze => exact hc

theorem PatchAt.foreign (h : PatchAt Q n id s δ a) (hm : Manned s δ) (hs : Shift s δ act s' δ')
    (hown : ¬ OwnStep n s act) :
    PatchAt Q n id s' δ' a := by
  obtain ⟨task, hn, htask⟩ := h.task
  obtain ⟨hn', hduty⟩ := shift_task hs hown hn
  have hspares := shift_spares hm hs hown h.issued h.mine
  refine ⟨shift_issued hs h.issued, shift_mine hs h.issued h.mine, hduty.trans h.duty,
    fun st hst => (h.standing st hst).spared hspares, fun r live hg => ?_, h.begun, task, hn', ?_⟩
  · have hr := h.reserved r live hg
    have hheld := (hm.ledger.guards (seat n) r live (by rw [h.duty]; exact hg)).2.1
    exact hr.spared (shift_spares hm hs hown hr.issued hr.mine) (shift_issued hs) (shift_mine hs hr.issued hr.mine)
      (shift_rebootPending hs hr.issued) hheld (List.Subset.refl _)
  · cases task with
    | ready script => exact htask
    | awaiting c k =>
      obtain ⟨hst, hg, hk, call, hc, hid, hrun⟩ := htask
      exact ⟨hst, hg, hk, call, shift_call hs hown hn hc, hid, fun hb => (hrun hb).spared hspares⟩

/-! ### Calls of the task -/

/-- A call of the task gives its job the status that the notes say. -/
theorem PatchAt.stands (h : PatchAt Q n id s δ a) {e : TaskCall} (hmk : a.Makes id e) {x : Answers} {r : TaskResponse e}
    (hp : perform s.world x e = some (w', r)) {st : JobStatus} (hst : statusAfter a.status e r = some st) :
    Stands w' id st := by
  cases perform_cases hp with
  | admitJob => exact hmk.elim
  | getSystemInfo | rebootSystem => exact h.standing st hst
  | reserveReboot force ack _ hv =>
    exact (h.standing st hst).spared (.of_op hv h.issued (fun ht => ht) SchedOp.noConfusion)
  | beginRebootExecution r₀ _ hv =>
    exact (h.standing st hst).spared (.of_op hv h.issued (h.reserved r₀ true hmk.1).other SchedOp.noConfusion)
  | op o _ hv =>
    cases o with
    | completeJob id' =>
      obtain rfl : id' = id := hmk
      cases hst
      cases World.step_cases hv
      refine ⟨JobStatus.noConfusion, fun j' hj' => ?_⟩
      simp only [SchedOp.apply, SchedulerState.completeJob_get?, if_true, Option.map_eq_some_iff] at hj'
      obtain ⟨j, _, rfl⟩ := hj'
      rfl
    | failJobWithDiagnostics id' e =>
      obtain rfl : id' = id := hmk
      cases hst
      cases World.step_cases hv
      refine ⟨JobStatus.noConfusion, fun j' hj' => ?_⟩
      simp only [SchedOp.apply, SchedulerState.failJobWithDiagnostics_get?, if_true, Option.map_eq_some_iff] at hj'
      obtain ⟨j, _, rfl⟩ := hj'
      exact Job.failWithDiagnostics_status s.world.env j e
    | setJobRebooting id' m =>
      obtain ⟨rfl, hrun⟩ := hmk
      have hrunning := h.standing .running hrun
      cases hst
      cases World.step_cases hv
      refine ⟨JobStatus.noConfusion, fun j' hj' => ?_⟩
      rcases s.world.sched.setJobRebooting_spec s.world.env id' m with ⟨hno, e, he⟩ | ⟨j, _, _, _, _, hget⟩
      · -- only a job that is not in the map is not Running
        simp only [SchedOp.apply, he] at hj'
        exact absurd (hrunning.status j' hj') (hno j' hj')
      · simp only [SchedOp.apply, hget, if_true, Option.some.injEq] at hj'
        rw [← hj']
        rfl
    | rollbackReboot r₀ error =>
      obtain ⟨live, hg⟩ := hmk
      exact (h.standing st hst).spared (.of_op hv h.issued (h.reserved r₀ live hg).other SchedOp.noConfusion)
    | addJobLog => exact (h.standing st hst).spared (.of_op hv h.issued (fun ht => ht) SchedOp.noConfusion)
    | _ => exact hmk.elim

/-- Nobody's duty is about an id that was not drawn yet. -/
theorem mine_fresh {w : World} (h : Ledger w δ) {k : Uuid} (hk : k ∉ w.issued) (p : Nat) : Mine δ p k := fun m _ =>
  ⟨fun stage hd => hk (h.owed m k stage hd).1, fun live hd => hk (h.guards m k live hd).1⟩

theorem Mine.update {p : Nat} {k : Uuid} (h : Mine δ p k) (d : Duty) :
    Mine (Function.update δ p d) p k := fun m hm => by
  rw [Function.update_of_ne hm]
  exact h m hm

/-- The reservation of the task, after a call that leaves it as it is. -/
theorem PatchAt.keeps (h : PatchAt Q n id s δ a) (hm : Manned s δ) {o : SchedOp} (hv : s.world.step (.op o) = some w')
    {d : Duty} {told : List Told} (ht : a.told ⊆ told) {r₀ : Uuid} {live : Bool} (hg : a.duty.guard = some (r₀, live))
    (htouch : ¬ o.Touches r₀) (hne : o ≠ .rollbackSelfUpdate r₀) :
    Reserved w' (Function.update δ (seat n) d) (seat n) id r₀ live told := by
  have hr := h.reserved r₀ live hg
  have hf : IsStep agent ⟨s.world, .op o, w'⟩ := hv
  refine hr.spared (.of_op hv hr.issued htouch hne) (step_issued hf) (hr.mine.update d) (fun hback => ?_)
    (hm.ledger.guards (seat n) r₀ live (by rw [h.duty]; exact hg)).2.1 ht
  rcases step_rebootPending hf with hsame | ⟨k, _, _, _, hnew, _, _, hid⟩ | ⟨_, _, _, hnone⟩
  · exact hsame ▸ hback
  · rw [hback] at hid
    cases hid
    exact absurd hr.issued hnew
  · rw [hback] at hnone
    cases hnone

/-- After a call of the task, its reservation is as the notes say. -/
theorem PatchAt.reserves (h : PatchAt Q n id s δ a) (hm : Manned s δ) {e : TaskCall} (hmk : a.Makes id e) {x : Answers}
    {r : TaskResponse e} (hp : perform s.world x e = some (w', r)) {d : Duty} {r₀ : Uuid} {live : Bool}
    (hg : (a.duty.after e r).guard = some (r₀, live)) :
    Reserved w' (Function.update δ (seat n) d) (seat n) id r₀ live (a.told ++ (answer e r).toList) := by
  have hsub : a.told ⊆ a.told ++ (answer e r).toList := List.subset_append_left _ _
  cases perform_cases hp with
  | admitJob => exact hmk.elim
  | getSystemInfo | rebootSystem =>
    have hr := h.reserved r₀ live hg
    exact hr.spared (.of_get? rfl) (List.Subset.refl _) (hr.mine.update d) (fun hback => hback)
      (hm.ledger.guards (seat n) r₀ live (by rw [h.duty]; exact hg)).2.1 hsub
  | reserveReboot force ack _ hv =>
    have hnone : a.duty.guard = none := hmk
    rcases s.world.sched.reserveReboot_spec s.world.env x.newId force ack with ⟨_, e, he⟩ | ⟨_, hok, _, hget⟩
    · simp only [Duty.after, he, Duty.reserved, hnone] at hg
      cases hg
    · -- the reservation is new, and its job is Pending
      simp only [Duty.after, hok, Duty.reserved, Option.some.injEq, Prod.mk.injEq] at hg
      obtain ⟨rfl, rfl⟩ := hg
      have hnew := op_fresh hv rfl
      refine ⟨fun he => hnew (he ▸ h.issued), ?_, (mine_fresh hm.ledger hnew _).update d,
        fun hl => (by cases hl), fun _ _ => ?_⟩
      · cases World.step_cases hv
        exact List.mem_cons_self
      · cases World.step_cases hv
        exact ⟨Job.new s.world.env x.newId .reboot [], by simp only [SchedOp.apply, hget, if_true], rfl⟩
  | beginRebootExecution r₁ _ hv =>
    -- the reservation is held as before; that its job was Pending is of no use any more
    have hr := h.reserved r₀ live hg
    have hf : IsStep agent ⟨s.world, .op (.beginRebootExecution r₁), w'⟩ := hv
    refine ⟨hr.other, step_issued hf hr.issued, hr.mine.update d, fun hl hback => hr.dead hl ?_, fun _ hb => ?_⟩
    · cases World.step_cases hv with
      | op _ _ =>
        rcases s.world.sched.beginRebootExecution_spec s.world.env r₁ with he | ⟨_, _, _, _, _, hfr, _⟩
        · simpa only [SchedOp.apply, he] using hback
        · simpa only [SchedOp.apply, hfr.rebootPending] using hback
    · exact absurd (List.mem_append_right _ (List.mem_singleton.2 rfl)) (hb _)
  | op o _ hv =>
    cases o with
    | completeJob id' =>
      obtain rfl : id' = id := hmk
      exact h.keeps hm hv hsub hg (fun ht => (h.reserved r₀ live hg).other ht.symm) SchedOp.noConfusion
    | failJobWithDiagnostics id' e =>
      obtain rfl : id' = id := hmk
      exact h.keeps hm hv hsub hg (fun ht => (h.reserved r₀ live hg).other ht.symm) SchedOp.noConfusion
    | setJobRebooting id' m =>
      obtain ⟨rfl, _⟩ := hmk
      exact h.keeps hm hv hsub hg (fun ht => (h.reserved r₀ live hg).other ht.symm) SchedOp.noConfusion
    | addJobLog => exact h.keeps hm hv hsub hg (fun ht => ht) SchedOp.noConfusion
    | rollbackReboot r₁ error =>
      simp only [Duty.after, Duty.rolledBack, Option.map_eq_some_iff, Prod.mk.injEq] at hg
      obtain ⟨⟨r₂, live'⟩, hg, hr₂, rfl⟩ := hg
      obtain ⟨live₁, hg₁⟩ := hmk
      rw [hg] at hg₁
      cases hg₁
      subst hr₂
      have hr := h.reserved r₁ live' hg
      have hf : IsStep agent ⟨s.world, .op (.rollbackReboot r₁ error), w'⟩ := hv
      refine ⟨hr.other, step_issued hf hr.issued, hr.mine.update d, fun _ hback => ?_, fun hl => (by cases hl)⟩
      -- the roll-back gives it up, or somebody else's stands
      cases World.step_cases hv with
      | op _ _ =>
        rcases s.world.sched.rollbackReboot_spec s.world.env r₁ error with ⟨hne, he⟩ | ⟨_, _, hfr, _⟩
        · simp only [SchedOp.apply, he] at hback
          exact hne hback
        · simp only [SchedOp.apply, hfr.rebootPending] at hback
          cases hback
    | _ => exact hmk.elim

/-- The start of the reboot succeeds. -/
theorem PatchAt.begins (h : PatchAt Q n id s δ a) (hm : Manned s δ) {e : TaskCall} (hmk : a.Makes id e) {x : Answers}
    {r : TaskResponse e} (hp : perform s.world x e = some (w', r)) : .begun false ∉ a.told ++ (answer e r).toList := by
  intro hmem
  rcases List.mem_append.1 hmem with hmem | hmem
  · exact h.begun hmem
  cases perform_cases hp with
  | beginRebootExecution r₀ =>
    obtain ⟨hg, hnone⟩ := hmk
    obtain ⟨j, hj, hpend⟩ := (h.reserved r₀ true hg).waiting rfl hnone
    have hheld := (hm.ledger.guards (seat n) r₀ true (by rw [h.duty]; exact hg)).2.1 rfl
    simp only [answer, Option.toList_some, List.mem_singleton, SchedulerState.beginRebootExecution, hheld, hj, hpend,
      ne_eq, not_true_eq_false, if_false] at hmem
    cases hmem
  | admitJob | op => cases hmem
  | reserveReboot | getSystemInfo | rebootSystem =>
    simp only [answer, Option.toList_some, List.mem_singleton] at hmem
    cases hmem

/-! ### Every step -/

theorem PatchAt.ran (h : PatchAt Q n id s δ a) (hm : Manned s δ)
    {x : Answers} {e : TaskCall} {k : TaskResponse e → Script Unit}
    {r : TaskResponse e} (hn : s.tasks[n]? = some (.ready (.call e k))) (ha : (δ (seat n)).Allows e)
    (hp : perform s.world x e = some (w', r)) :
    PatchAt Q n id ⟨w', s.tasks.set n (.ready (k r))⟩ (Function.update δ (seat n) ((δ (seat n)).after e r))
      (a.after e r) := by
  obtain ⟨task, hn', htask⟩ := h.task
  rw [hn] at hn'
  cases hn'
  obtain ⟨_, hmk, hk⟩ := htask
  refine ⟨?_, h.mine.update _, ?_, fun st hst => h.stands hmk hp hst, fun r₀ live hg => h.reserves hm hmk hp hg,
    h.begins hm hmk hp, .ready (k r), ?_, hk r⟩
  · rcases perform_operates ha hp with rfl | ⟨o, hs, _⟩
    · exact h.issued
    · exact step_issued (f := ⟨s.world, .op o, w'⟩) hs h.issued
  · rw [Function.update_self, h.duty]
    rfl
  · exact Entries.set_self hn

theorem PatchAt.dispatched (h : PatchAt Q n id s δ a) {id' : Uuid} {closure : MutationClosure}
    {k : MutationResult → Script Unit}
    (hn : s.tasks[n]? = some (.ready (.call (.dispatchMutation id' closure) k))) :
    PatchAt Q n id ⟨{ s.world with calls := s.world.calls ++ [Call.new id'], issued := id' :: s.world.issued },
      s.tasks.set n (.awaiting s.world.calls.length k)⟩ δ a := by
  obtain ⟨task, hn', htask⟩ := h.task
  rw [hn] at hn'
  cases hn'
  obtain ⟨_, ⟨rfl, hst, hg⟩, hk⟩ := htask
  refine ⟨List.mem_cons_of_mem _ h.issued, h.mine, h.duty, fun st hs =>
    ⟨(h.standing st hs).started, (h.standing st hs).status⟩,
    fun r live hr => ?_, h.begun, .awaiting s.world.calls.length k, ?_, hst, hg, ⟨closure, hk⟩, Call.new id', ?_,
      rfl, fun hb => ?_⟩
  · rw [hg] at hr
    cases hr
  · exact Entries.set_self hn
  · simp
  · rcases hb with hb | hb | hb <;> cases hb

theorem PatchAt.resumed (h : PatchAt Q n id s δ a) {c : Nat} {resume : MutationResult → Script Unit}
    {r : MutationResult} {call : Call}
    (hn : s.tasks[n]? = some (.awaiting c resume)) (hc : s.world.calls[c]? = some call)
    (hr : call.caller = .returned r) :
    ∃ a', PatchAt Q n id { s with tasks := s.tasks.set n (.ready (resume r)) }
      (Function.update δ (seat n) ((δ (seat n)).dispatched r)) a' ∧ a'.told = a.told ++ [.mutation r] := by
  obtain ⟨task, hn', htask⟩ := h.task
  rw [hn] at hn'
  cases hn'
  obtain ⟨hst, hg, ⟨closure, hk⟩, call', hc', _, hrun⟩ := htask
  rw [hc] at hc'
  cases hc'
  refine ⟨a.after (.dispatchMutation id closure) r, ⟨h.issued, h.mine.update _, ?_, fun st hs => ?_,
    fun r₀ live hg' => ?_,
    fun hmem => ?_, .ready (resume r), ?_, hk r⟩, rfl⟩
  · rw [Function.update_self, h.duty]
    rfl
  · cases r with
    | ok u =>
      cases hs
      exact hrun (.inr (.inr hr))
    | error e =>
      simp only [Notes.after, statusAfter, hst] at hs
      cases hs
  · cases r <;> simp only [Notes.after, Duty.after, Duty.dispatched, hg] at hg' <;> cases hg'
  · rcases List.mem_append.1 hmem with hmem | hmem
    · exact h.begun hmem
    · cases List.mem_singleton.1 hmem
  · exact Entries.set_self hn

/-- A move of the call that the task awaits: it starts the job when it acquires the slot. -/
theorem PatchAt.moved (h : PatchAt Q n id s δ a) (hm : Manned s δ)
    {c : Nat} {k : MutationResult → Script Unit} {act : CallAct}
    {call call' : Call} {s' : SchedulerState} (hn : s.tasks[n]? = some (.awaiting c k))
    (hc : s.world.calls[c]? = some call)
    (hd : act ≠ .drop) (hcs : CallStep s.world.env c s.world.sched call act s' call') :
    PatchAt Q n id ⟨{ s.world with sched := s', calls := s.world.calls.set c call' }, s.tasks⟩ δ a := by
  obtain ⟨task, hn', htask⟩ := h.task
  rw [hn] at hn'
  cases hn'
  obtain ⟨hst, hg, hk, call₁, hc₁, hid, hrun⟩ := htask
  rw [hc] at hc₁
  cases hc₁
  refine ⟨h.issued, h.mine, h.duty, fun st hs => ?_, fun r live hr => ?_, h.begun, .awaiting c k, hn,
    hst, hg, hk, call',
    Entries.set_self hc, (callStep_jobId hcs).trans hid, fun hb => ?_⟩
  · rw [hst] at hs
    cases hs
  · rw [hg] at hr
    cases hr
  · rcases callStep_jobs hcs hd (hm.steady.attended call (List.mem_of_getElem? hc)) with ⟨hsame, hb'⟩ | ⟨_, _, hget⟩
    · exact (hrun (hb' hb)).spared (.of_get? (hsame id))
    · refine ⟨JobStatus.noConfusion, fun j' hj' => ?_⟩
      simp only [hget, hid, if_true, Option.map_eq_some_iff] at hj'
      obtain ⟨j, hj, rfl⟩ := hj'
      exact SchedulerState.startJob_status s.world.env s.world.sched hj

theorem told_foreign (hown : ¬ OwnStep n s act) : told n ⟨s, act, s'⟩ = none := by
  cases act with
  | freeze => rfl
  | service act =>
    cases act with
    | run m x =>
      simp only [OwnStep] at hown
      simp only [told, hown, if_false]
    | resume m =>
      simp only [OwnStep] at hown
      simp only [told, hown, if_false]
    | _ => rfl

/-- Whatever step the process takes, the notes of the task stay right, with what the task was told. -/
theorem patch_step (h : PatchAt Q n id s δ a) (hm : Manned s δ) (hs : Shift s δ act s' δ') :
    ∃ a', PatchAt Q n id s' δ' a' ∧ a'.told = a.told ++ (told n ⟨s, act, s'⟩).toList := by
  by_cases hown : OwnStep n s act
  · cases hs with
    | handled | ticked | froze => exact hown.elim
    | ran m x e k w' r hn ha hp =>
      obtain rfl : m = n := hown
      refine ⟨_, h.ran hm hn ha hp, ?_⟩
      simp only [told, if_true, hn, hp, Option.bind_some, Notes.after]
    | dispatched m x id' closure k hn =>
      obtain rfl : m = n := hown
      refine ⟨_, h.dispatched hn, ?_⟩
      simp only [told, if_true, hn, perform, Option.bind_none, Option.toList_none, List.append_nil]
    | resumed m c resume r call hn hc hr =>
      obtain rfl : m = n := hown
      obtain ⟨a', ha', ht⟩ := h.resumed hn hc hr
      refine ⟨a', ha', ?_⟩
      simp only [told, if_true, hn, returned?, hc, hr, Option.map_some, Option.toList_some, ht]
    | moved c b call call' s₁ hd hc hcs =>
      obtain ⟨k, hn⟩ := hown
      refine ⟨a, h.moved hm hn hc hd (callStep_cases hcs), ?_⟩
      simp only [told, Option.toList_none, List.append_nil]
  · refine ⟨a, h.foreign hm hs hown, ?_⟩
    rw [told_foreign hown, Option.toList_none, List.append_nil]

theorem patch_run {tr : List (Fired Service ProcessAct)} (hr : Run process s tr s') (hm : Manned s δ)
    (h : PatchAt Q n id s δ a) :
    ∃ δ' a', Manned s' δ' ∧ PatchAt Q n id s' δ' a' ∧ a'.told = a.told ++ transcript n tr := by
  induction hr with
  | nil => exact ⟨δ, a, hm, h, by simp [transcript]⟩
  | @snoc tr t t' act _ hs ih =>
    obtain ⟨δ₁, a₁, hm₁, h₁, ht₁⟩ := ih
    obtain ⟨δ', hshift, hm'⟩ := process_shift hm₁ hs
    obtain ⟨a', h', ht'⟩ := patch_step h₁ hm₁ hshift
    refine ⟨δ', a', hm', h', ?_⟩
    rw [ht', ht₁, transcript, transcript, List.filterMap_append, List.append_assoc]
    congr 2

theorem manned_run {tr : List (Fired Service ProcessAct)} (hs : s.Startup) (hr : Run process s tr s') :
    ∃ δ, Manned s' δ :=
  hr.always (I := fun s => ∃ δ, Manned s δ) (fun f hf ⟨_, hm⟩ => by
    obtain ⟨δ', _, hm'⟩ := process_shift hm hf
    exact ⟨δ', hm'⟩) ⟨_, startup_manned hs⟩

end PatchAt

/-! ## The outcome -/

/-- The step is a patch request that is admitted with job `id` and spawns its task. -/
def SpawnsPatch (f : Fired Service ProcessAct) (packages : Option (List String)) (allowReboot : Bool)
    (delaySeconds : Nat)
    (id : Uuid) : Prop :=
  (∃ dropped, f.act = .service (.request (.applyPatches packages allowReboot delaySeconds) id dropped)) ∧
    f.post.tasks[f.pre.tasks.length]? = some (.ready (patchTask packages allowReboot delaySeconds id))

section Outcome

variable {packages : Option (List String)} {allowReboot : Bool} {delaySeconds : Nat} {id : Uuid}

/-- The duty of a task that has the script of a patch task. -/
theorem Spawns.patch_duty {newId : Uuid} {script : Script Unit} {d : Duty} (h : Spawns newId script d)
    (hs : script = patchTask packages allowReboot delaySeconds id) : d = .ofJob id := by
  -- the other scripts begin with another call, and this one names its job
  have first : ∀ {e : TaskCall} {k : TaskResponse e → Script Unit},
    Prog.call e k = patchTask packages allowReboot delaySeconds id →
      e = .op (.addJobLog id "Refreshing package cache...") := fun he => (Prog.call.inj he).1
  cases h with
  | patch =>
    have he := first hs
    simp only [TaskCall.op.injEq, SchedOp.addJobLog.injEq, and_true] at he
    rw [he]
  | mutation closure => cases first hs
  | selfUpdate name => cases first hs
  | refresh origin => cases first hs
  | reboot delaySeconds => cases first hs

/-- The task of a patch request starts with empty notes. -/
theorem spawned_patch {f : Fired Service ProcessAct} {δ : Nat → Duty} (hm : Manned f.pre δ) (hf : IsStep process f)
    (hp : SpawnsPatch f packages allowReboot delaySeconds id) :
    ∃ δ', Manned f.post δ' ∧
      PatchAt (PatchEnds packages allowReboot) f.pre.tasks.length id f.post δ' ⟨[], none, .ofJob id⟩ := by
  obtain ⟨s, act, s'⟩ := f
  obtain ⟨⟨dropped, rfl⟩, hn⟩ := hp
  replace hm : Manned s δ := hm
  have hstep : s.processStep (.service (.request (.applyPatches packages allowReboot delaySeconds)
    id dropped)) = some s' := hf
  obtain ⟨δ', hshift, hm'⟩ := process_shift hm hstep
  refine ⟨δ', hm', ?_⟩
  cases hshift with
  | handled _ _ _ w' scripts d _ hh hstep hhire =>
    rcases hhire.scripts with rfl | ⟨newId, script, rfl, hspawn⟩
    · simp at hn
    · have hscript : script = patchTask packages allowReboot delaySeconds id := by simpa using hn
      have hduty : δ' (seat s.tasks.length) = .ofJob id := hspawn.patch_duty hscript
      have hissued := (hm'.ledger.owed (seat s.tasks.length) id .queued (by rw [hduty]; rfl)).1
      have hfresh : id ∉ s.world.issued := by
        rcases hhire.fresh (seat s.tasks.length) with he | ⟨hjob, _⟩
        · rw [hduty, hm.idle s.tasks.length le_rfl] at he
          cases he
        · exact (hjob id .queued (by rw [hduty]; rfl)).1
      have hmine : Mine δ' (seat s.tasks.length) id := fun m hne => by
        -- the duty of the new task is the only new one
        have hsame : δ' m = δ m := by
          by_contra hnew
          refine hne (hhire.one m (seat s.tasks.length) hnew fun he => ?_)
          rw [hduty, hm.idle s.tasks.length le_rfl] at he
          cases he
        rw [hsame]
        exact mine_fresh hm.ledger hfresh (seat s.tasks.length) m hne
      exact ⟨hissued, hmine, hduty, fun st hst => (by cases hst), fun r live hg => (by cases hg),
        List.not_mem_nil, _, hn,
        ensures_patchTask delaySeconds⟩

/-- What the job of a patch request says when its task has ended, given what the task was told. -/
structure PatchOutcome (packages : Option (List String)) (allowReboot : Bool) (t : List Told)
    (s : SchedulerState) (j : Job) :
    Prop where
  failed : j.status = .failed ↔ ∃ e, .mutation (.error e) ∈ t
  rebooting : j.status = .rebooting ↔ .mutation (.ok ()) ∈ t ∧ allowReboot = true ∧
    (∃ info, .systemInfo info ∈ t ∧ shouldReboot packages info = true) ∧ (∃ r, .reservation (.ok r) ∈ t) ∧
      .reboot (.ok ()) ∈ t
  held : j.status = .rebooting ↔ ∃ r, .reservation (.ok r) ∈ t ∧ s.rebootPending = some r
  completed : j.status ≠ .failed → j.status ≠ .rebooting → j.status = .completed ∧
    ∀ r, .reservation (.ok r) ∈ t → s.rebootPending ≠ some r

/-- The ends of the script say what the outcome is; a reservation that is lost is not among them, since
the task's own roll-back is the only way to lose it. -/
theorem PatchEnd.outcome {t : List Told} {status : Option JobStatus} {guard : Option (Uuid × Bool)}
    {s : SchedulerState} {j : Job}
    (h : PatchEnd packages allowReboot t status guard) (hst : ∀ st, status = some st → j.status = st)
    (hheld : ∀ r, guard = some (r, true) → s.rebootPending = some r)
    (hdead : ∀ r, guard = some (r, false) → s.rebootPending ≠ some r) (hbegun : .begun false ∉ t) :
    PatchOutcome packages allowReboot t s j := by
  cases h with
  | failed e =>
    have hj := hst _ rfl
    constructor <;> simp [hj]
  | applied ha =>
    have hj := hst _ rfl
    constructor <;> simp [hj]
  | unneeded info ha hneed =>
    have hj := hst _ rfl
    constructor <;> simp [hj]
  | rejected info e ha hneed =>
    have hj := hst _ rfl
    constructor <;> simp [hj]
  | lost info r live ha hneed => simp at hbegun
  | rebooting info r ha hneed =>
    have hj := hst _ rfl
    have hr := hheld r rfl
    constructor <;> simp [hj, ha, hneed, hr]
  | rebootFailed info r e ha hneed =>
    have hj := hst _ rfl
    have hr := hdead r rfl
    constructor <;> simp [hj, hr]

/-- On every run, the job of a patch request whose task has ended says what happened. -/
theorem patch_outcome {s₀ s' : Service} {pre post : List (Fired Service ProcessAct)} {f : Fired Service ProcessAct}
    (hs : s₀.Startup) (hr : Run process s₀ (pre ++ f :: post) s')
    (hf : SpawnsPatch f packages allowReboot delaySeconds id)
    {script : Script Unit} (hn : s'.tasks[f.pre.tasks.length]? = some (.ready script)) (hover : Script.Over script) :
    ∀ j, s'.world.sched.jobs.get? id = some j →
      PatchOutcome packages allowReboot (transcript f.pre.tasks.length post) s'.world.sched j := by
  intro j hj
  obtain ⟨hpre, hpost⟩ := hr.split rfl
  obtain ⟨δ₀, hm₀⟩ := manned_run hs hpre
  obtain ⟨δ₁, hm₁, h₁⟩ := spawned_patch hm₀ (hr.step_of_mem f (by simp)) hf
  obtain ⟨δ, a, hm, h, ht⟩ := patch_run hpost hm₁ h₁
  obtain ⟨task, hn', htask⟩ := h.task
  rw [hn] at hn'
  cases hn'
  have hends : PatchEnds packages allowReboot a := htask.over hover
  rw [List.nil_append] at ht
  rw [← ht]
  refine PatchEnd.outcome hends (fun st hst => (h.standing st hst).status j hj) (fun r hg => ?_)
    (fun r hg => (h.reserved r false hg).dead rfl) h.begun
  exact (hm.ledger.guards (seat f.pre.tasks.length) r true (by rw [h.duty]; exact hg)).2.1 rfl

/-- A service without history. -/
def freshService : Service := ⟨freshAgent 2 10, []⟩

/-- A request to apply all patches and to reboot. -/
def patchRequest : ProcessAct := .service (.request (.applyPatches none true 60) 1 false)

def patchAdmitted : Service := (process.step freshService patchRequest).getD freshService

/-- The patches are applied, the machine asks for a reboot, and the reboot command succeeds. -/
def patchAndReboot : List ProcessAct :=
  let x : Answers := ⟨2, .ok ⟨"web1", "Debian", "12", "6.1", "x86_64", none, none, true⟩, .ok ()⟩
  let moves : List CallAct := [.check, .spawnWatchdog, .startWatchdog, .runClosure, .exitClosure (.ok ()), .join,
    .finalize, .receive]
  [.service (.run 0 x), .service (.run 0 x)] ++ moves.map (fun a => .service (.call 0 a)) ++ [.service (.resume 0)] ++
    List.replicate 8 (.service (.run 0 x))

def patchRun : List (Fired Service ProcessAct) := (trace process patchAdmitted patchAndReboot).getD []

theorem patch_outcome_rebooting : ∃ j, (endState patchAdmitted patchRun).world.sched.jobs.get? 1 = some j ∧
    j.status = .rebooting ∧ PatchOutcome none true (transcript 0 patchRun)
      (endState patchAdmitted patchRun).world.sched j := by
  have hrun : Run process patchAdmitted patchRun (endState patchAdmitted patchRun) :=
    run_trace process patchAdmitted patchAndReboot (by decide)
  have hstep : process.step freshService patchRequest = some patchAdmitted := rfl
  have hr : Run process freshService ([] ++ ⟨freshService, patchRequest, patchAdmitted⟩ :: patchRun)
      (endState patchAdmitted patchRun) := hrun.cons hstep
  have hsp : SpawnsPatch ⟨freshService, patchRequest, patchAdmitted⟩ none true 60 1 := ⟨⟨false, rfl⟩, rfl⟩
  have hend : (endState patchAdmitted patchRun).tasks[0]? = some (.ready (.pure ())) := rfl
  have hj := (Option.some_get
    (show (FinMap.get? (endState patchAdmitted patchRun).world.sched.jobs 1).isSome = true by decide)).symm
  exact ⟨_, hj, by decide, patch_outcome ⟨freshAgent_startup 2 10, rfl⟩ hr hsp hend (.inl rfl) _ hj⟩

end Outcome

end LinuxPatchApi.Api
