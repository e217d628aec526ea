/-
Self-update reservations and who releases them. A reservation belongs to a guard, to the roll-back task of
a guard that was dropped, or to the task that `update_package` spawned when it committed the guard. In
every state the reserved self-update has such a releaser that did not get to its release yet, and a late
or repeated release touches neither another reservation nor another job.
-/
import LinuxPatchApi.Api.Handlers
import LinuxPatchApi.Jobs.Isolation
import LinuxPatchApi.Jobs.Bystanders

namespace LinuxPatchApi.Api

open Interaction LinuxPatchApi.Packages LinuxPatchApi.Jobs Transition

/-! ## Reservations -/

/-- What became of a `SelfUpdateReservationGuard`. -/
inductive GuardPhase where
  | held
  /-- Dropped without commit: the roll-back task is spawned and did not run yet. -/
  | dropped
  | rolledBack
  /-- Committed, and the task of the self-update is spawned. -/
  | committed (task : Task)

structure Reservation where
  jobId : Uuid
  phase : GuardPhase

/-- The task of the reservation is in `dispatch_mutation(..).await` with this call. -/
def Reservation.awaits (r : Reservation) (c : Nat) : Bool :=
  match r.phase with
  | .committed (.awaiting c' _) => c' == c
  | _ => false

/-! ## The machine -/

/-- The agent, and the reservations that were granted since its startup. -/
structure Upgrades where
  world : World
  reservations : List Reservation

inductive UpgradeAct where
  | reserve (newId : Uuid) (packages : List String) (fromVersion targetVersion : String)
  /-- `update_package` commits the guard and spawns the task without an await in between. -/
  | commit (i : Nat) (name : String)
  | drop (i : Nat)
  /-- The task that the drop spawned. -/
  | rollBack (i : Nat)
  | run (i : Nat) (answers : Answers)
  | resume (i : Nat)
  /-- An operation of anybody else: every other one of the scheduler. -/
  | op (o : SchedOp)
  | dispatch (jobId : Uuid)
  | call (c : Nat) (a : CallAct)
  | tick (seconds : Nat)

/-- The operations that only reservations make. -/
def isReservationOp : SchedOp → Bool
  | .tryReserveSelfUpdate .. | .releaseSelfUpdate _ | .rollbackSelfUpdate _ => true
  | _ => false

namespace Upgrades

variable (u : Upgrades)

/-- The agent makes a step of its own. -/
def within (a : Act) : Option Upgrades := (u.world.step a).map fun w => { u with world := w }

def setPhase (i : Nat) (id : Uuid) (phase : GuardPhase) : Upgrades :=
  { u with reservations := u.reservations.set i ⟨id, phase⟩ }

def reserve (newId : Uuid) (packages : List String) (v t : String) : Option Upgrades :=
  (u.world.step (.op (.tryReserveSelfUpdate newId packages v t))).map fun w =>
    match (u.world.sched.tryReserveSelfUpdate u.world.env newId packages v t).2 with
    | .ok id => ⟨w, u.reservations ++ [⟨id, .held⟩]⟩
    | .error _ => ⟨w, u.reservations⟩

def step : UpgradeAct → Option Upgrades
  | .reserve newId packages v t => u.reserve newId packages v t
  | .commit i name =>
    match u.reservations[i]? with
    | some ⟨id, .held⟩ => some (u.setPhase i id (.committed (.ready (selfUpdateTask name id))))
    | _ => none
  | .drop i =>
    match u.reservations[i]? with
    | some ⟨id, .held⟩ => some (u.setPhase i id .dropped)
    | _ => none
  | .rollBack i =>
    match u.reservations[i]? with
    | some ⟨id, .dropped⟩ => (u.within (.op (.rollbackSelfUpdate id))).map fun v => v.setPhase i id .rolledBack
    | _ => none
  | .run i x =>
    match u.reservations[i]? with
    | some ⟨id, .committed (.ready script)⟩ => (runTask u.world x script).map fun (w, task) =>
      Upgrades.setPhase ⟨w, u.reservations⟩ i id (.committed task)
    | _ => none
  | .resume i =>
    match u.reservations[i]? with
    | some ⟨id, .committed (.awaiting c resume)⟩ => (returned? u.world c).map fun r =>
      u.setPhase i id (.committed (.ready (resume r)))
    | _ => none
  | .op o => if isReservationOp o then none else u.within (.op o)
  | .dispatch jobId => u.within (.dispatch jobId)
  | .call c a =>
    -- the task of a self-update is not aborted, so that nobody drops the call that it awaits
    if a = .drop ∧ u.reservations.any (·.awaits c) then none else u.within (.call c a)
  | .tick seconds => u.within (.tick seconds)

def Startup : Prop := u.world.Startup ∧ u.reservations = []

end Upgrades

def upgrades : Machine Upgrades UpgradeAct := ⟨Upgrades.Startup, Upgrades.step⟩

/-! ## Releasers -/

/-- On every path the script calls `release_self_update` for this job. -/
def WillRelease (id : Uuid) : Script Unit → Prop
  | .pure () => False
  | .call e k => e = .op (.releaseSelfUpdate id) ∨ ∀ r, WillRelease id (k r)

def Task.WillRelease (id : Uuid) : Task → Prop
  | .ready script => Api.WillRelease id script
  | .awaiting _ resume => ∀ r, Api.WillRelease id (resume r)

namespace Reservation

variable (r : Reservation)

/-- An undropped guard, a pending roll-back task, or a task that did not call its release yet. -/
def Releaser : Prop :=
  match r.phase with
  | .held | .dropped => True
  | .rolledBack => False
  | .committed task => task.WillRelease r.jobId

/-- The self-update is over: its guard's roll-back has run, or its task has ended. -/
def Ended : Prop :=
  match r.phase with
  | .rolledBack | .committed (.ready (.pure ())) => True
  | _ => False

variable {r} in
theorem Ended.not_releaser (h : r.Ended) : ¬ r.Releaser := by
  obtain ⟨id, phase⟩ := r
  unfold Ended at h
  split at h
  · next hp => simp only at hp; subst hp; exact False.elim
  · next hp => simp only at hp; subst hp; exact False.elim
  · exact h.elim

end Reservation

/-! ## The promise -/

/-- The reserved self-update has a releaser, and none that is over is reserved. -/
structure Accounted (u : Upgrades) : Prop where
  live : ∀ su, u.world.sched.selfUpdate = some su → ∃ r ∈ u.reservations, r.jobId = su.jobId ∧ r.Releaser
  ended : ∀ r ∈ u.reservations, r.Ended → ∀ su, u.world.sched.selfUpdate = some su → su.jobId ≠ r.jobId

/-- The step is the roll-back of the guard of reservation `i`. -/
def RollsBackGuard (f : Fired Upgrades UpgradeAct) (i : Nat) (r : Reservation) : Prop :=
  f.pre.reservations[i]? = some r ∧ f.act = .rollBack i

/-- The step is made by the task of reservation `i`, whose next call is its release. -/
def RunsRelease (f : Fired Upgrades UpgradeAct) (i : Nat) (r : Reservation) : Prop :=
  f.pre.reservations[i]? = some r ∧ (∃ x, f.act = .run i x) ∧
    ∃ k, r.phase = .committed (.ready (.call (.op (.releaseSelfUpdate r.jobId)) k))

/-- What a step may do to the reservation and to the jobs. -/
structure ReleasedByOwner (f : Fired Upgrades UpgradeAct) : Prop where
  /-- A reservation ends only by the roll-back or the release of its own. -/
  cleared : ∀ su, f.pre.world.sched.selfUpdate = some su → f.post.world.sched.selfUpdate ≠ some su →
    f.post.world.sched.selfUpdate = none ∧ ∃ i r, r.jobId = su.jobId ∧ (RollsBackGuard f i r ∨ RunsRelease f i r)
  /-- A step of a reservation leaves every other self-update and every other job alone. -/
  foreign : ∀ i r, f.pre.reservations[i]? = some r → (f.act = .rollBack i ∨ ∃ x, f.act = .run i x) →
    (∀ su, f.pre.world.sched.selfUpdate = some su → su.jobId ≠ r.jobId → f.post.world.sched.selfUpdate = some su) ∧
      ∀ k, k ≠ r.jobId → f.post.world.sched.jobs.get? k = f.pre.world.sched.jobs.get? k
  /-- A job disappears only when it is deleted, or by the roll-back of its own guard. -/
  removed : ∀ k j, f.pre.world.sched.jobs.get? k = some j → f.post.world.sched.jobs.get? k = none →
    f.act = .op (.deleteJob k) ∨ ∃ i r, r.jobId = k ∧ RollsBackGuard f i r

/-! ## What the task of a self-update calls -/

/-- The call concerns this job only. -/
def OwnCall (id : Uuid) : TaskCall → Prop
  | .dispatchMutation id' _ => id' = id
  | .op o => match o with
    | .completeJob id' | .failJobWithDiagnostics id' _ | .releaseSelfUpdate id' => id' = id
    | _ => False
  | _ => False

/-- Whatever the script calls from here on concerns this job only. -/
def Serves (id : Uuid) (script : Script Unit) : Prop := ∃ h, Safe (fun _ => OwnCall id) h script

def Task.Serves (id : Uuid) : Task → Prop
  | .ready script => Api.Serves id script
  | .awaiting _ resume => ∀ r, Api.Serves id (resume r)

def Reservation.Serves (r : Reservation) : Prop :=
  match r.phase with
  | .committed task => task.Serves r.jobId
  | _ => True

theorem Serves.call {id : Uuid} {e : TaskCall} {k : TaskResponse e → Script Unit} (h : Serves id (.call e k)) :
    OwnCall id e ∧ ∀ r, Serves id (k r) := by
  obtain ⟨_, he, hk⟩ := h
  exact ⟨he, fun r => ⟨_, hk r⟩⟩

theorem serves_selfUpdateTask (name : String) (id : Uuid) : Serves id (selfUpdateTask name id) := by
  refine ⟨[], rfl, fun r => ?_⟩
  cases r with
  | ok _ => exact ⟨rfl, fun _ => ⟨rfl, fun _ => trivial⟩⟩
  | error e => exact ⟨rfl, fun _ => ⟨rfl, fun _ => trivial⟩⟩

theorem willRelease_selfUpdateTask (name : String) (id : Uuid) : WillRelease id (selfUpdateTask name id) := by
  refine .inr fun r => ?_
  cases r with
  | ok _ => exact .inr fun _ => .inl rfl
  | error e => exact .inr fun _ => .inl rfl

/-- What one step of such a task does to the agent. -/
theorem runTask_serves {w w' : World} {x : Answers} {id : Uuid} {script : Script Unit} {task : Task}
    (h : Serves id script) (hr : runTask w x script = some (w', task)) :
    task.Serves id ∧ ∃ a, w.step a = some w' ∧
      (a = .dispatch id ∨ ∃ o k, a = .op o ∧ OwnCall id (.op o) ∧ script = .call (.op o) k) ∧
      (WillRelease id script → task.WillRelease id ∨ a = .op (.releaseSelfUpdate id)) := by
  cases runTask_cases hr with
  | dispatched id' closure k _ hv =>
    obtain ⟨he, hk⟩ := h.call
    obtain rfl : id' = id := he
    refine ⟨hk, _, hv, .inl rfl, fun hw => .inl ?_⟩
    rcases hw with hw | hw
    · cases hw
    · exact hw
  | performed e k _ r hp =>
    obtain ⟨he, hk⟩ := h.call
    cases perform_cases hp with
    | op o _ hv =>
      refine ⟨hk (), _, hv, .inr ⟨o, k, rfl, he, rfl⟩, fun hw => ?_⟩
      rcases hw with hw | hw
      · cases hw
        exact .inr rfl
      · exact .inl (hw ())
    | _ => exact he.elim

/-! ## Other jobs -/

/-- An operation of the task of a self-update changes no other job. -/
theorem apply_own {env : Env} {s : SchedulerState} {o : SchedOp} {id k : Uuid} (ho : OwnCall id (.op o)) (hk : k ≠ id) :
    (o.apply env s).jobs.get? k = s.jobs.get? k := by
  cases o with
  | completeJob id' =>
    obtain rfl : id' = id := ho
    simp only [SchedOp.apply, SchedulerState.completeJob_get?, hk, if_false]
  | failJobWithDiagnostics id' e =>
    obtain rfl : id' = id := ho
    simp only [SchedOp.apply, SchedulerState.failJobWithDiagnostics_get?, hk, if_false]
  | releaseSelfUpdate id' =>
    rcases s.releaseSelfUpdate_spec id' with ⟨_, he⟩ | ⟨_, _, _, he⟩
    · simp only [SchedOp.apply, he]
    · simp only [SchedOp.apply, he, SchedulerState.notifyOne_jobs]
  | _ => exact ho.elim

/-! ## The invariant -/

/-- What every run keeps. -/
structure Owned (u : Upgrades) : Prop where
  issued : ∀ r ∈ u.reservations, r.jobId ∈ u.world.issued
  distinct : ∀ (i i' : Nat) (r r' : Reservation), u.reservations[i]? = some r → u.reservations[i']? = some r' →
    r.jobId = r'.jobId → i = i'
  live : ∀ su, u.world.sched.selfUpdate = some su → ∃ r ∈ u.reservations, r.jobId = su.jobId ∧ r.Releaser
  serves : ∀ r ∈ u.reservations, r.Serves

theorem startup_owned {u : Upgrades} (h : u.Startup) : Owned u := by
  obtain ⟨⟨_, _, _, hs, _, _⟩, hr⟩ := h
  refine ⟨by simp [hr], by simp [hr], fun su hsu => ?_, by simp [hr]⟩
  rw [hs] at hsu
  cases hsu

section Owned

variable {u : Upgrades} {w' : World}

theorem Owned.accounted (h : Owned u) : Accounted u := by
  refine ⟨h.live, fun r hr hended su hsu hid => ?_⟩
  obtain ⟨r', hr', hid', hrel⟩ := h.live su hsu
  obtain ⟨i, hi⟩ := List.getElem?_of_mem hr
  obtain ⟨i', hi'⟩ := List.getElem?_of_mem hr'
  obtain rfl := h.distinct i i' r r' hi hi' (by rw [hid', hid])
  rw [hi] at hi'
  cases hi'
  exact hended.not_releaser hrel

/-- The agent changed, and the self-update stays or is given up. -/
theorem Owned.evolve (h : Owned u) (hissued : u.world.issued ⊆ w'.issued)
    (hsu : ∀ su, w'.sched.selfUpdate = some su → u.world.sched.selfUpdate = some su) : Owned ⟨w', u.reservations⟩ :=
  ⟨fun r hr => hissued (h.issued r hr), h.distinct, fun su hs => h.live su (hsu su hs), h.serves⟩

/-- A reservation enters its next phase. -/
theorem Owned.setPhase (h : Owned u) {i : Nat} {id : Uuid} {old phase : GuardPhase}
    (hi : u.reservations[i]? = some ⟨id, old⟩) (hserves : Reservation.Serves ⟨id, phase⟩)
    (hlive : ∀ su, u.world.sched.selfUpdate = some su → su.jobId = id → Reservation.Releaser ⟨id, old⟩ →
      Reservation.Releaser ⟨id, phase⟩) : Owned (u.setPhase i id phase) := by
  have hget : ∀ (m : Nat) (r : Reservation), (u.reservations.set i ⟨id, phase⟩)[m]? = some r →
      ∃ r', u.reservations[m]? = some r' ∧ r'.jobId = r.jobId := by
    intro m r hm
    rcases Entries.set_cases hm with ⟨rfl, rfl⟩ | ⟨_, hm⟩
    · exact ⟨_, hi, rfl⟩
    · exact ⟨r, hm, rfl⟩
  refine ⟨fun r hr => ?_, fun m m' r r' hm hm' hid => ?_, fun su hsu => ?_, fun r hr => ?_⟩
  · rcases List.mem_or_eq_of_mem_set hr with hr | rfl
    · exact h.issued r hr
    · exact h.issued ⟨id, old⟩ (List.mem_of_getElem? hi)
  · obtain ⟨x, hx, hxid⟩ := hget m r hm
    obtain ⟨x', hx', hxid'⟩ := hget m' r' hm'
    exact h.distinct m m' x x' hx hx' (by rw [hxid, hxid', hid])
  · obtain ⟨r, hr, hid, hrel⟩ := h.live su hsu
    obtain ⟨m, hm⟩ := List.getElem?_of_mem hr
    by_cases hmi : m = i
    · subst hmi
      rw [hi] at hm
      cases hm
      exact ⟨⟨id, phase⟩, List.mem_iff_getElem?.2 ⟨m, Entries.set_self hi⟩, hid, hlive su hsu hid.symm hrel⟩
    · exact ⟨r, List.mem_iff_getElem?.2 ⟨m, (Entries.set_ne hmi).trans hm⟩, hid, hrel⟩
  · rcases List.mem_or_eq_of_mem_set hr with hr | rfl
    · exact h.serves r hr
    · exact hserves

/-- A granted reservation is held by its guard. -/
theorem Owned.reserve (h : Owned u) {newId : Uuid} {packages : List String} {v t : String} {u' : Upgrades}
    (hs : u.reserve newId packages v t = some u') : Owned u' := by
  obtain ⟨w', hw, rfl⟩ := Option.map_eq_some_iff.1 hs
  cases World.step_cases hw with
  | op _ hid =>
    rcases u.world.sched.tryReserveSelfUpdate_spec u.world.env newId packages v t with
      ⟨e, he⟩ | ⟨_, _, _, _, _, hok, hfr, _⟩
    · rw [he]
      exact h.evolve (List.subset_append_right _ _) fun su hsu => by simpa only [SchedOp.apply, he] using hsu
    · rw [hok]
      have hnew : newId ∉ u.world.issued := hid newId rfl
      refine ⟨fun r hr => ?_, fun i i' r r' hi hi' he => ?_, fun su hsu => ?_, fun r hr => ?_⟩
      · rcases List.mem_append.1 hr with hr | hr
        · exact List.mem_cons_of_mem _ (h.issued r hr)
        · rw [List.mem_singleton.1 hr]
          exact List.mem_cons_self
      · rcases Entries.append_cases hi with hi | ⟨rfl, rfl⟩ <;> rcases Entries.append_cases hi' with hi' | ⟨rfl, rfl⟩
        · exact h.distinct i i' r r' hi hi' he
        · have hin := h.issued r (List.mem_of_getElem? hi)
          rw [he] at hin
          exact absurd hin hnew
        · have hin := h.issued r' (List.mem_of_getElem? hi')
          rw [← he] at hin
          exact absurd hin hnew
        · rfl
      · simp only [SchedOp.apply, hfr.selfUpdate] at hsu
        cases hsu
        exact ⟨⟨newId, .held⟩, by simp, rfl, trivial⟩
      · rcases List.mem_append.1 hr with hr | hr
        · exact h.serves r hr
        · rw [List.mem_singleton.1 hr]
          trivial

end Owned

/-! ## Steps -/

/-- Nothing but a reservation reserves. -/
theorem step_keeps {w w' : World} {a : Act} (hs : w.step a = some w')
    (hn : ∀ id ps v t, a ≠ .op (.tryReserveSelfUpdate id ps v t)) {su : UpgradeOperation}
    (hsu : w'.sched.selfUpdate = some su) : w.sched.selfUpdate = some su := by
  have hf : IsStep agent ⟨w, a, w'⟩ := hs
  rcases step_selfUpdate hf with hsame | ⟨id, ps, v, t, ha, _⟩ | ⟨_, _, _, _, _, hnone⟩
  · exact hsame ▸ hsu
  · exact absurd ha (hn id ps v t)
  · rw [hnone] at hsu
    cases hsu

/-- After the release or the roll-back of a self-update it is not the reserved one. -/
theorem step_released {w w' : World} {o : SchedOp} {id : Uuid} (hs : w.step (.op o) = some w')
    (ho : o.ReleasesUpdate id) {su : UpgradeOperation} (hsu : w'.sched.selfUpdate = some su) : su.jobId ≠ id := by
  cases World.step_cases hs with
  | op _ _ =>
    rcases ho with rfl | rfl
    · simp only [SchedOp.apply] at hsu
      rcases w.sched.releaseSelfUpdate_spec id with ⟨hne, he⟩ | ⟨_, _, _, he⟩
      · rw [he] at hsu
        exact hne su hsu
      · rw [he] at hsu
        cases hsu
    · simp only [SchedOp.apply] at hsu
      rcases w.sched.rollbackSelfUpdate_selfUpdate id with he | ⟨he, hne⟩
      · rw [he] at hsu
        cases hsu
      · exact hne su (he ▸ hsu)

/-- What a step of the machine is to the agent under it. -/
inductive UpgradeStep (u : Upgrades) : UpgradeAct → Upgrades → Prop
  | reserve (newId : Uuid) (packages : List String) (v t : String) (u' : Upgrades) :
      u.reserve newId packages v t = some u' → UpgradeStep u (.reserve newId packages v t) u'
  | commit (i : Nat) (name : String) (id : Uuid) : u.reservations[i]? = some ⟨id, .held⟩ →
      UpgradeStep u (.commit i name) (u.setPhase i id (.committed (.ready (selfUpdateTask name id))))
  | drop (i : Nat) (id : Uuid) : u.reservations[i]? = some ⟨id, .held⟩ →
      UpgradeStep u (.drop i) (u.setPhase i id .dropped)
  | rollBack (i : Nat) (id : Uuid) (w' : World) : u.reservations[i]? = some ⟨id, .dropped⟩ →
      u.world.step (.op (.rollbackSelfUpdate id)) = some w' →
      UpgradeStep u (.rollBack i) (Upgrades.setPhase ⟨w', u.reservations⟩ i id .rolledBack)
  | run (i : Nat) (x : Answers) (id : Uuid) (script : Script Unit) (w' : World) (task : Task) :
      u.reservations[i]? = some ⟨id, .committed (.ready script)⟩ → runTask u.world x script = some (w', task) →
      UpgradeStep u (.run i x) (Upgrades.setPhase ⟨w', u.reservations⟩ i id (.committed task))
  | resume (i c : Nat) (id : Uuid) (resume : MutationResult → Script Unit) (r : MutationResult) :
      u.reservations[i]? = some ⟨id, .committed (.awaiting c resume)⟩ → returned? u.world c = some r →
      UpgradeStep u (.resume i) (u.setPhase i id (.committed (.ready (resume r))))
  | other (act : UpgradeAct) (a : Act) (w' : World) : u.world.step a = some w' →
      (∀ o, a = .op o → isReservationOp o = false ∧ act = .op o) →
      (∀ i, act ≠ .rollBack i) → (∀ i x, act ≠ .run i x) → UpgradeStep u act ⟨w', u.reservations⟩

theorem Upgrades.step_cases {u u' : Upgrades} {act : UpgradeAct} (h : u.step act = some u') : UpgradeStep u act u' := by
  cases act with
  | reserve newId packages v t => exact .reserve newId packages v t u' h
  | commit i name =>
    simp only [Upgrades.step] at h
    split at h
    next id hi => cases h; exact .commit i name id hi
    next => cases h
  | drop i =>
    simp only [Upgrades.step] at h
    split at h
    next id hi => cases h; exact .drop i id hi
    next => cases h
  | rollBack i =>
    simp only [Upgrades.step] at h
    split at h
    next id hi =>
      simp only [Upgrades.within, Option.map_map, Option.map_eq_some_iff] at h
      obtain ⟨w', hw, rfl⟩ := h
      exact .rollBack i id w' hi hw
    next => cases h
  | run i x =>
    simp only [Upgrades.step] at h
    split at h
    next id script hi =>
      obtain ⟨⟨w', task⟩, hr, rfl⟩ := Option.map_eq_some_iff.1 h
      exact .run i x id script w' task hi hr
    next => cases h
  | resume i =>
    simp only [Upgrades.step] at h
    split at h
    next id c resume hi =>
      obtain ⟨r, hr, rfl⟩ := Option.map_eq_some_iff.1 h
      exact .resume i c id resume r hi hr
    next => cases h
  | op o =>
    simp only [Upgrades.step] at h
    split at h
    · cases h
    next ho =>
      obtain ⟨w', hw, rfl⟩ := Option.map_eq_some_iff.1 h
      refine .other _ _ w' hw (fun o' he => ?_) (fun _ => nofun) (fun _ _ => nofun)
      cases he
      exact ⟨by simpa using ho, rfl⟩
  | dispatch jobId =>
    simp only [Upgrades.step, Upgrades.within, Option.map_eq_some_iff] at h
    obtain ⟨w', hw, rfl⟩ := h
    exact .other _ _ w' hw (fun _ => nofun) (fun _ => nofun) (fun _ _ => nofun)
  | call c a =>
    simp only [Upgrades.step] at h
    split at h
    · cases h
    · obtain ⟨w', hw, rfl⟩ := Option.map_eq_some_iff.1 h
      exact .other _ _ w' hw (fun _ => nofun) (fun _ => nofun) (fun _ _ => nofun)
  | tick n =>
    simp only [Upgrades.step, Upgrades.within, Option.map_eq_some_iff] at h
    obtain ⟨w', hw, rfl⟩ := h
    exact .other _ _ w' hw (fun _ => nofun) (fun _ => nofun) (fun _ _ => nofun)

theorem step_issued_subset {w w' : World} {a : Act} (hs : w.step a = some w') : w.issued ⊆ w'.issued :=
  step_issued (f := ⟨w, a, w'⟩) hs

theorem owned_step {f : Fired Upgrades UpgradeAct} (hf : IsStep upgrades f) (h : Owned f.pre) : Owned f.post := by
  obtain ⟨u, act, u'⟩ := f
  have hs : UpgradeStep u act u' := Upgrades.step_cases hf
  simp only at h ⊢
  cases hs with
  | reserve newId packages v t _ hr => exact h.reserve hr
  | commit i name id hi =>
    exact h.setPhase hi (serves_selfUpdateTask name id) fun _ _ _ _ => willRelease_selfUpdateTask name id
  | drop i id hi => exact h.setPhase hi trivial fun _ _ _ _ => trivial
  | rollBack i id w' hi hw =>
    have hkeep : ∀ su, w'.sched.selfUpdate = some su → u.world.sched.selfUpdate = some su :=
      fun su => step_keeps hw fun _ _ _ _ => nofun
    -- what is reserved after a roll-back is not the self-update of its guard
    exact (h.evolve (step_issued_subset hw) hkeep).setPhase hi trivial fun su hsu hid _ =>
      absurd hid (step_released hw (.inr rfl) hsu)
  | run i x id script w' task hi hr =>
    have hserves : Serves id script := h.serves _ (List.mem_of_getElem? hi)
    obtain ⟨htask, a, hw, ha, hrel⟩ := runTask_serves hserves hr
    have hkeep : ∀ su, w'.sched.selfUpdate = some su → u.world.sched.selfUpdate = some su := by
      refine fun su => step_keeps hw fun id' ps v t he => ?_
      rcases ha with rfl | ⟨o, _, rfl, ho, _⟩
      · cases he
      · cases he
        exact ho
    refine (h.evolve (step_issued_subset hw) hkeep).setPhase hi htask fun su hsu hid hwill => ?_
    -- the release is still ahead, or this call was it
    rcases hrel hwill with hwill | rfl
    · exact hwill
    · exact absurd hid (step_released hw (.inl rfl) hsu)
  | resume i c id resume r hi hr =>
    have hserves : ∀ r, Serves id (resume r) := h.serves _ (List.mem_of_getElem? hi)
    exact h.setPhase hi (hserves r) fun _ _ _ hwill => hwill r
  | other act a w' hw ho _ _ =>
    refine h.evolve (step_issued_subset hw) fun su => step_keeps hw fun id ps v t ha => ?_
    have := (ho _ ha).1
    cases this

/-- A step clears the reserved self-update only as its release or the roll-back of its guard. -/
theorem step_cleared {w w' : World} {a : Act} (hs : w.step a = some w') {su : UpgradeOperation}
    (hsu : w.sched.selfUpdate = some su) (hne : w'.sched.selfUpdate ≠ some su) :
    w'.sched.selfUpdate = none ∧ ∃ o, a = .op o ∧ o.ReleasesUpdate su.jobId := by
  have hf : IsStep agent ⟨w, a, w'⟩ := hs
  rcases step_selfUpdate hf with hsame | ⟨_, _, _, _, _, _, hnone, _⟩ | ⟨su', o, ha, hsu', hrel, hnone⟩
  · exact absurd (hsame.trans hsu) hne
  · simp only [hsu] at hnone
    cases hnone
  · simp only [hsu] at hsu'
    cases hsu'
    exact ⟨hnone, o, ha, hrel⟩

theorem ReleasedByOwner.of_same {f : Fired Upgrades UpgradeAct} (h : f.post.world = f.pre.world) :
    ReleasedByOwner f := by
  refine ⟨fun su hsu hne => ?_, fun i r _ _ => ⟨fun su hsu _ => ?_, fun k _ => ?_⟩, fun k j hj hn => ?_⟩
  · rw [h] at hne
    exact absurd hsu hne
  · rw [h]
    exact hsu
  · rw [h]
  · rw [h, hj] at hn
    cases hn

/-- The agent made a step, of which reservations are responsible for what only they may do. -/
theorem ReleasedByOwner.of_step {f : Fired Upgrades UpgradeAct} {a : Act} (hw : f.pre.world.step a = some f.post.world)
    (hrel : ∀ o id, a = .op o → o.ReleasesUpdate id → ∃ i r, r.jobId = id ∧ (RollsBackGuard f i r ∨ RunsRelease f i r))
    (hjobs : ∀ i r, f.pre.reservations[i]? = some r → (f.act = .rollBack i ∨ ∃ x, f.act = .run i x) →
      ∀ k, k ≠ r.jobId → f.post.world.sched.jobs.get? k = f.pre.world.sched.jobs.get? k)
    (hdelete : ∀ k, a = .op (.deleteJob k) → f.act = .op (.deleteJob k))
    (hback : ∀ k, a = .op (.rollbackSelfUpdate k) → ∃ i r, r.jobId = k ∧ RollsBackGuard f i r) : ReleasedByOwner f := by
  have cleared : ∀ su, f.pre.world.sched.selfUpdate = some su → f.post.world.sched.selfUpdate ≠ some su →
      f.post.world.sched.selfUpdate = none ∧
        ∃ i r, r.jobId = su.jobId ∧ (RollsBackGuard f i r ∨ RunsRelease f i r) := by
    intro su hsu hne
    obtain ⟨hnone, o, ha, ho⟩ := step_cleared hw hsu hne
    exact ⟨hnone, hrel o su.jobId ha ho⟩
  refine ⟨cleared, fun i r hi hact => ⟨fun su hsu hid => ?_, hjobs i r hi hact⟩, fun k j hj hn => ?_⟩
  · by_contra hne
    obtain ⟨_, i', r', hid', hown⟩ := cleared su hsu hne
    -- the one reservation that makes this step is the one that gives itself up
    have hii : i' = i ∧ f.pre.reservations[i']? = some r' := by
      rcases hown with ⟨hi', hact'⟩ | ⟨hi', ⟨x', hact'⟩, _⟩ <;> rcases hact with hact | ⟨x, hact⟩ <;>
        rw [hact] at hact' <;> cases hact' <;> exact ⟨rfl, hi'⟩
    obtain ⟨rfl, hi'⟩ := hii
    rw [hi] at hi'
    cases hi'
    exact hid hid'.symm
  · have hf : IsStep agent ⟨f.pre.world, a, f.post.world⟩ := hw
    rcases step_removed hf hj hn with ha | ha
    · exact .inl (hdelete k ha)
    · exact .inr (hback k ha)

theorem released_step {f : Fired Upgrades UpgradeAct} (hf : IsStep upgrades f) (h : Owned f.pre) :
    ReleasedByOwner f := by
  obtain ⟨u, act, u'⟩ := f
  have hs : UpgradeStep u act u' := Upgrades.step_cases hf
  simp only at h
  cases hs with
  | commit | drop | resume => exact .of_same rfl
  | reserve newId packages v t _ hr =>
    have hw : u.world.step (.op (.tryReserveSelfUpdate newId packages v t)) = some u'.world := by
      obtain ⟨w', hw, rfl⟩ := Option.map_eq_some_iff.1 hr
      rw [hw]
      split <;> rfl
    refine .of_step hw (fun o id ha ho => ?_) (fun i r _ hact => ?_) (fun _ => nofun) (fun _ => nofun)
    · cases ha
      rcases ho with ho | ho <;> cases ho
    · rcases hact with hact | ⟨x, hact⟩ <;> cases hact
  | rollBack i id w' hi hw =>
    refine .of_step hw (fun o id' ha ho => ?_) (fun i' r hi' hact k hk => ?_) (fun _ => nofun) (fun k ha => ?_)
    · cases ha
      rcases ho with ho | ho <;> cases ho
      exact ⟨i, _, rfl, .inl ⟨hi, rfl⟩⟩
    · rcases hact with hact | ⟨x, hact⟩ <;> cases hact
      rw [hi] at hi'
      cases hi'
      cases World.step_cases hw
      simp only [Upgrades.setPhase, SchedOp.apply, SchedulerState.rollbackSelfUpdate_get?, if_neg hk]
    · cases ha
      exact ⟨i, _, rfl, hi, rfl⟩
  | run i x id script w' task hi hr =>
    have hserves : Serves id script := h.serves _ (List.mem_of_getElem? hi)
    obtain ⟨_, a, hw, ha, _⟩ := runTask_serves hserves hr
    have own : ∀ o, a = .op o → OwnCall id (.op o) ∧ ∃ k, script = .call (.op o) k := by
      rintro o rfl
      rcases ha with ha | ⟨_, k, ha, ho, hk⟩ <;> cases ha
      exact ⟨ho, k, hk⟩
    refine .of_step hw (fun o id' ha' hrel => ?_) (fun i' r hi' hact k hk => ?_) (fun k ha' => ?_) (fun k ha' => ?_)
    · obtain ⟨ho, k, rfl⟩ := own o ha'
      rcases hrel with rfl | rfl
      · obtain rfl : id' = id := ho
        exact ⟨i, _, rfl, .inr ⟨hi, ⟨x, rfl⟩, k, rfl⟩⟩
      · exact ho.elim
    · rcases hact with hact | ⟨x, hact⟩ <;> cases hact
      rw [hi] at hi'
      cases hi'
      cases World.step_cases hw with
      | op o _ => exact apply_own (own o rfl).1 hk
      | dispatch => rfl
      | _ => rcases ha with ha | ⟨_, _, ha, _⟩ <;> cases ha
    · exact (own _ ha').1.elim
    · exact (own _ ha').1.elim
  | other act a w' hw ho hnb hnr =>
    refine .of_step hw (fun o id ha hrel => ?_) (fun i r _ hact => ?_) (fun k ha => (ho _ ha).2) (fun k ha => ?_)
    · have := (ho o ha).1
      rcases hrel with rfl | rfl <;> cases this
    · rcases hact with hact | ⟨x, hact⟩
      · exact absurd hact (hnb i)
      · exact absurd hact (hnr i x)
    · have := (ho _ ha).1
      cases this

/-! ## Runs -/

/-- On every run from startup the reserved self-update has a releaser, and it is given up by its own
releaser only, whose step leaves all other reservations and jobs alone. -/
theorem selfUpdate_accounted {u u' : Upgrades} {tr : List (Fired Upgrades UpgradeAct)} (hu : u.Startup)
    (hr : Run upgrades u tr u') : (∀ v ∈ states u tr, Accounted v) ∧ ∀ f ∈ tr, ReleasedByOwner f := by
  have h0 := startup_owned hu
  have howned := hr.always_at (I := Owned) (fun f hf h => owned_step hf h) h0
  exact ⟨forall_states h0.accounted fun f hf => (howned f hf).2.accounted,
    fun f hf => released_step (hr.step_of_mem f hf) (howned f hf).1⟩

/-- A guard is dropped; before its roll-back runs, a forced reboot fails its job, is rolled back, and the
job is deleted. The next self-update is updated for real. -/
def lateRollBack : List UpgradeAct :=
  let x : Answers := ⟨0, .error (anyhow ""), .ok ()⟩
  [.reserve 1 ["linux-patch-api"] "" "", .drop 0, .op (.reserveReboot 2 true true),
    .op (.rollbackReboot 2 (some "Reboot failed: no")), .op (.deleteJob 1), .rollBack 0,
    .reserve 3 ["linux-patch-api"] "" "", .commit 1 "linux-patch-api", .run 1 x, .call 0 .check, .call 0 .spawnWatchdog,
    .call 0 .startWatchdog, .call 0 .runClosure, .call 0 (.exitClosure (.ok ())), .call 0 .join, .call 0 .finalize,
    .call 0 .receive, .resume 1, .run 1 x, .op (.reserveReboot 4 true true), .run 1 x]

theorem selfUpdate_accounted_late :
    (∀ v ∈ states ⟨freshAgent 2 10, []⟩ ((trace upgrades ⟨freshAgent 2 10, []⟩ lateRollBack).getD []), Accounted v) ∧
      ∀ f ∈ (trace upgrades ⟨freshAgent 2 10, []⟩ lateRollBack).getD [], ReleasedByOwner f :=
  selfUpdate_accounted ⟨freshAgent_startup 2 10, rfl⟩ (run_trace upgrades _ lateRollBack (by decide))

end LinuxPatchApi.Api
