/-
Internal jobs over restarts: the process with the history that its calls of `persist_jobs` leave on disk,
and the processes that follow it. Validated package names are never the names of tracking jobs, and what
is loaded was admitted earlier; but a rollback copies the package names of its original, and that may be a
refresh which is over and not deleted yet.
-/
import LinuxPatchApi.Api.Process
import LinuxPatchApi.Jobs.Restarts

namespace LinuxPatchApi.Api

open Interaction LinuxPatchApi.Packages LinuxPatchApi.Jobs Transition

/-! ## The installation -/

/-- The running process and its state directory. -/
structure Installation where
  service : Service
  dir : StateDir

/-- How a new process starts; the history may fail to load. -/
structure Boot where
  seconds : Nat
  bootId : Option String
  maxConcurrent : Nat
  maxQueueDepth : Nat
  readable : Bool

inductive InstallationAct where
  | process (a : ProcessAct)
  /-- The caller of mutation number `c` is dropped, as when the runtime shuts down. -/
  | drop (c : Nat)
  | persist (a : PersistAct)
  /-- The process is gone, at whatever point, and another one starts. -/
  | restart (b : Boot)

def Installation.loaded (h : Installation) (b : Boot) : List Job :=
  if b.readable then (h.dir.files.get? .jobsPath).getD [] else []

def Installation.restarted (h : Installation) (b : Boot) : Installation where
  service := {
    world := {
      sched := SchedulerState.startup ⟨h.service.world.clock + b.seconds, b.bootId⟩ b.maxConcurrent b.maxQueueDepth
        (h.loaded b)
      clock := h.service.world.clock + b.seconds
      bootId := b.bootId
      issued := (h.loaded b).map Job.id ++ h.service.world.issued
      calls := [] }
    tasks := [] }
  dir := { files := h.dir.files, counter := 0, persists := [], snapshots := [] }

def Installation.step (h : Installation) : InstallationAct → Option Installation
  | .process a => (h.service.processStep a).map fun s => { h with service := s }
  | .drop c => (h.service.world.step (.call c .drop)).map fun w => { h with service := { h.service with world := w } }
  | .persist a => (h.dir.step h.service.world.sched.jobs.values a).map fun d => { h with dir := d }
  | .restart b => some (h.restarted b)

/-- The first start of the agent, with no history on the disk. -/
def Installation.First (h : Installation) : Prop :=
  (∃ maxConcurrent maxQueueDepth,
    h.service.world.sched = SchedulerState.startup h.service.world.env maxConcurrent maxQueueDepth []) ∧
  h.service.world.calls = [] ∧ h.service.tasks = [] ∧ h.dir.Fresh ∧ ∀ p, h.dir.files.get? p = none

def installation : Machine Installation InstallationAct := ⟨Installation.First, Installation.step⟩

/-! ## Names of tracking jobs -/

/-- The test that `is_internal` makes on each package name. -/
def isTracker (p : String) : Bool := Text.startsWith p "__" && Text.endsWith p "__"

/-- No validated name passes it. -/
theorem not_isTracker {p : String} (h : beginsAlphanumeric p = true) : isTracker p = false := by
  rw [isTracker, Bool.and_eq_false_iff]
  refine .inl (Bool.eq_false_iff.2 fun hs => ?_)
  rw [Text.startsWith, List.isPrefixOf_iff_prefix] at hs
  obtain ⟨t, ht⟩ := hs
  simp only [beginsAlphanumeric, ← ht] at h
  have hunderscore : Text.isAsciiAlphanumeric '_' = true := h
  exact absurd hunderscore (by decide)

/-- No package of the list is the name of a tracking job. -/
def Plain (packages : List String) : Prop := packages.any isTracker = false

theorem plain_of_valid {packages : List String} (h : ∀ p ∈ packages, beginsAlphanumeric p = true) : Plain packages :=
  List.any_eq_false.2 fun p hp => by simp [not_isTracker (h p hp)]

theorem Plain.not_internal {j : Job} (h : Plain j.packages) : j.isInternal = false := h

/-! ## What tasks ask for -/

/-- Every call that the script can make satisfies `P`. -/
def Asks (P : TaskCall → Prop) : Script Unit → Prop
  | .pure () => True
  | .call e k => P e ∧ ∀ r, Asks P (k r)

theorem Asks.mono {P Q : TaskCall → Prop} (h : ∀ e, P e → Q e) : ∀ {script : Script Unit}, Asks P script → Asks Q script
  | .pure (), _ => trivial
  | .call e _, hs => ⟨h e hs.1, fun r => (hs.2 r).mono h⟩

/-- What the tasks of the other requests ask for: they admit no job, and no mutation of theirs is a background
refresh. -/
def Ordinary : TaskCall → Prop
  | .admitJob _ _ => False
  | .dispatchMutation _ closure => ∀ origin, closure ≠ .cacheRefresh origin
  | .op o => o.newId = none ∧ o.isUpdateJob = false
  | .reserveReboot _ _ | .beginRebootExecution _ | .getSystemInfo | .rebootSystem _ => True

theorem ordinary_mutationTask {closure : MutationClosure} (h : ∀ origin, closure ≠ .cacheRefresh origin) (id : Uuid) :
    Asks Ordinary (mutationTask closure id) := by
  refine ⟨h, fun r => ?_⟩
  cases r with
  | ok _ => exact ⟨⟨rfl, rfl⟩, fun _ => trivial⟩
  | error e => exact ⟨⟨rfl, rfl⟩, fun _ => trivial⟩

theorem ordinary_selfUpdateTask (name : String) (id : Uuid) : Asks Ordinary (selfUpdateTask name id) := by
  refine ⟨fun _ => MutationClosure.noConfusion, fun r => ?_⟩
  cases r with
  | ok _ => exact ⟨⟨rfl, rfl⟩, fun _ => ⟨⟨rfl, rfl⟩, fun _ => trivial⟩⟩
  | error e => exact ⟨⟨rfl, rfl⟩, fun _ => ⟨⟨rfl, rfl⟩, fun _ => trivial⟩⟩

theorem ordinary_rebootReserved (id rebootJobId : Uuid) (delaySeconds : Nat) :
    Asks Ordinary (rebootReserved id rebootJobId delaySeconds) := by
  refine ⟨⟨rfl, rfl⟩, fun _ => ⟨⟨rfl, rfl⟩, fun _ => ⟨trivial, fun begun => ?_⟩⟩⟩
  cases begun with
  | false => exact ⟨⟨rfl, rfl⟩, fun _ => ⟨⟨rfl, rfl⟩, fun _ => ⟨⟨rfl, rfl⟩, fun _ => trivial⟩⟩⟩
  | true =>
    refine ⟨trivial, fun r => ?_⟩
    cases r with
    | ok _ => exact ⟨⟨rfl, rfl⟩, fun _ => trivial⟩
    | error e => exact ⟨⟨rfl, rfl⟩, fun _ => ⟨⟨rfl, rfl⟩, fun _ =>
      ⟨⟨rfl, rfl⟩, fun _ => ⟨⟨rfl, rfl⟩, fun _ => trivial⟩⟩⟩⟩

theorem ordinary_rebootAfterPatches (id : Uuid) (delaySeconds : Nat) :
    Asks Ordinary (rebootAfterPatches id delaySeconds) := by
  refine ⟨⟨rfl, rfl⟩, fun _ => ⟨trivial, fun r => ?_⟩⟩
  cases r with
  | ok rebootJobId => exact ordinary_rebootReserved id rebootJobId delaySeconds
  | error e => exact ⟨⟨rfl, rfl⟩, fun _ => ⟨⟨rfl, rfl⟩, fun _ => trivial⟩⟩

theorem ordinary_patchTask (packages : Option (List String)) (allowReboot : Bool) (delaySeconds : Nat) (id : Uuid) :
    Asks Ordinary (patchTask packages allowReboot delaySeconds id) := by
  refine ⟨⟨rfl, rfl⟩, fun _ => ⟨fun _ => MutationClosure.noConfusion, fun r => ?_⟩⟩
  cases r with
  | error e => exact ⟨⟨rfl, rfl⟩, fun _ => trivial⟩
  | ok _ =>
    cases allowReboot with
    | false => exact ⟨⟨rfl, rfl⟩, fun _ => trivial⟩
    | true =>
      refine ⟨trivial, fun info => ?_⟩
      show Asks Ordinary (if shouldReboot packages info then rebootAfterPatches id delaySeconds else _)
      split
      · exact ordinary_rebootAfterPatches id delaySeconds
      · exact ⟨⟨rfl, rfl⟩, fun _ => ⟨⟨rfl, rfl⟩, fun _ => trivial⟩⟩

theorem ordinary_rebootTask (delaySeconds : Nat) (id : Uuid) : Asks Ordinary (rebootTask delaySeconds id) := by
  refine ⟨trivial, fun begun => ?_⟩
  cases begun with
  | false => exact trivial
  | true =>
    refine ⟨trivial, fun r => ?_⟩
    cases r <;> exact ⟨⟨rfl, rfl⟩, fun _ => trivial⟩

/-- What follows in a background refresh when its job is admitted. -/
def refreshAdmitted (origin : RefreshOrigin) (id : Uuid) : Script Unit := do
  match ← call (.dispatchMutation id (.cacheRefresh origin)) with
  | .ok () =>
    op (.completeJob id)
    op (.deleteJob id)
  | .error e =>
    op (.failJob id e.display)
    op (.deleteJob id)

theorem refreshTask_eq (origin : RefreshOrigin) :
    ∃ k, refreshTask origin = .call (.admitJob .install [origin.tracker]) k ∧
    ∀ r, k r = match r with
      | .ok id => refreshAdmitted origin id
      | .error _ => .pure () :=
  ⟨_, rfl, fun r => by cases r <;> rfl⟩

theorem refreshAdmitted_eq (origin : RefreshOrigin) (id : Uuid) :
    ∃ k, refreshAdmitted origin id = .call (.dispatchMutation id (.cacheRefresh origin)) k ∧
      ∀ r, Asks Ordinary (k r) := by
  refine ⟨_, rfl, fun r => ?_⟩
  cases r <;> exact ⟨⟨rfl, rfl⟩, fun _ => ⟨⟨rfl, rfl⟩, fun _ => trivial⟩⟩

/-- The request of a poll that finds the cache stale. -/
def RefreshOrigin.stalePoll : RefreshOrigin → Request
  | .healthCheck => .healthCheck true
  | .patchList => .listPatches true

/-- Stale polls spawn background refreshes, and no other request does. -/
theorem handle_scripts {w w' : World} {newId : Uuid} {scripts : List (Script Unit)} {req : Request} {dropped : Bool}
    (h : req.handle w newId dropped = some (w', scripts)) :
    (∃ origin, req = RefreshOrigin.stalePoll origin ∧ w' = w ∧ scripts = [refreshTask origin]) ∨
      ∀ script ∈ scripts, Asks Ordinary script := by
  have admitted : ∀ {operation packages task}, (∀ id, Asks Ordinary (task id)) →
      Handlers.admitAndSpawn w newId operation packages task = some (w', scripts) →
        ∀ script ∈ scripts, Asks Ordinary script := by
    intro operation packages task ht h script hmem
    obtain ⟨v, _, he⟩ := Option.map_eq_some_iff.1 h
    split at he
    · cases he
      rw [List.mem_singleton.1 hmem]
      exact ht _
    · cases he
      cases hmem
  have nothing : (w, ([] : List (Script Unit))) = (w', scripts) →
    ∀ script ∈ scripts, Asks Ordinary script := fun h => by
    cases h
    exact fun script hmem => by cases hmem
  cases req with
  | installPackages packages options =>
    simp only [Request.handle, Handlers.installPackages] at h
    split at h
    · exact .inr (nothing (Option.some.inj h))
    · exact .inr (admitted (ordinary_mutationTask fun _ => MutationClosure.noConfusion) h)
  | updatePackage name =>
    simp only [Request.handle, Handlers.updatePackage] at h
    split at h
    · exact .inr (nothing (Option.some.inj h))
    split at h
    · refine .inr fun script hmem => ?_
      obtain ⟨v, _, he⟩ := Option.map_eq_some_iff.1 h
      split at he
      · cases he
        rw [List.mem_singleton.1 hmem]
        exact ordinary_selfUpdateTask name _
      · cases he
        cases hmem
    · exact .inr (admitted (ordinary_mutationTask fun _ => MutationClosure.noConfusion) h)
  | removePackage name =>
    simp only [Request.handle, Handlers.removePackage] at h
    split at h
    · exact .inr (nothing (Option.some.inj h))
    · exact .inr (admitted (ordinary_mutationTask fun _ => MutationClosure.noConfusion) h)
  | applyPatches packages allowReboot delaySeconds =>
    simp only [Request.handle, Handlers.applyPatches] at h
    split at h
    · exact .inr (nothing (Option.some.inj h))
    · exact .inr (admitted (ordinary_patchTask packages allowReboot delaySeconds) h)
  | listPatches stale =>
    cases h
    cases stale with
    | true => exact .inl ⟨.patchList, rfl, rfl, rfl⟩
    | false => exact .inr (nothing rfl)
  | healthCheck stale =>
    cases h
    cases stale with
    | true => exact .inl ⟨.healthCheck, rfl, rfl, rfl⟩
    | false => exact .inr (nothing rfl)
  | rebootSystem delaySeconds force ack =>
    refine .inr fun script hmem => ?_
    obtain ⟨v, _, he⟩ := Option.map_eq_some_iff.1 h
    split at he
    · cases he
      cases dropped with
      | true => cases hmem
      | false =>
        rw [List.mem_singleton.1 hmem]
        exact ordinary_rebootTask delaySeconds _
    · cases he
      cases hmem
  | rollbackJob original =>
    simp only [Request.handle, Handlers.rollbackJob, Option.map_eq_some_iff] at h
    obtain ⟨v, _, he⟩ := h
    cases he
    exact .inr fun script hmem => by cases hmem
  | deleteJob id =>
    simp only [Request.handle, Handlers.deleteJob, Option.map_eq_some_iff] at h
    obtain ⟨v, _, he⟩ := h
    cases he
    exact .inr fun script hmem => by cases hmem
  | listPackages | getPackage | getServiceStatus | getSystemInfo => exact .inr (nothing (Option.some.inj h))

/-- The call creates no internal job. -/
def Discreet : TaskCall → Prop
  | .admitJob _ packages => Plain packages
  | .op o => o.newId = none ∧ o.isUpdateJob = false
  | .reserveReboot _ _ | .beginRebootExecution _ | .dispatchMutation _ _ | .getSystemInfo | .rebootSystem _ => True

theorem Ordinary.discreet : ∀ e, Ordinary e → Discreet e
  | .op _, h => h
  | .reserveReboot _ _, _ | .beginRebootExecution _, _ | .dispatchMutation _ _, _ | .getSystemInfo, _
  | .rebootSystem _, _ => trivial

/-- The tasks of a process: background refreshes that have yet to be admitted, and scripts that are discreet
from where they are. -/
def DiscreetTask : Task → Prop
  | .ready script => (∃ origin, script = refreshTask origin) ∨ Asks Discreet script
  | .awaiting _ resume => ∀ r, Asks Discreet (resume r)

/-! ## Who creates internal jobs -/

/-- At this step a background refresh of the health check or of the patch list admits its job under `id`. -/
def AdmitsRefresh (f : Fired Installation InstallationAct) (id : Uuid) : Prop :=
  ∃ n x origin, f.act = .process (.service (.run n x)) ∧
    f.pre.service.tasks[n]? = some (.ready (refreshTask origin)) ∧ x.newId = id ∧
    (f.pre.service.world.sched.admitJob f.pre.service.world.env id .install [origin.tracker]).2 = .ok id

/-- A rollback of the job is admitted, and the job is internal. -/
def CopiesInternal (s : SchedulerState) (original : Uuid) : Prop :=
  RollbackAdmitted s original ∧ ∃ j, s.jobs.get? original = some j ∧ j.isInternal = true

/-- At this step a rollback request is admitted whose original is an internal job that is over. -/
def RollsBackInternal (f : Fired Installation InstallationAct) : Prop :=
  ∃ original newId dropped, f.act = .process (.service (.request (.rollbackJob original) newId dropped)) ∧
    CopiesInternal f.pre.service.world.sched original

/-- The job of a cache refresh. -/
def IsRefresh (j : Job) : Prop := j.operation = .install ∧ ∃ origin : RefreshOrigin, j.packages = [origin.tracker]

section World

variable {w w' : World}

/-- The step creates the job, or it was there before. -/
def Stems (w : World) (a : Act) (k : Uuid) (j' : Job) : Prop :=
  (∃ o, a = .op o ∧ Creates w.env w.sched o k j') ∨
    ∃ j, w.sched.jobs.get? k = some j ∧ j'.packages = j.packages ∧ j'.operation = j.operation

theorem world_stems {a : Act} (hs : w.step a = some w') (hu : a.isUpdateJob = false) {k : Uuid} {j' : Job}
    (h : w'.sched.jobs.get? k = some j') : Stems w a k j' := by
  have hf : IsStep agent ⟨w, a, w'⟩ := hs
  cases a with
  | op o =>
    cases World.step_cases hs
    rcases apply_creates hu h with hc | ⟨j, hj, hm⟩
    · exact .inl ⟨o, rfl, hc⟩
    · exact .inr ⟨j, hj, hm.packages, hm.operation⟩
  | dispatch | tick =>
    cases World.step_cases hs
    exact .inr ⟨j', h, rfl, rfl⟩
  | call c a =>
    rcases step_jobs hf hu h with ⟨hnew, hin, _⟩ | ⟨j, hj, hm | ⟨_, _, _, _, _, hps, hop⟩⟩
    · -- only operations draw ids
      cases World.step_cases hs
      exact absurd hin hnew
    · exact .inr ⟨j, hj, hm.packages, hm.operation⟩
    · exact .inr ⟨j, hj, hps, hop⟩

/-- An operation without a new id creates no job. -/
theorem not_creates {env : Env} {s : SchedulerState} {o : SchedOp} {k : Uuid} {j' : Job} (ho : o.newId = none) :
    ¬ Creates env s o k j' := fun hc => by
  rw [hc.new.1] at ho
  cases ho

end World

/-! ## Handlers and tasks -/

/-- What the internal jobs after a step are: those from before, or the tracking job of a refresh. -/
def Kept (w w' : World) : Prop :=
  ∀ k j', w'.sched.jobs.get? k = some j' → j'.isInternal = true →
    ∃ j, w.sched.jobs.get? k = some j ∧ j'.packages = j.packages ∧ j'.operation = j.operation

theorem Kept.refl (w : World) : Kept w w := fun _ j' h _ => ⟨j', h, rfl, rfl⟩

section Handled

variable {w w' : World} {newId : Uuid} {scripts : List (Script Unit)}

/-- A step of the agent whose operation, if it is one, creates no internal job. -/
theorem kept_of_step {a : Act} (hs : w.step a = some w') (hu : a.isUpdateJob = false)
    (ho : ∀ o k j', a = .op o → Creates w.env w.sched o k j' → j'.isInternal = false) : Kept w w' := by
  intro k j' h hi
  rcases world_stems hs hu h with ⟨o, rfl, hc⟩ | h
  · rw [ho o k j' rfl hc] at hi
    cases hi
  · exact h

theorem admitJob_kept {operation : JobOperation} {packages : List String}
    (hs : w.step (.op (.admitJob newId operation packages)) = some w') (hp : Plain packages) : Kept w w' :=
  kept_of_step hs rfl fun o k j' ho hc => by
    cases ho
    cases hc with
    | admitted => exact Plain.not_internal hp

theorem reserveReboot_kept {force ack : Bool} (hs : w.step (.op (.reserveReboot newId force ack)) = some w') :
    Kept w w' :=
  kept_of_step hs rfl fun o k j' ho hc => by
    cases ho
    cases hc with
    | rebooting => rfl

theorem undrawn_kept {o : SchedOp} (hs : w.step (.op o) = some w') (ho : o.newId = none) (hu : o.isUpdateJob = false) :
    Kept w w' :=
  kept_of_step hs hu fun o' k j' he hc => by
    cases he
    exact absurd hc (not_creates ho)

theorem admitAndSpawn_kept {operation : JobOperation} {packages : List String} {task : Uuid → Script Unit}
    {handled : Handled} (h : Handlers.admitAndSpawn w newId operation packages task = some handled)
    (hp : Plain packages) :
    Kept w handled.1 := by
  obtain ⟨w', hs, rfl⟩ := Option.map_eq_some_iff.1 h
  split <;> exact admitJob_kept hs hp

/-- Every request but a rollback leaves the internal jobs as they are. -/
theorem handle_kept {req : Request} {dropped : Bool} (h : req.handle w newId dropped = some (w', scripts))
    (hreq : ∀ original, req ≠ .rollbackJob original) : Kept w w' := by
  have nothing : (w, ([] : List (Script Unit))) = (w', scripts) → Kept w w' := fun h => by
    cases h
    exact .refl w
  cases req with
  | installPackages packages options =>
    simp only [Request.handle, Handlers.installPackages] at h
    split at h
    · exact nothing (Option.some.inj h)
    · next hv =>
      refine admitAndSpawn_kept h (plain_of_valid fun p hp => ?_)
      obtain ⟨pkg, hpkg, rfl⟩ := List.mem_map.1 hp
      exact validatePackageNames_ok hv pkg hpkg
  | updatePackage name =>
    simp only [Request.handle, Handlers.updatePackage] at h
    split at h
    · exact nothing (Option.some.inj h)
    next hv =>
    have hplain : Plain [name] := plain_of_valid fun p hp => by
      rw [List.mem_singleton.1 hp]
      exact (validateText_ok hv).1
    split at h
    · obtain ⟨v, hs, he⟩ := Option.map_eq_some_iff.1 h
      have hkept : Kept w v := kept_of_step hs rfl fun o k j' ho hc => by
        cases ho
        cases hc with
        | updating => exact Plain.not_internal hplain
      split at he <;> cases he <;> exact hkept
    · exact admitAndSpawn_kept h hplain
  | removePackage name =>
    simp only [Request.handle, Handlers.removePackage] at h
    split at h
    · exact nothing (Option.some.inj h)
    · next hv =>
      refine admitAndSpawn_kept h (plain_of_valid fun p hp => ?_)
      rw [List.mem_singleton.1 hp]
      exact (validateText_ok hv).1
  | applyPatches packages allowReboot delaySeconds =>
    simp only [Request.handle, Handlers.applyPatches] at h
    split at h
    · exact nothing (Option.some.inj h)
    · next hv => exact admitAndSpawn_kept h (plain_of_valid (validateNames_ok hv))
  | listPatches | healthCheck =>
    cases h
    exact .refl w
  | rebootSystem delaySeconds force ack =>
    obtain ⟨v, hs, he⟩ := Option.map_eq_some_iff.1 h
    split at he <;> cases he <;> exact reserveReboot_kept hs
  | rollbackJob original => exact absurd rfl (hreq original)
  | deleteJob id =>
    simp only [Request.handle, Handlers.deleteJob, Option.map_eq_some_iff] at h
    obtain ⟨v, hs, he⟩ := h
    cases he
    exact undrawn_kept hs rfl rfl
  | listPackages | getPackage | getServiceStatus | getSystemInfo => exact nothing (Option.some.inj h)

/-- A rollback request leaves the internal jobs as they are, or it copies one. -/
theorem rollbackJob_kept {original : Uuid} (h : Handlers.rollbackJob w newId original = some (w', scripts)) :
    scripts = [] ∧ (Kept w w' ∨ CopiesInternal w.sched original) := by
  obtain ⟨v, hs, he⟩ := Option.map_eq_some_iff.1 h
  cases he
  refine ⟨rfl, ?_⟩
  by_cases hcopy : CopiesInternal w.sched original
  · exact .inr hcopy
  · refine .inl (kept_of_step hs rfl fun o k j' ho hc => ?_)
    cases ho
    cases hc with
    | rolledBack _ _ j hj hst ha hsu hrp hroom =>
      by_contra hi
      refine hcopy ⟨⟨?_, ha, hsu, hrp, hroom⟩, j, hj, by simpa [Job.isInternal] using hi⟩
      rw [hj]
      simpa using hst

/-- A call of a task other than the admission of a refresh leaves the internal jobs as they are. -/
theorem perform_kept {x : Answers} {e : TaskCall} {r : TaskResponse e} (h : perform w x e = some (w', r))
    (he : Discreet e) : Kept w w' := by
  cases perform_cases h with
  | admitJob operation packages w' hs => exact admitJob_kept hs he
  | reserveReboot force ack w' hs => exact reserveReboot_kept hs
  | beginRebootExecution id w' hs => exact undrawn_kept hs rfl rfl
  | op o w' hs => exact undrawn_kept hs he.1 he.2
  | getSystemInfo | rebootSystem => exact .refl w

end Handled

/-! ## The process -/

/-- What a step of the process does to the internal jobs and to its tasks, unless it rolls one back. -/
theorem process_kept {s s' : Service} {a : ProcessAct} (h : s.processStep a = some s')
    (htasks : ∀ t ∈ s.tasks, DiscreetTask t) :
    (∀ t ∈ s'.tasks, DiscreetTask t) ∧ (Kept s.world s'.world ∨
      (∃ n x origin, a = .service (.run n x) ∧ s.tasks[n]? = some (.ready (refreshTask origin)) ∧
        s.world.step (.op (.admitJob x.newId .install [origin.tracker])) = some s'.world) ∨
      ∃ original newId dropped, a = .service (.request (.rollbackJob original) newId dropped) ∧
        CopiesInternal s.world.sched original) := by
  cases a with
  | freeze =>
    simp only [Service.processStep, Option.map_eq_some_iff] at h
    obtain ⟨w, hw, rfl⟩ := h
    exact ⟨htasks, .inl (undrawn_kept hw rfl rfl)⟩
  | service a =>
    have hstep : s.step a = some s' := h
    cases a with
    | request req newId dropped =>
      simp only [Service.step, Option.map_eq_some_iff] at hstep
      obtain ⟨⟨w, scripts⟩, hreq, rfl⟩ := hstep
      refine ⟨fun t ht => ?_, ?_⟩
      · rcases List.mem_append.1 ht with ht | ht
        · exact htasks t ht
        · obtain ⟨script, hmem, rfl⟩ := List.mem_map.1 ht
          rcases handle_scripts hreq with ⟨origin, _, _, rfl⟩ | hscripts
          · exact .inl ⟨origin, List.mem_singleton.1 hmem⟩
          · exact .inr ((hscripts script hmem).mono Ordinary.discreet)
      · by_cases hroll : ∃ original, req = .rollbackJob original
        · obtain ⟨original, rfl⟩ := hroll
          rcases (rollbackJob_kept hreq).2 with hk | hk
          · exact .inl hk
          · exact .inr (.inr ⟨original, newId, dropped, rfl, hk⟩)
        · exact .inl (handle_kept hreq fun original he => hroll ⟨original, he⟩)
    | run n x =>
      simp only [Service.step] at hstep
      split at hstep
      · next script hn =>
        simp only [Option.map_eq_some_iff] at hstep
        obtain ⟨⟨w, task⟩, hrun, rfl⟩ := hstep
        -- all other tasks stay as they are
        have hset : DiscreetTask task → ∀ t ∈ s.tasks.set n task, DiscreetTask t := fun hd t ht => by
          rcases List.mem_or_eq_of_mem_set ht with ht | rfl
          · exact htasks t ht
          · exact hd
        rcases htasks _ (List.mem_of_getElem? hn) with ⟨origin, rfl⟩ | hd
        · obtain ⟨k, hk, hrest⟩ := refreshTask_eq origin
          rw [hk] at hrun
          cases runTask_cases hrun with
          | performed _ _ w' r hp =>
            have hd : Asks Discreet (k r) := by
              rw [hrest r]
              split
              · next _ id =>
                obtain ⟨k', hk', hafter⟩ := refreshAdmitted_eq origin id
                rw [hk']
                exact ⟨trivial, fun r => (hafter r).mono Ordinary.discreet⟩
              · exact trivial
            cases perform_cases hp with
            | admitJob _ _ w' hs => exact ⟨hset (.inr hd), .inr (.inl ⟨n, x, origin, rfl, hn, hs⟩)⟩
        · cases runTask_cases hrun with
          | dispatched id closure k w' hs =>
            refine ⟨hset hd.2, .inl (kept_of_step hs rfl fun o k j' ho => ?_)⟩
            cases ho
          | performed e k w' r hp => exact ⟨hset (.inr (hd.2 r)), .inl (perform_kept hp hd.1)⟩
      · cases hstep
    | resume n =>
      simp only [Service.step] at hstep
      split at hstep
      · next c resume hn =>
        simp only [Option.map_eq_some_iff] at hstep
        obtain ⟨r, _, rfl⟩ := hstep
        refine ⟨fun t ht => ?_, .inl (.refl _)⟩
        rcases List.mem_or_eq_of_mem_set ht with ht | rfl
        · exact htasks t ht
        · exact .inr (htasks _ (List.mem_of_getElem? hn) r)
      · cases hstep
    | call c a =>
      simp only [Service.step] at hstep
      split at hstep
      · cases hstep
      · obtain ⟨w, hw, rfl⟩ := Option.map_eq_some_iff.1 hstep
        exact ⟨htasks, .inl (kept_of_step hw rfl fun o k j' ho => by cases ho)⟩
    | tick seconds =>
      simp only [Service.step, Option.map_eq_some_iff] at hstep
      obtain ⟨w, hw, rfl⟩ := hstep
      exact ⟨htasks, .inl (kept_of_step hw rfl fun o k j' ho => by cases ho)⟩

/-- The process takes a step of the agent, or leaves it as it is. -/
theorem process_world {s s' : Service} {a : ProcessAct} (h : s.processStep a = some s') :
    s'.world = s.world ∨ ∃ act, s.world.step act = some s'.world := by
  cases a with
  | freeze =>
    simp only [Service.processStep, Option.map_eq_some_iff] at h
    obtain ⟨w, hw, rfl⟩ := h
    exact .inr ⟨_, hw⟩
  | service a =>
    have hstep : s.step a = some s' := h
    cases a with
    | request req newId dropped =>
      simp only [Service.step, Option.map_eq_some_iff] at hstep
      obtain ⟨⟨w, scripts⟩, hreq, rfl⟩ := hstep
      obtain ⟨d, hd⟩ := handle_cases hreq
      rcases hd.operated with hw | ⟨o, ho, _⟩
      · exact .inl hw
      · exact .inr ⟨_, ho⟩
    | run n x =>
      simp only [Service.step] at hstep
      split at hstep
      · simp only [Option.map_eq_some_iff] at hstep
        obtain ⟨⟨w, task⟩, hrun, rfl⟩ := hstep
        cases runTask_cases hrun with
        | dispatched id closure k w' hs => exact .inr ⟨_, hs⟩
        | performed e k w' r hp =>
          cases perform_cases hp with
          | admitJob _ _ _ hs | reserveReboot _ _ _ hs | beginRebootExecution _ _ hs | op _ _ hs => exact .inr ⟨_, hs⟩
          | getSystemInfo | rebootSystem => exact .inl rfl
      · cases hstep
    | resume n =>
      simp only [Service.step] at hstep
      split at hstep
      · simp only [Option.map_eq_some_iff] at hstep
        obtain ⟨r, _, rfl⟩ := hstep
        exact .inl rfl
      · cases hstep
    | call c a =>
      simp only [Service.step] at hstep
      split at hstep
      · cases hstep
      · obtain ⟨w, hw, rfl⟩ := Option.map_eq_some_iff.1 hstep
        exact .inr ⟨_, hw⟩
    | tick seconds =>
      simp only [Service.step, Option.map_eq_some_iff] at hstep
      obtain ⟨w, hw, rfl⟩ := hstep
      exact .inr ⟨_, hw⟩

/-! ## The invariant -/

/-- An internal job is the job of a refresh, and one that was admitted in the course of `tr`. -/
def Justified (tr : List (Fired Installation InstallationAct)) (j : Job) : Prop :=
  j.isInternal = true → IsRefresh j ∧ ∃ f ∈ tr, AdmitsRefresh f j.id

theorem Justified.mono {tr tr' : List (Fired Installation InstallationAct)} (hsub : ∀ f ∈ tr, f ∈ tr')
    {j : Job} (h : Justified tr j) :
    Justified tr' j := fun hi => by
  obtain ⟨hr, f, hf, ha⟩ := h hi
  exact ⟨hr, f, hsub f hf, ha⟩

theorem Justified.of_same {tr : List (Fired Installation InstallationAct)} {j j' : Job} (h : Justified tr j)
    (hid : j'.id = j.id)
    (hps : j'.packages = j.packages) (hop : j'.operation = j.operation) : Justified tr j' := by
  intro hi
  rw [Job.isInternal_congr hps] at hi
  obtain ⟨⟨hr, origin, ho⟩, hf⟩ := h hi
  exact ⟨⟨hop.trans hr, origin, hps.trans ho⟩, by rw [hid]; exact hf⟩

/-- Every internal job in memory, on its way to the disk or on it is justified. -/
structure Traceable (tr : List (Fired Installation InstallationAct)) (h : Installation) : Prop where
  keyed : Keyed h.service.world.sched
  memory : ∀ k j, h.service.world.sched.jobs.get? k = some j → Justified tr j
  snapshots : ∀ i n all, h.dir.phase? i = some (.snapshotted n all) → ∀ j ∈ all, Justified tr j
  files : ∀ p l, h.dir.files.get? p = some l → ∀ j ∈ l, Justified tr j
  tasks : ∀ t ∈ h.service.tasks, DiscreetTask t

theorem first_traceable {h : Installation} (hf : h.First) : Traceable [] h := by
  obtain ⟨⟨mc, mq, hs⟩, _, ht, hfresh, hfiles⟩ := hf
  refine ⟨?_, fun k j hj => ?_, fun i n all hp => ?_, fun p l hl => ?_, fun t hmem => ?_⟩
  · rw [hs]
    exact startup_keyed
  · rw [hs] at hj
    obtain ⟨_, o, ho, _⟩ := startup_jobs hj
    cases ho
  · rw [StateDir.phase?, hfresh.1] at hp
    cases hp
  · rw [hfiles] at hl
    cases hl
  · rw [ht] at hmem
    cases hmem

section Step

variable {tr : List (Fired Installation InstallationAct)} {h h' : Installation}

/-- The agent takes a step that leaves the internal jobs. -/
theorem Traceable.evolve (ht : Traceable tr h) {s' : Service} {f : Fired Installation InstallationAct}
    (hkeyed : Keyed s'.world.sched) (htasks : ∀ t ∈ s'.tasks, DiscreetTask t)
    (hjobs : ∀ k j', s'.world.sched.jobs.get? k = some j' → j'.isInternal = true →
      (∃ j, h.service.world.sched.jobs.get? k = some j ∧ j'.packages = j.packages ∧ j'.operation = j.operation) ∨
        IsRefresh j' ∧ AdmitsRefresh f k) :
    Traceable (tr ++ [f]) { h with service := s' } := by
  have hsub : ∀ g ∈ tr, g ∈ tr ++ [f] := fun g hg => List.mem_append_left _ hg
  refine ⟨hkeyed, fun k j' hj' hi => ?_, fun i n all hp j hj => (ht.snapshots i n all hp j hj).mono hsub,
    fun p l hl j hj => (ht.files p l hl j hj).mono hsub, htasks⟩
  rcases hjobs k j' hj' hi with ⟨j, hj, hps, hop⟩ | ⟨hr, ha⟩
  · have hid : j'.id = j.id := (hkeyed k j' hj').trans (ht.keyed k j hj).symm
    exact ((ht.memory k j hj).of_same hid hps hop).mono hsub hi
  · exact ⟨hr, f, List.mem_append_right _ (List.mem_singleton_self f), by rw [hkeyed k j' hj']; exact ha⟩

/-- A snapshot holds jobs from memory, and a file what a snapshot held. -/
theorem Traceable.persist (ht : Traceable tr h) {a : PersistAct} {d : StateDir} (f : Fired Installation InstallationAct)
    (hs : h.dir.step h.service.world.sched.jobs.values a = some d) : Traceable (tr ++ [f]) { h with dir := d } := by
  have hsub : ∀ g ∈ tr, g ∈ tr ++ [f] := fun g hg => List.mem_append_left _ hg
  have hstep := StateDir.step_cases hs
  have hsnap : ∀ i n all, d.phase? i = some (.snapshotted n all) → ∀ j ∈ all, Justified tr j := by
    intro i n all hp j hj
    cases hstep with
    | call owner _ hm | write k n' all' _ _ hm | drop k p _ _ _ hm | rename k n' tmp content _ _ _ hm =>
      rw [hm] at hp
      split at hp
      · cases hp
      · exact ht.snapshots i n all hp j hj
    | snapshot k _ _ hm =>
      rw [hm] at hp
      split at hp
      · cases hp
        obtain ⟨key, hkey⟩ := FinMap.mem_values.1 hj
        exact ht.memory key j hkey
      · exact ht.snapshots i n all hp j hj
  have hfiles : ∀ p l, d.files.get? p = some l → ∀ j ∈ l, Justified tr j := by
    intro p l hl j hj
    cases hstep with
    | call owner _ _ hf | snapshot k _ _ _ hf | drop k _ _ _ _ _ hf =>
      rw [hf] at hl
      exact ht.files p l hl j hj
    | write k n all _ hp _ hf =>
      rw [hf, FinMap.get?_insert] at hl
      split at hl
      · cases hl
        exact ht.snapshots k n all hp j (mem_retained hj).1
      · exact ht.files p l hl j hj
    | rename k n tmp content _ _ hcont _ hf =>
      rw [hf, FinMap.get?_insert] at hl
      split at hl
      · cases hl
        exact ht.files _ _ hcont j hj
      · rw [FinMap.get?_erase] at hl
        split at hl
        · cases hl
        · exact ht.files p l hl j hj
  exact ⟨ht.keyed, fun k j hj => (ht.memory k j hj).mono hsub, fun i n all hp j hj => (hsnap i n all hp j hj).mono hsub,
    fun p l hl j hj => (hfiles p l hl j hj).mono hsub, ht.tasks⟩

/-- What a new process loads was on the disk. -/
theorem Traceable.restart (ht : Traceable tr h) (b : Boot) (f : Fired Installation InstallationAct) :
    Traceable (tr ++ [f]) (h.restarted b) := by
  have hsub : ∀ g ∈ tr, g ∈ tr ++ [f] := fun g hg => List.mem_append_left _ hg
  have hloaded : ∀ o ∈ h.loaded b, Justified tr o := by
    intro o ho
    unfold Installation.loaded at ho
    split at ho
    · cases hf : h.dir.files.get? .jobsPath with
      | none =>
        rw [hf] at ho
        cases ho
      | some l =>
        rw [hf] at ho
        exact ht.files _ l hf o ho
    · cases ho
  refine ⟨startup_keyed, fun k j hj => ?_, fun i n all hp => ?_, fun p l hl j hj => (ht.files p l hl j hj).mono hsub,
    fun t hmem => by cases hmem⟩
  · obtain ⟨o, ho, _, rfl⟩ := startup_resolves hj
    obtain ⟨hid, hop, hps, _⟩ := (resolve_resolved _ o).kept
    exact ((hloaded o ho).of_same hid hps hop).mono hsub
  · cases hp

theorem traceable_step (ht : Traceable tr h) {a : InstallationAct} (hs : h.step a = some h')
    (hn : ¬ RollsBackInternal ⟨h, a, h'⟩) : Traceable (tr ++ [⟨h, a, h'⟩]) h' := by
  cases a with
  | process a =>
    obtain ⟨s', hproc, rfl⟩ := Option.map_eq_some_iff.1 hs
    obtain ⟨htasks, hjobs⟩ := process_kept hproc ht.tasks
    have hkeyed : Keyed s'.world.sched := by
      rcases process_world hproc with hw | ⟨act, hw⟩
      · rw [hw]
        exact ht.keyed
      · exact keyed_step (f := ⟨_, act, _⟩) hw ht.keyed
    refine ht.evolve hkeyed htasks fun k j' hj' hi => ?_
    rcases hjobs with hk | ⟨n, x, origin, rfl, hn', hw⟩ | ⟨original, newId, dropped, rfl, hcopy⟩
    · exact .inl (hk k j' hj' hi)
    · rcases world_stems hw rfl hj' with ⟨o, ho, hc⟩ | hold
      · cases ho
        cases hc with
        | admitted _ _ _ ha hsu hr hq =>
          refine .inr ⟨⟨rfl, origin, rfl⟩, n, x, origin, rfl, hn', rfl, ?_⟩
          simp only [SchedulerState.admitJob, SchedulerState.admitJobInner, ha, hsu, hr, Nat.not_le.2 hq]
          rfl
      · exact .inl hold
    · exact absurd ⟨original, newId, dropped, rfl, hcopy⟩ hn
  | drop c =>
    obtain ⟨w, hw, rfl⟩ := Option.map_eq_some_iff.1 hs
    refine ht.evolve (keyed_step (f := ⟨_, .call c .drop, _⟩) hw ht.keyed) ht.tasks fun k j' hj' hi => .inl ?_
    exact kept_of_step hw rfl (fun o k j' ho => by cases ho) k j' hj' hi
  | persist a =>
    obtain ⟨d, hd, rfl⟩ := Option.map_eq_some_iff.1 hs
    exact ht.persist _ hd
  | restart b =>
    cases hs
    exact ht.restart b _

end Step

/-! ## Runs -/

/-- After every part of the run each internal job in the map is the job of a refresh that the health check or
the patch list admitted in its course, in this process or in an earlier one. -/
def InternalsTraced (h : Installation) (tr : List (Fired Installation InstallationAct)) : Prop :=
  ∀ pre post v, tr = pre ++ post → Run installation h pre v → ∀ k j, v.service.world.sched.jobs.get? k = some j →
    j.isInternal = true → IsRefresh j ∧ ∃ f ∈ pre, AdmitsRefresh f k

theorem run_traceable {h h' : Installation} {tr : List (Fired Installation InstallationAct)} (hh : h.First)
    (hr : Run installation h tr h')
    (hn : ∀ f ∈ tr, ¬ RollsBackInternal f) : Traceable tr h' := by
  induction hr with
  | nil => exact first_traceable hh
  | @snoc tr v v' a _ hs ih =>
    exact traceable_step (ih fun f hf => hn f (List.mem_append_left _ hf)) hs
      (hn _ (List.mem_append_right _ (List.mem_singleton_self _)))

/-- A rollback of an internal job creates an internal job that is no refresh. -/
theorem rollback_internal {f : Fired Installation InstallationAct} (hf : IsStep installation f)
    (hr : RollsBackInternal f) :
    ∃ k j, f.post.service.world.sched.jobs.get? k = some j ∧ j.isInternal = true ∧ j.operation = .rollback := by
  obtain ⟨h, a, h'⟩ := f
  obtain ⟨original, newId, dropped, rfl, ⟨hjob, ha, hsu, hrp, hroom⟩, j, hj, hi⟩ := hr
  simp only at hj hjob ha hsu hrp hroom
  have hs : h.step (.process (.service (.request (.rollbackJob original) newId dropped))) = some h' := hf
  simp only [Installation.step, Service.processStep, Service.step, Request.handle, Handlers.rollbackJob,
    Option.map_eq_some_iff] at hs
  obtain ⟨s', ⟨_, ⟨v, hv, rfl⟩, rfl⟩, rfl⟩ := hs
  cases World.step_cases hv with
  | op o hid =>
    rcases h.service.world.sched.createRollbackJob_spec h.service.world.env newId original with
      ⟨r, hrej, hno⟩ | ⟨j₁, hj₁, _, _, _, _, _, _, _, hget⟩
    · -- nothing rejects the rollback
      refine absurd ?_ (hno newId)
      rw [hj] at hjob
      have hst : j.status = .failed ∨ j.status = .completed := by simpa using hjob
      have hok : (h.service.world.sched.createRollbackJob h.service.world.env newId original).2 = .ok (some newId) := by
        simp only [SchedulerState.createRollbackJob, hj, SchedulerState.admitJobInner, ha, hsu, hrp,
          Nat.not_le.2 hroom, hst]
        rfl
      rw [hrej] at hok
      exact hok
    · rw [hj] at hj₁
      cases hj₁
      have hnew := hget newId
      rw [if_pos rfl] at hnew
      exact ⟨newId, _, hnew, hi, rfl⟩

/-- In a run from the first start the internal jobs are exactly refreshes of the health check and the patch
list unless a rollback request is admitted for one that is over. -/
theorem internals_traced_iff {h h' : Installation} {tr : List (Fired Installation InstallationAct)} (hh : h.First)
    (hr : Run installation h tr h') :
    InternalsTraced h tr ↔ ∀ f ∈ tr, ¬ RollsBackInternal f := by
  constructor
  · intro ht f hf hroll
    obtain ⟨pre, post, rfl⟩ := List.append_of_mem hf
    obtain ⟨hpre, _⟩ := hr.split rfl
    have hstep : IsStep installation f := hr.step_of_mem f hf
    obtain ⟨k, j, hj, hi, hop⟩ := rollback_internal hstep hroll
    have hrun : Run installation h (pre ++ [f]) f.post := hpre.snoc hstep
    obtain ⟨⟨hinstall, _⟩, _⟩ := ht (pre ++ [f]) post f.post (by simp) hrun k j hj hi
    rw [hop] at hinstall
    cases hinstall
  · intro hn pre post v he hpre k j hj hi
    have ht := run_traceable hh hpre fun f hf => hn f (by rw [he]; exact List.mem_append_left _ hf)
    obtain ⟨hr, f, hf, ha⟩ := ht.memory k j hj hi
    rw [ht.keyed k j hj] at ha
    exact ⟨hr, f, hf, ha⟩

def freshInstallation : Installation where
  service := ⟨freshAgent 2 10, []⟩
  dir := { files := ∅, counter := 0, persists := [], snapshots := [] }

theorem freshInstallation_first : freshInstallation.First :=
  ⟨⟨2, 10, rfl⟩, rfl, rfl, ⟨rfl, rfl⟩, fun _ => rfl⟩

def InstallationAct.run (n : Nat) (newId : Uuid) : InstallationAct :=
  .process (.service (.run n ⟨newId, .error (anyhow "unavailable"), .ok ()⟩))

def InstallationAct.call (c : Nat) (a : CallAct) : InstallationAct := .process (.service (.call c a))

/-- The background refresh of a health check, up to the completion of its job. -/
def completedRefresh : List InstallationAct :=
  [.process (.service (.request (.healthCheck true) 0 false)), .run 0 1, .run 0 0, .call 0 .check,
    .call 0 .spawnWatchdog,
    .call 0 .startWatchdog, .call 0 .runClosure, .call 0 (.exitClosure (.ok ())), .call 0 .join, .call 0 .finalize,
    .call 0 .receive, .process (.service (.resume 0)), .run 0 0]

/-- The process is gone before it deletes the job, which is in its history by then. -/
def refreshOnDisk : List InstallationAct := completedRefresh ++
  [.persist (.call none), .persist (.snapshot 0), .persist (.write 0), .persist (.rename 0),
    .restart ⟨5, none, 2, 10, true⟩]

theorem internals_traced_onDisk :
    InternalsTraced freshInstallation ((trace installation freshInstallation refreshOnDisk).getD []) ↔
      ∀ f ∈ (trace installation freshInstallation refreshOnDisk).getD [], ¬ RollsBackInternal f :=
  internals_traced_iff freshInstallation_first (run_trace installation _ refreshOnDisk (by decide))

/-- The completed refresh is rolled back before it is deleted. -/
def refreshRolledBack : List InstallationAct := completedRefresh ++
    [.process (.service (.request (.rollbackJob 1) 2 false))]

theorem rollback_becomes_internal : ∃ (h h' : Installation) (tr : List (Fired Installation InstallationAct)),
    h.First ∧ Run installation h tr h' ∧
    ¬ InternalsTraced h tr := by
  have hr := run_trace installation freshInstallation refreshRolledBack (by decide)
  refine ⟨freshInstallation, _, _, freshInstallation_first, hr, fun ht => ?_⟩
  obtain ⟨⟨hop, _⟩, _⟩ := ht _ [] _ (List.append_nil _).symm hr 2 _ (Option.some_get (by decide)).symm (by decide)
  exact absurd hop (by decide)

end LinuxPatchApi.Api
