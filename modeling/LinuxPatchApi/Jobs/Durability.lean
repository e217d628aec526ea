/-
Durability of the job statuses. A final status is on its way to the history as soon as it is set, the next
snapshots show it, and at rest the history holds it, unless a status was changed without `persist_jobs`, a
call of it was dropped, or an older snapshot was renamed last.
-/
import LinuxPatchApi.Jobs.Recovery
import LinuxPatchApi.Jobs.Retention
import LinuxPatchApi.Jobs.Saving
import LinuxPatchApi.Jobs.SnapshotOrder

namespace LinuxPatchApi.Jobs

open LinuxPatchApi.Packages Transition

/-! ## The agent with the calls that its operations make -/

namespace StateDir

/-- The call that follows a step is made. -/
def begin (d : StateDir) : Option (Option Nat) → StateDir
  | some owner => { d with persists := d.persists ++ [⟨owner, .locking⟩] }
  | none => d

/-- The call is under way in the caller of `dispatch_mutation` number `c`. -/
def awaitedBy (c : Nat) (x : PersistCall) : Bool := x.owner == some c && x.phase.inFlight

/-- A caller of `dispatch_mutation` goes on only after its call of `persist_jobs`. -/
def blocks (d : StateDir) : Act → Bool
  | .call c .spawnWatchdog => d.persists.any (awaitedBy c)
  | _ => false

def dropCall (c : Nat) (x : PersistCall) : PersistCall := if awaitedBy c x then { x with phase := .dropped } else x

/-- A caller of `dispatch_mutation` that is dropped takes its call of `persist_jobs` with it. -/
def follow (d : StateDir) : Act → StateDir
  | .call c .drop => { d with persists := d.persists.map (dropCall c) }
  | _ => d

/-- The move would make or drop a call of a `dispatch_mutation`, which only its caller does. -/
def owned (d : StateDir) : PersistAct → Bool
  | .call owner => owner.isSome
  | .drop i => (d.persists[i]?).any fun x => x.owner.isSome
  | _ => false

end StateDir

/-- Every critical section is followed by its call of `persist_jobs`; other calls can be made at any time,
and a call is dropped with the future that makes it. -/
def PersistentAgent.stepSaving (p : PersistentAgent) : PersistentAct → Option PersistentAgent
  | .agent a =>
    if p.dir.blocks a then none
    else (p.world.step a).map fun w => ⟨w, (p.dir.follow a).begin (persistAfter p.world a)⟩
  | .persist a =>
    if p.dir.owned a then none
    else (p.dir.step p.jobs a).map fun d => { p with dir := d }

/-- After `main`'s startup sequence the history is what was loaded or part of it, with one record for each
id, and a call of `persist_jobs` is due if a job was recovered. -/
def PersistentAgent.Restarted (p : PersistentAgent) : Prop :=
  ∃ maxConcurrent maxQueueDepth loaded,
    p.world.sched = SchedulerState.startup p.world.env maxConcurrent maxQueueDepth loaded ∧
    (∀ j ∈ loaded, j.id ∈ p.world.issued) ∧ p.world.calls = [] ∧ (loaded.map Job.id).Nodup ∧
    p.dir.snapshots = [] ∧
    p.dir.persists = (if loaded.all fun j => j.status.isTerminal then [] else [⟨none, .locking⟩]) ∧
    ∀ l, p.dir.files.get? .jobsPath = some l → l ⊆ loaded

def saving : Machine PersistentAgent PersistentAct := ⟨PersistentAgent.Restarted, PersistentAgent.stepSaving⟩

/-! ## What is lost -/

/-- Calls that were to save something are gone and no call is left to do it. -/
def losesNews (d d' : StateDir) : Bool := !d'.waiting && (d.waiting || (d.newestInFlight && !d'.newestInFlight))

/-- The step leaves a status that no call of `persist_jobs` will bring to the history. -/
def forgets (f : Fired PersistentAgent PersistentAct) : Bool :=
  match f.act with
  | .agent (.call _ .drop) | .persist (.drop _) => losesNews f.pre.dir f.post.dir
  | .agent a => changesUnsaved f.pre.world a && !f.pre.dir.waiting
  | .persist a => f.pre.dir.overwrites a

/-- The job, which is not internal, becomes Completed, Failed, Cancelled or Rebooting. -/
def Concludes (f : Fired PersistentAgent PersistentAct) (k : Uuid) : Prop :=
  ∃ j j', f.pre.world.sched.jobs.get? k = some j ∧ f.post.world.sched.jobs.get? k = some j' ∧
    j.isInternal = false ∧ j'.status ≠ j.status ∧
    (j'.status = .completed ∨ j'.status = .failed ∨ j'.status = .cancelled ∨ j'.status = .rebooting)

/-- If there is a job under the id, the newest snapshot shows it with its status. -/
def Shown (k : Uuid) (p : PersistentAgent) : Prop :=
  ∀ j', p.world.sched.jobs.get? k = some j' → ∃ all, p.dir.snapshots.getLast? = some all ∧
    ∃ j ∈ all, j.id = k ∧ j.status = j'.status ∧ j.packages = j'.packages

/-- If there is a job under the id, the history file holds it with its status, or is full. -/
def OnDisk (k : Uuid) (p : PersistentAgent) : Prop :=
  ∀ j', p.world.sched.jobs.get? k = some j' → ∃ l, p.dir.files.get? .jobsPath = some l ∧
    ((∃ j ∈ l, j.id = k ∧ j.status = j'.status) ∨ l.length = historyRetentionCount)

/-- From the step `f` on, which is followed by the steps `post`: a call has yet to take its snapshot, or a snapshot was
taken after the step and the newest shows the job; and with no call under way the job is on disk. -/
structure SavedAfter (k : Uuid) (f : Fired PersistentAgent PersistentAct)
    (post : List (Fired PersistentAgent PersistentAct)) : Prop where
  due : f.post.dir.waiting = true
  shown : ∀ v ∈ states f.post post,
    v.dir.waiting = true ∨ (f.post.dir.snapshots.length < v.dir.snapshots.length ∧ Shown k v)
  onDisk : ∀ v ∈ states f.post post, v.dir.atRest = true → OnDisk k v

/-- With no call under way every job on disk has the status it has in memory; and since the first snapshot the jobs of
clients that are not Pending are on disk. -/
structure HistoryAgrees (p : PersistentAgent) : Prop where
  same : p.dir.atRest = true → ∀ l, p.dir.files.get? .jobsPath = some l → ∀ j ∈ l, ∀ j',
    p.world.sched.jobs.get? j.id = some j' → j'.status = j.status
  there : p.dir.atRest = true → p.dir.snapshots ≠ [] → ∀ k j', p.world.sched.jobs.get? k = some j' →
    j'.isInternal = false → j'.status ≠ .pending → OnDisk k p

/-- The statuses of a run are durable: every conclusion of a job is saved, and at rest the history agrees with the job
map. -/
structure StatusesDurable (p : PersistentAgent) (tr : List (Fired PersistentAgent PersistentAct)) : Prop where
  saved : ∀ pre f post, tr = pre ++ f :: post → ∀ k, Concludes f k → SavedAfter k f post
  agrees : ∀ v ∈ states p tr, HistoryAgrees v

/-! ## The invariant -/

/-- What the history will hold when the calls under way that have a snapshot are done. -/
def StateDir.newest (d : StateDir) : List Job :=
  match d.snapshots.getLast? with
  | some all => retained all
  | none => (d.files.get? .jobsPath).getD []

/-- The jobs agree with those in memory. -/
def Synced (s : SchedulerState) (l : List Job) : Prop :=
  ∀ j ∈ l, j.isRetainable = true ∧ ∀ j', s.jobs.get? j.id = some j' → j'.status = j.status ∧ j'.packages = j.packages

/-- The newest snapshot agrees with the job map, or a call has yet to take its snapshot. -/
structure Saved (p : PersistentAgent) : Prop where
  sound : p.dir.Sound
  upToDate : p.dir.UpToDate
  keyed : Keyed p.world.sched
  known : Known p.world
  ids : ∀ j ∈ p.dir.newest, j.id ∈ p.world.issued
  synced : p.dir.waiting = true ∨ Synced p.world.sched p.dir.newest

theorem idle_of_atRest {d : StateDir} (hrest : d.atRest = true) : d.waiting = false := by
  by_contra hw
  obtain ⟨i, hi⟩ := StateDir.waiting_iff.1 (by simpa using hw)
  cases StateDir.atRest_iff.1 hrest i _ hi

theorem Saved.agrees {p : PersistentAgent} (h : Saved p) (hrest : p.dir.atRest = true) {l : List Job}
    (hl : p.dir.files.get? .jobsPath = some l) {j j' : Job} (hj : j ∈ l)
    (hj' : p.world.sched.jobs.get? j.id = some j') : j'.status = j.status := by
  have hnew : p.dir.newest = l := by
    unfold StateDir.newest
    split
    · next all hlast =>
      rw [h.upToDate.file hrest hlast] at hl
      exact Option.some.inj hl
    · rw [hl]
      rfl
  rcases h.synced with hw | hs
  · rw [idle_of_atRest hrest] at hw
    cases hw
  · rw [hnew] at hs
    exact ((hs j hj).2 j' hj').1

/-- At rest the file holds what the newest snapshot shows. -/
theorem Saved.onDisk {p : PersistentAgent} (h : Saved p) (hrest : p.dir.atRest = true) {k : Uuid}
    (hclient : ∀ j', p.world.sched.jobs.get? k = some j' → j'.isInternal = false) (hshown : Shown k p) :
    OnDisk k p := by
  intro j' hj'
  obtain ⟨all, hlast, j, hj, hid, hstatus, hpackages⟩ := hshown j' hj'
  refine ⟨retained all, h.upToDate.file hrest hlast, ?_⟩
  have hkept : j.isRetainable = true := by
    rw [Job.isRetainable, Job.isInternal_congr hpackages, hclient j' hj']
    rfl
  exact (mem_retained_or_full hj hkept).imp_left fun hmem => ⟨j, hmem, hid, hstatus⟩

/-! ## Dropped calls -/

namespace StateDir

variable {d d' : StateDir}

/-- Some calls were dropped. -/
structure Fewer (d d' : StateDir) : Prop where
  files : d'.files = d.files
  counter : d'.counter = d.counter
  snapshots : d'.snapshots = d.snapshots
  phase : ∀ k p, d'.phase? k = some p → d.phase? k = some p ∨ p = .dropped

theorem Fewer.sound (h : Fewer d d') (hd : d.Sound) : d'.Sound where
  snapshotted k n all hp := by
    rw [h.snapshots]
    exact hd.snapshotted k n all ((h.phase k _ hp).resolve_right nofun)
  written k n tmp hp := by
    rw [h.snapshots, h.files, h.counter]
    exact hd.written k n tmp ((h.phase k _ hp).resolve_right nofun)
  own k k' n n' tmp hp hp' :=
    hd.own k k' n n' tmp ((h.phase k _ hp).resolve_right nofun) ((h.phase k' _ hp').resolve_right nofun)

theorem Fewer.newest (h : Fewer d d') : d'.newest = d.newest := by
  unfold StateDir.newest
  rw [h.snapshots, h.files]

theorem Fewer.upToDate (h : Fewer d d') (hl : losesNews d d' = false) (hu : d.UpToDate) : d'.UpToDate := by
  intro all hall
  rw [h.snapshots] at hall
  rw [h.files]
  simp only [losesNews] at hl
  rcases hu all hall with hf | hn | hw
  · exact .inl hf
  · rw [hn] at hl
    cases hn' : d'.newestInFlight <;> cases hw' : d'.waiting <;> simp_all
  · rw [hw] at hl
    cases hw' : d'.waiting <;> simp_all

theorem waiting_or_idle (hl : losesNews d d' = false) : d'.waiting = true ∨ d.waiting = false := by
  rcases Bool.eq_false_or_eq_true d'.waiting with hw | hw
  · exact .inl hw
  · simp only [losesNews, hw, Bool.not_false, Bool.true_and, Bool.or_eq_false_iff] at hl
    exact .inr hl.1

theorem follow_fewer (d : StateDir) (a : Act) : Fewer d (d.follow a) := by
  unfold follow
  split
  · next c =>
    refine ⟨rfl, rfl, rfl, fun k p hp => ?_⟩
    simp only [phase?, List.getElem?_map, Option.map_map] at hp ⊢
    obtain ⟨x, hx, rfl⟩ := Option.map_eq_some_iff.1 hp
    simp only [Function.comp_apply, dropCall]
    split
    · exact .inr rfl
    · exact .inl (by rw [hx]; rfl)
  · exact ⟨rfl, rfl, rfl, fun k p hp => .inl hp⟩

theorem follow_of_not_drop {a : Act} (ha : ∀ c, a ≠ .call c .drop) : d.follow a = d := by
  unfold follow
  split
  · next c => exact absurd rfl (ha c)
  · rfl

theorem begin_step (jobs : List Job) (d : StateDir) (owner : Option Nat) :
    Step jobs d (.call owner) (d.begin (some owner)) := step_cases rfl

/-- Only a snapshot or a drop ends the wait of a call for the lock. -/
theorem waiting_step {jobs : List Job} {a : PersistAct} (h : Step jobs d a d') (hs : ∀ i, a ≠ .snapshot i)
    (hd : ∀ i, a ≠ .drop i) (hw : d.waiting = true) : d'.waiting = true := by
  obtain ⟨k, hk⟩ := waiting_iff.1 hw
  cases h with
  | call owner _ hm => exact waiting_iff.2 ⟨_, by rw [hm, if_pos rfl]⟩
  | snapshot i => exact absurd rfl (hs i)
  | drop i => exact absurd rfl (hd i)
  | write i n all _ hp hm => exact waiting_of_moved hm (fun he => by rw [he, hp] at hk; cases hk) hk
  | rename i n tmp content _ hp _ hm => exact waiting_of_moved hm (fun he => by rw [he, hp] at hk; cases hk) hk

/-- Only a snapshot changes what the history will hold. -/
theorem newest_step {jobs : List Job} {a : PersistAct} (h : Step jobs d a d') (hsound : d.Sound)
    (hs : ∀ i, a ≠ .snapshot i) : d'.newest = d.newest := by
  unfold StateDir.newest
  cases h with
  | call owner _ hm hf hc hsn => rw [hsn, hf]
  | drop i p _ _ _ _ hf hc hsn => rw [hsn, hf]
  | snapshot i => exact absurd rfl (hs i)
  | write i n all _ hp hm hf hc hsn => rw [hsn, hf, FinMap.get?_insert, if_neg (by simp)]
  | rename i n tmp content _ hp hcont hm hf hc hsn =>
    -- a snapshot that is renamed was taken
    obtain ⟨_, all, hall, _⟩ := hsound.written i n tmp hp
    rw [hsn]
    cases hlast : d.snapshots.getLast? with
    | some all => rfl
    | none =>
      rw [List.getLast?_eq_none_iff] at hlast
      rw [hlast] at hall
      cases hall

end StateDir

/-! ## One step -/

/-- A step is one of the agent, with what it means for the calls, or one of a call. -/
inductive SavingStep : Fired PersistentAgent PersistentAct → Prop
  | agent {p : PersistentAgent} {w : World} (a : Act) (hs : p.world.step a = some w) :
      SavingStep ⟨p, .agent a, ⟨w, (p.dir.follow a).begin (persistAfter p.world a)⟩⟩
  | persist {p : PersistentAgent} {d : StateDir} (a : PersistAct) (hs : p.dir.step p.jobs a = some d) :
      SavingStep ⟨p, .persist a, { p with dir := d }⟩

theorem saving_step {f : Fired PersistentAgent PersistentAct} (hf : IsStep saving f) : SavingStep f := by
  obtain ⟨p, a, p'⟩ := f
  have hstep : p.stepSaving a = some p' := hf
  cases a with
  | agent a =>
    simp only [PersistentAgent.stepSaving] at hstep
    split at hstep
    · cases hstep
    · obtain ⟨w, hw, rfl⟩ := Option.map_eq_some_iff.1 hstep
      exact .agent a hw
  | persist a =>
    simp only [PersistentAgent.stepSaving] at hstep
    split at hstep
    · cases hstep
    · obtain ⟨d, hd, rfl⟩ := Option.map_eq_some_iff.1 hstep
      exact .persist a hd

/-- The step of the agent leaves the statuses that the history will hold as they are. -/
theorem synced_step {f : Fired World Act} (hf : IsStep agent f) (hp : persistAfter f.pre f.act = none)
    (hu : changesUnsaved f.pre f.act = false) {l : List Job} (hids : ∀ j ∈ l, j.id ∈ f.pre.issued)
    (hl : Synced f.pre.sched l) : Synced f.post.sched l := by
  intro j hj
  obtain ⟨hret, hsame⟩ := hl j hj
  refine ⟨hret, fun j' hj' => ?_⟩
  rcases step_status hf hj' with ⟨hnew, _⟩ | ⟨j₀, hj₀, hpk, hacc⟩
  · exact absurd (hids j hj) hnew
  · obtain ⟨hst, hps⟩ := hsame j₀ hj₀
    refine ⟨?_, hpk.trans hps⟩
    rcases hacc with h | h | h
    · exact h.trans hst
    · rw [hp] at h
      cases h
    · have hret₀ : j₀.isRetainable = true := by
        rw [Job.isRetainable, Job.isInternal_congr hps, hst]
        exact hret
      rw [h hret₀] at hu
      cases hu

/-- A snapshot taken now agrees with the job map. -/
theorem synced_snapshot {s : SchedulerState} (hk : Keyed s) : Synced s (retained s.jobs.values) := by
  intro j hj
  obtain ⟨hmem, hret⟩ := mem_retained hj
  refine ⟨hret, fun j' hj' => ?_⟩
  obtain ⟨k, hj₀⟩ := FinMap.mem_values.1 hmem
  rw [hk k j hj₀, hj₀] at hj'
  cases hj'
  exact ⟨rfl, rfl⟩

theorem saved_agent {p : PersistentAgent} {a : Act} {w : World} (hs : p.world.step a = some w)
    (hf : forgets ⟨p, .agent a, ⟨w, (p.dir.follow a).begin (persistAfter p.world a)⟩⟩ = false) (h : Saved p) :
    Saved ⟨w, (p.dir.follow a).begin (persistAfter p.world a)⟩ := by
  have hstep : IsStep agent ⟨p.world, a, w⟩ := hs
  have hfew := p.dir.follow_fewer a
  have hissued : p.world.issued ⊆ w.issued := step_issued hstep
  have hsound : (p.dir.follow a).Sound := hfew.sound h.sound
  cases hp : persistAfter p.world a with
  | some owner =>
    -- the call that begins here will take a snapshot of what the step left
    have hb := StateDir.begin_step p.jobs (p.dir.follow a) owner
    have hwait : ((p.dir.follow a).begin (some owner)).waiting = true := by
      cases hb with
      | call _ _ hm => exact StateDir.waiting_iff.2 ⟨_, by rw [hm, if_pos rfl]⟩
    refine ⟨StateDir.sound_step hb hsound, fun all _ => .inr (.inr hwait), keyed_step hstep h.keyed,
      known_step hstep h.known, fun j hj => ?_, .inl hwait⟩
    rw [StateDir.newest_step hb hsound nofun, hfew.newest] at hj
    exact hissued (h.ids j hj)
  | none =>
    have hb : (p.dir.follow a).begin none = p.dir.follow a := rfl
    rw [hp, hb] at hf
    rw [hb]
    have hids : ∀ j ∈ (p.dir.follow a).newest, j.id ∈ w.issued := fun j hj => by
      rw [hfew.newest] at hj
      exact hissued (h.ids j hj)
    have hsync : changesUnsaved p.world a = false → Synced p.world.sched p.dir.newest →
        Synced w.sched (p.dir.follow a).newest := fun hu hl => by
      rw [hfew.newest]
      exact synced_step hstep hp hu h.ids hl
    unfold forgets at hf
    split at hf
    · next c hact =>
      cases hact
      refine ⟨hsound, hfew.upToDate hf h.upToDate, keyed_step hstep h.keyed, known_step hstep h.known, hids, ?_⟩
      rcases StateDir.waiting_or_idle hf with hw | hw
      · exact .inl hw
      · exact .inr (hsync rfl (h.synced.resolve_left (by simp [hw])))
    · next hact => cases hact
    · next b hnd hact =>
      cases hact
      rw [StateDir.follow_of_not_drop fun c he => hnd c (by rw [he])] at *
      refine ⟨hsound, h.upToDate, keyed_step hstep h.keyed, known_step hstep h.known, hids, ?_⟩
      rcases h.synced with hw | hl
      · exact .inl hw
      · rcases Bool.eq_false_or_eq_true p.dir.waiting with hw | hw
        · exact .inl hw
        · simp only [hw, Bool.not_false, Bool.and_true] at hf
          exact .inr (hsync hf hl)
    · next hact => cases hact

theorem saved_persist {p : PersistentAgent} {a : PersistAct} {d : StateDir} (hs : p.dir.step p.jobs a = some d)
    (hf : forgets ⟨p, .persist a, { p with dir := d }⟩ = false) (h : Saved p) : Saved { p with dir := d } := by
  have hstep := StateDir.step_cases hs
  have hsound := StateDir.sound_step hstep h.sound
  by_cases hdrop : ∃ i, a = .drop i
  · obtain ⟨i, rfl⟩ := hdrop
    have hfew : StateDir.Fewer p.dir d := by
      cases hstep with
      | drop _ q _ _ _ hm hfi hc hsn =>
        refine ⟨hfi, hc, hsn, fun k q hq => ?_⟩
        rw [hm] at hq
        split at hq
        · exact .inr (Option.some.inj hq).symm
        · exact .inl hq
    have hl : losesNews p.dir d = false := hf
    refine ⟨hsound, hfew.upToDate hl h.upToDate, h.keyed, h.known, fun j hj => ?_, ?_⟩
    · rw [hfew.newest] at hj
      exact h.ids j hj
    · rcases StateDir.waiting_or_idle hl with hw | hw
      · exact .inl hw
      · refine .inr ?_
        rw [hfew.newest]
        exact h.synced.resolve_left (by simp [hw])
  · have hnd : ∀ i, a ≠ .drop i := fun i he => hdrop ⟨i, he⟩
    have hover : p.dir.overwrites a = false := by
      unfold forgets at hf
      split at hf
      · next hact => cases hact
      · next i hact => cases hact; exact absurd rfl (hnd i)
      · next hact => cases hact
      · next hact => cases hact; exact hf
    have hup := StateDir.upToDate_step hstep h.sound hnd hover h.upToDate
    by_cases hsnap : ∃ i, a = .snapshot i
    · obtain ⟨i, rfl⟩ := hsnap
      -- from here on the history will hold the job map as it is now
      have hnew : d.newest = retained p.jobs := by
        cases hstep with
        | snapshot _ _ _ _ _ _ hsn => rw [StateDir.newest, hsn, List.getLast?_concat]
      refine ⟨hsound, hup, h.keyed, h.known, fun j hj => ?_, .inr ?_⟩
      · rw [hnew] at hj
        obtain ⟨k, hk⟩ := FinMap.mem_values.1 (mem_retained hj).1
        rw [h.keyed k j hk]
        exact h.known k j hk
      · rw [hnew]
        exact synced_snapshot h.keyed
    · have hns : ∀ i, a ≠ .snapshot i := fun i he => hsnap ⟨i, he⟩
      have hnew := StateDir.newest_step hstep h.sound hns
      refine ⟨hsound, hup, h.keyed, h.known, fun j hj => ?_, ?_⟩
      · rw [hnew] at hj
        exact h.ids j hj
      · rw [hnew]
        rcases h.synced with hw | hl
        · exact .inl (StateDir.waiting_step hstep hns hnd hw)
        · exact .inr hl

theorem saved_step {f : Fired PersistentAgent PersistentAct} (hs : IsStep saving f) (hf : forgets f = false)
    (h : Saved f.pre) : Saved f.post := by
  cases saving_step hs with
  | agent a hw => exact saved_agent hw hf h
  | persist a hd => exact saved_persist hd hf h

/-! ## The first state -/

/-- Of records with distinct ids each is found under its id. -/
theorem foldl_insert_mem {l : List Job} {j j' : Job} (hn : (l.map Job.id).Nodup) (hj : j ∈ l)
    (h : (l.foldl (fun m j => m.insert j.id j) (∅ : FinMap Uuid Job)).get? j.id = some j') : j' = j := by
  rcases foldl_insert_get? (f := id) l ∅ h with ⟨o, ho, hid, rfl⟩ | h
  · exact List.inj_on_of_nodup_map hn ho hj hid
  · simp at h

theorem startup_keyed {env : Env} {mc mq : Nat} {loaded : List Job} :
    Keyed (SchedulerState.startup env mc mq loaded) := by
  intro k j hj
  rcases foldl_insert_get? _ _ hj with ⟨o, _, hid, rfl⟩ | hj
  · exact recoverOrphan_same.1.trans hid
  · rcases foldl_insert_get? (f := id) _ _ hj with ⟨o, _, hid, rfl⟩ | hj
    · exact hid
    · simp [SchedulerState.new] at hj

/-- When nothing was recovered the loaded records are in memory as they are on disk. -/
theorem startup_synced {env : Env} {mc mq : Nat} {loaded l : List Job} (hn : (loaded.map Job.id).Nodup)
    (ht : ∀ j ∈ loaded, j.status.isTerminal = true) (hl : l ⊆ loaded) :
    Synced (SchedulerState.startup env mc mq loaded) l := by
  intro j hj
  have hterm := ht j (hl hj)
  refine ⟨by simp [Job.isRetainable, hterm], fun j' hj' => ?_⟩
  rcases foldl_insert_get? _ _ hj' with ⟨o, ho, _⟩ | hj'
  · obtain ⟨ho, hnt⟩ := List.mem_filter.1 ho
    rw [ht o ho] at hnt
    cases hnt
  · have hsub : (loaded.filter fun j => j.status.isTerminal).map Job.id |>.Nodup :=
      hn.sublist (List.filter_sublist.map _)
    cases foldl_insert_mem hsub (List.mem_filter.2 ⟨hl hj, hterm⟩) hj'
    exact ⟨rfl, rfl⟩

theorem restarted_saved {p : PersistentAgent} (h : p.Restarted) : Saved p := by
  obtain ⟨mc, mq, loaded, hs, hl, hc, hn, hsnap, hper, hfile⟩ := h
  have hlock : ∀ i q, p.dir.phase? i = some q → q = .locking := by
    intro i q hq
    obtain ⟨c, hc, rfl⟩ := Option.map_eq_some_iff.1 hq
    rw [hper] at hc
    split at hc
    · simp at hc
    · rw [List.mem_singleton.1 (List.mem_of_getElem? hc)]
  have hnewest : p.dir.newest = (p.dir.files.get? .jobsPath).getD [] := by
    unfold StateDir.newest
    rw [hsnap]
    rfl
  have hsub : p.dir.newest ⊆ loaded := by
    rw [hnewest]
    cases hf : p.dir.files.get? .jobsPath with
    | none => exact List.nil_subset _
    | some l => exact hfile l hf
  refine ⟨⟨fun i n all hq => ?_, fun i n tmp hq => ?_, fun i k n n' tmp hq => ?_⟩, fun all hall => ?_, ?_,
    startup_known ⟨mc, mq, loaded, hs, hl, hc⟩, fun j hj => hl j (hsub hj), ?_⟩
  · cases hlock i _ hq
  · cases hlock i _ hq
  · cases hlock i _ hq
  · rw [hsnap] at hall
    cases hall
  · rw [hs]
    exact startup_keyed
  · cases ht : loaded.all fun j => j.status.isTerminal with
    | true =>
      rw [hs]
      exact .inr (startup_synced hn (fun j hj => List.all_eq_true.1 ht j hj) hsub)
    | false =>
      -- a job was recovered, and the call that saves it has yet to take its snapshot
      rw [ht] at hper
      exact .inl (StateDir.waiting_iff.2 ⟨0, by rw [StateDir.phase?, hper]; rfl⟩)

/-! ## What the snapshots show -/

theorem begin_waiting {d : StateDir} {o : Option (Option Nat)} (h : o.isSome = true ∨ d.waiting = true) :
    (d.begin o).waiting = true := by
  cases o with
  | none => exact h.resolve_left nofun
  | some owner =>
    cases StateDir.begin_step [] d owner with
    | call _ _ hm => exact StateDir.waiting_iff.2 ⟨_, by rw [hm, if_pos rfl]⟩

@[simp] theorem begin_snapshots (d : StateDir) (o : Option (Option Nat)) : (d.begin o).snapshots = d.snapshots := by
  cases o <;> rfl

theorem new_pending {f : Fired World Act} (hf : IsStep agent f) (hk : Known f.pre) {k : Uuid}
    (hnew : k ∉ f.pre.issued) {j' : Job} (hj' : f.post.sched.jobs.get? k = some j') : j'.status = .pending := by
  have habsent : f.pre.sched.jobs.get? k = none := by
    by_contra hne
    obtain ⟨j, hj⟩ := Option.ne_none_iff_exists'.1 hne
    exact hnew (hk k j hj)
  obtain ⟨o, hact, hcreated⟩ := created_of_new hf habsent hj'
  have hwrite : StatusWrite f.pre k f.act (some .pending) := by
    rw [hact]
    exact .created o hcreated
  have hstatus := status_written hf hwrite
  rw [statusIn, hj', Option.map_some] at hstatus
  exact Option.some.inj hstatus

/-- What a step that forgets nothing does: a call waits afterwards, or one took a snapshot of the job map, or no call
has waited and every job of a client is new and Pending, or as it was. -/
inductive Notes (f : Fired PersistentAgent PersistentAct) : Prop
  | waits : f.post.dir.waiting = true → f.pre.dir.snapshots <+: f.post.dir.snapshots → Notes f
  | took : f.post.dir.snapshots = f.pre.dir.snapshots ++ [f.pre.jobs] → f.post.world = f.pre.world → Notes f
  | kept : f.pre.dir.waiting = false → f.post.dir.snapshots = f.pre.dir.snapshots →
      (∀ k j', f.post.world.sched.jobs.get? k = some j' → j'.isInternal = false →
        (k ∉ f.pre.world.issued ∧ j'.status = .pending) ∨
          ∃ j, f.pre.world.sched.jobs.get? k = some j ∧ j'.status = j.status ∧ j'.packages = j.packages) → Notes f

/-- A status that nobody persists is changed while a call waits. -/
theorem unsaved_waiting {p : PersistentAgent} {a : Act} {p' : PersistentAgent} (hf : forgets ⟨p, .agent a, p'⟩ = false)
    (hu : changesUnsaved p.world a = true) : (p.dir.follow a).waiting = true := by
  have hnd : ∀ c, a ≠ .call c .drop := by
    rintro c rfl
    cases hu
  rw [StateDir.follow_of_not_drop hnd]
  unfold forgets at hf
  split at hf
  · next c hact => cases hact; exact absurd rfl (hnd c)
  · next hact => cases hact
  · next hact => cases hact; simpa [hu] using hf
  · next hact => cases hact

/-- If a dropped caller leaves no call that waits, then none has waited. -/
theorem idle_before {p : PersistentAgent} {a : Act} {w : World}
    (hf : forgets ⟨p, .agent a, ⟨w, p.dir.follow a⟩⟩ = false) :
    (p.dir.follow a).waiting = true ∨ p.dir.waiting = false := by
  by_cases hd : ∃ c, a = .call c .drop
  · obtain ⟨c, rfl⟩ := hd
    exact StateDir.waiting_or_idle hf
  · rw [StateDir.follow_of_not_drop fun c hc => hd ⟨c, hc⟩]
    exact Bool.eq_false_or_eq_true _

theorem notes_agent {p : PersistentAgent} {a : Act} {w : World} (hs : p.world.step a = some w)
    (hf : forgets ⟨p, .agent a, ⟨w, (p.dir.follow a).begin (persistAfter p.world a)⟩⟩ = false) (h : Saved p) :
    Notes ⟨p, .agent a, ⟨w, (p.dir.follow a).begin (persistAfter p.world a)⟩⟩ := by
  have hsame : (p.dir.follow a).snapshots = p.dir.snapshots := (p.dir.follow_fewer a).snapshots
  cases hp : persistAfter p.world a with
  | some owner => exact .waits (begin_waiting (.inl rfl)) (by simp [hsame])
  | none =>
    rw [hp] at hf
    rcases idle_before hf with hw | hw
    · exact .waits hw (by simp [StateDir.begin, hsame])
    refine .kept hw hsame fun k j' hj' hclient => ?_
    have hstep : IsStep agent ⟨p.world, a, w⟩ := hs
    rcases step_status hstep hj' with ⟨hnew, _⟩ | ⟨j, hj, hpackages, hacc⟩
    · exact .inl ⟨hnew, new_pending hstep h.known hnew hj'⟩
    refine .inr ⟨j, hj, ?_, hpackages⟩
    rcases hacc with hacc | hacc | hacc
    · exact hacc
    · rw [hp] at hacc
      cases hacc
    · -- nothing saves this step, so that a call must have been waiting
      have hu := hacc (by rw [Job.isRetainable, ← Job.isInternal_congr hpackages, hclient]; rfl)
      have hnd : ∀ c, a ≠ .call c .drop := by
        rintro c rfl
        cases hu
      have hwaits := unsaved_waiting hf hu
      rw [StateDir.follow_of_not_drop hnd, hw] at hwaits
      cases hwaits

theorem notes_persist {p : PersistentAgent} {a : PersistAct} {d : StateDir} (hs : p.dir.step p.jobs a = some d)
    (hf : forgets ⟨p, .persist a, { p with dir := d }⟩ = false) : Notes ⟨p, .persist a, { p with dir := d }⟩ := by
  have hkept (hw : p.dir.waiting = false) (hsnapshots : d.snapshots = p.dir.snapshots) :
      Notes ⟨p, .persist a, { p with dir := d }⟩ := .kept hw hsnapshots fun k j' hj' _ => .inr ⟨j', hj', rfl, rfl⟩
  have hstep := StateDir.step_cases hs
  cases hstep with
  | call owner _ hm _ _ hsn => exact .waits (StateDir.waiting_iff.2 ⟨_, by rw [hm, if_pos rfl]⟩) (by simp [hsn])
  | snapshot i _ _ _ _ _ hsn => exact .took hsn rfl
  | write i n all _ _ _ _ _ hsn =>
    rcases Bool.eq_false_or_eq_true p.dir.waiting with hw | hw
    · exact .waits (StateDir.waiting_step (StateDir.step_cases hs) nofun nofun hw) (by simp [hsn])
    · exact hkept hw hsn
  | rename i n tmp content _ _ _ _ _ _ hsn =>
    rcases Bool.eq_false_or_eq_true p.dir.waiting with hw | hw
    · exact .waits (StateDir.waiting_step (StateDir.step_cases hs) nofun nofun hw) (by simp [hsn])
    · exact hkept hw hsn
  | drop i q _ _ _ _ _ _ hsn =>
    rcases StateDir.waiting_or_idle hf with hw | hw
    · exact .waits hw (by simp [hsn])
    · exact hkept hw hsn

theorem notes_step {f : Fired PersistentAgent PersistentAct} (hs : IsStep saving f) (hf : forgets f = false)
    (h : Saved f.pre) : Notes f := by
  cases saving_step hs with
  | agent a hw => exact notes_agent hw hf h
  | persist a hd => exact notes_persist hd hf

/-- The step is one of the agent, or leaves it. -/
theorem saving_world {f : Fired PersistentAgent PersistentAct} (hs : IsStep saving f) :
    f.post.world = f.pre.world ∨ ∃ a, IsStep agent ⟨f.pre.world, a, f.post.world⟩ := by
  cases saving_step hs with
  | agent a hw => exact .inr ⟨a, hw⟩
  | persist a hd => exact .inl rfl

/-- The id is taken, and its job is one of a client. -/
structure Client (k : Uuid) (w : World) : Prop where
  issued : k ∈ w.issued
  client : ∀ j', w.sched.jobs.get? k = some j' → j'.isInternal = false

theorem client_step {f : Fired PersistentAgent PersistentAct} (hs : IsStep saving f) {k : Uuid}
    (h : Client k f.pre.world) : Client k f.post.world := by
  rcases saving_world hs with hw | ⟨a, hstep⟩
  · rwa [hw]
  · refine ⟨step_issued hstep h.issued, fun j' hj' => ?_⟩
    rcases step_status hstep hj' with ⟨hnew, _⟩ | ⟨j, hj, hpackages, _⟩
    · exact absurd h.issued hnew
    · rw [Job.isInternal_congr hpackages]
      exact h.client j hj

/-- A snapshot shows every job as it is. -/
theorem shown_of_took {p p' : PersistentAgent} (hk : Keyed p.world.sched)
    (hsn : p'.dir.snapshots = p.dir.snapshots ++ [p.jobs]) (hw : p'.world = p.world) (k : Uuid) : Shown k p' := by
  intro j' hj'
  rw [hw] at hj'
  exact ⟨p.jobs, by rw [hsn, List.getLast?_concat], j', FinMap.mem_values.2 ⟨k, hj'⟩, hk k j' hj', rfl, rfl⟩

/-- A job that is as it was is shown as it was. -/
theorem shown_of_kept {p p' : PersistentAgent} {k : Uuid} (hsn : p'.dir.snapshots = p.dir.snapshots)
    (hkept : ∀ j', p'.world.sched.jobs.get? k = some j' →
      ∃ j, p.world.sched.jobs.get? k = some j ∧ j'.status = j.status ∧ j'.packages = j.packages)
    (h : Shown k p) : Shown k p' := by
  intro j' hj'
  obtain ⟨j, hj, hstatus, hpackages⟩ := hkept j' hj'
  obtain ⟨all, hlast, j₀, hj₀, hid, hs, hp⟩ := h j hj
  exact ⟨all, by rw [hsn, hlast], j₀, hj₀, hid, hs.trans hstatus.symm, hp.trans hpackages.symm⟩

/-- A conclusion when there were `n` snapshots is due to be saved, or saved. -/
structure Pursued (n : Nat) (k : Uuid) (p : PersistentAgent) : Prop where
  client : Client k p.world
  grown : n ≤ p.dir.snapshots.length
  shown : p.dir.waiting = true ∨ (n < p.dir.snapshots.length ∧ Shown k p)

theorem pursued_step {f : Fired PersistentAgent PersistentAct} (hs : IsStep saving f) (hf : forgets f = false)
    (hsaved : Saved f.pre) {n : Nat} {k : Uuid} (h : Pursued n k f.pre) : Pursued n k f.post := by
  have hclient := client_step hs h.client
  cases notes_step hs hf hsaved with
  | waits hw hprefix => exact ⟨hclient, h.grown.trans hprefix.length_le, .inl hw⟩
  | took hsn hw =>
    have hgrown : n < f.post.dir.snapshots.length := by
      have := h.grown
      rw [hsn, List.length_append, List.length_singleton]
      omega
    exact ⟨hclient, hgrown.le, .inr ⟨hgrown, shown_of_took hsaved.keyed hsn hw k⟩⟩
  | kept hw hsn hkept =>
    obtain ⟨hgrown, hshown⟩ := h.shown.resolve_left (by simp [hw])
    refine ⟨hclient, by rw [hsn]; exact h.grown, .inr ⟨by rwa [hsn], shown_of_kept hsn (fun j' hj' => ?_) hshown⟩⟩
    exact (hkept k j' hj' (hclient.client j' hj')).resolve_left fun hnew => hnew.1 h.client.issued

/-- Since the first snapshot the newest one shows every job of a client that is not Pending, unless a call has yet to
take its snapshot. -/
def Complete (p : PersistentAgent) : Prop :=
  p.dir.waiting = true ∨ p.dir.snapshots = [] ∨ ∀ k j', p.world.sched.jobs.get? k = some j' → j'.isInternal = false →
    j'.status ≠ .pending → Shown k p

theorem complete_step {f : Fired PersistentAgent PersistentAct} (hs : IsStep saving f) (hf : forgets f = false)
    (hsaved : Saved f.pre) (h : Complete f.pre) : Complete f.post := by
  cases notes_step hs hf hsaved with
  | waits hw => exact .inl hw
  | took hsn hw => exact .inr (.inr fun k _ _ _ _ => shown_of_took hsaved.keyed hsn hw k)
  | kept hw hsn hkept =>
    rcases h.resolve_left (by simp [hw]) with hnone | hall
    · exact .inr (.inl (by rw [hsn, hnone]))
    refine .inr (.inr fun k j' hj' hclient hactive => ?_)
    obtain ⟨j, hj, hstatus, hpackages⟩ :=
      (hkept k j' hj' hclient).resolve_left fun hnew => hactive hnew.2
    have hshown : Shown k f.pre := by
      refine hall k j hj ?_ (hstatus ▸ hactive)
      rw [← Job.isInternal_congr hpackages, hclient]
    refine shown_of_kept hsn (fun j'' hj'' => ?_) hshown
    rw [hj'] at hj''
    cases hj''
    exact ⟨j, hj, hstatus, hpackages⟩

/-! ## Runs -/

/-- A conclusion is saved: its step is followed by `persist_jobs`, or a call waits for the lock anyway. -/
theorem concludes_saved {f : Fired PersistentAgent PersistentAct} (hs : IsStep saving f) (hf : forgets f = false)
    (hsaved : Saved f.pre) {k : Uuid} (hc : Concludes f k) : f.post.dir.waiting = true := by
  obtain ⟨j, j', hj, hj', hclient, hne, _⟩ := hc
  have hissued : k ∈ f.pre.world.issued := hsaved.known k j hj
  have hclient' : j'.isInternal = false :=
    (client_step hs ⟨hissued, fun j₀ hj₀ => by rw [hj] at hj₀; cases hj₀; exact hclient⟩).client j' hj'
  cases notes_step hs hf hsaved with
  | waits hw => exact hw
  | took _ hw =>
    rw [hw, hj] at hj'
    cases hj'
    exact absurd rfl hne
  | kept _ _ hkept =>
    obtain ⟨j₀, hj₀, hstatus, _⟩ := (hkept k j' hj' hclient').resolve_left fun hnew => hnew.1 hissued
    rw [hj] at hj₀
    cases hj₀
    exact absurd hstatus hne

theorem concludes_client {f : Fired PersistentAgent PersistentAct} (hs : IsStep saving f) (hk : Known f.pre.world)
    {k : Uuid} (hc : Concludes f k) : Client k f.post.world := by
  obtain ⟨j, _, hj, _, hclient, _⟩ := hc
  refine client_step hs ⟨hk k j hj, fun j₀ hj₀ => ?_⟩
  rw [hj] at hj₀
  cases hj₀
  exact hclient

/-- In every run whose steps forget no status the statuses are durable. -/
theorem statuses_durable {p p' : PersistentAgent} {tr : List (Fired PersistentAgent PersistentAct)} (hp : p.Restarted)
    (hr : Run saving p tr p') (hc : ∀ f ∈ tr, forgets f = false) : StatusesDurable p tr := by
  have hnone : p.dir.snapshots = [] := by
    obtain ⟨_, _, _, _, _, _, _, hnone, _⟩ := hp
    exact hnone
  have h0 : Saved p ∧ Complete p := ⟨restarted_saved hp, .inr (.inl hnone)⟩
  have hall := hr.invariant_at (I := fun v => Saved v ∧ Complete v) (G := fun f => forgets f = false)
    (fun f hs hf h => ⟨saved_step hs hf h.1, complete_step hs hf h.1 h.2⟩) h0 hc
  constructor
  · intro pre f post htr k hconcludes
    have hf : f ∈ tr := by simp [htr]
    have hs := hr.step_of_mem f hf
    have hdue := concludes_saved hs (hc f hf) (hall f hf).1.1 hconcludes
    have hstart : Saved f.post ∧ Pursued f.post.dir.snapshots.length k f.post :=
      ⟨(hall f hf).2.1, concludes_client hs (hall f hf).1.1.known hconcludes, le_refl _, .inl hdue⟩
    have hlater := (hr.split htr).2.invariant_at
      (I := fun v => Saved v ∧ Pursued f.post.dir.snapshots.length k v) (G := fun f => forgets f = false)
      (fun g hs hg h => ⟨saved_step hs hg h.1, pursued_step hs hg h.1 h.2⟩) hstart
      fun g hg => hc g (by simp [htr, hg])
    have hpursued := forall_states (P := fun v => Saved v ∧ Pursued f.post.dir.snapshots.length k v) hstart
      fun g hg => (hlater g hg).2
    refine ⟨hdue, fun v hv => (hpursued v hv).2.shown, fun v hv hrest => ?_⟩
    obtain ⟨hsaved, hpursued⟩ := hpursued v hv
    have hshown := hpursued.shown.resolve_left (by simp [idle_of_atRest hrest])
    exact hsaved.onDisk hrest hpursued.client.client hshown.2
  · intro v hv
    obtain ⟨hsaved, hcomplete⟩ :=
      forall_states (P := fun v => Saved v ∧ Complete v) h0 (fun f hf => (hall f hf).2) v hv
    refine ⟨fun hrest l hl j hj j' hj' => hsaved.agrees hrest hl hj hj', fun hrest hsome k j' hj' hclient hactive => ?_⟩
    have hshown := (hcomplete.resolve_left (by simp [idle_of_atRest hrest])).resolve_left hsome k j' hj' hclient hactive
    refine hsaved.onDisk hrest (fun j'' hj'' => ?_) hshown
    rw [hj'] at hj''
    cases hj''
    exact hclient

theorem freshPersistentAgent_restarted : freshPersistentAgent.Restarted :=
  ⟨2, 10, [], rfl, by simp, rfl, by simp, rfl, rfl, fun l hl => by cases hl⟩

/-- One mutation up to the start of its closure, with the history that says Running. -/
def runningOnDisk : List PersistentAct :=
  [.agent (.op (.admitJob 1 .install ["vim"])), .agent (.dispatch 1), .agent (.call 0 .check), .persist (.snapshot 0),
    .persist (.write 0), .persist (.rename 0), .agent (.call 0 .spawnWatchdog), .agent (.call 0 .startWatchdog),
    .agent (.call 0 .runClosure)]

/-- Its caller stays and completes the job. -/
def completedOnDisk : List PersistentAct := runningOnDisk ++
  [.agent (.call 0 (.exitClosure (.ok ()))), .agent (.call 0 .join), .agent (.call 0 .finalize),
    .agent (.call 0 .receive), .agent (.op (.completeJob 1)), .persist (.snapshot 1), .persist (.write 1),
    .persist (.rename 1)]

theorem statuses_durable_completed :
    StatusesDurable freshPersistentAgent ((trace saving freshPersistentAgent completedOnDisk).getD []) :=
  statuses_durable freshPersistentAgent_restarted (run_trace saving _ completedOnDisk (by decide)) (by decide)

/-- Its caller goes away; the watchdog fails the job, and the history goes on to say Running. -/
def abandonedOnDisk : List PersistentAct := runningOnDisk ++
  [.agent (.call 0 .drop), .agent (.call 0 (.exitClosure (.ok ()))), .agent (.call 0 .join), .agent (.call 0 .finalize)]

theorem abandoned_not_saved : ∃ (p p' : PersistentAgent) (tr : List (Fired PersistentAgent PersistentAct)),
    p.Restarted ∧ Run saving p tr p' ∧ ¬ StatusesDurable p tr := by
  refine ⟨freshPersistentAgent, _, _, freshPersistentAgent_restarted,
    run_trace saving _ abandonedOnDisk (by decide), fun h => ?_⟩
  have hend := h.agrees _ (run_trace saving _ abandonedOnDisk (by decide)).end_mem
  have hagree := hend.same (by decide) _ (Option.some_get (by decide)).symm _ (List.getElem_mem (n := 0) (by decide)) _
    (Option.some_get (by decide)).symm
  exact absurd hagree (by decide)

end LinuxPatchApi.Jobs
