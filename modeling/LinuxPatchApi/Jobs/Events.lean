/-
The event stream and the job map. Every critical section that changes the status, the progress or the
message of a job sends exactly one event about it, with the values the job has afterwards; so a client
that reads the stream sees each job as it is and in the order in which it changed.
-/
import LinuxPatchApi.Lib.EventLog
import LinuxPatchApi.Jobs.Terminal

namespace LinuxPatchApi.Jobs

open LinuxPatchApi.Packages Transition SchedulerState

/-! ## What is announced and what is so -/

/-- What an event says about its job. -/
structure JobView where
  status : String
  progress : UInt8
  message : String
  deriving DecidableEq, Repr

def Job.view (j : Job) : JobView := ⟨j.status.asStr, j.progress, j.message⟩

def JobStatusEvent.view (e : JobStatusEvent) : JobView := ⟨e.status, e.progress, e.message⟩

/-- The job as the map has it. -/
def present (k : Uuid) (s : SchedulerState) : Option JobView := (s.jobs.get? k).map Job.view

/-- The events about the job, oldest first. -/
def eventsOf (k : Uuid) (s : SchedulerState) : List JobStatusEvent := s.events.filter fun e => e.jobId == k

def announced (k : Uuid) (s : SchedulerState) : List JobView := (eventsOf k s).map JobStatusEvent.view

/-- Nothing about job `k` is sent, and it stays as it is. -/
abbrev Unchanged (k : Uuid) (s s' : SchedulerState) : Prop := Silent (announced k) (present k) s s'

/-- Whatever happened to job `k` is in the stream. -/
abbrev Announced (k : Uuid) (s s' : SchedulerState) : Prop := Logged (announced k) (present k) s s'

/-! ## Helpers -/

section Helpers

variable {env : Env} {s s' : SchedulerState} {k : Uuid}

/-- Only the jobs and the events matter. -/
theorem unchanged_of_eq (hj : s'.jobs = s.jobs) (he : s'.events = s.events) : Unchanged k s s' :=
  ⟨by simp only [announced, eventsOf, he], by simp only [present, hj]⟩

theorem announced_of_eq {t : SchedulerState} (hj : t.jobs = s.jobs) (he : t.events = s.events)
    (h : Announced k t s') : Announced k s s' := (unchanged_of_eq hj he).logged h

theorem notifyOne_unchanged : Unchanged k s s.notifyOne := unchanged_of_eq rfl rfl

theorem announced_notifyOne (h : Announced k s s') : Announced k s s'.notifyOne := h.silent_after notifyOne_unchanged

theorem emitEventDetailed_announced (id : Uuid) (st : JobStatus) (p : UInt8) (m : String) (er ec : Option String) :
    announced k (emitEventDetailed env s id st p m er ec) =
      announced k s ++ if id = k then [⟨st.asStr, p, m⟩] else [] := by
  simp only [announced, eventsOf, emitEventDetailed, List.filter_append, List.map_append]
  by_cases h : id = k <;> simp [h, JobStatusEvent.view]

/-- A job is put into the map or replaced, and its event sent. -/
theorem insert_announced (id : Uuid) (j : Job) (er ec : Option String) :
    Announced k s (emitEventDetailed env { s with jobs := s.jobs.insert id j }
      id j.status j.progress j.message er ec) := by
  have hlog := @emitEventDetailed_announced env { s with jobs := s.jobs.insert id j }
    k id j.status j.progress j.message er ec
  have hget : present k { s with jobs := s.jobs.insert id j } = if k = id then some j.view else present k s := by
    simp only [present, FinMap.get?_insert]
    split <;> rfl
  by_cases hk : k = id
  · subst hk
    rw [if_pos rfl] at hlog hget
    exact .told j.view hlog hget
  · rw [if_neg fun h => hk h.symm, List.append_nil] at hlog
    rw [if_neg hk] at hget
    exact .silent ⟨hlog, hget⟩

theorem mutateJob_announced (id : Uuid) (f : Job → Job) : Announced k s (s.mutateJob env id f) := by
  unfold mutateJob
  split
  · exact .silent (.refl s)
  · exact insert_announced id _ none none

theorem mutateJob_unchanged {id : Uuid} (h : k ≠ id) (f : Job → Job) : Unchanged k s (s.mutateJob env id f) := by
  unfold mutateJob
  split
  · exact .refl s
  · next j _ =>
    refine ⟨?_, ?_⟩
    · exact (emitEventDetailed_announced id _ _ _ none none).trans
        (by rw [if_neg fun e => h e.symm, List.append_nil]; rfl)
    · show (FinMap.get? (AList.insert id (f j) s.jobs) k).map Job.view = _
      rw [FinMap.get?_insert, if_neg h]
      rfl

theorem insertNewJob_announced (id : Uuid) (op : JobOperation) (ps : List String) :
    Announced k s (s.insertNewJob env id op ps) := insert_announced id (Job.new env id op ps) none none

theorem insertNewJob_unchanged {id : Uuid} (h : k ≠ id) (op : JobOperation) (ps : List String) :
    Unchanged k s (s.insertNewJob env id op ps) := by
  refine ⟨?_, ?_⟩
  · exact (emitEventDetailed_announced id _ _ _ none none).trans
      (by rw [if_neg fun e => h e.symm, List.append_nil]; rfl)
  · simp only [present, insertNewJob_get?, if_neg h]

/-- What no event carries may change without one. -/
theorem modify_unchanged (id : Uuid) {f : Job → Job} (hf : ∀ j, (f j).view = j.view) :
    Unchanged k s { s with jobs := s.jobs.modify id f } := by
  refine ⟨rfl, ?_⟩
  simp only [present, FinMap.get?_modify]
  split
  · next hk =>
    rw [hk, Option.map_map, Function.comp_def]
    simp only [hf]
  · rfl

theorem erase_announced (id : Uuid) : Announced k s { s with jobs := s.jobs.erase id } := by
  by_cases hk : k = id
  · exact .hidden rfl (by simp only [present, FinMap.get?_erase, if_pos hk]; rfl)
  · exact .silent ⟨rfl, by simp only [present, FinMap.get?_erase, if_neg hk]⟩

/-- Every job is cancelled at most once. -/
theorem cancelAll_announced : ∀ (ids : List Uuid) (s : SchedulerState), ids.Nodup →
    Announced k s (s.cancelAll env ids) ∧ (k ∉ ids → Unchanged k s (s.cancelAll env ids))
  | [], s, _ => ⟨.silent (.refl s), fun _ => .refl s⟩
  | id :: ids, s, hn => by
    obtain ⟨hid, hn⟩ := List.nodup_cons.1 hn
    obtain ⟨hlog, hsil⟩ := cancelAll_announced ids (s.mutateJob env id (cancelForReboot env)) hn
    refine ⟨?_, fun hk => ?_⟩
    · by_cases hk : k = id
      · subst hk
        exact (mutateJob_announced k _).silent_after (hsil hid)
      · exact (mutateJob_unchanged hk _).logged hlog
    · obtain ⟨hne, hk⟩ := not_or.1 (List.mem_cons.not.1 hk)
      exact (mutateJob_unchanged hne _).trans (hsil hk)

end Helpers

/-! ## Operations -/

section Operations

variable {env : Env} {s : SchedulerState} {k : Uuid}

theorem createRollbackJob_announced (id orig : Uuid) : Announced k s (s.createRollbackJob env id orig).1 := by
  unfold createRollbackJob
  split
  · exact .silent (.refl s)
  next j _ =>
  split
  · rcases s.admitJobInner_spec env id .rollback j.packages with ⟨e, he⟩ | ⟨_, _, _, _, he⟩
    · rw [he]
      exact .silent (.refl s)
    · rw [he]
      exact announced_notifyOne ((insertNewJob_announced id _ _).silent_after (modify_unchanged id fun _ => rfl))
  · exact .silent (.refl s)

theorem tryReserveSelfUpdate_announced (id : Uuid) (ps : List String) (v w : String) :
    Announced k s (s.tryReserveSelfUpdate env id ps v w).1 := by
  unfold tryReserveSelfUpdate
  repeat' split
  all_goals try exact .silent (.refl s)
  refine announced_notifyOne ?_
  exact announced_of_eq (by rfl) (by rfl) (insertNewJob_announced id _ _)

theorem rollbackSelfUpdate_announced (id : Uuid) : Announced k s (s.rollbackSelfUpdate id) := by
  unfold rollbackSelfUpdate
  refine announced_notifyOne ?_
  cases s.selfUpdate with
  | none => exact erase_announced id
  | some su =>
    by_cases h : su.jobId = id
    · simp only [h, if_true]
      exact announced_of_eq (t := { s with selfUpdate := none }) rfl rfl (erase_announced id)
    · simp only [h, if_false]
      exact erase_announced id

/-- The new job is announced by its insertion, a cancelled job by its cancellation. -/
theorem reserveReboot_announced (id : Uuid) (force ack : Bool) :
    Announced k s (s.reserveReboot env id force ack).1 := by
  unfold reserveReboot
  simp only
  repeat' split
  all_goals try exact .silent (.refl s)
  refine announced_notifyOne ?_
  refine announced_of_eq (t := { s with rebootPending := some id }) rfl rfl ?_
  have hcancel := fun t : SchedulerState => @cancelAll_announced env k (t.pendingExcept id) t (t.pendingExcept_nodup id)
  obtain ⟨hlog, hsil⟩ := hcancel ({ s with rebootPending := some id }.insertNewJob env id .reboot [])
  by_cases hk : k = id
  · subst hk
    exact (insertNewJob_announced k .reboot []).silent_after (hsil fun h => ((mem_pendingExcept _).1 h).1 rfl)
  · exact (insertNewJob_unchanged hk .reboot []).logged hlog

theorem rollbackReboot_announced (id : Uuid) (error : Option String) :
    Announced k s (s.rollbackReboot env id error).1 := by
  unfold rollbackReboot
  split
  · exact .silent (.refl s)
  · exact announced_notifyOne (announced_of_eq (t := { s with rebootPending := none })
      rfl rfl (mutateJob_announced id _))

theorem beginRebootExecution_announced (id : Uuid) : Announced k s (s.beginRebootExecution env id).1 := by
  unfold beginRebootExecution
  repeat' split
  all_goals try exact .silent (.refl s)
  exact announced_notifyOne (mutateJob_announced id _)

theorem setJobRebooting_announced (id : Uuid) (m : String) : Announced k s (s.setJobRebooting env id m).1 := by
  unfold setJobRebooting
  repeat' split
  all_goals try exact .silent (.refl s)
  exact announced_notifyOne (mutateJob_announced id _)

theorem failJobWithDiagnostics_announced (id : Uuid) (e : AnyhowError) :
    Announced k s (s.failJobWithDiagnostics env id e) := by
  unfold failJobWithDiagnostics
  refine announced_notifyOne ?_
  split
  · exact .silent (.refl s)
  · exact insert_announced id _ _ _

/-- Every operation announces what it does to a job. -/
theorem apply_announced (o : SchedOp) : Announced k s (o.apply env s) := by
  cases o with
  | admitJob id op ps =>
    simp only [SchedOp.apply]
    rcases s.admitJob_spec env id op ps with ⟨e, he⟩ | ⟨_, _, _, _, he⟩ <;> rw [he]
    · exact .silent (.refl s)
    · exact announced_notifyOne (insertNewJob_announced id op ps)
  | createRollbackJob id orig => exact createRollbackJob_announced id orig
  | tryReserveSelfUpdate id ps v w => exact tryReserveSelfUpdate_announced id ps v w
  | releaseSelfUpdate id =>
    simp only [SchedOp.apply]
    rcases s.releaseSelfUpdate_spec id with ⟨_, he⟩ | ⟨_, _, _, he⟩ <;> rw [he]
    · exact .silent (.refl s)
    · exact .silent (unchanged_of_eq rfl rfl)
  | rollbackSelfUpdate id => exact rollbackSelfUpdate_announced id
  | reserveReboot id force ack => exact reserveReboot_announced id force ack
  | rollbackReboot id error => exact rollbackReboot_announced id error
  | beginRebootExecution id => exact beginRebootExecution_announced id
  | setJobRebooting id m => exact setJobRebooting_announced id m
  | updateJob id st p m =>
    simp only [SchedOp.apply, updateJob]
    split
    · exact .silent (.refl s)
    · exact mutateJob_announced id _
  | addJobLog id m => exact .silent (modify_unchanged id fun _ => rfl)
  | completeJob id => exact announced_notifyOne (mutateJob_announced id _)
  | failJob id e => exact announced_notifyOne (mutateJob_announced id _)
  | failJobWithDiagnostics id e => exact failJobWithDiagnostics_announced id e
  | deleteJob id =>
    simp only [SchedOp.apply]
    rcases s.deleteJob_spec id with he | ⟨_, _, _, he⟩ <;> rw [he]
    · exact .silent (.refl s)
    · exact erase_announced id
  | freezeAdmission => exact .silent (unchanged_of_eq rfl rfl)
  | notifyWaiters => exact .silent notifyOne_unchanged

theorem dispatchCheck_announced (id : Uuid) : Announced k s (s.dispatchCheck env id).1 := by
  unfold dispatchCheck
  split
  · exact .silent (.refl s)
  simp only
  repeat' split
  all_goals try exact .silent (.refl s)
  exact announced_of_eq (by rfl) (by rfl) (mutateJob_announced id _)

theorem finalizeMutation_announced (id : Uuid) (g : UInt64) (r : MutationResult) (alive : Bool) :
    Announced k s (s.finalizeMutation env id g r alive) := by
  have hres : ∀ t : SchedulerState, Announced k t (t.resolveAbandoned env id r) := by
    intro t
    unfold resolveAbandoned
    repeat' split
    all_goals try exact .silent (.refl t)
    exact mutateJob_announced id _
  unfold finalizeMutation
  refine announced_notifyOne ?_
  -- the job changes only if the slot is still owned and the caller is gone
  cases s.stillOwns id g <;> cases alive
  · exact .silent (.refl s)
  · exact .silent (.refl s)
  · exact announced_of_eq (by rfl) (by rfl) (hres _)
  · exact .silent (unchanged_of_eq rfl rfl)

theorem callStep_announced {c : Nat} {call call' : Call} {a : CallAct} {s' : SchedulerState}
    (h : callStep env c s call a = some (s', call')) : Announced k s s' := by
  cases a with
  | check =>
    have hc := @dispatchCheck_announced env s k call.jobId
    simp only [callStep] at h
    split at h
    · split at h
      all_goals next he => rw [he] at hc; cases h; exact hc
    · cases h
  | finalize =>
    simp only [callStep] at h
    split at h
    · cases h
      exact finalizeMutation_announced _ _ _ _
    · cases h
  | register | wake | spawnWatchdog | startWatchdog | runClosure | exitClosure | join | elapse | receive | drop =>
    simp only [callStep] at h
    repeat' split at h
    all_goals try cases h
    all_goals exact .silent (unchanged_of_eq rfl rfl)

end Operations

/-! ## Runs -/

theorem step_announced {f : Fired World Act} (hf : IsStep agent f) (k : Uuid) :
    Announced k f.pre.sched f.post.sched := by
  obtain ⟨w, a, w'⟩ := f
  have hs : w.step a = some w' := hf
  cases a with
  | op o =>
    simp only [World.step] at hs
    split at hs
    · cases hs
      exact apply_announced o
    · cases hs
  | dispatch | tick =>
    cases hs
    exact .silent (.refl _)
  | call c a =>
    simp only [World.step] at hs
    split at hs
    · cases hs
    · obtain ⟨⟨s', call'⟩, hcs, rfl⟩ := Option.map_eq_some_iff.1 hs
      exact callStep_announced hcs

/-- The id was drawn by an operation of the run, so that the job was not loaded from the history. -/
def CreatedIn (tr : List (Fired World Act)) (k : Uuid) : Prop := ∃ f ∈ tr, ∃ o, f.act = .op o ∧ o.newId = some k

/-- The job's status in every state of the run that has the job. -/
def statusesOf (k : Uuid) (vs : List World) : List String :=
  vs.filterMap fun v => (v.sched.jobs.get? k).map fun j => j.status.asStr

/-- What a client learns from the stream about a job created in the run. -/
structure FaithfulStream (w w' : World) (tr : List (Fired World Act)) : Prop where
  last : ∀ k j, CreatedIn tr k → w'.sched.jobs.get? k = some j →
    ∃ e, (eventsOf k w'.sched).getLast? = some e ∧
      e.status = j.status.asStr ∧ e.progress = j.progress ∧ e.message = j.message
  statuses : ∀ k, CreatedIn tr k →
    ((eventsOf k w'.sched).map JobStatusEvent.status).destutter (· ≠ ·) = (statusesOf k (states w tr)).destutter (· ≠ ·)

/-- A job created in the run is not in the first map. -/
theorem created_absent {w w' : World} {tr : List (Fired World Act)} (hw : w.Startup) (hr : Run agent w tr w') {k : Uuid}
    (hc : CreatedIn tr k) : w.sched.jobs.get? k = none := by
  obtain ⟨⟨v, a, v'⟩, hf, o, rfl, hid⟩ := hc
  have hnew : k ∉ v.issued := by
    have hs : WorldStep v (.op o) v' := agent_step (hr.step_of_mem _ hf)
    cases hs with
    | op _ hfresh => exact hfresh k hid
  have hissued : w.issued ⊆ v.issued := (hr.always_at (I := fun v => w.issued ⊆ v.issued)
    (fun f hs hi => List.Subset.trans hi (step_issued hs)) (List.Subset.refl _) _ hf).1
  cases hj : w.sched.jobs.get? k with
  | none => rfl
  | some j => exact absurd (hissued (startup_known hw k j hj)) hnew

/-- On every run from startup the stream of events is faithful to the job map. -/
theorem stream_faithful {w w' : World} {tr : List (Fired World Act)} (hw : w.Startup) (hr : Run agent w tr w') :
    FaithfulStream w w' tr := by
  have hempty : ∀ k, announced k w.sched = [] := by
    obtain ⟨_, _, _, hs, _, _⟩ := hw
    intro k
    rw [hs]
    rfl
  have hobs : ∀ k, CreatedIn tr k → present k w.sched = none := fun k hc => by
    simp only [present, created_absent hw hr hc, Option.map_none]
  have hstep : ∀ k, ∀ f ∈ tr, Logged (fun v : World => announced k v.sched) (fun v => present k v.sched) f.pre f.post :=
    fun k f hf => (step_announced (hr.step_of_mem f hf) k).comap World.sched
  refine ⟨fun k j hc hj => ?_, fun k hc => ?_⟩
  · have hlast := (hr.logged (hstep k) (hempty k) (hobs k hc)).1 j.view (by simp only [present, hj, Option.map_some])
    rw [announced, List.getLast?_map] at hlast
    obtain ⟨e, he, hv⟩ := Option.map_eq_some_iff.1 hlast
    exact ⟨e, he, congrArg JobView.status hv, congrArg JobView.progress hv, congrArg JobView.message hv⟩
  · have hall := (hr.logged (fun f hf => (hstep k f hf).map JobView.status) (by rw [hempty]; rfl)
      (by rw [hobs k hc]; rfl)).2
    simp only [announced, present, List.map_map, Option.map_map] at hall
    exact hall

/-- A job fails for a caller that went away, and a reboot cancels another one. -/
def watchedJobs : List Act :=
  [.op (.admitJob 1 .install ["vim"]), .op (.admitJob 2 .update ["git"]), .dispatch 1, .call 0 .check,
    .call 0 .spawnWatchdog, .call 0 .startWatchdog, .call 0 .drop, .call 0 .runClosure,
      .op (.reserveReboot 3 true true),
    .call 0 (.exitClosure (.ok ())), .call 0 .join, .call 0 .finalize, .op (.rollbackReboot 3 none)]

theorem stream_faithful_watched :
    FaithfulStream (freshAgent 2 10) (endState (freshAgent 2 10) ((trace agent (freshAgent 2 10) watchedJobs).getD []))
      ((trace agent (freshAgent 2 10) watchedJobs).getD []) :=
  stream_faithful (freshAgent_startup 2 10) (run_trace agent _ watchedJobs (by decide))

end LinuxPatchApi.Jobs
