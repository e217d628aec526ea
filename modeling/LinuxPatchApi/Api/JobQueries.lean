/-
`list_jobs` and `get_job` of `src/api/handlers/jobs.rs`, and the records that they show: in memory, on their way to the
disk and on it, through any number of restarts.
-/
import LinuxPatchApi.Api.Internals
import LinuxPatchApi.Jobs.Records
import LinuxPatchApi.Lib.Recent

namespace LinuxPatchApi.Api

open Interaction LinuxPatchApi.Packages LinuxPatchApi.Jobs Transition

/-! ## Where records are -/

/-- The record is in the process, in a snapshot on its way to the disk, or in a file. -/
inductive Held (h : Installation) (j : Job) : Prop
  | memory (k : Uuid) : h.service.world.sched.jobs.get? k = some j → Held h j
  | snapshot (i n : Nat) (all : List Job) : h.dir.phase? i = some (.snapshotted n all) → j ∈ all → Held h j
  | file (p : StatePath) (l : List Job) : h.dir.files.get? p = some l → j ∈ l → Held h j

/-- At this step a call of `dispatch_mutation` starts a job that is over. -/
def RestartsEnded (f : Fired Installation InstallationAct) : Prop :=
  ∃ c call j, f.act = .process (.service (.call c .check)) ∧ f.pre.service.world.calls[c]? = some call ∧
    call.caller = .locking ∧ f.pre.service.world.sched.DispatchReady call.jobId ∧
    f.pre.service.world.sched.jobs.get? call.jobId = some j ∧ j.status.isTerminal = true

/-- How a record can have come from one before, or from none. -/
inductive Derives (f : Fired Installation InstallationAct) (j' : Job) : Prop
  | kept : Held f.pre j' → Derives f j'
  | created (env : Env) (s : SchedulerState) (o : SchedOp) (k : Uuid) : Creates env s o k j' → Derives f j'
  | moved (env : Env) (j : Job) : Held f.pre j → RecordMove env j j' → Derives f j'
  | started (env : Env) (j : Job) (alreadyRunning : Bool) : Held f.pre j →
      j' = SchedulerState.startJob env alreadyRunning j → (j.status.isTerminal = true → RestartsEnded f) → Derives f j'
  | resolved (env : Env) (o : Job) : Held f.pre o → j' = resolve env o → Derives f j'

section Steps

variable {h h' : Installation}

/-- The process takes a step of the agent that is no `update_job`, and a call's move as it is, or leaves the agent. -/
theorem process_acts {s s' : Service} {a : ProcessAct} (hs : s.processStep a = some s')
    (htasks : ∀ t ∈ s.tasks, DiscreetTask t) :
    s'.world = s.world ∨ ∃ act, s.world.step act = some s'.world ∧ act.isUpdateJob = false ∧
      ∀ c move, act = .call c move → a = .service (.call c move) := by
  cases a with
  | freeze =>
    simp only [Service.processStep, Option.map_eq_some_iff] at hs
    obtain ⟨w, hw, rfl⟩ := hs
    exact .inr ⟨_, hw, rfl, fun c move he => by cases he⟩
  | service a =>
    have hstep : s.step a = some s' := hs
    cases a with
    | request req newId dropped =>
      simp only [Service.step, Option.map_eq_some_iff] at hstep
      obtain ⟨⟨w, scripts⟩, hreq, rfl⟩ := hstep
      obtain ⟨d, hd⟩ := handle_cases hreq
      rcases hd.operated with hw | ⟨o, ho, hrequest⟩
      · exact .inl hw
      · exact .inr ⟨_, ho, hrequest.notUpdateJob, fun c move he => by cases he⟩
    | run n x =>
      simp only [Service.step] at hstep
      split at hstep
      · next script hn =>
        simp only [Option.map_eq_some_iff] at hstep
        obtain ⟨⟨w, task⟩, hrun, rfl⟩ := hstep
        have hdiscreet := htasks _ (List.mem_of_getElem? hn)
        cases runTask_cases hrun with
        | dispatched id closure k w' hw => exact .inr ⟨_, hw, rfl, fun c move he => by cases he⟩
        | performed e k w' r hp =>
          cases perform_cases hp with
          | admitJob _ _ _ hw | reserveReboot _ _ _ hw | beginRebootExecution _ _ hw =>
            exact .inr ⟨_, hw, rfl, fun c move he => by cases he⟩
          | op o _ hw =>
            have ho : o.isUpdateJob = false := by
              rcases hdiscreet with ⟨origin, he⟩ | hasks
              · obtain ⟨k', hk', _⟩ := refreshTask_eq origin
                rw [hk'] at he
                cases he
              · exact hasks.1.2
            exact .inr ⟨_, hw, ho, fun c move he => by cases he⟩
          | getSystemInfo | rebootSystem => exact .inl rfl
      · cases hstep
    | resume n =>
      simp only [Service.step] at hstep
      split at hstep
      · simp only [Option.map_eq_some_iff] at hstep
        obtain ⟨r, _, rfl⟩ := hstep
        exact .inl rfl
      · cases hstep
    | call c a =>
      simp only [Service.step] at hstep
      split at hstep
      · cases hstep
      · obtain ⟨w, hw, rfl⟩ := Option.map_eq_some_iff.1 hstep
        exact .inr ⟨_, hw, rfl, fun c move he => by cases he; rfl⟩
    | tick seconds =>
      simp only [Service.step, Option.map_eq_some_iff] at hstep
      obtain ⟨w, hw, rfl⟩ := hstep
      exact .inr ⟨_, hw, rfl, fun c move he => by cases he⟩

/-- A record outside the process stays where it is when the agent moves. -/
theorem held_of_service {s : Service} {j : Job} (hj : Held { h with service := s } j) :
    Held h j ∨ ∃ k, s.world.sched.jobs.get? k = some j := by
  cases hj with
  | memory k hk => exact .inr ⟨k, hk⟩
  | snapshot i n all hp hj => exact .inl (.snapshot i n all hp hj)
  | file p l hl hj => exact .inl (.file p l hl hj)

/-- A step of the agent derives the records in memory. -/
theorem memory_derives {f : Fired Installation InstallationAct} {a : Act} {w' : World}
    (hs : f.pre.service.world.step a = some w') (hu : a.isUpdateJob = false)
    (hcall : ∀ c, a = .call c .check → f.act = .process (.service (.call c .check))) {k : Uuid} {j' : Job}
    (hj' : w'.sched.jobs.get? k = some j') : Derives f j' := by
  rcases world_records hs hu hj' with ⟨o, _, hc⟩ | ⟨j, hj, hm | ⟨c, call, b, ha, rfl, hstart⟩⟩
  · exact .created _ _ o k hc
  · exact .moved _ j (.memory k hj) hm
  · refine .started _ j b (.memory _ hj) hstart fun ht => ?_
    exact ⟨c, call, j, hcall c ha.act, ha.entry, ha.locking, ha.ready, hj, ht⟩

/-- A snapshot holds records from memory, and a file what a snapshot held. -/
theorem held_of_persist {a : PersistAct} {d : StateDir} (hs : h.dir.step h.service.world.sched.jobs.values a = some d)
    {j : Job} (hj : Held { h with dir := d } j) : Held h j := by
  have hstep := StateDir.step_cases hs
  cases hj with
  | memory k hk => exact .memory k hk
  | snapshot i n all hp hj =>
    have hp : d.phase? i = some (.snapshotted n all) := hp
    cases hstep with
    | call owner _ hm | write k n' all' _ _ hm | drop k p _ _ _ hm | rename k n' tmp content _ _ _ hm =>
      rw [hm] at hp
      split at hp
      · cases hp
      · exact .snapshot i n all hp hj
    | snapshot k _ _ hm =>
      rw [hm] at hp
      split at hp
      · cases hp
        obtain ⟨key, hkey⟩ := FinMap.mem_values.1 hj
        exact .memory key hkey
      · exact .snapshot i n all hp hj
  | file p l hl hj =>
    have hl : d.files.get? p = some l := hl
    cases hstep with
    | call owner _ _ hf | snapshot k _ _ _ hf | drop k _ _ _ _ _ hf =>
      rw [hf] at hl
      exact .file p l hl hj
    | write k n all _ hp _ hf =>
      rw [hf, FinMap.get?_insert] at hl
      split at hl
      · cases hl
        exact .snapshot k n all hp (mem_retained hj).1
      · exact .file p l hl hj
    | rename k n tmp content _ _ hcont _ hf =>
      rw [hf, FinMap.get?_insert] at hl
      split at hl
      · cases hl
        exact .file _ _ hcont hj
      · rw [FinMap.get?_erase] at hl
        split at hl
        · cases hl
        · exact .file p l hl hj

/-- What a new process holds was in the file that it read. -/
theorem held_of_restart (b : Boot) {j : Job} (hj : Held (h.restarted b) j) :
    Held h j ∨ ∃ env o, Held h o ∧ j = resolve env o := by
  cases hj with
  | memory k hk =>
    obtain ⟨o, ho, _, rfl⟩ := startup_resolves hk
    refine .inr ⟨_, o, ?_, rfl⟩
    unfold Installation.loaded at ho
    split at ho
    · cases hf : h.dir.files.get? .jobsPath with
      | none =>
        rw [hf] at ho
        cases ho
      | some l =>
        rw [hf] at ho
        exact .file _ l hf ho
    · cases ho
  | snapshot i n all hp hj => cases hp
  | file p l hl hj => exact .inl (.file p l hl hj)

/-- Where each record after a step comes from. -/
theorem step_derives {f : Fired Installation InstallationAct} (hf : IsStep installation f)
    (htasks : ∀ t ∈ f.pre.service.tasks, DiscreetTask t) :
    (∀ t ∈ f.post.service.tasks, DiscreetTask t) ∧ ∀ j', Held f.post j' → Derives f j' := by
  obtain ⟨h, a, h'⟩ := f
  have hs : h.step a = some h' := hf
  cases a with
  | process a =>
    obtain ⟨s', hproc, rfl⟩ := Option.map_eq_some_iff.1 hs
    refine ⟨(process_kept hproc htasks).1, fun j' hj' => ?_⟩
    rcases held_of_service hj' with hj' | ⟨k, hj'⟩
    · exact .kept hj'
    rcases process_acts hproc htasks with hw | ⟨act, hw, hu, hcall⟩
    · rw [hw] at hj'
      exact .kept (.memory k hj')
    · exact memory_derives hw hu (fun c hc => congrArg InstallationAct.process (hcall c .check hc)) hj'
  | drop c =>
    obtain ⟨w, hw, rfl⟩ := Option.map_eq_some_iff.1 hs
    refine ⟨htasks, fun j' hj' => ?_⟩
    rcases held_of_service hj' with hj' | ⟨k, hj'⟩
    · exact .kept hj'
    · exact memory_derives hw rfl (fun c' hc => by cases hc) hj'
  | persist a =>
    obtain ⟨d, hd, rfl⟩ := Option.map_eq_some_iff.1 hs
    exact ⟨htasks, fun j' hj' => .kept (held_of_persist hd hj')⟩
  | restart b =>
    cases hs
    refine ⟨fun t ht => (by cases ht), fun j' hj' => ?_⟩
    rcases held_of_restart b hj' with hj' | ⟨env, o, ho, rfl⟩
    · exact .kept hj'
    · exact .resolved env o ho rfl

theorem first_held (hh : h.First) (j : Job) : ¬ Held h j := by
  obtain ⟨⟨mc, mq, hs⟩, _, _, hfresh, hfiles⟩ := hh
  rintro (⟨k, hj⟩ | ⟨i, n, all, hp, _⟩ | ⟨p, l, hl, _⟩)
  · rw [hs] at hj
    obtain ⟨_, o, ho, _⟩ := startup_jobs hj
    cases ho
  · rw [StateDir.phase?, hfresh.1] at hp
    cases hp
  · rw [hfiles] at hl
    cases hl

/-- What new records have, moves and starts keep and restarts leave, all records of a run have. -/
theorem held_always {P : Job → Prop} {G : Fired Installation InstallationAct → Prop}
    {tr : List (Fired Installation InstallationAct)}
    (hcreated : ∀ {env s o k j}, Creates env s o k j → P j)
    (hmoved : ∀ {env j j'}, RecordMove env j j' → P j → P j')
    (hstarted : ∀ {f env j b}, G f → (j.status.isTerminal = true → RestartsEnded f) → P j →
      P (SchedulerState.startJob env b j))
    (hresolved : ∀ {env o}, P o → P (resolve env o)) (hh : h.First) (hr : Run installation h tr h')
    (hG : ∀ f ∈ tr, G f) : ∀ j, Held h' j → P j := by
  have hinv : (∀ t ∈ h'.service.tasks, DiscreetTask t) ∧ ∀ j, Held h' j → P j := by
    refine hr.invariant (I := fun h => (∀ t ∈ h.service.tasks, DiscreetTask t) ∧ ∀ j, Held h j → P j) (G := G) ?_ ?_ hG
    · intro f hf hg ⟨htasks, hrecords⟩
      obtain ⟨htasks', hderives⟩ := step_derives hf htasks
      refine ⟨htasks', fun j' hj' => ?_⟩
      cases hderives j' hj' with
      | kept hj => exact hrecords j' hj
      | created env s o k hc => exact hcreated hc
      | moved env j hj hm => exact hmoved hm (hrecords j hj)
      | started env j b hj he ht => exact he ▸ hstarted hg ht (hrecords j hj)
      | resolved env o ho he => exact he ▸ hresolved (hrecords o ho)
    · refine ⟨fun t ht => ?_, fun j hj => absurd hj (first_held hh j)⟩
      obtain ⟨_, _, htasks, _⟩ := hh
      rw [htasks] at ht
      cases ht
  exact hinv.2

/-- In a run from the first start every record is coherent, and as long as no job that is over is started again the
record of an active job shows nothing of an end. -/
theorem records_coherent {tr : List (Fired Installation InstallationAct)} (hh : h.First)
    (hr : Run installation h tr h') :
    (∀ j, Held h' j → Coherent j) ∧
      ((∀ f ∈ tr, ¬ RestartsEnded f) → ∀ j, Held h' j → j.status.isActive = true → Unended j) := by
  constructor
  · exact held_always (G := fun _ => True) (fun hc => hc.coherent.1) (fun hm => hm.coherent)
      (fun _ _ => startJob_coherent _) resolve_coherent hh hr fun _ _ => trivial
  · intro hn
    refine held_always (G := fun f => ¬ RestartsEnded f) (P := fun j => j.status.isActive = true → Unended j)
      (fun hc _ => hc.coherent.2) (fun hm => hm.unended) ?_ ?_ hh hr hn
    · intro f env j b hg ht hj _
      refine startJob_unended (hj ?_)
      cases ha : j.status.isActive with
      | true => rfl
      | false =>
        refine absurd (ht ?_) hg
        rw [JobStatus.isTerminal_eq_not_isActive, ha]
        rfl
    · intro env o _ ha
      have hterminal := resolve_terminal env o
      rw [JobStatus.isTerminal_eq_not_isActive, ha] at hterminal
      cases hterminal

end Steps

/-- The command of an installation that cannot be completed. -/
def unmetDependencies : AnyhowError := .ofCommand {
  program := "apt-get", args := ["install", "-y", "--", "curl"], exitCode := some 100, stdout := ""
  stderr := "E: Unmet dependencies", spawnError := none, timedOut := false }

/-- An installation fails and its job is saved; another one waits when the process goes, and a third one comes after. -/
def failedInstallation : List InstallationAct :=
  [.process (.service (.request (.removePackage "curl") 1 false)), .run 0 0, .call 0 .check, .call 0 .spawnWatchdog,
    .call 0 .startWatchdog, .call 0 .runClosure, .call 0 (.exitClosure (.error unmetDependencies)), .call 0 .join,
    .call 0 .finalize, .call 0 .receive, .process (.service (.resume 0)), .run 0 0,
    .process (.service (.request (.removePackage "wget") 2 false)),
    .persist (.call none), .persist (.snapshot 0), .persist (.write 0), .persist (.rename 0),
    .restart ⟨5, none, 2, 10, true⟩, .process (.service (.request (.removePackage "wget") 3 false))]

/-- Where it leaves the agent. -/
def failedInstallationEnd : Installation :=
  endState freshInstallation ((trace installation freshInstallation failedInstallation).getD [])

theorem failedInstallation_run : Run installation freshInstallation
    ((trace installation freshInstallation failedInstallation).getD []) failedInstallationEnd :=
  run_trace installation _ failedInstallation (by decide +kernel)

theorem records_coherent_failed :
    (failedInstallationEnd.service.world.sched.jobs.values.map fun j => (j.id, j.status)) =
      [(3, .pending), (2, .failed), (1, .failed)] ∧
    (∀ j, Held failedInstallationEnd j → Coherent j) ∧
      ((∀ f ∈ (trace installation freshInstallation failedInstallation).getD [], ¬ RestartsEnded f) →
        ∀ j, Held failedInstallationEnd j → j.status.isActive = true → Unended j) :=
  ⟨by decide +kernel, records_coherent freshInstallation_first failedInstallation_run⟩

/-! ## Responses -/

/-- The derived `Debug` text. -/
def operationDebug : JobOperation → String
  | .install => "Install"
  | .update => "Update"
  | .remove => "Remove"
  | .patchApply => "PatchApply"
  | .reboot => "Reboot"
  | .selfUpdate => "SelfUpdate"
  | .rollback => "Rollback"

def statusText (status : JobStatus) : String := Text.toLowercase status.debug

structure JobSummary where
  jobId : Uuid
  operation : String
  status : String
  createdAt : Nat
  completedAt : Option Nat
  packages : List String
  errorCode : Option String
  deriving DecidableEq, Repr

/-- With the instants that the timestamps render. -/
def JobSummary.fromJob (job : Job) : JobSummary where
  jobId := job.id
  operation := Text.toLowercase (operationDebug job.operation)
  status := statusText job.status
  createdAt := job.createdAt
  completedAt := job.completedAt
  packages := job.packages
  errorCode := job.errorCode

structure JobDetailData extends JobSummary where
  progress : UInt8
  message : String
  logs : List String
  error : Option String
  exitCode : Option Int
  commandStdout : Option String
  commandStderr : Option String
  rollbackJobId : Option Uuid
  exclusiveMode : Bool
  deriving DecidableEq, Repr

def JobDetailData.fromJob (job : Job) : JobDetailData where
  toJobSummary := .fromJob job
  progress := job.progress
  message := job.message
  logs := job.logs
  error := job.error
  exitCode := job.exitCode
  commandStdout := job.commandStdout
  commandStderr := job.commandStderr
  rollbackJobId := job.rollbackJobId
  exclusiveMode := job.exclusiveMode

def parseJobStatus (statusStr : String) : Option JobStatus :=
  match Text.toLowercase statusStr with
  | "pending" => some .pending
  | "running" => some .running
  | "rebooting" => some .rebooting
  | "completed" => some .completed
  | "failed" => some .failed
  | "cancelled" => some .cancelled
  | "timedout" => some .timedOut
  | _ => none

structure JobListQuery where
  status : Option String
  limit : Option Nat
  deriving DecidableEq, Repr

structure JobListData where
  jobs : List JobSummary
  total : Nat
  deriving DecidableEq, Repr

/-- `Scheduler::list_jobs`, with the jobs in the order in which the map has them. -/
def Scheduler.listJobs (values : List Job) (statusFilter : Option JobStatus) (limit : Nat) : List Job :=
  let result := match statusFilter with
    | some status => values.filter fun j => decide (j.status = status)
    | none => values
  (Recent.sorted Job.createdAt result).take limit

def Handlers.listJobs (query : JobListQuery) (values : List Job) : JobListData :=
  let statusFilter := query.status.bind parseJobStatus
  let limit := query.limit.getD 50
  let jobs := Scheduler.listJobs values statusFilter limit
  { jobs := jobs.map JobSummary.fromJob, total := jobs.length }

inductive GetJobResponse where
  | ok (data : JobDetailData)
  | badRequest (code message : String)
  | notFound (code message : String)
  deriving DecidableEq, Repr

/-- `parseStr` is `Uuid::parse_str`. -/
def Handlers.getJob (parseStr : String → Option Uuid) (s : SchedulerState) (jobIdStr : String) : GetJobResponse :=
  match parseStr jobIdStr with
  | none => .badRequest "INVALID_JOB_ID" "Invalid job ID format. Expected UUID."
  | some jobId =>
    match s.jobs.get? jobId with
    | some job => .ok (.fromJob job)
    | none => .notFound "JOB_NOT_FOUND" ("Job '" ++ jobIdStr ++ "' not found")

/-! ## Listings -/

/-- The filter is the text of a status, in capital or small letters. -/
theorem parseJobStatus_eq_some {t : String} {status : JobStatus} :
    parseJobStatus t = some status ↔ Text.toLowercase t = statusText status := by
  have htexts : statusText .pending = "pending" ∧ statusText .running = "running" ∧
      statusText .rebooting = "rebooting" ∧ statusText .completed = "completed" ∧ statusText .failed = "failed" ∧
      statusText .cancelled = "cancelled" ∧ statusText .timedOut = "timedout" := by decide
  obtain ⟨h₁, h₂, h₃, h₄, h₅, h₆, h₇⟩ := htexts
  unfold parseJobStatus
  split <;> cases status <;> simp_all

/-- The query asks for the job: it names no status, or the job's. -/
def JobListQuery.Asks (query : JobListQuery) (job : Job) : Prop :=
  ∀ t ∈ query.status, ∀ status, Text.toLowercase t = statusText status → job.status = status

theorem asks_iff {query : JobListQuery} {job : Job} :
    query.Asks job ↔ ∀ status ∈ query.status.bind parseJobStatus, job.status = status := by
  constructor
  · intro h status hstatus
    obtain ⟨t, ht, hparse⟩ := Option.bind_eq_some_iff.1 hstatus
    exact h t ht status (parseJobStatus_eq_some.1 hparse)
  · intro h t ht status hstatus
    exact h status (Option.bind_eq_some_iff.2 ⟨t, ht, parseJobStatus_eq_some.2 hstatus⟩)

instance (query : JobListQuery) (job : Job) : Decidable (query.Asks job) := decidable_of_iff' _ asks_iff

theorem listJobs_eq (query : JobListQuery) (values : List Job) (limit : Nat) :
    Scheduler.listJobs values (query.status.bind parseJobStatus) limit =
      (Recent.sorted Job.createdAt (values.filter fun j => decide (query.Asks j))).take limit := by
  unfold Scheduler.listJobs
  have hasks : (fun j : Job => decide (query.Asks j)) =
      fun j => decide (∀ status ∈ query.status.bind parseJobStatus, j.status = status) := by
    funext j
    exact decide_eq_decide.2 asks_iff
  rw [hasks]
  cases query.status.bind parseJobStatus with
  | none => simp
  | some status => simp

/-- The newest of the jobs that the query asks for, each once, and what `get_job` says of them. -/
structure PageOf (s : SchedulerState) (query : JobListQuery) (page : List JobSummary) : Prop where
  once : (page.map JobSummary.jobId).Nodup
  newestFirst : page.Pairwise fun a b => b.createdAt ≤ a.createdAt
  full : page.length = min (query.limit.getD 50) (s.jobs.values.countP fun j => decide (query.Asks j))
  shown : ∀ entry ∈ page, ∃ j, s.jobs.get? entry.jobId = some j ∧ query.Asks j ∧ entry = .fromJob j
  leftOut : ∀ k j, s.jobs.get? k = some j → query.Asks j → JobSummary.fromJob j ∉ page →
    ∀ entry ∈ page, j.createdAt ≤ entry.createdAt
  detailed : ∀ entry ∈ page, ∀ parseStr text, parseStr text = some entry.jobId →
    ∃ data, Handlers.getJob parseStr s text = .ok data ∧ data.toJobSummary = entry

/-- A listing is such a page, in whatever order the map has its jobs. -/
theorem pageOf_listJobs {s : SchedulerState} (hk : Keyed s) {values : List Job} (hvalues : values.Perm s.jobs.values)
    (query : JobListQuery) : PageOf s query (Handlers.listJobs query values).jobs := by
  have hpage : (Handlers.listJobs query values).jobs =
      ((Recent.sorted Job.createdAt (values.filter fun j => decide (query.Asks j))).take (query.limit.getD 50)).map
        JobSummary.fromJob := by
    rw [← listJobs_eq]
    rfl
  rw [hpage]
  have hmem : ∀ {j}, j ∈ values.filter (fun j => decide (query.Asks j)) ↔
      s.jobs.get? j.id = some j ∧ query.Asks j := by
    intro j
    rw [List.mem_filter, decide_eq_true_iff, hvalues.mem_iff, FinMap.mem_values]
    refine and_congr_left fun _ => ⟨fun ⟨k, hj⟩ => ?_, fun hj => ⟨j.id, hj⟩⟩
    rw [hk k j hj]
    exact hj
  have hshown : ∀ entry ∈ ((Recent.sorted Job.createdAt (values.filter fun j => decide (query.Asks j))).take
      (query.limit.getD 50)).map JobSummary.fromJob,
      ∃ j, s.jobs.get? entry.jobId = some j ∧ query.Asks j ∧ entry = .fromJob j := by
    intro entry hentry
    obtain ⟨j, hj, rfl⟩ := List.mem_map.1 hentry
    obtain ⟨hget, hasks⟩ := hmem.1 (Recent.mem_sorted.1 (List.mem_of_mem_take hj))
    exact ⟨j, hget, hasks, rfl⟩
  refine ⟨?_, ?_, ?_, hshown, ?_, ?_⟩
  · have hids : (s.jobs.values.map Job.id).Nodup := keyed_nodup hk
    rw [List.map_map]
    refine List.Nodup.sublist ((List.take_sublist _ _).map _) ?_
    rw [((Recent.sorted_perm _ _).map _).nodup_iff]
    refine List.Nodup.sublist (List.filter_sublist.map _) ?_
    rw [(hvalues.map _).nodup_iff]
    exact hids
  · rw [List.pairwise_map]
    exact (Recent.pairwise_sorted Job.createdAt _).sublist (List.take_sublist _ _)
  · rw [List.length_map, List.length_take, (Recent.sorted_perm _ _).length_eq, ← List.countP_eq_length_filter,
      hvalues.countP_eq]
  · intro k j hj hasks hout entry hentry
    obtain ⟨i, hi, rfl⟩ := List.mem_map.1 hentry
    have hin : j ∈ values.filter fun j => decide (query.Asks j) := hmem.2 ⟨(hk k j hj).symm ▸ hj, hasks⟩
    exact Recent.key_le_of_left_out hi hin fun hmem => hout (List.mem_map_of_mem hmem)
  · intro entry hentry parseStr text hparse
    obtain ⟨j, hj, _, he⟩ := hshown entry hentry
    refine ⟨.fromJob j, ?_, he.symm⟩
    unfold Handlers.getJob
    rw [hparse]
    dsimp only
    rw [hj]

/-- Each job is under its id in every state that the agent reaches. -/
theorem keyed_always {h h' : Installation} {tr : List (Fired Installation InstallationAct)} (hh : h.First)
    (hr : Run installation h tr h') : Keyed h'.service.world.sched := by
  refine hr.always (I := fun h => Keyed h.service.world.sched) (fun f hf hk => ?_) ?_
  · obtain ⟨h, a, h'⟩ := f
    have hs : h.step a = some h' := hf
    cases a with
    | process a =>
      obtain ⟨s', hproc, rfl⟩ := Option.map_eq_some_iff.1 hs
      rcases process_world hproc with hw | ⟨act, hw⟩
      · show Keyed s'.world.sched
        rw [hw]
        exact hk
      · exact keyed_step (f := ⟨_, act, _⟩) hw hk
    | drop c =>
      obtain ⟨w, hw, rfl⟩ := Option.map_eq_some_iff.1 hs
      exact keyed_step (f := ⟨_, .call c .drop, _⟩) hw hk
    | persist a =>
      obtain ⟨d, _, rfl⟩ := Option.map_eq_some_iff.1 hs
      exact hk
    | restart b =>
      cases hs
      exact startup_keyed
  · obtain ⟨⟨mc, mq, hs⟩, _⟩ := hh
    show Keyed h.service.world.sched
    rw [hs]
    exact startup_keyed

/-- Every answer to a request for the list is such a page of the jobs that the agent then has, and says its length. -/
theorem jobs_listed {h h' : Installation} {tr : List (Fired Installation InstallationAct)} (hh : h.First)
    (hr : Run installation h tr h') {values : List Job} (hvalues : values.Perm h'.service.world.sched.jobs.values)
    (query : JobListQuery) :
    (Handlers.listJobs query values).total = (Handlers.listJobs query values).jobs.length ∧
      PageOf h'.service.world.sched query (Handlers.listJobs query values).jobs :=
  ⟨(List.length_map _).symm, pageOf_listJobs (keyed_always hh hr) hvalues query⟩

theorem jobs_listed_failed :
    (Handlers.listJobs ⟨some "FAILED", some 1⟩ failedInstallationEnd.service.world.sched.jobs.values).total =
      (Handlers.listJobs ⟨some "FAILED", some 1⟩ failedInstallationEnd.service.world.sched.jobs.values).jobs.length ∧
      PageOf failedInstallationEnd.service.world.sched ⟨some "FAILED", some 1⟩
        (Handlers.listJobs ⟨some "FAILED", some 1⟩ failedInstallationEnd.service.world.sched.jobs.values).jobs :=
  jobs_listed freshInstallation_first failedInstallation_run (List.Perm.refl _) _

end LinuxPatchApi.Api
