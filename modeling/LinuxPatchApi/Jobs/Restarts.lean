/-
The startup sequence of `main` on the history files: loading (with the move from the legacy file), the
partition by terminal status, history and recovery, and the flush of what was recovered. A file that is
written is written as a whole, and what is read back from it are the jobs that were written.
-/
import LinuxPatchApi.Jobs.Durability

namespace LinuxPatchApi.Jobs

open LinuxPatchApi.Packages SchedulerState

/-! ## The files -/

/-- What a history file holds for a reader. -/
inductive HistoryFile where
  | absent
  | unreadable
  /-- The text is no list of jobs. -/
  | garbled
  | jobs (l : List Job)
  deriving DecidableEq, Repr

/-- `jobs_history.json` and the legacy `running_jobs.json`. -/
structure HistoryFiles where
  history : HistoryFile
  legacy : HistoryFile
  deriving DecidableEq, Repr

def persistAllJobs (d : HistoryFiles) (jobs : List Job) : HistoryFiles := { d with history := .jobs (retained jobs) }

def loadAllJobs (d : HistoryFiles) : List Job × HistoryFiles :=
  match d.history, d.legacy with
  -- the migration returns the jobs as they were read, the untrimmed ones
  | .absent, .jobs l => (l, { persistAllJobs d l with legacy := .absent })
  | .jobs l, _ => (l, d)
  | _, _ => ([], d)

/-- The startup sequence; only recovered jobs are written back. -/
def mainStartup (env : Env) (maxConcurrent maxQueueDepth : Nat) (d : HistoryFiles) : SchedulerState × HistoryFiles :=
  let (loaded, d) := loadAllJobs d
  let s := startup env maxConcurrent maxQueueDepth loaded
  if loaded.any fun j => !j.status.isTerminal then (s, persistAllJobs d s.jobs.values) else (s, d)

/-- A later start, in another process and possibly after another boot, and whether the agent called
`persist_jobs` once more before it went down. -/
structure Restart where
  persists : Bool
  env : Env
  maxConcurrent : Nat
  maxQueueDepth : Nat
  deriving DecidableEq, Repr

def restart (p : SchedulerState × HistoryFiles) (r : Restart) : SchedulerState × HistoryFiles :=
  mainStartup r.env r.maxConcurrent r.maxQueueDepth (if r.persists then persistAllJobs p.2 p.1.jobs.values else p.2)

/-! ## What a startup makes of the jobs -/

/-- The record that a startup puts in a persisted job's place. -/
def resolve (env : Env) (o : Job) : Job := if o.status.isTerminal then o else recoverOrphan env o

theorem resolve_terminal (env : Env) (o : Job) : (resolve env o).status.isTerminal = true := by
  unfold resolve
  split
  · next h => exact h
  · exact recoverOrphan_terminal env o

theorem resolve_id (env : Env) (o : Job) : (resolve env o).id = o.id := by
  unfold resolve
  split
  · rfl
  · exact recoverOrphan_same.1

theorem recoverOrphan_bootId (env : Env) (o : Job) : (recoverOrphan env o).bootId = o.bootId := by
  unfold recoverOrphan
  repeat' split
  all_goals rfl

theorem startup_resolves {env : Env} {mc mq : Nat} {l : List Job} {k : Uuid} {j : Job}
    (h : (startup env mc mq l).jobs.get? k = some j) : ∃ o ∈ l, o.id = k ∧ j = resolve env o := by
  rcases foldl_insert_get? _ _ h with ⟨o, ho, hk, rfl⟩ | h
  · obtain ⟨hmem, hst⟩ := List.mem_filter.1 ho
    exact ⟨o, hmem, hk, by rw [resolve, if_neg (by simpa using hst)]⟩
  · rcases foldl_insert_get? (f := id) _ _ h with ⟨o, ho, hk, hj⟩ | h
    · obtain ⟨hmem, hst⟩ := List.mem_filter.1 ho
      exact ⟨o, hmem, hk, by rw [resolve, if_pos hst]; exact hj⟩
    · simp [SchedulerState.new] at h

theorem foldl_insert_isSome {f : Job → Job} {k : Uuid} {l : List Job} {m : FinMap Uuid Job}
    (h : (∃ o ∈ l, o.id = k) ∨ (m.get? k).isSome = true) :
    ((l.foldl (fun m o => m.insert o.id (f o)) m).get? k).isSome = true := by
  rcases Overwrite.exists_last (fun o : Job => k = o.id) l with hnone | ⟨o, ho⟩
  · rw [FinMap.get?_foldl_insert_of_ne hnone]
    exact h.resolve_left fun ⟨o, ho, hk⟩ => hnone o ho hk.symm
  · rw [FinMap.get?_foldl_insert_last ho]
    rfl

theorem startup_isSome (env : Env) (mc mq : Nat) {l : List Job} {o : Job} (ho : o ∈ l) :
    ((startup env mc mq l).jobs.get? o.id).isSome = true := by
  refine foldl_insert_isSome ?_
  cases ht : o.status.isTerminal with
  | true => exact .inr (foldl_insert_isSome (f := id) (.inl ⟨o, List.mem_filter.2 ⟨ho, ht⟩, rfl⟩))
  | false => exact .inl ⟨o, List.mem_filter.2 ⟨ho, by simp [ht]⟩, rfl⟩

/-- With distinct ids each persisted job is found under its id, terminal ones as they were. -/
theorem startup_get? (env : Env) (mc mq : Nat) {l : List Job} (hn : (l.map Job.id).Nodup) {o : Job} (ho : o ∈ l) :
    (startup env mc mq l).jobs.get? o.id = some (resolve env o) := by
  obtain ⟨j, hj⟩ := Option.isSome_iff_exists.1 (startup_isSome env mc mq ho)
  obtain ⟨o', ho', hid, rfl⟩ := startup_resolves hj
  rw [hj, List.inj_on_of_nodup_map hn ho' ho hid]

/-- What the startup sequence promises about a persisted job `o` and the job `j` that it leaves under its id. -/
structure Resolved (env : Env) (o j : Job) : Prop where
  terminal : j.status.isTerminal = true
  unchanged : o.status.isTerminal = true → j = o
  kept : j.id = o.id ∧ j.operation = o.operation ∧ j.packages = o.packages ∧ j.createdAt = o.createdAt ∧
    j.bootId = o.bootId
  completed : o.status.isTerminal = false → AwaitsRestart o → j.status = .completed
  dropped : o.status.isTerminal = false → ¬ AwaitsRestart o → o.isInternal = true → j.status = .cancelled
  failed : o.status.isTerminal = false → ¬ AwaitsRestart o → o.isInternal = false → j.status = .failed ∧
    (j.errorCode = some ErrorCode.agentRestarted ↔ ∃ b, o.bootId = some b ∧ env.bootId = some b) ∧
    (j.errorCode = some ErrorCode.agentRebooted ↔ ¬ ∃ b, o.bootId = some b ∧ env.bootId = some b)

theorem sameBoot_iff {env : Env} {o : Job} :
    sameBoot env o = true ↔ ∃ b, o.bootId = some b ∧ env.bootId = some b := by
  unfold sameBoot
  cases o.bootId with
  | none => simp
  | some a => cases env.bootId with
    | none => simp
    | some b => simpa using eq_comm

theorem resolve_resolved (env : Env) (o : Job) : Resolved env o (resolve env o) where
  terminal := resolve_terminal env o
  unchanged h := by rw [resolve, if_pos h]
  kept := by
    have hrecovered : Recovered env o (recoverOrphan env o) := recoverOrphan_recovered
    obtain ⟨hid, hop, hps, hc⟩ := hrecovered.same
    unfold resolve
    split
    · exact ⟨rfl, rfl, rfl, rfl, rfl⟩
    · exact ⟨hid, hop, hps, hc, recoverOrphan_bootId env o⟩
  completed h ha := by
    rw [resolve, if_neg (by simp [h])]
    exact recoverOrphan_completed ha
  dropped h ha hi := by
    rw [resolve, if_neg (by simp [h])]
    exact recoverOrphan_dropped ha hi
  failed h ha hi := by
    have hrecovered : Recovered env o (recoverOrphan env o) := recoverOrphan_recovered
    obtain ⟨hst, hsame, hother⟩ := hrecovered.failed ha hi
    rw [resolve, if_neg (by simp [h])]
    refine ⟨hst, ?_⟩
    rw [← sameBoot_iff]
    cases hb : sameBoot env o with
    | true =>
      rw [hsame hb]
      exact ⟨by decide, by decide⟩
    | false =>
      rw [hother hb]
      exact ⟨by decide, by decide⟩

/-! ## Later restarts -/

/-- The files hold the jobs `l` for the next startup. -/
def HistoryFiles.Persists (d : HistoryFiles) (l : List Job) : Prop :=
  d.history = .jobs l ∨ (d.history = .absent ∧ d.legacy = .jobs l)

theorem loadAllJobs_fst {d : HistoryFiles} {l : List Job} (h : d.Persists l) : (loadAllJobs d).1 = l := by
  unfold loadAllJobs
  rcases h with h | ⟨h, h'⟩
  · rw [h]
  · rw [h, h']

theorem mainStartup_fst {env : Env} {mc mq : Nat} {d : HistoryFiles} {l : List Job} (h : d.Persists l) :
    (mainStartup env mc mq d).1 = startup env mc mq l := by
  have hl := loadAllJobs_fst h
  unfold mainStartup
  simp only
  rw [hl]
  split <;> rfl

theorem keyed_nodup {s : SchedulerState} (h : Keyed s) : (s.jobs.values.map Job.id).Nodup := by
  have hids : s.jobs.values.map Job.id = s.jobs.keys := by
    show (s.jobs.entries.map Sigma.snd).map Job.id = s.jobs.entries.map Sigma.fst
    rw [List.map_map]
    refine List.map_congr_left fun e he => ?_
    exact h e.1 e.2 (AList.mem_lookup_iff.2 he)
  rw [hids]
  exact s.jobs.keys_nodup

theorem retained_of_terminal {l : List Job} (ht : ∀ j ∈ l, j.status.isTerminal = true)
    (hs : l.length ≤ historyRetentionCount) : retained l = l := by
  have hkept : l.filter Job.isRetainable = l :=
    List.filter_eq_self.2 fun j hj => by simp [Job.isRetainable, ht j hj]
  unfold retained
  simp only [hkept]
  rw [if_neg (Nat.not_lt.2 hs)]

/-- Lists with distinct ids are no longer than those that hold their jobs. -/
theorem length_le_of_nodup {l l' : List Job} (hn : (l.map Job.id).Nodup) (h : ∀ j ∈ l, j ∈ l') : l.length ≤ l'.length :=
  (hn.of_map.subperm h).length_le

/-- A start from a history of the terminal jobs that the agent held leaves it with these. -/
theorem startup_same {s : SchedulerState} (hk : Keyed s) (ht : ∀ j ∈ s.jobs.values, j.status.isTerminal = true)
    {l : List Job} (hn : (l.map Job.id).Nodup) (hl : ∀ j, j ∈ l ↔ j ∈ s.jobs.values) (env : Env)
    (mc mq : Nat) (k : Uuid) :
    (startup env mc mq l).jobs.get? k = s.jobs.get? k := by
  cases hj : s.jobs.get? k with
  | some j =>
    have hmem : j ∈ s.jobs.values := FinMap.mem_values.2 ⟨k, hj⟩
    have hres := startup_get? env mc mq hn ((hl j).2 hmem)
    rw [hk k j hj, resolve, if_pos (ht j hmem)] at hres
    exact hres
  | none =>
    cases hj' : (startup env mc mq l).jobs.get? k with
    | none => rfl
    | some j' =>
      obtain ⟨o, ho, rfl, _⟩ := startup_resolves hj'
      obtain ⟨k', hk'⟩ := FinMap.mem_values.1 ((hl o).1 ho)
      rw [hk k' o hk', hk'] at hj
      cases hj

/-- The agent holds terminal jobs only, few enough for the history, which holds the same ones. -/
structure Settled (p : SchedulerState × HistoryFiles) : Prop where
  keyed : Keyed p.1
  terminal : ∀ j ∈ p.1.jobs.values, j.status.isTerminal = true
  small : p.1.jobs.values.length ≤ historyRetentionCount
  stored : ∃ l, p.2.Persists l ∧ (l.map Job.id).Nodup ∧ ∀ j, j ∈ l ↔ j ∈ p.1.jobs.values

theorem Settled.persisted {s : SchedulerState} {d : HistoryFiles} (hk : Keyed s)
    (ht : ∀ j ∈ s.jobs.values, j.status.isTerminal = true) (hs : s.jobs.values.length ≤ historyRetentionCount) :
    Settled (s, persistAllJobs d s.jobs.values) :=
  ⟨hk, ht, hs, s.jobs.values, .inl (by rw [persistAllJobs, retained_of_terminal ht hs]), keyed_nodup hk,
    fun _ => Iff.rfl⟩

theorem startup_settled {env : Env} {mc mq : Nat} {d : HistoryFiles} {l : List Job} (h : d.Persists l)
    (hn : (l.map Job.id).Nodup) (hs : l.length ≤ historyRetentionCount) : Settled (mainStartup env mc mq d) := by
  have hterm : ∀ j ∈ (startup env mc mq l).jobs.values, j.status.isTerminal = true := by
    intro j hj
    obtain ⟨k, hk⟩ := FinMap.mem_values.1 hj
    exact (startup_jobs hk).1
  have hsmall : (startup env mc mq l).jobs.values.length ≤ historyRetentionCount := by
    have hids : (startup env mc mq l).jobs.values.map Job.id ⊆ l.map Job.id := by
      intro k hk
      obtain ⟨j, hj, rfl⟩ := List.mem_map.1 hk
      obtain ⟨k, hk⟩ := FinMap.mem_values.1 hj
      obtain ⟨o, ho, rfl, rfl⟩ := startup_resolves hk
      exact List.mem_map.2 ⟨o, ho, (resolve_id env o).symm⟩
    have hle := ((keyed_nodup startup_keyed).subperm hids).length_le
    rw [List.length_map, List.length_map] at hle
    exact hle.trans hs
  have hload := loadAllJobs_fst h
  unfold mainStartup
  simp only
  rw [hload]
  split
  · exact .persisted startup_keyed hterm hsmall
  · next hall =>
    -- nothing was recovered, and the files hold what they held
    have ht : ∀ j ∈ l, j.status.isTerminal = true := by
      intro j hj
      by_contra hnt
      exact hall (List.any_eq_true.2 ⟨j, hj, by simpa using hnt⟩)
    have hself : ∀ o ∈ l, resolve env o = o := fun o ho => by rw [resolve, if_pos (ht o ho)]
    refine ⟨startup_keyed, hterm, hsmall, l, ?_, hn, fun j => ⟨fun hj => ?_, fun hj => ?_⟩⟩
    · rcases h with hd | ⟨hd, hd'⟩
      · exact .inl (by simp only [loadAllJobs, hd])
      · exact .inl (by simp only [loadAllJobs, hd, hd', persistAllJobs, retained_of_terminal ht hs])
    · exact FinMap.mem_values.2 ⟨j.id, by rw [startup_get? _ _ _ hn hj, hself j hj]⟩
    · obtain ⟨k, hk⟩ := FinMap.mem_values.1 hj
      obtain ⟨o, ho, _, rfl⟩ := startup_resolves hk
      rw [hself o ho]
      exact ho

theorem Settled.restart {p : SchedulerState × HistoryFiles} (h : Settled p) (r : Restart) :
    Settled (restart p r) ∧ ∀ k, (Jobs.restart p r).1.jobs.get? k = p.1.jobs.get? k := by
  obtain ⟨s, d⟩ := p
  -- persisted once more or not, the files hold the jobs that the agent held
  obtain ⟨l, hl, hn, hmem⟩ : ∃ l, (if r.persists then persistAllJobs d s.jobs.values else d).Persists l ∧
      (l.map Job.id).Nodup ∧ ∀ j, j ∈ l ↔ j ∈ s.jobs.values := by
    split
    · exact (Settled.persisted h.keyed h.terminal h.small).stored
    · exact h.stored
  have hsmall : l.length ≤ historyRetentionCount :=
    (length_le_of_nodup hn fun j hj => (hmem j).1 hj).trans h.small
  refine ⟨startup_settled hl hn hsmall, fun k => ?_⟩
  rw [Jobs.restart, mainStartup_fst hl]
  exact startup_same h.keyed h.terminal hn hmem _ _ _ k

theorem Settled.restarts {p : SchedulerState × HistoryFiles} (h : Settled p) (rs : List Restart) (k : Uuid) :
    (rs.foldl Jobs.restart p).1.jobs.get? k = p.1.jobs.get? k := by
  induction rs generalizing p with
  | nil => rfl
  | cons r rs ih =>
    obtain ⟨hset, hsame⟩ := h.restart r
    rw [List.foldl_cons, ih hset, hsame]

/-! ## The startup sequence -/

/-- The startup sequence resolves exactly the jobs that the files hold, and no later restart changes any of them. -/
theorem startup_recovery (env : Env) (mc mq : Nat) {d : HistoryFiles} {l : List Job} (h : d.Persists l)
    (hn : (l.map Job.id).Nodup) :
    (∀ k, ((mainStartup env mc mq d).1.jobs.get? k).isSome = true ↔ k ∈ l.map Job.id) ∧
    (∀ o ∈ l, ∃ j, (mainStartup env mc mq d).1.jobs.get? o.id = some j ∧ Resolved env o j) ∧
    (l.length ≤ historyRetentionCount → ∀ (rs : List Restart) (k : Uuid),
      (rs.foldl restart (mainStartup env mc mq d)).1.jobs.get? k = (mainStartup env mc mq d).1.jobs.get? k) := by
  rw [mainStartup_fst h]
  refine ⟨fun k => ⟨fun hk => ?_, fun hk => ?_⟩, fun o ho => ?_, fun hs rs k => ?_⟩
  · obtain ⟨j, hj⟩ := Option.isSome_iff_exists.1 hk
    obtain ⟨o, ho, rfl, _⟩ := startup_resolves hj
    exact List.mem_map.2 ⟨o, ho, rfl⟩
  · obtain ⟨o, ho, rfl⟩ := List.mem_map.1 hk
    exact startup_isSome _ _ _ ho
  · exact ⟨_, startup_get? _ _ _ hn ho, resolve_resolved env o⟩
  · rw [(startup_settled h hn hs).restarts rs k, mainStartup_fst h]

/-- The legacy file of an agent that crashed during an install, with a job that was done by then. -/
def crashedFiles : HistoryFiles where
  history := .absent
  legacy := .jobs [Job.complete ⟨0, none⟩ (Job.new ⟨0, none⟩ 3 .update ["curl"]), crashedInstall, rebootingPatch]

theorem startup_recovery_crashed :
    let l := [Job.complete ⟨0, none⟩ (Job.new ⟨0, none⟩ 3 .update ["curl"]), crashedInstall, rebootingPatch]
    let p := mainStartup ⟨9, some "b2"⟩ 2 10 crashedFiles
    (∀ k, (p.1.jobs.get? k).isSome = true ↔ k ∈ l.map Job.id) ∧
    (∀ o ∈ l, ∃ j, p.1.jobs.get? o.id = some j ∧ Resolved ⟨9, some "b2"⟩ o j) ∧
    (l.length ≤ historyRetentionCount → ∀ (rs : List Restart) (k : Uuid),
      (rs.foldl restart p).1.jobs.get? k = p.1.jobs.get? k) :=
  startup_recovery ⟨9, some "b2"⟩ 2 10 (.inr ⟨rfl, rfl⟩) (by decide)

/-- A cache refresh that a history says is awaiting a reboot. -/
def rebootingRefresh : Job := { Job.new ⟨0, some "b1"⟩ 4 .install ["__health_refresh__"] with status := .rebooting }

/-- An install of an agent that did not record boot ids. -/
def undatedInstall : Job := { Job.new ⟨0, none⟩ 5 .install ["vim"] with status := .running }

/-- An internal job that awaited its reboot is not Cancelled, and two unknown boot ids are not the same boot. -/
theorem awaiting_refresh_completed :
    (¬ ∀ (env : Env) (mc mq : Nat) (d : HistoryFiles) (l : List Job), d.Persists l → (l.map Job.id).Nodup →
      ∀ o ∈ l, o.status.isTerminal = false → o.isInternal = true →
        ∃ j, (mainStartup env mc mq d).1.jobs.get? o.id = some j ∧ j.status = .cancelled) ∧
    ¬ ∀ (env : Env) (mc mq : Nat) (d : HistoryFiles) (l : List Job), d.Persists l → (l.map Job.id).Nodup →
      ∀ o ∈ l, o.status.isTerminal = false → o.isInternal = false → ¬ AwaitsRestart o →
        ∃ j, (mainStartup env mc mq d).1.jobs.get? o.id = some j ∧
          (j.errorCode = some ErrorCode.agentRestarted ↔ o.bootId = env.bootId) := by
  constructor
  · intro h
    obtain ⟨j, hj, hst⟩ := h ⟨9, some "b1"⟩ 2 10 ⟨.jobs [rebootingRefresh], .absent⟩ [rebootingRefresh] (.inl rfl)
      (by decide) rebootingRefresh List.mem_cons_self rfl (by decide)
    rw [show FinMap.get? _ rebootingRefresh.id = some (resolve ⟨9, some "b1"⟩ rebootingRefresh) from rfl] at hj
    cases hj
    exact absurd hst (by decide)
  · intro h
    obtain ⟨j, hj, hcode⟩ := h ⟨9, none⟩ 2 10 ⟨.jobs [undatedInstall], .absent⟩ [undatedInstall] (.inl rfl) (by decide)
      undatedInstall List.mem_cons_self rfl (by decide) (by unfold AwaitsRestart; decide)
    rw [show FinMap.get? _ undatedInstall.id = some (resolve ⟨9, none⟩ undatedInstall) from rfl] at hj
    cases hj
    exact absurd (hcode.2 rfl) (by decide)

end LinuxPatchApi.Jobs
