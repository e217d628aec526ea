/-
What `persist_all_jobs` leaves of the jobs it is given: up to the retention count all that the history may hold,
beyond it the newest of them. A job that has yet to be recovered has no precedence, and is lost behind enough newer
ones.
-/
import LinuxPatchApi.Jobs.Persistence
import LinuxPatchApi.Lib.Recent

namespace LinuxPatchApi.Jobs

/-- A job of a client that a restart has to recover. -/
def Job.needsRecovery (j : Job) : Bool := !j.isInternal && !j.status.isTerminal

/-- The jobs that the history may hold. -/
def retainable (jobs : List Job) : List Job := jobs.filter Job.isRetainable

theorem mem_retainable {jobs : List Job} {j : Job} : j ∈ retainable jobs ↔ j ∈ jobs ∧ j.isRetainable = true :=
  List.mem_filter

theorem Job.isRetainable_of_needsRecovery {j : Job} (h : j.needsRecovery = true) : j.isRetainable = true := by
  unfold Job.isRetainable
  rw [(Bool.and_eq_true_iff.1 h).1, Bool.true_or]

/-- How many jobs that the history may hold come before `j` in it. -/
def aheadOf (jobs : List Job) (j : Job) : Nat := Recent.ahead Job.createdAt (retainable jobs) j

/-! ## What is left -/

theorem retained_of_le {jobs : List Job} (h : (retainable jobs).length ≤ historyRetentionCount) :
    retained jobs = retainable jobs := if_neg (not_lt.2 h)

theorem retained_of_lt {jobs : List Job} (h : historyRetentionCount < (retainable jobs).length) :
    retained jobs = (Recent.sorted Job.createdAt (retainable jobs)).take historyRetentionCount := if_pos h

theorem length_retained_le (jobs : List Job) : (retained jobs).length ≤ historyRetentionCount := by
  rcases le_or_gt (retainable jobs).length historyRetentionCount with h | h
  · rw [retained_of_le h]
    exact h
  · rw [retained_of_lt h]
    exact List.length_take_le _ _

/-- A job is written when it may be, and fewer jobs than the history holds come before it. -/
theorem mem_retained_iff {jobs : List Job} {j : Job} :
    j ∈ retained jobs ↔ j ∈ retainable jobs ∧ aheadOf jobs j < historyRetentionCount := by
  rcases le_or_gt (retainable jobs).length historyRetentionCount with h | h
  · rw [retained_of_le h]
    exact ⟨fun hj => ⟨hj, (Recent.ahead_lt_length hj).trans_le h⟩, And.left⟩
  · rw [retained_of_lt h]
    exact Recent.mem_take_sorted

/-- A job that may be written is written, or the history is full. -/
theorem mem_retained_or_full {jobs : List Job} {j : Job} (hj : j ∈ jobs) (hkept : j.isRetainable = true) :
    j ∈ retained jobs ∨ (retained jobs).length = historyRetentionCount := by
  rcases le_or_gt (retainable jobs).length historyRetentionCount with h | h
  · rw [retained_of_le h]
    exact .inl (mem_retainable.2 ⟨hj, hkept⟩)
  · rw [retained_of_lt h, List.length_take, (Recent.sorted_perm _ _).length_eq]
    omega

theorem createdAt_le_of_left_out {jobs : List Job} {j k : Job} (hj : j ∈ retainable jobs) (hout : j ∉ retained jobs)
    (hk : k ∈ retained jobs) : j.createdAt ≤ k.createdAt := by
  rcases le_or_gt (retainable jobs).length historyRetentionCount with h | h
  · rw [retained_of_le h] at hout
    exact absurd hj hout
  · rw [retained_of_lt h] at hout hk
    exact Recent.key_le_of_left_out hk hj hout

/-! ## Jobs that need recovery -/

/-- A history from which every job that needs recovery can be recovered. -/
structure RecoverableHistory (jobs history : List Job) : Prop where
  recoverable : ∀ j ∈ jobs, j.needsRecovery = true → j ∈ history
  finished : ∀ j ∈ history, j.isInternal = true → j.status.isTerminal = true
  bounded : history.length ≤ max historyRetentionCount (jobs.countP Job.needsRecovery)
  newest : ∀ j ∈ jobs, j ∉ history → j.status.isTerminal = true →
    ∀ k ∈ history, k.status.isTerminal = true → j.createdAt ≤ k.createdAt

/-- A history of the most recent jobs, whatever their status. -/
structure RecentHistory (jobs history : List Job) : Prop where
  recoverable : ∀ j ∈ jobs, j.needsRecovery = true → (j ∈ history ↔ aheadOf jobs j < historyRetentionCount)
  whole : (retainable jobs).length ≤ historyRetentionCount → history = retainable jobs
  finished : ∀ j ∈ history, j.isInternal = true → j.status.isTerminal = true
  bounded : history.length ≤ historyRetentionCount
  newest : ∀ j ∈ jobs, j ∉ history → j.isRetainable = true → ∀ k ∈ history, j.createdAt ≤ k.createdAt

/-- The history is bounded at the price of jobs that need recovery. -/
theorem retained_recent (jobs : List Job) : RecentHistory jobs (retained jobs) where
  recoverable j hj hneeds := by
    have hmem : j ∈ retainable jobs := mem_retainable.2 ⟨hj, Job.isRetainable_of_needsRecovery hneeds⟩
    rw [mem_retained_iff]
    exact and_iff_right hmem
  whole := retained_of_le
  finished j hj hinternal := by
    have hkept := (mem_retained hj).2
    rw [Job.isRetainable, hinternal] at hkept
    exact hkept
  bounded := length_retained_le jobs
  newest j hj hout hkept k hk := createdAt_le_of_left_out (mem_retainable.2 ⟨hj, hkept⟩) hout hk

/-! ### A job that is lost -/

def finishedJob (i : Nat) : Job := (Job.new ⟨i, none⟩ i .install ["curl"]).complete ⟨i, none⟩

/-- The oldest job, which is still running. -/
def strandedJob : Job := { Job.new ⟨0, none⟩ 0 .update ["vim"] with status := .running }

/-- As many finished jobs as the history holds, all of them newer than the one that runs. -/
def crowdedJobs : List Job := strandedJob :: (List.range historyRetentionCount).map fun i => finishedJob (i + 1)

theorem aheadOf_strandedJob : historyRetentionCount ≤ aheadOf crowdedJobs strandedJob := by
  have hall : retainable crowdedJobs = crowdedJobs := by
    refine List.filter_eq_self.2 fun j hj => ?_
    rcases List.mem_cons.1 hj with rfl | hj
    · decide
    · obtain ⟨i, _, rfl⟩ := List.mem_map.1 hj
      show (!(finishedJob (i + 1)).isInternal || true) = true
      exact Bool.or_true _
  have hnewer : crowdedJobs.filter (fun j => decide (strandedJob.createdAt < j.createdAt)) =
      (List.range historyRetentionCount).map fun i => finishedJob (i + 1) := by
    rw [crowdedJobs, List.filter_cons_of_neg (by decide)]
    refine List.filter_eq_self.2 fun j hj => ?_
    obtain ⟨i, _, rfl⟩ := List.mem_map.1 hj
    exact decide_eq_true (Nat.succ_pos i)
  have hcount : ((List.range historyRetentionCount).map fun i => finishedJob (i + 1)).length =
      historyRetentionCount := by
    rw [List.length_map, List.length_range]
  rw [aheadOf, hall, Recent.ahead, hnewer, hcount]
  omega

/-- The job that runs is not in the history, and no restart will recover it. -/
theorem retained_loses_strandedJob : ¬ RecoverableHistory crowdedJobs (retained crowdedJobs) := by
  intro h
  have hin : strandedJob ∈ retained crowdedJobs := h.recoverable strandedJob List.mem_cons_self (by decide)
  have := (mem_retained_iff.1 hin).2
  have := aheadOf_strandedJob
  omega

end LinuxPatchApi.Jobs
