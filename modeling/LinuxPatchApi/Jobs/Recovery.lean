/-
Orphan recovery: what becomes of the jobs that were not terminal when the agent went down. That the
agent runs again is taken as proof that an awaited reboot or self-update happened; every other job is
reported as cancelled or failed, and the boot ids decide only between the two error codes.
-/
import LinuxPatchApi.Jobs.Dispatch

namespace LinuxPatchApi.Jobs

open LinuxPatchApi.Packages SchedulerState

/-- The restart counts as success for this job. -/
def AwaitsRestart (o : Job) : Prop := o.operation = .selfUpdate ∨ o.status = .rebooting

/-- What recovery may make of the orphan `o`. -/
structure Recovered (env : Env) (o j : Job) : Prop where
  same : j.id = o.id ∧ j.operation = o.operation ∧ j.packages = o.packages ∧ j.createdAt = o.createdAt
  completed : j.status = .completed → AwaitsRestart o
  rebooted : o.status = .rebooting → j.status = .completed
  updated : o.operation = .selfUpdate → o.status = .running → j.status = .completed
  dropped : ¬ AwaitsRestart o → o.isInternal = true → j.status = .cancelled
  failed : ¬ AwaitsRestart o → o.isInternal = false → j.status = .failed ∧
    (sameBoot env o = true → j.errorCode = some ErrorCode.agentRestarted) ∧
    (sameBoot env o = false → j.errorCode = some ErrorCode.agentRebooted)

/-! ## One orphan -/

section Orphan

variable {env : Env} {o : Job}

theorem recoverOrphan_same : (recoverOrphan env o).id = o.id ∧ (recoverOrphan env o).operation = o.operation ∧
    (recoverOrphan env o).packages = o.packages ∧ (recoverOrphan env o).createdAt = o.createdAt := by
  unfold recoverOrphan
  repeat' split
  all_goals exact ⟨rfl, rfl, rfl, rfl⟩

theorem recoverOrphan_completed (h : AwaitsRestart o) : (recoverOrphan env o).status = .completed := by
  unfold recoverOrphan
  by_cases hu : o.operation = .selfUpdate
  · rw [if_pos hu]
    rfl
  · rw [if_neg hu, if_pos (h.resolve_left hu)]
    rfl

theorem recoverOrphan_dropped (h : ¬ AwaitsRestart o) (hi : o.isInternal = true) :
    (recoverOrphan env o).status = .cancelled := by
  unfold AwaitsRestart at h
  push Not at h
  rw [recoverOrphan, if_neg h.1, if_neg h.2, if_pos hi]
  rfl

theorem recoverOrphan_failed (h : ¬ AwaitsRestart o) (hi : o.isInternal = false) :
    (recoverOrphan env o).status = .failed ∧
      (sameBoot env o = true → (recoverOrphan env o).errorCode = some ErrorCode.agentRestarted) ∧
      (sameBoot env o = false → (recoverOrphan env o).errorCode = some ErrorCode.agentRebooted) := by
  unfold AwaitsRestart at h
  push Not at h
  rw [recoverOrphan, if_neg h.1, if_neg h.2, if_neg (by simp [hi])]
  cases hs : sameBoot env o with
  | true => exact ⟨rfl, fun _ => rfl, nofun⟩
  | false => exact ⟨rfl, nofun, fun _ => rfl⟩

theorem recoverOrphan_recovered : Recovered env o (recoverOrphan env o) where
  same := recoverOrphan_same
  completed hc := by
    by_contra h
    cases hi : o.isInternal with
    | true =>
      rw [recoverOrphan_dropped h hi] at hc
      cases hc
    | false =>
      rw [(recoverOrphan_failed h hi).1] at hc
      cases hc
  rebooted h := recoverOrphan_completed (.inr h)
  updated h _ := recoverOrphan_completed (.inl h)
  dropped := recoverOrphan_dropped
  failed := recoverOrphan_failed

end Orphan

/-! ## All orphans -/

/-- Of the orphans with one id the last one counts. -/
theorem recoverOrphanedJobs_get? (env : Env) (s : SchedulerState) {pre post : List Job} {o : Job}
    (hlast : ∀ p ∈ post, p.id ≠ o.id) :
    (s.recoverOrphanedJobs env (pre ++ o :: post)).jobs.get? o.id = some (recoverOrphan env o) := by
  have hlastOf : Overwrite.Last (fun p : Job => o.id = p.id) (pre ++ o :: post) o :=
    ⟨pre, post, rfl, rfl, fun p hp => (hlast p hp).symm⟩
  exact FinMap.get?_foldl_insert_last hlastOf

/-- Success is reported only for a self-update and for a job that awaited a reboot, whatever the boot ids. -/
theorem orphan_outcome (env : Env) (s : SchedulerState) {pre post : List Job} {o : Job}
    (hlast : ∀ p ∈ post, p.id ≠ o.id) :
    ∃ j, (s.recoverOrphanedJobs env (pre ++ o :: post)).jobs.get? o.id = some j ∧ Recovered env o j :=
  ⟨_, recoverOrphanedJobs_get? env s hlast, recoverOrphan_recovered⟩

/-- An install that was running when the machine crashed, and a patch job that awaited its reboot. -/
def crashedInstall : Job := { Job.new ⟨0, some "b1"⟩ 1 .install ["vim"] with status := .running }

def rebootingPatch : Job := { Job.new ⟨0, some "b1"⟩ 2 .patchApply [] with status := .rebooting }

theorem orphan_outcome_crash :
    ∃ j, ((new 2 10).recoverOrphanedJobs ⟨9, some "b2"⟩
      ([] ++ crashedInstall :: [rebootingPatch])).jobs.get? 1 = some j ∧
      Recovered ⟨9, some "b2"⟩ crashedInstall j :=
  orphan_outcome ⟨9, some "b2"⟩ (new 2 10) (o := crashedInstall) (by decide)

def pendingSelfUpdate : Job := Job.new ⟨0, some "b1"⟩ 3 .selfUpdate ["linux-patch-api"]

/-- A restart within one boot completes a job that awaits its reboot, and any restart completes a
self-update that was never started. -/
theorem restart_counts_as_success :
    (¬ ∀ (env : Env) (s : SchedulerState) (o j : Job), (s.recoverOrphanedJobs env [o]).jobs.get? o.id = some j →
      o.status = .rebooting → j.status = .completed → sameBoot env o = false) ∧
    ¬ ∀ (env : Env) (s : SchedulerState) (o j : Job), (s.recoverOrphanedJobs env [o]).jobs.get? o.id = some j →
      o.operation = .selfUpdate → j.status = .completed → o.status = .running := by
  have hget : ∀ o : Job, ((new 2 10).recoverOrphanedJobs ⟨9, some "b1"⟩ [o]).jobs.get? o.id =
      some (recoverOrphan ⟨9, some "b1"⟩ o) :=
    fun o => @recoverOrphanedJobs_get? _ _ [] [] o (by simp)
  constructor
  · intro h
    exact absurd (h _ _ rebootingPatch _ (hget _) rfl (by decide)) (by decide)
  · intro h
    exact absurd (h _ _ pendingSelfUpdate _ (hget _) rfl (by decide)) (by decide)

end LinuxPatchApi.Jobs
