/-
`spawn_crl_refresh_task` and `spawn_repo_config_sync_task`: the same loop with two intervals. What a task does is a
list of attempts and sleeps, and its schedule is how long it sleeps between the end of each attempt and the start of the
next.
-/
import Mathlib.Tactic

namespace LinuxPatchApi.Enroll.RefreshTasks

variable {ε α : Type}

/-! ## The tasks -/

inductive Event (ε α : Type)
  | attempt (result : Except ε α)
  | sleep (seconds : Nat)
  deriving Repr

/-- One minute, five, fifteen and an hour. -/
def backoffSchedule : List Nat := [60, 300, 900, 3600]

/-- `backoff_schedule[retry_idx.min(backoff_schedule.len() - 1)]`. -/
def backoffDelay (retryIdx : Nat) : Nat := backoffSchedule.getD (min retryIdx (backoffSchedule.length - 1)) 0

/-- The loop, for as long as the results of its attempts are given; the sleep before each attempt is that of the
interval, after a failure too. -/
def refreshLoop (interval retryIdx : Nat) : List (Except ε α) → List (Event ε α)
  | [] => [.sleep interval]
  | .ok a :: results => .sleep interval :: .attempt (.ok a) :: refreshLoop interval 0 results
  | .error e :: results =>
    .sleep interval :: .attempt (.error e) :: .sleep (backoffDelay retryIdx) ::
      refreshLoop interval (if retryIdx < backoffSchedule.length then retryIdx + 1 else retryIdx) results

/-- A task whose first attempt, at once, has the result `initial`, and the attempts of its loop those given. -/
def refreshTask (interval : Nat) (initial : Except ε α) (results : List (Except ε α)) : List (Event ε α) :=
  .attempt initial :: refreshLoop interval 0 results

def crlRefreshInterval : Nat := 12 * 60 * 60

def repoConfigSyncInterval : Nat := 6 * 60 * 60

/-- `spawn_crl_refresh_task`. -/
def spawnCrlRefreshTask (initial : Except ε α) (results : List (Except ε α)) : List (Event ε α) :=
  refreshTask crlRefreshInterval initial results

/-- `spawn_repo_config_sync_task`. -/
def spawnRepoConfigSyncTask (initial : Except ε α) (results : List (Except ε α)) : List (Event ε α) :=
  refreshTask repoConfigSyncInterval initial results

/-! ## Schedules -/

/-- How long is slept before the next attempt. -/
def untilNext : List (Event ε α) → Nat
  | .sleep seconds :: events => seconds + untilNext events
  | _ => 0

/-- For each attempt how long after its end the next one starts. -/
def delays : List (Event ε α) → List Nat
  | [] => []
  | .attempt _ :: events => untilNext events :: delays events
  | .sleep _ :: events => delays events

/-- The delays of the loop. -/
def loopDelays (interval retryIdx : Nat) : List (Except ε α) → List Nat
  | [] => []
  | .ok _ :: results => interval :: loopDelays interval 0 results
  | .error _ :: results => (backoffDelay retryIdx + interval) ::
      loopDelays interval (if retryIdx < backoffSchedule.length then retryIdx + 1 else retryIdx) results

theorem untilNext_refreshLoop (interval retryIdx : Nat) (results : List (Except ε α)) :
    untilNext (refreshLoop interval retryIdx results) = interval := by
  rcases results with _ | ⟨_ | _, _⟩ <;> rfl

theorem delays_refreshLoop (interval : Nat) : ∀ (retryIdx : Nat) (results : List (Except ε α)),
    delays (refreshLoop interval retryIdx results) = loopDelays interval retryIdx results
  | _, [] => rfl
  | _, .ok _ :: results => by
    simp only [refreshLoop, delays, loopDelays, untilNext_refreshLoop, delays_refreshLoop interval _ results]
  | _, .error _ :: results => by
    simp only [refreshLoop, delays, loopDelays, untilNext, untilNext_refreshLoop, delays_refreshLoop interval _ results]

/-- The interval follows the first attempt whatever its result, and each failure of the loop adds its backoff to it. -/
theorem delays_refreshTask (interval : Nat) (initial : Except ε α) (results : List (Except ε α)) :
    delays (refreshTask interval initial results) = interval :: loopDelays interval 0 results := by
  rw [refreshTask, delays, untilNext_refreshLoop, delays_refreshLoop]

/-! ## Retries with backoff -/

/-- The delay after `failures` attempts in a row that have failed. -/
def retryDelay (interval : Nat) : Nat → Nat
  | 0 => interval
  | k + 1 => backoffSchedule.getD (min (k + 1) 4 - 1) 0

/-- The delays of a task that retries with backoff, `failures` attempts in a row having failed before. -/
def retryDelays (interval failures : Nat) : List (Except ε α) → List Nat
  | [] => []
  | .ok _ :: results => retryDelay interval 0 :: retryDelays interval 0 results
  | .error _ :: results => retryDelay interval (failures + 1) :: retryDelays interval (failures + 1) results

/-- The attempts with these results are retried with backoff, and no two of them are more than an interval apart. -/
structure RetriesWithBackoff (interval : Nat) (results : List (Except ε α)) (events : List (Event ε α)) : Prop where
  delays : delays events = retryDelays interval 0 results
  bounded : ∀ d ∈ RefreshTasks.delays events, d ≤ interval

def Succeeded (results : List (Except ε α)) : Prop := ∀ r ∈ results, r.isOk = true

theorem retryDelay_lt {interval : Nat} (h : 3600 < interval) (k : Nat) : retryDelay interval (k + 1) < interval := by
  have hmem : min (k + 1) 4 - 1 = 0 ∨ min (k + 1) 4 - 1 = 1 ∨ min (k + 1) 4 - 1 = 2 ∨ min (k + 1) 4 - 1 = 3 := by omega
  rcases hmem with hk | hk | hk | hk <;> rw [retryDelay, hk] <;> simp [backoffSchedule] <;> omega

theorem succeeded_ok_cons {a : α} {results : List (Except ε α)} : Succeeded (.ok a :: results) ↔ Succeeded results := by
  simp [Succeeded, Except.isOk, Except.toBool]

theorem not_succeeded_error_cons {e : ε} {results : List (Except ε α)} : ¬ Succeeded (.error e :: results) := by
  simp [Succeeded, Except.isOk, Except.toBool]

/-- A loop that sleeps the interval before every attempt keeps to the retry delays only while nothing fails. -/
theorem loopDelays_eq_iff {interval : Nat} (h : 3600 < interval) (results : List (Except ε α)) :
    ∀ retryIdx failures : Nat,
      loopDelays interval retryIdx results = retryDelays interval failures results ↔ Succeeded results := by
  induction results with
  | nil => exact fun _ _ => iff_of_true rfl (by simp [Succeeded])
  | cons r results ih =>
    intro retryIdx failures
    cases r with
    | ok a =>
      rw [succeeded_ok_cons, ← ih 0 0]
      simp only [loopDelays, retryDelays, retryDelay, List.cons.injEq, true_and]
    | error e =>
      refine iff_of_false (fun heq => ?_) not_succeeded_error_cons
      have hlt := retryDelay_lt h failures
      simp only [loopDelays, retryDelays, List.cons.injEq] at heq
      omega

theorem loopDelays_le {interval : Nat} : ∀ {results : List (Except ε α)} {retryIdx : Nat}, Succeeded results →
    ∀ d ∈ loopDelays interval retryIdx results, d ≤ interval
  | [], _, _, d, hd => by cases hd
  | .ok a :: results, _, h, d, hd => by
    rcases List.mem_cons.1 hd with rfl | hd
    · exact le_rfl
    · exact loopDelays_le (succeeded_ok_cons.1 h) d hd
  | .error e :: results, _, h, _, _ => absurd h not_succeeded_error_cons

/-- A task with a longer interval than every backoff meets its schedule exactly while no attempt fails. -/
theorem retriesWithBackoff_iff {interval : Nat} (h : 3600 < interval) (initial : Except ε α)
    (results : List (Except ε α)) :
    RetriesWithBackoff interval (initial :: results) (refreshTask interval initial results) ↔
      Succeeded (initial :: results) := by
  constructor
  · rintro ⟨hdelays, _⟩
    rw [delays_refreshTask] at hdelays
    cases initial with
    | ok a =>
      rw [retryDelays, List.cons.injEq] at hdelays
      exact succeeded_ok_cons.2 ((loopDelays_eq_iff h results 0 0).1 hdelays.2)
    | error e =>
      rw [retryDelays, List.cons.injEq] at hdelays
      have hlt := retryDelay_lt h 0
      omega
  · intro hall
    cases initial with
    | error e => exact absurd hall not_succeeded_error_cons
    | ok a =>
      have hrest := succeeded_ok_cons.1 hall
      refine ⟨?_, ?_⟩ <;> rw [delays_refreshTask]
      · rw [(loopDelays_eq_iff h results 0 0).2 hrest, retryDelays, retryDelay]
      · intro d hd
        rcases List.mem_cons.1 hd with rfl | hd
        · exact le_rfl
        · exact loopDelays_le hrest d hd

/-- Both background tasks retry with backoff, and keep their attempts within an interval, exactly while none fails. -/
theorem background_refreshes_retry_iff (initial : Except ε α) (results : List (Except ε α)) :
    (RetriesWithBackoff crlRefreshInterval (initial :: results) (spawnCrlRefreshTask initial results) ↔
        Succeeded (initial :: results)) ∧
      (RetriesWithBackoff repoConfigSyncInterval (initial :: results) (spawnRepoConfigSyncTask initial results) ↔
        Succeeded (initial :: results)) :=
  ⟨retriesWithBackoff_iff (by decide) initial results, retriesWithBackoff_iff (by decide) initial results⟩

/-- One failure between two refreshes that succeed: the retry comes after the interval and the backoff, and a list that
is valid for a day has expired by then. -/
def oneFailure : List (Except String Unit) := [.error "connection refused", .ok ()]

theorem oneFailure_expires :
    ¬ RetriesWithBackoff crlRefreshInterval (.ok () :: oneFailure) (spawnCrlRefreshTask (.ok ()) oneFailure) ∧
    ¬ RetriesWithBackoff repoConfigSyncInterval (.ok () :: oneFailure) (spawnRepoConfigSyncTask (.ok ()) oneFailure) ∧
    24 * 60 * 60 < ((delays (spawnCrlRefreshTask (.ok ()) oneFailure)).take 2).sum := by
  refine ⟨fun h => absurd h.delays (by decide), fun h => absurd h.delays (by decide), by decide⟩

end LinuxPatchApi.Enroll.RefreshTasks
