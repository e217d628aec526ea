/-
The order of the history's versions. Snapshots are taken in the order in which the calls get the state
lock, renames happen in any order; the history is the newest snapshot unless an older one is renamed last.
-/
import LinuxPatchApi.Jobs.Persistence

namespace LinuxPatchApi.Jobs

open LinuxPatchApi.Packages Transition

/-- The agent and its state directory. -/
structure PersistentAgent where
  world : World
  dir : StateDir
  deriving DecidableEq

def PersistentAgent.jobs (p : PersistentAgent) : List Job := p.world.sched.jobs.values

inductive PersistentAct where
  | agent (a : Act)
  | persist (a : PersistAct)
  deriving DecidableEq, Repr

/-- The agent goes on while calls of `persist_jobs` are made at any time and run to their end. -/
def PersistentAgent.step (p : PersistentAgent) : PersistentAct → Option PersistentAgent
  | .agent a => (p.world.step a).map fun w => { p with world := w }
  | .persist (.drop _) => none
  | .persist a => (p.dir.step p.jobs a).map fun d => { p with dir := d }

def PersistentAgent.Startup (p : PersistentAgent) : Prop := p.world.Startup ∧ p.dir.Fresh

def persisting : Machine PersistentAgent PersistentAct := ⟨PersistentAgent.Startup, PersistentAgent.step⟩

/-- With no call under way the history file holds the newest snapshot. -/
def HistoryNewest (d : StateDir) : Prop :=
  d.atRest = true → ∀ all, d.snapshots.getLast? = some all → d.files.get? .jobsPath = some (retained all)

/-- The step puts an older snapshot over the newest one for good. -/
def clobbers (f : Fired PersistentAgent PersistentAct) : Bool :=
  match f.act with
  | .persist a => f.pre.dir.overwrites a
  | .agent _ => false

theorem persisting_step {f : Fired PersistentAgent PersistentAct} (hf : IsStep persisting f) :
    f.post.dir = f.pre.dir ∨
      ∃ a, f.act = .persist a ∧ (∀ i, a ≠ .drop i) ∧ StateDir.Step f.pre.jobs f.pre.dir a f.post.dir := by
  obtain ⟨p, a, p'⟩ := f
  have hs : p.step a = some p' := hf
  cases a with
  | agent a =>
    obtain ⟨w, _, rfl⟩ := Option.map_eq_some_iff.1 hs
    exact .inl rfl
  | persist a =>
    cases a with
    | drop i => cases hs
    | call | snapshot | write | rename =>
      simp only [PersistentAgent.step, Option.map_eq_some_iff] at hs
      obtain ⟨d, hd, rfl⟩ := hs
      exact .inr ⟨_, rfl, by simp, StateDir.step_cases hd⟩

/-- In every run in which no older snapshot is put over the newest one for good, the history is the newest
snapshot whenever no call is under way. -/
theorem history_newest {p p' : PersistentAgent} {tr : List (Fired PersistentAgent PersistentAct)} (hp : p.Startup)
    (hr : Run persisting p tr p') (hc : ∀ f ∈ tr, clobbers f = false) : ∀ v ∈ states p tr, HistoryNewest v.dir := by
  let I := fun v : PersistentAgent => v.dir.Sound ∧ v.dir.UpToDate
  have h0 : I p := ⟨hp.2.sound, fun all h => by rw [hp.2.2] at h; cases h⟩
  have hstep : ∀ f, IsStep persisting f → clobbers f = false → I f.pre → I f.post := by
    rintro f hf hn ⟨hsound, hup⟩
    rcases persisting_step hf with hd | ⟨a, hact, hdrop, hs⟩
    · simp only [I, hd]
      exact ⟨hsound, hup⟩
    · simp only [clobbers, hact] at hn
      exact ⟨StateDir.sound_step hs hsound, StateDir.upToDate_step hs hsound hdrop hn hup⟩
  have hall := hr.invariant_at hstep h0 hc
  intro v hv hrest all hlast
  exact (forall_states (P := I) h0 (fun f hf => (hall f hf).2) v hv).2.file hrest hlast

/-- An agent without history. -/
def freshPersistentAgent : PersistentAgent := ⟨freshAgent 2 10, ⟨∅, 0, [], []⟩⟩

theorem freshPersistentAgent_startup : freshPersistentAgent.Startup := ⟨freshAgent_startup 2 10, rfl, rfl⟩

/-- Two jobs complete while the history is written; both snapshots are taken before the first rename. -/
def twoCompletions (renames : List PersistAct) : List PersistentAct :=
  [.agent (.op (.admitJob 1 .install ["vim"])), .agent (.op (.admitJob 2 .update ["git"])),
    .agent (.op (.completeJob 1)), .persist (.call none), .persist (.snapshot 0),
    .agent (.op (.completeJob 2)), .persist (.call none), .persist (.snapshot 1)] ++ renames.map .persist

def overlappingRun : List (Fired PersistentAgent PersistentAct) :=
  (trace persisting freshPersistentAgent (twoCompletions [.write 1, .write 0, .rename 0, .rename 1])).getD []

theorem history_newest_overlapping : HistoryNewest (endState freshPersistentAgent overlappingRun).dir := by
  have hr : Run persisting freshPersistentAgent overlappingRun (endState freshPersistentAgent overlappingRun) :=
    run_trace persisting _ _ (by decide)
  exact history_newest freshPersistentAgent_startup hr (by decide) _ hr.end_mem

/-- The older snapshot is renamed last, and the history shows a job as Pending that is Completed. -/
theorem older_snapshot_wins : ∃ (p p' : PersistentAgent) (tr : List (Fired PersistentAgent PersistentAct)),
    p.Startup ∧ Run persisting p tr p' ∧ ¬ HistoryNewest p'.dir := by
  refine ⟨freshPersistentAgent, _, _, freshPersistentAgent_startup,
    run_trace persisting _ (twoCompletions [.write 1, .rename 1, .write 0, .rename 0]) (by decide), fun h => ?_⟩
  exact absurd (h (by decide) _ (Option.some_get (by decide)).symm) (by decide)

end LinuxPatchApi.Jobs
