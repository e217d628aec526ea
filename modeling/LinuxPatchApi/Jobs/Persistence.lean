/-
`src/jobs/persistence.rs` and `persist_jobs`: any number of calls at once, each of which clones all jobs
under the state lock, then writes what is retained of them to a temporary file of its own and renames that
file over the history. Writing a file and renaming it are single steps that succeed.
-/
import LinuxPatchApi.Jobs.Dispatch

namespace LinuxPatchApi.Jobs

open LinuxPatchApi.Packages

/-! ## What is written -/

/-- `HISTORY_RETENTION_COUNT`. -/
def historyRetentionCount : Nat := 500

/-- Whether the history may hold the job: an internal one only when it is terminal. -/
def Job.isRetainable (j : Job) : Bool := !j.isInternal || j.status.isTerminal

/-- What `persist_all_jobs` writes for the jobs it is given; the sort is stable, newest first. -/
def retained (jobs : List Job) : List Job :=
  let kept := jobs.filter Job.isRetainable
  if kept.length > historyRetentionCount then
    (kept.mergeSort fun a b => decide (b.createdAt ≤ a.createdAt)).take historyRetentionCount
  else kept

theorem mem_retained {jobs : List Job} {j : Job} (h : j ∈ retained jobs) : j ∈ jobs ∧ j.isRetainable = true := by
  have hkept : j ∈ jobs.filter Job.isRetainable := by
    unfold retained at h
    simp only at h
    split at h
    · exact List.mem_mergeSort.1 (List.mem_of_mem_take h)
    · exact h
  exact List.mem_filter.1 hkept

/-! ## Calls of `persist_jobs` -/

/-- Where one call is. Snapshots are numbered in the order in which they are taken. -/
inductive PersistPhase where
  /-- About to take the state lock, in `get_all_jobs`. -/
  | locking
  /-- The lock is released; holds the clone, snapshot number `n`. -/
  | snapshotted (n : Nat) (allJobs : List Job)
  /-- The temporary file is written. -/
  | written (n : Nat) (tmp : Nat)
  /-- The temporary file is renamed. -/
  | renamed (n : Nat)
  /-- The future that ran the call is gone. -/
  | dropped
  deriving DecidableEq, Repr

/-- A call, with the number of the `dispatch_mutation` call that awaits it, if one does. -/
structure PersistCall where
  owner : Option Nat
  phase : PersistPhase
  deriving DecidableEq, Repr

namespace PersistPhase

def inFlight : PersistPhase → Bool
  | locking | snapshotted .. | written .. => true
  | _ => false

/-- The number of the snapshot that the call is about to publish. -/
def carries : PersistPhase → Option Nat
  | snapshotted n _ | written n _ => some n
  | _ => none

end PersistPhase

/-- The files of the state directory; `unique_temp_path` makes every temporary name from a counter. -/
inductive StatePath where
  | jobsPath
  | tempPath (n : Nat)
  deriving DecidableEq, Repr

/-- The state directory with the calls made so far. `snapshots` records every snapshot taken, oldest
first; nothing reads it. -/
structure StateDir where
  files : FinMap StatePath (List Job)
  counter : Nat
  persists : List PersistCall
  snapshots : List (List Job)
  deriving DecidableEq

inductive PersistAct where
  | call (owner : Option Nat)
  | snapshot (i : Nat)
  | write (i : Nat)
  | rename (i : Nat)
  | drop (i : Nat)
  deriving DecidableEq, Repr

namespace StateDir

def setPhase (d : StateDir) (i : Nat) (c : PersistCall) (p : PersistPhase) : StateDir :=
  { d with persists := d.persists.set i { c with phase := p } }

/-- One move of a call; `jobs` is what the scheduler's map holds. -/
def step (jobs : List Job) (d : StateDir) : PersistAct → Option StateDir
  | .call owner => some { d with persists := d.persists ++ [⟨owner, .locking⟩] }
  | .snapshot i => do
    let c ← d.persists[i]?
    match c.phase with
    | .locking => some { d.setPhase i c (.snapshotted d.snapshots.length jobs) with snapshots := d.snapshots ++ [jobs] }
    | _ => none
  | .write i => do
    let c ← d.persists[i]?
    match c.phase with
    | .snapshotted n allJobs => some { d.setPhase i c (.written n d.counter) with
        files := d.files.insert (.tempPath d.counter) (retained allJobs)
        counter := d.counter + 1 }
    | _ => none
  | .rename i => do
    let c ← d.persists[i]?
    match c.phase with
    | .written n tmp =>
      let content ← d.files.get? (.tempPath tmp)
      some { d.setPhase i c (.renamed n) with files := (d.files.erase (.tempPath tmp)).insert .jobsPath content }
    | _ => none
  | .drop i => do
    let c ← d.persists[i]?
    if c.phase.inFlight then some (d.setPhase i c .dropped) else none

/-! ## Phases -/

/-- Where call number `i` is. -/
def phase? (d : StateDir) (i : Nat) : Option PersistPhase := (d.persists[i]?).map PersistCall.phase

theorem phase?_setPhase {d : StateDir} {i : Nat} {c : PersistCall} (hc : d.persists[i]? = some c) (p : PersistPhase)
    (k : Nat) : (d.setPhase i c p).phase? k = if k = i then some p else d.phase? k := by
  simp only [phase?, setPhase, List.getElem?_set]
  by_cases hk : i = k
  · rw [if_pos hk, if_pos hk.symm, if_pos (List.getElem?_eq_some_iff.1 hc).1]
    rfl
  · rw [if_neg hk, if_neg fun h => hk h.symm]

theorem phase?_call (d : StateDir) (owner : Option Nat) (k : Nat) :
    phase? { d with persists := d.persists ++ [⟨owner, .locking⟩] } k =
      if k = d.persists.length then some .locking else d.phase? k := by
  simp only [phase?]
  rcases Nat.lt_trichotomy k d.persists.length with hk | hk | hk
  · rw [List.getElem?_append_left hk, if_neg (by omega)]
  · subst hk
    simp
  · rw [List.getElem?_eq_none (by simp; omega), if_neg (by omega), List.getElem?_eq_none (by omega)]

theorem any_iff {d : StateDir} {q : PersistPhase → Bool} :
    (d.persists.any fun c => q c.phase) = true ↔ ∃ i p, d.phase? i = some p ∧ q p = true := by
  rw [List.any_eq_true]
  constructor
  · rintro ⟨c, hc, hq⟩
    obtain ⟨i, hi⟩ := List.mem_iff_getElem?.1 hc
    exact ⟨i, c.phase, by rw [phase?, hi]; rfl, hq⟩
  · rintro ⟨i, p, hp, hq⟩
    obtain ⟨c, hc, rfl⟩ := Option.map_eq_some_iff.1 hp
    exact ⟨c, List.mem_of_getElem? hc, hq⟩

/-! ## One move -/

/-- Call number `i` is in phase `p` afterwards, and all others are where they were. -/
def Moves (d d' : StateDir) (i : Nat) (p : PersistPhase) : Prop :=
  ∀ k, d'.phase? k = if k = i then some p else d.phase? k

/-- What one move can do. -/
inductive Step (jobs : List Job) (d : StateDir) : PersistAct → StateDir → Prop
  | call (owner : Option Nat) (d' : StateDir) : Moves d d' d.persists.length .locking → d'.files = d.files →
      d'.counter = d.counter → d'.snapshots = d.snapshots → Step jobs d (.call owner) d'
  | snapshot (i : Nat) (d' : StateDir) : d.phase? i = some .locking →
      Moves d d' i (.snapshotted d.snapshots.length jobs) → d'.files = d.files → d'.counter = d.counter →
      d'.snapshots = d.snapshots ++ [jobs] → Step jobs d (.snapshot i) d'
  | write (i n : Nat) (allJobs : List Job) (d' : StateDir) : d.phase? i = some (.snapshotted n allJobs) →
      Moves d d' i (.written n d.counter) → d'.files = d.files.insert (.tempPath d.counter) (retained allJobs) →
      d'.counter = d.counter + 1 → d'.snapshots = d.snapshots → Step jobs d (.write i) d'
  | rename (i n tmp : Nat) (content : List Job) (d' : StateDir) : d.phase? i = some (.written n tmp) →
      d.files.get? (.tempPath tmp) = some content → Moves d d' i (.renamed n) →
      d'.files = (d.files.erase (.tempPath tmp)).insert .jobsPath content → d'.counter = d.counter →
      d'.snapshots = d.snapshots → Step jobs d (.rename i) d'
  | drop (i : Nat) (p : PersistPhase) (d' : StateDir) : d.phase? i = some p → p.inFlight = true →
      Moves d d' i .dropped → d'.files = d.files → d'.counter = d.counter → d'.snapshots = d.snapshots →
      Step jobs d (.drop i) d'

theorem step_cases {jobs : List Job} {d d' : StateDir} {a : PersistAct} (h : d.step jobs a = some d') :
    Step jobs d a d' := by
  have hphase : ∀ {i c p}, d.persists[i]? = some c → c.phase = p → d.phase? i = some p := fun {i c p} hc hp => by
    rw [phase?, hc, ← hp]
    rfl
  cases a with
  | call owner =>
    cases h
    exact .call owner _ (phase?_call d owner) rfl rfl rfl
  | snapshot i =>
    obtain ⟨c, hc, h⟩ := Option.bind_eq_some_iff.1 h
    split at h
    · next hp =>
      cases h
      exact .snapshot i _ (hphase hc hp) (phase?_setPhase hc _) rfl rfl rfl
    · cases h
  | write i =>
    obtain ⟨c, hc, h⟩ := Option.bind_eq_some_iff.1 h
    split at h
    · next n all hp =>
      cases h
      exact .write i n all _ (hphase hc hp) (phase?_setPhase hc _) rfl rfl rfl
    · cases h
  | rename i =>
    obtain ⟨c, hc, h⟩ := Option.bind_eq_some_iff.1 h
    split at h
    · next n tmp hp =>
      obtain ⟨content, hf, h⟩ := Option.bind_eq_some_iff.1 h
      cases h
      exact .rename i n tmp content _ (hphase hc hp) hf (phase?_setPhase hc _) rfl rfl rfl
    · cases h
  | drop i =>
    obtain ⟨c, hc, h⟩ := Option.bind_eq_some_iff.1 h
    split at h
    · next hp =>
      cases h
      exact .drop i c.phase _ (hphase hc rfl) hp (phase?_setPhase hc _) rfl rfl rfl
    · cases h

/-! ## Snapshots and files -/

/-- Every call carries the snapshot it took, and its temporary file is its own. -/
structure Sound (d : StateDir) : Prop where
  snapshotted : ∀ i n all, d.phase? i = some (.snapshotted n all) → d.snapshots[n]? = some all
  written : ∀ i n tmp, d.phase? i = some (.written n tmp) →
    tmp < d.counter ∧ ∃ all, d.snapshots[n]? = some all ∧ d.files.get? (.tempPath tmp) = some (retained all)
  own : ∀ i k n n' tmp, d.phase? i = some (.written n tmp) → d.phase? k = some (.written n' tmp) → i = k

/-- A state directory in which no call was made yet. -/
def Fresh (d : StateDir) : Prop := d.persists = [] ∧ d.snapshots = []

theorem Fresh.sound {d : StateDir} (h : d.Fresh) : d.Sound := by
  have hnone : ∀ i, d.phase? i = none := fun i => by rw [phase?, h.1]; rfl
  exact ⟨fun i n all hc => by simp [hnone] at hc, fun i n tmp hc => by simp [hnone] at hc,
    fun i k n n' tmp hc => by simp [hnone] at hc⟩

/-- A call that moves to a phase without a snapshot to write leaves the rest as it was. -/
theorem Sound.of_moved {d d' : StateDir} (hd : d.Sound) {i : Nat} {p : PersistPhase} (hm : Moves d d' i p)
    (hp : p.carries = none) (hf : d'.files = d.files) (hc : d'.counter = d.counter) (hs : d'.snapshots = d.snapshots) :
    d'.Sound where
  snapshotted k n all h := by
    rw [hm] at h
    split at h
    · cases h; cases hp
    · rw [hs]
      exact hd.snapshotted k n all h
  written k n tmp h := by
    rw [hm] at h
    split at h
    · cases h; cases hp
    · rw [hs, hf, hc]
      exact hd.written k n tmp h
  own k k' n n' tmp h h' := by
    rw [hm] at h h'
    split at h
    · cases h; cases hp
    split at h'
    · cases h'; cases hp
    · exact hd.own k k' n n' tmp h h'

theorem sound_step {jobs : List Job} {d d' : StateDir} {a : PersistAct} (h : Step jobs d a d') (hd : d.Sound) :
    d'.Sound := by
  cases h with
  | call owner _ hm hf hc hs => exact hd.of_moved hm rfl hf hc hs
  | drop i p _ _ _ hm hf hc hs => exact hd.of_moved hm rfl hf hc hs
  | snapshot i _ hp hm hf hc hs =>
    -- earlier snapshots keep their numbers
    have hold : ∀ {n all}, d.snapshots[n]? = some all → d'.snapshots[n]? = some all := fun {n all} h => by
      rw [hs]
      exact Entries.append_kept h
    refine ⟨fun k n all h => ?_, fun k n tmp h => ?_, fun k k' n n' tmp h h' => ?_⟩
    · rw [hm] at h
      split at h
      · cases h
        rw [hs]
        simp
      · exact hold (hd.snapshotted k n all h)
    · rw [hm] at h
      split at h
      · cases h
      · obtain ⟨hlt, all, hall, hfile⟩ := hd.written k n tmp h
        exact ⟨by rw [hc]; exact hlt, all, hold hall, by rw [hf]; exact hfile⟩
    · rw [hm] at h h'
      split at h
      · cases h
      split at h'
      · cases h'
      · exact hd.own k k' n n' tmp h h'
  | write i n all _ hp hm hf hc hs =>
    -- the new temporary name was never used
    have hfresh : ∀ {k n' tmp}, d.phase? k = some (.written n' tmp) → tmp < d.counter := fun h => (hd.written _ _ _ h).1
    refine ⟨fun k n' all' h => ?_, fun k n' tmp h => ?_, fun k k' n' n'' tmp h h' => ?_⟩
    · rw [hm] at h
      split at h
      · cases h
      · rw [hs]
        exact hd.snapshotted k n' all' h
    · rw [hm] at h
      rw [hc, hs, hf]
      split at h
      · cases h
        exact ⟨by omega, all, hd.snapshotted i n all hp, by rw [FinMap.get?_insert, if_pos rfl]⟩
      · obtain ⟨hlt, all', hall, hfile⟩ := hd.written k n' tmp h
        refine ⟨by omega, all', hall, ?_⟩
        rw [FinMap.get?_insert, if_neg (by simp; omega)]
        exact hfile
    · rw [hm] at h h'
      split at h <;> split at h'
      · next h₁ h₂ => rw [h₁, h₂]
      · cases h
        exact absurd (hfresh h') (by omega)
      · cases h'
        exact absurd (hfresh h) (by omega)
      · exact hd.own k k' n' n'' tmp h h'
  | rename i n tmp content _ hp hcont hm hf hc hs =>
    refine ⟨fun k n' all h => ?_, fun k n' tmp' h => ?_, fun k k' n' n'' tmp' h h' => ?_⟩
    · rw [hm] at h
      split at h
      · cases h
      · rw [hs]
        exact hd.snapshotted k n' all h
    · rw [hm] at h
      split at h
      · cases h
      · next hk =>
        obtain ⟨hlt, all, hall, hfile⟩ := hd.written k n' tmp' h
        -- the file that is renamed away belongs to no other call
        have hne : tmp' ≠ tmp := fun he => hk (hd.own k i n' n tmp' h (by rw [he]; exact hp))
        refine ⟨by rw [hc]; exact hlt, all, by rw [hs]; exact hall, ?_⟩
        rw [hf, FinMap.get?_insert, if_neg (by simp), FinMap.get?_erase, if_neg (by simpa using hne)]
        exact hfile
    · rw [hm] at h h'
      split at h
      · cases h
      split at h'
      · cases h'
      · exact hd.own k k' n' n'' tmp' h h'

/-! ## The newest snapshot -/

/-- Some call has yet to take its snapshot. -/
def waiting (d : StateDir) : Bool := d.persists.any fun c => c.phase == .locking

/-- The call that took the newest snapshot has yet to rename it. -/
def newestInFlight (d : StateDir) : Bool := d.persists.any fun c => c.phase.carries.any fun n =>
    n + 1 == d.snapshots.length

/-- No call is under way. -/
def atRest (d : StateDir) : Bool := d.persists.all fun c => !c.phase.inFlight

/-- The history file holds the newest snapshot, or a call that is under way will see to it. -/
def UpToDate (d : StateDir) : Prop :=
  ∀ all, d.snapshots.getLast? = some all →
    d.files.get? .jobsPath = some (retained all) ∨ d.newestInFlight = true ∨ d.waiting = true

/-- The move puts an older snapshot with other content over the newest one, and no call is left that would
put that right. -/
def overwrites (d : StateDir) : PersistAct → Bool
  | .rename i => match d.phase? i with
    | some (.written n _) => (d.snapshots[n]?).map retained != d.snapshots.getLast?.map retained &&
        (!d.newestInFlight && !d.waiting)
    | _ => false
  | _ => false

theorem waiting_iff {d : StateDir} : d.waiting = true ↔ ∃ i, d.phase? i = some .locking := by
  refine (any_iff (q := fun p => p == .locking)).trans ?_
  simp

theorem newestInFlight_iff {d : StateDir} : d.newestInFlight = true ↔
    ∃ i p n, d.phase? i = some p ∧ p.carries = some n ∧ n + 1 = d.snapshots.length := by
  refine (any_iff (q := fun p => p.carries.any fun n => n + 1 == d.snapshots.length)).trans ?_
  simp only [Option.any_eq_true, beq_iff_eq]
  constructor
  · rintro ⟨i, p, hp, n, hn, hlen⟩
    exact ⟨i, p, n, hp, hn, hlen⟩
  · rintro ⟨i, p, n, hp, hn, hlen⟩
    exact ⟨i, p, hp, n, hn, hlen⟩

theorem atRest_iff {d : StateDir} : d.atRest = true ↔ ∀ i p, d.phase? i = some p → p.inFlight = false := by
  have := any_iff (d := d) (q := PersistPhase.inFlight)
  unfold atRest
  rw [List.all_eq_not_any_not]
  simp only [Bool.not_not, Bool.not_eq_true', ← Bool.not_eq_true, this]
  push Not
  rfl

section UpToDate

variable {jobs : List Job} {d d' : StateDir}

theorem waiting_of_moved {i k : Nat} {p : PersistPhase} (hm : Moves d d' i p) (hk : k ≠ i)
    (h : d.phase? k = some .locking) : d'.waiting = true :=
  waiting_iff.2 ⟨k, by rw [hm, if_neg hk]; exact h⟩

/-- A call moves on with its snapshot; nothing else happens to the newest one. -/
theorem newestInFlight_of_moved {i : Nat} {p : PersistPhase} (hm : Moves d d' i p)
    (hs : d'.snapshots = d.snapshots) (hp : ∀ q n, d.phase? i = some q → q.carries = some n → p.carries = some n)
    (h : d.newestInFlight = true) : d'.newestInFlight = true := by
  obtain ⟨k, q, n, hq, hn, hlen⟩ := newestInFlight_iff.1 h
  rw [← hs] at hlen
  by_cases hk : k = i
  · subst hk
    exact newestInFlight_iff.2 ⟨k, p, n, by rw [hm, if_pos rfl], hp q n hq hn, hlen⟩
  · exact newestInFlight_iff.2 ⟨k, q, n, by rw [hm, if_neg hk]; exact hq, hn, hlen⟩

/-- The history stays up to date, or on its way to be, unless a call is dropped or overwrites. -/
theorem upToDate_step {a : PersistAct} (h : Step jobs d a d') (hd : d.Sound) (hdrop : ∀ i, a ≠ .drop i)
    (hover : d.overwrites a = false) (hu : d.UpToDate) : d'.UpToDate := by
  cases h with
  | call owner _ hm =>
    exact fun all _ => .inr (.inr (waiting_iff.2 ⟨_, by rw [hm, if_pos rfl]⟩))
  | snapshot i _ hp hm hf hc hs =>
    exact fun all _ => .inr (.inl (newestInFlight_iff.2 ⟨i, _, d.snapshots.length, by rw [hm, if_pos rfl],
      rfl, by simp [hs]⟩))
  | write i n all _ hp hm hf hc hs =>
    intro all' hall
    rw [hs] at hall
    rcases hu all' hall with hfile | hnew | hwait
    · refine .inl ?_
      rw [hf, FinMap.get?_insert, if_neg (by simp)]
      exact hfile
    · refine .inr (.inl (newestInFlight_of_moved hm hs (fun q n' hq hn => ?_) hnew))
      rw [hp] at hq
      cases hq
      exact hn
    · obtain ⟨k, hk⟩ := waiting_iff.1 hwait
      refine .inr (.inr (waiting_of_moved hm (fun he => ?_) hk))
      rw [he, hp] at hk
      cases hk
  | rename i n tmp content _ hp hcont hm hf hc hs =>
    intro all hall
    rw [hs] at hall
    obtain ⟨_, all', hall', hfile⟩ := hd.written i n tmp hp
    have hcontent : content = retained all' := by
      rw [hcont] at hfile
      exact Option.some.inj hfile
    have hnew : d'.files.get? .jobsPath = some (retained all') := by
      rw [hf, FinMap.get?_insert, if_pos rfl, hcontent]
    by_cases hsame : retained all' = retained all
    · exact .inl (by rw [hnew, hsame])
    · -- an older snapshot was put in place while a newer one is under way
      have hlive : d.newestInFlight = true ∨ d.waiting = true := by
        by_contra hno
        simp only [not_or, Bool.not_eq_true] at hno
        simp only [overwrites, hp, hall', hall, hno.1, hno.2] at hover
        simp [hsame] at hover
      rcases hlive with hlive | hwait
      · obtain ⟨k, q, m, hq, hm', hlen⟩ := newestInFlight_iff.1 hlive
        have hk : k ≠ i := fun he => by
          subst he
          rw [hp] at hq
          cases hq
          cases hm'
          rw [List.getLast?_eq_getElem?, show d.snapshots.length - 1 = n by omega, hall'] at hall
          cases hall
          exact hsame rfl
        exact .inr (.inl (newestInFlight_iff.2 ⟨k, q, m, by rw [hm, if_neg hk]; exact hq, hm', by rw [hs]; exact hlen⟩))
      · obtain ⟨k, hk⟩ := waiting_iff.1 hwait
        refine .inr (.inr (waiting_of_moved hm (fun he => ?_) hk))
        rw [he, hp] at hk
        cases hk
  | drop i => exact absurd rfl (hdrop i)

/-- At rest nothing is on its way any more. -/
theorem UpToDate.file (hu : d.UpToDate) (hr : d.atRest = true) {all : List Job} (h : d.snapshots.getLast? = some all) :
    d.files.get? .jobsPath = some (retained all) := by
  rw [atRest_iff] at hr
  rcases hu all h with hfile | hnew | hwait
  · exact hfile
  · obtain ⟨i, p, n, hp, hn, _⟩ := newestInFlight_iff.1 hnew
    have := hr i p hp
    cases p <;> cases this <;> cases hn
  · obtain ⟨i, hi⟩ := waiting_iff.1 hwait
    have := hr i _ hi
    cases this

end UpToDate

end StateDir

end LinuxPatchApi.Jobs
