/-
`persist_all_jobs` and `load_all_jobs` on the files of the host, with every operation that may fail: what is left of the
jobs of the legacy file when the move to the history is made.
-/
import LinuxPatchApi.Files
import LinuxPatchApi.Jobs.Restarts
import LinuxPatchApi.Jobs.Retention

namespace LinuxPatchApi.Jobs.StateFiles

open LinuxPatchApi.Packages Disk FileM

/-! ## Paths -/

def stateDir : String := "/var/lib/linux_patch_api/state"

def jobsPath : String := stateDir ++ "/jobs_history.json"

def legacyJobsPath : String := stateDir ++ "/running_jobs.json"

/-- The hash of a thread id's `Debug` text. -/
def tidHash (tid : String) : UInt64 := tid.toUTF8.data.toList.foldl (fun acc b => acc * 31 + b.toUInt64) 0

/-- `unique_temp_path` of the history, on thread `tid` with the counter at `n`. -/
def uniqueTempPath (tid : String) (n : UInt64) : String :=
  stateDir ++ "/jobs_history." ++ toString (tidHash tid).toNat ++ "." ++ toString n.toNat ++ ".json.tmp"

theorem lastChar_uniqueTempPath (tid : String) (n : UInt64) : Paths.lastChar (uniqueTempPath tid n) = some 'p' :=
  Paths.lastChar_append _ (by decide)

theorem uniqueTempPath_ne_jobsPath (tid : String) (n : UInt64) : jobsPath ≠ uniqueTempPath tid n := fun h => by
  have hlast := lastChar_uniqueTempPath tid n
  rw [← h] at hlast
  exact absurd hlast (by decide)

theorem uniqueTempPath_ne_legacyJobsPath (tid : String) (n : UInt64) :
    legacyJobsPath ≠ uniqueTempPath tid n := fun h => by
  have hlast := lastChar_uniqueTempPath tid n
  rw [← h] at hlast
  exact absurd hlast (by decide)

/-! ## The two functions -/

/-- The texts of lists of jobs, which are the JSON library's. -/
structure JobTexts where
  toStringPretty : List Job → Except String String
  fromStr : String → Option (List Job)

/-- What is read from a text that was written is what was written. -/
def JobTexts.Faithful (x : JobTexts) : Prop :=
  ∀ {jobs : List Job} {json : String}, x.toStringPretty jobs = .ok json → x.fromStr json = some jobs

section Functions

variable (x : JobTexts) (tid : String) (n : UInt64)

/-- Every error is only logged. -/
def persistAllJobs (jobs : List Job) : FileM Unit := do
  match x.toStringPretty (retained jobs) with
  | .error _ => return ()
  | .ok json =>
    (io (.createDirAll stateDir)).ignore
    match ← Action.attempt (io (.write (uniqueTempPath tid n) (.text json))) with
    | .error _ => return ()
    | .ok () =>
      match ← Action.attempt (io (.rename (uniqueTempPath tid n) jobsPath)) with
      | .error _ => (io (.remove (uniqueTempPath tid n))).ignore
      | .ok () => return ()

/-- The move from the legacy file, if there is one to make. -/
def migrateLegacy : FileM (Option (List Job)) := do
  match ← readToString legacyJobsPath with
  | none => return none
  | some json =>
    match x.fromStr json with
    | none => return none
    | some jobs =>
      persistAllJobs x tid n jobs
      (io (.remove legacyJobsPath)).ignore
      return some jobs

def readHistory : FileM (List Job) := do
  match ← readToString jobsPath with
  | none => return []
  | some json => return (x.fromStr json).getD []

def loadAllJobs : FileM (List Job) := do
  match ← Action.content jobsPath with
  | some _ => readHistory x
  | none =>
    match ← migrateLegacy x tid n with
    | some jobs => return jobs
    | none => readHistory x

end Functions

/-! ## What they do -/

section Runs

variable {x : JobTexts} {tid : String} {n : UInt64} {env : HostSurroundings} {s : HostFiles} {jobs : List Job}

/-- The jobs can be serialized, and the history is written and put in place. -/
def Saves (x : JobTexts) (env : HostSurroundings) (tid : String) (n : UInt64) (jobs : List Job) : Prop :=
  ∃ json, x.toStringPretty (retained jobs) = .ok json ∧
    env.outcome (.write (uniqueTempPath tid n) (.text json)) = .done ∧
    env.outcome (.rename (uniqueTempPath tid n) jobsPath) = .done

theorem ignore_createDirAll_bind {α : Type} (dir : String) (f : Unit → FileM α) :
    ((io (.createDirAll dir)).ignore >>= f).run env s = (f ()).run env s := by
  rw [Action.run_ignore_bind]
  rcases hrun : (io (.createDirAll dir)).run env s with ⟨r, t⟩
  rcases io_cases hrun with ⟨_, _, rfl⟩ | ⟨_, _, residue, rfl⟩ <;> rfl

/-- The history holds what is left of the jobs, or it is as it was; other files than the temporary one do not change. -/
theorem persistAllJobs_cases (x : JobTexts) (tid : String) (n : UInt64) (env : HostSurroundings) (s : HostFiles)
    (jobs : List Job) : ∃ t, (persistAllJobs x tid n jobs).run env s = (.ok (), t) ∧
      (∀ p, p ≠ jobsPath → p ≠ uniqueTempPath tid n → t p = s p) ∧
      (Saves x env tid n jobs ∧ (∃ json, x.toStringPretty (retained jobs) = .ok json ∧ t jobsPath = some (.text json)) ∨
        ¬ Saves x env tid n jobs ∧ t jobsPath = s jobsPath) := by
  unfold persistAllJobs
  cases hjson : x.toStringPretty (retained jobs) with
  | error e =>
    refine ⟨s, rfl, fun _ _ _ => rfl, .inr ⟨fun hsaves => ?_, rfl⟩⟩
    obtain ⟨json, h, _⟩ := hsaves
    rw [hjson] at h
    cases h
  | ok json =>
    have hiff : Saves x env tid n jobs ↔ env.outcome (.write (uniqueTempPath tid n) (.text json)) = .done ∧
        env.outcome (.rename (uniqueTempPath tid n) jobsPath) = .done := by
      constructor
      · rintro ⟨_, h, hdone⟩
        rw [hjson] at h
        cases h
        exact hdone
      · exact fun hdone => ⟨json, hjson, hdone⟩
    dsimp only
    rw [ignore_createDirAll_bind, Action.run_attempt_bind]
    rcases hwrite : (io (.write (uniqueTempPath tid n) (.text json))).run env s with ⟨r, u⟩
    have hkept : ∀ p, p ≠ uniqueTempPath tid n → u p = s p := fun p hp => by
      have hconfined : Action.Confined (· = uniqueTempPath tid n) (io (.write (uniqueTempPath tid n) (.text json))) :=
        confined_io (by simp [Op.changes])
      exact hconfined.kept hwrite hp
    rcases io_cases hwrite with ⟨hwritten, rfl, hu⟩ | ⟨hnot, ⟨e, rfl⟩, _⟩
    swap
    · refine ⟨u, rfl, fun p _ hp => hkept p hp, .inr ⟨fun hsaves => ?_, hkept _ (uniqueTempPath_ne_jobsPath tid n)⟩⟩
      exact hnot ⟨rfl, (hiff.1 hsaves).1⟩
    have htemp : u (uniqueTempPath tid n) = some (.text json) := by
      rw [hu]
      exact Function.update_self ..
    dsimp only
    rw [Action.run_attempt_bind]
    rcases hrename : (io (.rename (uniqueTempPath tid n) jobsPath)).run env u with ⟨r, v⟩
    rcases io_cases hrename with ⟨hrenamed, rfl, hv⟩ | ⟨hnot, ⟨e, rfl⟩, residue, hv⟩
    · refine ⟨v, rfl, fun p hp ht => ?_, .inl ⟨hiff.2 ⟨hwritten.2, hrenamed.2⟩, json, rfl, ?_⟩⟩
      · rw [hv]
        simp only [Op.effect, Function.update_of_ne hp, Function.update_of_ne ht]
        exact hkept p ht
      · rw [hv]
        simp only [Op.effect, Function.update_self]
        exact htemp
    · obtain rfl : v = u := hv
      have hremove : ∀ p, p ≠ uniqueTempPath tid n →
          ((io (.remove (uniqueTempPath tid n))).run env v).2 p = v p := fun p hp => by
        have hconfined : Action.Confined (· = uniqueTempPath tid n) (io (.remove (uniqueTempPath tid n))) :=
          confined_io (by simp [Op.changes])
        exact hconfined env v p hp
      refine ⟨_, rfl, fun p _ hp => (hremove p hp).trans (hkept p hp),
        .inr ⟨fun hsaves => hnot ⟨?_, (hiff.1 hsaves).2⟩, ?_⟩⟩
      · simp [Op.refusal, htemp]
      · exact (hremove _ (uniqueTempPath_ne_jobsPath tid n)).trans (hkept _ (uniqueTempPath_ne_jobsPath tid n))

/-- The jobs that a reader finds in the history. -/
def historyJobs (x : JobTexts) (s : HostFiles) : List Job := ((readString s jobsPath).bind x.fromStr).getD []

/-- The jobs of the legacy file, if it is a list of jobs. -/
def legacyJobs (x : JobTexts) (s : HostFiles) : Option (List Job) := (readString s legacyJobsPath).bind x.fromStr

/-- There is no history, and the legacy file holds the jobs. -/
def Migrates (x : JobTexts) (s : HostFiles) (jobs : List Job) : Prop := s jobsPath = none ∧ legacyJobs x s = some jobs

theorem readHistory_run (x : JobTexts) (env : HostSurroundings) (s : HostFiles) :
    (readHistory x).run env s = (.ok (historyJobs x s), s) := by
  unfold readHistory historyJobs
  rw [run_readToString_bind]
  cases readString s jobsPath <;> rfl

theorem migrateLegacy_none (h : legacyJobs x s = none) : (migrateLegacy x tid n).run env s = (.ok none, s) := by
  unfold migrateLegacy
  unfold legacyJobs at h
  rw [run_readToString_bind]
  cases hread : readString s legacyJobsPath with
  | none => rfl
  | some json =>
    rw [hread, Option.bind_some] at h
    dsimp only
    rw [h]
    rfl

theorem migrateLegacy_some (h : legacyJobs x s = some jobs) {u : HostFiles}
    (hpersist : (persistAllJobs x tid n jobs).run env s = (.ok (), u)) :
    (migrateLegacy x tid n).run env s = (.ok (some jobs), ((io (.remove legacyJobsPath)).run env u).2) := by
  obtain ⟨json, hread, hparse⟩ := Option.bind_eq_some_iff.1 h
  unfold migrateLegacy
  rw [run_readToString_bind, hread]
  dsimp only
  rw [hparse]
  dsimp only
  rw [Action.run_bind, hpersist]
  rfl

/-- Without a migration no file changes; a migration writes the history, and then removes the legacy file. -/
theorem loadAllJobs_cases {r : Except AnyhowError (List Job)} {t : HostFiles}
    (h : (loadAllJobs x tid n).run env s = (r, t)) :
    ((∀ jobs, ¬ Migrates x s jobs) ∧ r = .ok (historyJobs x s) ∧ t = s) ∨
      ∃ jobs u, Migrates x s jobs ∧ r = .ok jobs ∧ (persistAllJobs x tid n jobs).run env s = (.ok (), u) ∧
        t = ((io (.remove legacyJobsPath)).run env u).2 := by
  unfold loadAllJobs at h
  rw [Action.run_content_bind] at h
  cases hpath : s jobsPath with
  | some c =>
    rw [hpath] at h
    dsimp only at h
    rw [readHistory_run] at h
    cases h
    refine .inl ⟨fun jobs hm => ?_, rfl, rfl⟩
    rw [hm.1] at hpath
    cases hpath
  | none =>
    rw [hpath] at h
    dsimp only at h
    rw [Action.run_bind] at h
    cases hlegacy : legacyJobs x s with
    | none =>
      rw [migrateLegacy_none hlegacy] at h
      dsimp only at h
      rw [readHistory_run] at h
      cases h
      refine .inl ⟨fun jobs hm => ?_, rfl, rfl⟩
      rw [hm.2] at hlegacy
      cases hlegacy
    | some jobs =>
      obtain ⟨u, hpersist, _⟩ := persistAllJobs_cases x tid n env s jobs
      rw [migrateLegacy_some hlegacy hpersist] at h
      cases h
      exact .inr ⟨jobs, u, ⟨hpath, hlegacy⟩, rfl, hpersist, rfl⟩

/-- The legacy file goes exactly when the operation that removes it is carried out. -/
theorem remove_legacy (env : HostSurroundings) {u : HostFiles} {c : Content} (hu : u legacyJobsPath = some c) :
    ((io (.remove legacyJobsPath)).run env u).2 legacyJobsPath =
        (if env.outcome (.remove legacyJobsPath) = .done then none else some c) ∧
      ((io (.remove legacyJobsPath)).run env u).2 jobsPath = u jobsPath := by
  rcases hrun : (io (.remove legacyJobsPath)).run env u with ⟨r, t⟩
  rcases io_cases hrun with ⟨hs, _, rfl⟩ | ⟨hnot, _, residue, rfl⟩
  · have hother : Op.effect u (.remove legacyJobsPath) jobsPath = u jobsPath :=
      Op.effect_of_not_mem u (by simp only [Op.changes, List.mem_singleton]; decide)
    rw [if_pos hs.2]
    exact ⟨by simp [Op.effect], hother⟩
  · rw [if_neg fun hdone => hnot ⟨by simp [Op.refusal, hu], hdone⟩]
    exact ⟨hu, rfl⟩

end Runs

/-! ## What is lost -/

section Lost

variable {x : JobTexts} {tid : String} {n : UInt64} {env : HostSurroundings} {s t : HostFiles}

/-- The legacy file is as it was, or the history holds what it is to `keep` of the file's jobs. -/
def NothingLost (x : JobTexts) (keep : List Job → List Job) (s t : HostFiles) : Prop :=
  t legacyJobsPath = s legacyJobsPath ∨ ∀ jobs, legacyJobs x s = some jobs → ∀ j ∈ keep jobs, j ∈ historyJobs x t

/-- What a migration leaves: whether the legacy file is still there, and what a reader finds in the history. -/
theorem migration_left (hx : x.Faithful) {jobs : List Job} (hm : Migrates x s jobs) {r : Except AnyhowError (List Job)}
    (h : (loadAllJobs x tid n).run env s = (r, t)) :
    (t legacyJobsPath = s legacyJobsPath ↔ env.outcome (.remove legacyJobsPath) ≠ .done) ∧
      (Saves x env tid n jobs ∧ historyJobs x t = retained jobs ∨ ¬ Saves x env tid n jobs ∧ historyJobs x t = []) := by
  rcases loadAllJobs_cases h with ⟨hno, _, rfl⟩ | ⟨jobs', u, hm', _, hpersist, rfl⟩
  · exact absurd hm (hno jobs)
  obtain rfl : jobs' = jobs := Option.some.inj (hm'.2.symm.trans hm.2)
  obtain ⟨u', hrun, hother, hhistory⟩ := persistAllJobs_cases x tid n env s jobs'
  rw [hpersist] at hrun
  cases hrun
  obtain ⟨json, hread, _⟩ := Option.bind_eq_some_iff.1 hm.2
  have hlegacy : s legacyJobsPath = some (.text json) := readString_eq_some.1 hread
  have hsame : u legacyJobsPath = some (.text json) :=
    (hother _ (by decide) (uniqueTempPath_ne_legacyJobsPath tid n)).trans hlegacy
  obtain ⟨hremoved, hjobs⟩ := remove_legacy env hsame
  refine ⟨by rw [hlegacy, hremoved]; simp, ?_⟩
  unfold historyJobs readString
  rw [hjobs]
  rcases hhistory with ⟨hsaves, json', hjson', hfile⟩ | ⟨hnot, hfile⟩
  · refine .inl ⟨hsaves, ?_⟩
    rw [hfile]
    dsimp only
    rw [Option.bind_some, hx hjson']
    rfl
  · refine .inr ⟨hnot, ?_⟩
    rw [hfile, hm.1]
    rfl

/-- Whatever is to be kept, the filtered jobs or those left after the trim, it is lost exactly by a migration that
removes the legacy file without a history in place. -/
theorem loadAllJobs_loses_nothing_iff (hx : x.Faithful) (keep : List Job → List Job)
    {r : Except AnyhowError (List Job)} (h : (loadAllJobs x tid n).run env s = (r, t)) :
    NothingLost x keep s t ↔ ∀ jobs, Migrates x s jobs → env.outcome (.remove legacyJobsPath) ≠ .done ∨ keep jobs = [] ∨
      Saves x env tid n jobs ∧ ∀ j ∈ keep jobs, j ∈ retained jobs := by
  by_cases hsome : ∃ jobs, Migrates x s jobs
  swap
  · rcases loadAllJobs_cases h with ⟨_, _, rfl⟩ | ⟨jobs, _, hm, _⟩
    · exact iff_of_true (.inl rfl) fun jobs hm => absurd ⟨jobs, hm⟩ hsome
    · exact absurd ⟨jobs, hm⟩ hsome
  obtain ⟨jobs, hm⟩ := hsome
  obtain ⟨hlegacy, hfound⟩ := migration_left hx hm h
  have hthe : ∀ jobs', legacyJobs x s = some jobs' ↔ jobs' = jobs := fun jobs' => by
    rw [hm.2, Option.some.injEq, eq_comm]
  unfold NothingLost Migrates
  rw [hlegacy]
  simp only [hthe, hm.1, true_and, forall_eq]
  refine or_congr_right ?_
  rcases hfound with ⟨hsaves, hfound⟩ | ⟨hnot, hfound⟩
  · rw [hfound]
    refine ⟨fun hall => .inr ⟨hsaves, hall⟩, fun h => h.elim (fun hnil j hj => ?_) And.right⟩
    rw [hnil] at hj
    cases hj
  · rw [hfound]
    refine ⟨fun hall => .inl ?_, fun h j hj => ?_⟩
    · exact List.eq_nil_iff_forall_not_mem.2 fun j hj => List.not_mem_nil (hall j hj)
    · rcases h with hnil | ⟨hsaves, _⟩
      · rwa [hnil] at hj
      · exact absurd hsaves hnot

end Lost

/-! ### A full disk -/

/-- The text of a legacy file with one job, which was running. -/
def strandedText : String :=
  "[\n  \x7b\n    \"id\": \"00000000-0000-0000-0000-000000000000\",\n    \"status\": \"Running\",\n    \"operation\": \"Update\"," ++
  "\n    \"created_at\": \"1970-01-01T00:00:00Z\",\n    \"updated_at\": \"1970-01-01T00:00:00Z\"," ++
  "\n    \"completed_at\": null,\n    \"packages\": [\n      \"vim\"\n    ],\n    \"progress\": 0," ++
  "\n    \"message\": \"Job created\",\n    \"logs\": [],\n    \"error\": null,\n    \"rollback_job_id\": null," ++
  "\n    \"exclusive_mode\": false\n  \x7d\n]"

/-- The JSON library on that list and on the empty one. -/
def strandedTexts : JobTexts where
  toStringPretty jobs :=
    if jobs = [strandedJob] then .ok strandedText else if jobs = [] then .ok "[]" else .error "unsupported"
  fromStr json := if json = strandedText then some [strandedJob] else if json = "[]" then some [] else none

theorem strandedTexts_faithful : strandedTexts.Faithful := by
  intro jobs json h
  simp only [strandedTexts] at h ⊢
  split at h
  · next hjobs =>
    cases h
    rw [if_pos rfl, hjobs]
  · split at h
    · next hjobs =>
      cases h
      rw [if_neg (by decide), if_pos rfl, hjobs]
    · cases h

theorem fromStr_strandedText : strandedTexts.fromStr strandedText = some [strandedJob] := by
  unfold strandedTexts
  dsimp only
  rw [if_pos rfl]

theorem toStringPretty_stranded : strandedTexts.toStringPretty [strandedJob] = .ok strandedText := by
  unfold strandedTexts
  dsimp only
  rw [if_pos rfl]

/-- The first start after the upgrade. -/
def legacyOnly : HostFiles := fun p => if p = legacyJobsPath then some (.text strandedText) else none

theorem legacyOnly_migrates : Migrates strandedTexts legacyOnly [strandedJob] := by
  refine ⟨if_neg (by decide), ?_⟩
  have hread : readString legacyOnly legacyJobsPath = some strandedText := readString_eq_some.2 (if_pos rfl)
  rw [legacyJobs, hread, Option.bind_some]
  exact fromStr_strandedText

theorem retained_stranded : retained [strandedJob] = [strandedJob] := by
  have hall : retainable [strandedJob] = [strandedJob] := List.filter_cons_of_pos (by decide)
  have hle : (retainable [strandedJob]).length ≤ historyRetentionCount := by
    rw [hall, List.length_singleton, historyRetentionCount]
    omega
  rw [retained_of_le hle, hall]

/-- The disk is full; names can still be removed. -/
def fullDisk : HostSurroundings where
  dirExists _ := true
  outcome
    | .write _ _ => .failed "No space left on device (os error 28)" (some (.text ""))
    | _ => .done

theorem loadAllJobs_legacyOnly : NothingLost strandedTexts retainable legacyOnly
    ((loadAllJobs strandedTexts "ThreadId(1)" 0).run .sound legacyOnly).2 := by
  refine (loadAllJobs_loses_nothing_iff strandedTexts_faithful retainable Prod.mk.eta.symm).2 fun jobs hm =>
    .inr (.inr ?_)
  obtain rfl : jobs = [strandedJob] := Option.some.inj (hm.2.symm.trans legacyOnly_migrates.2)
  refine ⟨⟨strandedText, ?_, rfl, rfl⟩, fun j hj => ?_⟩
  · rw [retained_stranded]
    exact toStringPretty_stranded
  · rw [retained_stranded]
    exact (mem_retainable.1 hj).1

/-- The legacy file is removed, and no history was written. -/
theorem fullDisk_loses_jobs :
    ¬ NothingLost strandedTexts retainable legacyOnly
      ((loadAllJobs strandedTexts "ThreadId(1)" 0).run fullDisk legacyOnly).2 ∧
    ¬ NothingLost strandedTexts retained legacyOnly
      ((loadAllJobs strandedTexts "ThreadId(1)" 0).run fullDisk legacyOnly).2 := by
  have hrun : (loadAllJobs strandedTexts "ThreadId(1)" 0).run fullDisk legacyOnly = (_, _) := Prod.mk.eta.symm
  obtain ⟨hlegacy, hfound⟩ := migration_left strandedTexts_faithful legacyOnly_migrates hrun
  have hempty :
      historyJobs strandedTexts ((loadAllJobs strandedTexts "ThreadId(1)" 0).run fullDisk legacyOnly).2 = [] := by
    rcases hfound with ⟨⟨_, _, hwrite, _⟩, _⟩ | ⟨_, hempty⟩
    · cases hwrite
    · exact hempty
  have hlost : ∀ keep : List Job → List Job, strandedJob ∈ keep [strandedJob] →
      ¬ NothingLost strandedTexts keep legacyOnly
        ((loadAllJobs strandedTexts "ThreadId(1)" 0).run fullDisk legacyOnly).2 := by
    rintro keep hmem (hkept | hall)
    · exact hlegacy.1 hkept rfl
    · have hin := hall _ legacyOnly_migrates.2 strandedJob hmem
      rw [hempty] at hin
      cases hin
  exact ⟨hlost _ (mem_retainable.2 ⟨List.mem_cons_self, by decide⟩),
    hlost _ (by rw [retained_stranded]; exact List.mem_cons_self)⟩

/-! ## The files as whole lists of jobs -/

def viewFile (x : JobTexts) : Option Content → HistoryFile
  | none => .absent
  | some (.binary _ _) => .unreadable
  | some (.text json) => match x.fromStr json with
    | none => .garbled
    | some jobs => .jobs jobs

def view (x : JobTexts) (s : HostFiles) : HistoryFiles := ⟨viewFile x (s jobsPath), viewFile x (s legacyJobsPath)⟩

theorem viewFile_eq_jobs {x : JobTexts} {c : Option Content} {jobs : List Job} :
    viewFile x c = .jobs jobs ↔ ∃ json, c = some (.text json) ∧ x.fromStr json = some jobs := by
  unfold viewFile
  split
  · simp
  · simp
  · next json =>
    cases hparse : x.fromStr json <;> simp [hparse]

theorem viewFile_eq_absent {x : JobTexts} {c : Option Content} : viewFile x c = .absent ↔ c = none := by
  unfold viewFile
  split
  · simp
  · simp
  · next json => cases x.fromStr json <;> simp

/-- When a migration is carried out, the files change as the start of the agent takes them to. -/
theorem loadAllJobs_view {x : JobTexts} {tid : String} {n : UInt64} {env : HostSurroundings} {s t : HostFiles}
    {jobs : List Job} (hx : x.Faithful) (h : (loadAllJobs x tid n).run env s = (.ok jobs, t))
    (hsaves : ∀ l, Migrates x s l → Saves x env tid n l ∧ env.outcome (.remove legacyJobsPath) = .done) :
    Jobs.loadAllJobs (view x s) = (jobs, view x t) := by
  rcases loadAllJobs_cases h with ⟨hno, hr, rfl⟩ | ⟨jobs', u, hm, hr, hpersist, rfl⟩
  · cases hr
    unfold Jobs.loadAllJobs historyJobs
    split
    · next l hhistory hlegacy =>
      obtain ⟨json, hfile, hparse⟩ := viewFile_eq_jobs.1 hlegacy
      refine absurd ⟨viewFile_eq_absent.1 hhistory, ?_⟩ (hno l)
      rw [legacyJobs, readString_eq_some.2 hfile]
      exact hparse
    · next l hhistory =>
      obtain ⟨json, hfile, hparse⟩ := viewFile_eq_jobs.1 hhistory
      rw [readString_eq_some.2 hfile, Option.bind_some, hparse]
      rfl
    · next hnot _ =>
      have hnone : (readString t jobsPath).bind x.fromStr = none := by
        refine Option.eq_none_iff_forall_ne_some.2 fun l hl => ?_
        obtain ⟨json, hread, hparse⟩ := Option.bind_eq_some_iff.1 hl
        exact hnot l (viewFile_eq_jobs.2 ⟨json, readString_eq_some.1 hread, hparse⟩)
      rw [hnone]
      rfl
  · cases hr
    obtain ⟨hsaved, hdone⟩ := hsaves jobs hm
    obtain ⟨u', hrun, hother, hhistory⟩ := persistAllJobs_cases x tid n env s jobs
    rw [hpersist] at hrun
    cases hrun
    obtain ⟨json, hread, hparse⟩ := Option.bind_eq_some_iff.1 hm.2
    have hlegacy : s legacyJobsPath = some (.text json) := readString_eq_some.1 hread
    obtain ⟨hremoved, hkept⟩ := remove_legacy env
      ((hother _ (by decide) (uniqueTempPath_ne_legacyJobsPath tid n)).trans hlegacy)
    rcases hhistory with ⟨_, json', hjson', hfile⟩ | ⟨hnot, _⟩
    swap
    · exact absurd hsaved hnot
    have hbefore : view x s = ⟨.absent, .jobs jobs⟩ := by
      rw [view, viewFile_eq_absent.2 hm.1, viewFile_eq_jobs.2 ⟨json, hlegacy, hparse⟩]
    have hafter : view x ((io (.remove legacyJobsPath)).run env u).2 = ⟨.jobs (retained jobs), .absent⟩ := by
      rw [view, hremoved, if_pos hdone, hkept, viewFile_eq_jobs.2 ⟨json', hfile, hx hjson'⟩]
      rfl
    rw [hbefore, hafter]
    rfl

end LinuxPatchApi.Jobs.StateFiles
