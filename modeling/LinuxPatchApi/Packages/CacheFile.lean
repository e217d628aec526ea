/-
The state file of the package cache, which `src/packages/cache.rs` writes after every refresh and reads at a start: in
a history of refreshes, restarts and clock readings, a cache that counts as fresh was refreshed successfully, unless a
first attempt has failed or the clock was set back.
-/
import LinuxPatchApi.Files
import LinuxPatchApi.Lib.Transition
import LinuxPatchApi.Packages.Cache

namespace LinuxPatchApi.Packages

open Disk FileM Transition

/-! ## The state file -/

def cacheStatePath : String := "/var/lib/linux_patch_api/state/cache.json"

structure CacheStateFile where
  lastCacheUpdate : Option String
  lastUpdateSuccess : Bool
  deriving DecidableEq, Repr

/-- The texts of instants, which are chrono's, and of the state file, which are the JSON library's. -/
structure CacheTexts where
  toRfc3339 : Nat → String
  parseFromRfc3339 : String → Option Nat
  toStringPretty : CacheStateFile → Except String String
  fromStr : String → Option CacheStateFile

/-- What is read from a text that was written is what was written, if it can be read. -/
structure CacheTexts.Faithful (x : CacheTexts) : Prop where
  instant : ∀ {t t' : Nat}, x.parseFromRfc3339 (x.toRfc3339 t) = some t' → t' = t
  file : ∀ {state state' : CacheStateFile} {text : String},
    x.toStringPretty state = .ok text → x.fromStr text = some state' → state' = state

namespace PackageCacheState

section Persistence

variable (x : CacheTexts)

def loadStateFile (s : HostFiles) : Option CacheStateFile := (readString s cacheStatePath).bind x.fromStr

def withThresholdAndJitter (s : HostFiles) (staleThresholdSecs jitterSecs : UInt64) : PackageCacheState :=
  match loadStateFile x s with
  | some state => {
      lastUpdate := state.lastCacheUpdate.bind x.parseFromRfc3339, lastUpdateSuccess := state.lastUpdateSuccess
      lastUpdateError := none, staleThresholdSecs, jitterSecs }
  | none => {
      lastUpdate := none, lastUpdateSuccess := false, lastUpdateError := none, staleThresholdSecs, jitterSecs }

def stateFile (c : PackageCacheState) : CacheStateFile := ⟨c.lastUpdate.map x.toRfc3339, c.lastUpdateSuccess⟩

def ensureStateDirectory : FileM Unit :=
  match Paths.parent cacheStatePath with
  | none => pure ()
  | some parent => (io (.createDirAll parent)).ignore

def stateTempPath : String := Paths.withExtension cacheStatePath "json.tmp"

def removeStateTemp : FileM Unit := do
  match ← Action.content stateTempPath with
  | none => return ()
  | some _ => (io (.remove stateTempPath)).ignore

def writeStateTemp (json : String) : FileM Unit := do
  io (.createNew stateTempPath 0o644 (.text ""))
  io (.writeAll stateTempPath (.text json))
  io (.flush stateTempPath)

/-- Every error is only logged. -/
def persistState (c : PackageCacheState) : FileM Unit := do
  ensureStateDirectory
  match x.toStringPretty (c.stateFile x) with
  | .error _ => return ()
  | .ok json =>
    removeStateTemp
    match ← Action.attempt (writeStateTemp json) with
    | .error _ => return ()
    | .ok () =>
      match ← Action.attempt (io (.rename stateTempPath cacheStatePath)) with
      | .error _ => (io (.remove stateTempPath)).ignore
      | .ok () => return ()

end Persistence

/-! ## What a start finds -/

section Remembered

variable {x : CacheTexts} {env : HostSurroundings} {s t : HostFiles} {c : PackageCacheState} {json : String}

/-- The instant of the last update that a start takes from the file. -/
def remembered (x : CacheTexts) (s : HostFiles) : Option Nat :=
  (loadStateFile x s).bind fun state => state.lastCacheUpdate.bind x.parseFromRfc3339

theorem withThresholdAndJitter_lastUpdate (staleThresholdSecs jitterSecs : UInt64) :
    (withThresholdAndJitter x s staleThresholdSecs jitterSecs).lastUpdate = remembered x s := by
  unfold withThresholdAndJitter remembered
  cases loadStateFile x s <;> rfl

theorem remembered_congr (h : t cacheStatePath = s cacheStatePath) : remembered x t = remembered x s := by
  unfold remembered loadStateFile readString
  rw [h]

/-- A file that holds the state of a cache holds the instant of the cache's last update. -/
theorem remembered_written (hx : x.Faithful) (hjson : x.toStringPretty (c.stateFile x) = .ok json)
    (hfile : t cacheStatePath = some (.text json)) {instant : Nat} (h : remembered x t = some instant) :
    c.lastUpdate = some instant := by
  unfold remembered loadStateFile readString at h
  rw [hfile] at h
  obtain ⟨state, hstate, h⟩ := Option.bind_eq_some_iff.1 h
  obtain rfl := hx.file hjson hstate
  obtain ⟨text, htext, hparse⟩ := Option.bind_eq_some_iff.1 h
  obtain ⟨update, hupdate, rfl⟩ := Option.map_eq_some_iff.1 htext
  rw [hupdate, hx.instant hparse]

theorem stateTempPath_ne : cacheStatePath ≠ stateTempPath := by decide

theorem ensureStateDirectory_run : ensureStateDirectory.run env s = (.ok (), s) := by
  show (_, ((io (.createDirAll "/var/lib/linux_patch_api/state")).run env s).2) = _
  rw [io, Action.mapError_snd, Action.run_perform]
  cases env.outcome (.createDirAll "/var/lib/linux_patch_api/state") <;> rfl

theorem confined_remove : Action.Confined (· = stateTempPath) (io (.remove stateTempPath)) :=
  confined_io (by simp [Op.changes])

theorem removeStateTemp_run (env : HostSurroundings) (s : HostFiles) :
    ∃ t, removeStateTemp.run env s = (.ok (), t) ∧ t cacheStatePath = s cacheStatePath := by
  unfold removeStateTemp
  rw [Action.run_content_bind]
  cases s stateTempPath with
  | none => exact ⟨s, rfl, rfl⟩
  | some _ => exact ⟨_, rfl, confined_remove env s cacheStatePath stateTempPath_ne⟩

theorem confined_writeStateTemp : Action.Confined (· = stateTempPath) (writeStateTemp json) :=
  (confined_io (by simp [Op.changes])).bind fun _ =>
    (confined_io (by simp [Op.changes])).bind fun _ => confined_io (by simp [Op.changes])

/-- A temporary file that could be written holds the text. -/
theorem writeStateTemp_ok {a : Unit} (h : (writeStateTemp json).run env s = (.ok a, t)) :
    t stateTempPath = some (.text json) := by
  obtain ⟨_, u, _, h⟩ := Action.bind_ok.1 h
  obtain ⟨_, v, hwrite, hflush⟩ := Action.bind_ok.1 h
  obtain ⟨_, rfl⟩ := io_ok.1 hwrite
  obtain ⟨_, rfl⟩ := io_ok.1 hflush
  simp [Op.effect]

/-- The state file is as it was, or it holds the state. -/
theorem persistState_file (env : HostSurroundings) (s : HostFiles) (c : PackageCacheState) :
    ((c.persistState x).run env s).2 cacheStatePath = s cacheStatePath ∨
      ∃ json, x.toStringPretty (c.stateFile x) = .ok json ∧
        ((c.persistState x).run env s).2 cacheStatePath = some (.text json) := by
  unfold persistState
  rw [Action.run_bind, ensureStateDirectory_run]
  cases hjson : x.toStringPretty (c.stateFile x) with
  | error e => exact .inl rfl
  | ok json =>
    obtain ⟨t, hremove, hkept⟩ := removeStateTemp_run env s
    dsimp only
    rw [Action.run_bind, hremove]
    dsimp only
    rw [Action.run_attempt_bind]
    have hwrite : ((writeStateTemp json).run env t).2 cacheStatePath = t cacheStatePath :=
      confined_writeStateTemp env t cacheStatePath stateTempPath_ne
    rcases hrun : (writeStateTemp json).run env t with ⟨e | a, u⟩
    · rw [hrun] at hwrite
      exact .inl (hwrite.trans hkept)
    · rw [hrun] at hwrite
      have htemp : u stateTempPath = some (.text json) := writeStateTemp_ok hrun
      dsimp only
      rw [Action.run_attempt_bind, io, Action.run_mapError, Action.run_perform]
      have hrefusal : Op.refusal u (.rename stateTempPath cacheStatePath) = none := by simp [Op.refusal, htemp]
      rw [hrefusal]
      cases env.outcome (.rename stateTempPath cacheStatePath) with
      | done =>
        refine .inr ⟨json, rfl, ?_⟩
        show Op.effect u (.rename stateTempPath cacheStatePath) cacheStatePath = _
        simp [Op.effect, htemp]
      | failed text residue =>
        refine .inl ((confined_remove env u cacheStatePath stateTempPath_ne).trans (hwrite.trans hkept))

end Remembered

end PackageCacheState

/-! ## Histories -/

/-- The state of the cache in memory, and the files. -/
structure CacheWorld where
  cache : PackageCacheState
  files : HostFiles

/-- What happens to the cache: a refresh that succeeds or fails at a clock reading, a restart of the process, and the
question whether the cache is stale. -/
inductive CacheAct
  | success (now : Nat) (env : HostSurroundings)
  | failure (now : Nat) (error : String) (env : HostSurroundings)
  | restart (staleThresholdSecs jitterSecs : UInt64)
  | ask (now : Nat)

namespace CacheWorld

open PackageCacheState

/-- `update_success` and `update_failure` persist the new state. -/
def updated (x : CacheTexts) (w : CacheWorld) (cache : PackageCacheState) (env : HostSurroundings) : CacheWorld :=
  ⟨cache, ((cache.persistState x).run env w.files).2⟩

def step (x : CacheTexts) (w : CacheWorld) : CacheAct → CacheWorld
  | .success now env => w.updated x (w.cache.updateSuccess now) env
  | .failure now error env => w.updated x (w.cache.updateFailure now error) env
  | .restart staleThresholdSecs jitterSecs =>
    { w with cache := withThresholdAndJitter x w.files staleThresholdSecs jitterSecs }
  | .ask _ => w

/-- The first start, without a state file. -/
def Installed (x : CacheTexts) (w : CacheWorld) : Prop :=
  w.files cacheStatePath = none ∧ ∃ staleThresholdSecs jitterSecs,
    w.cache = withThresholdAndJitter x w.files staleThresholdSecs jitterSecs

end CacheWorld

def caching (x : CacheTexts) : Machine CacheWorld CacheAct := ⟨CacheWorld.Installed x, fun w a => some (w.step x a)⟩

/-- A refresh has succeeded at this instant. -/
def SucceededAt (tr : List (Fired CacheWorld CacheAct)) (t : Nat) : Prop := ∃ f ∈ tr, ∃ env, f.act = .success t env

/-- Whenever the cache counts as fresh, a refresh has succeeded within the threshold. -/
def FreshMeansRefreshed (tr : List (Fired CacheWorld CacheAct)) : Prop :=
  ∀ pre f post now, tr = pre ++ f :: post → f.act = .ask now → f.pre.cache.isStale now = false →
    ∃ t, SucceededAt pre t ∧ t ≤ now ∧
      now - t ≤ f.pre.cache.effectiveThresholdSecs * PackageCacheState.nanosPerSec

/-- No attempt that fails is the first one, and no question comes at a clock reading before the last update. -/
def Ordinary (f : Fired CacheWorld CacheAct) : Prop :=
  match f.act with
  | .failure _ _ _ => f.pre.cache.lastUpdate ≠ none
  | .ask now => ∀ t ∈ f.pre.cache.lastUpdate, t ≤ now
  | .success _ _ | .restart _ _ => True

section Histories

open PackageCacheState

variable {x : CacheTexts} {w w' : CacheWorld} {tr : List (Fired CacheWorld CacheAct)} {t now : Nat}

theorem SucceededAt.append (h : SucceededAt tr t) (f : Fired CacheWorld CacheAct) : SucceededAt (tr ++ [f]) t := by
  obtain ⟨g, hg, hact⟩ := h
  exact ⟨g, List.mem_append_left _ hg, hact⟩

/-- The last update, in memory and on disk, is that of a refresh that has succeeded. -/
structure Backed (x : CacheTexts) (tr : List (Fired CacheWorld CacheAct)) (w : CacheWorld) : Prop where
  memory : ∀ t, w.cache.lastUpdate = some t → SucceededAt tr t
  file : ∀ t, remembered x w.files = some t → SucceededAt tr t

theorem Backed.append (h : Backed x tr w) (f : Fired CacheWorld CacheAct) : Backed x (tr ++ [f]) w :=
  ⟨fun t ht => (h.memory t ht).append f, fun t ht => (h.file t ht).append f⟩

/-- Persisting a state that is backed keeps the file backed. -/
theorem Backed.updated (hx : x.Faithful) (h : Backed x tr w) {cache : PackageCacheState} {env : HostSurroundings}
    (hcache : ∀ t, cache.lastUpdate = some t → SucceededAt tr t) : Backed x tr (w.updated x cache env) := by
  refine ⟨hcache, fun t ht => ?_⟩
  rcases persistState_file (x := x) env w.files cache with hkept | ⟨json, hjson, hfile⟩
  · exact h.file t ((remembered_congr hkept).symm.trans ht)
  · exact hcache t (remembered_written hx hjson hfile ht)

theorem backed_step (hx : x.Faithful) {a : CacheAct} (h : Backed x tr w) (hordinary : Ordinary ⟨w, a, w.step x a⟩) :
    Backed x (tr ++ [⟨w, a, w.step x a⟩]) (w.step x a) := by
  have hkept := h.append ⟨w, a, w.step x a⟩
  cases a with
  | success now env =>
    refine hkept.updated hx fun t ht => ?_
    cases ht
    exact ⟨_, List.mem_append_right _ (List.mem_singleton_self _), env, rfl⟩
  | failure now error env =>
    refine hkept.updated hx fun t ht => ?_
    -- there is an earlier update, whose instant is kept
    obtain ⟨t', ht'⟩ := Option.ne_none_iff_exists'.1 hordinary
    rw [updateFailure, ht'] at ht
    cases ht
    exact hkept.memory _ ht'
  | restart staleThresholdSecs jitterSecs =>
    refine ⟨fun t ht => ?_, hkept.file⟩
    rw [CacheWorld.step, withThresholdAndJitter_lastUpdate] at ht
    exact hkept.file t ht
  | ask now => exact hkept

theorem backed_run (hx : x.Faithful) (hinit : w.Installed x) (hrun : Run (caching x) w tr w')
    (hordinary : ∀ f ∈ tr, Ordinary f) : Backed x tr w' := by
  induction hrun with
  | nil =>
    obtain ⟨hnone, staleThresholdSecs, jitterSecs, hcache⟩ := hinit
    have hremembered : remembered x w.files = none := by
      unfold remembered loadStateFile readString
      rw [hnone]
      rfl
    constructor
    · intro t ht
      rw [hcache, withThresholdAndJitter_lastUpdate, hremembered] at ht
      cases ht
    · intro t ht
      rw [hremembered] at ht
      cases ht
  | snoc _ hs ih =>
    cases hs
    exact backed_step hx (ih fun f hf => hordinary f (List.mem_append_left _ hf))
      (hordinary _ (List.mem_append_right _ (List.mem_singleton_self _)))

/-- In a history in which no first attempt fails and the clock is never before the last update, a fresh cache was
refreshed successfully within the threshold. -/
theorem fresh_means_refreshed (hx : x.Faithful) (hinit : w.Installed x) (hrun : Run (caching x) w tr w')
    (hordinary : ∀ f ∈ tr, Ordinary f) : FreshMeansRefreshed tr := by
  rintro pre f post now rfl hact hfresh
  obtain ⟨hpre, _⟩ := hrun.split rfl
  have hbacked := backed_run hx hinit hpre fun g hg => hordinary g (List.mem_append_left _ hg)
  unfold isStale at hfresh
  cases hlast : f.pre.cache.lastUpdate with
  | none =>
    rw [hlast] at hfresh
    cases hfresh
  | some t =>
    rw [hlast] at hfresh
    have hask := hordinary f (List.mem_append_right _ (List.mem_cons_self ..))
    rw [Ordinary, hact] at hask
    refine ⟨t, hbacked.memory t hlast, hask t hlast, ?_⟩
    have hage := of_decide_eq_false hfresh
    omega

end Histories

/-- The start of a year, as an instant. -/
def newYear : Nat := 1704067200 * PackageCacheState.nanosPerSec

/-- The texts of this instant and of the state after its refresh. -/
def newYearTexts : CacheTexts where
  toRfc3339 t := if t = newYear then "2024-01-01T00:00:00+00:00" else ""
  parseFromRfc3339 text := if text = "2024-01-01T00:00:00+00:00" then some newYear else none
  toStringPretty state :=
    if state = ⟨some "2024-01-01T00:00:00+00:00", true⟩ then
      .ok "\x7b\n  \"last_cache_update\": \"2024-01-01T00:00:00+00:00\",\n  \"last_update_success\": true\n\x7d"
    else .error ""
  fromStr text :=
    if text = "\x7b\n  \"last_cache_update\": \"2024-01-01T00:00:00+00:00\",\n  \"last_update_success\": true\n\x7d" then
      some ⟨some "2024-01-01T00:00:00+00:00", true⟩
    else none

theorem newYearTexts_faithful : newYearTexts.Faithful := by
  constructor
  · intro t t' h
    by_cases ht : t = newYear
    · subst ht
      exact (Option.some.inj h).symm
    · simp [newYearTexts, ht] at h
  · intro state state' text htext h
    simp only [newYearTexts] at htext h
    split at htext
    · next hstate =>
      cases htext
      rw [if_pos rfl] at h
      rw [hstate, Option.some.inj h]
    · cases htext

/-- An agent before its first refresh. -/
def newAgent : CacheWorld where
  cache := {
    lastUpdate := none, lastUpdateSuccess := false, lastUpdateError := none, staleThresholdSecs := 3600
    jitterSecs := 0 }
  files := fun _ => none

theorem newAgent_installed (x : CacheTexts) : newAgent.Installed x := ⟨rfl, 3600, 0, rfl⟩

/-- A refresh, a restart, and the question a minute later. -/
def restartedHistory : List CacheAct :=
  [.success newYear .sound, .restart 3600 42, .ask (newYear + 60 * PackageCacheState.nanosPerSec)]

theorem fresh_after_restart :
    FreshMeansRefreshed ((trace (caching newYearTexts) newAgent restartedHistory).getD []) := by
  have hrun := run_trace (caching newYearTexts) newAgent restartedHistory rfl
  refine fresh_means_refreshed newYearTexts_faithful (newAgent_installed _) hrun fun f hf => ?_
  rcases List.mem_cons.1 hf with rfl | hf
  · trivial
  rcases List.mem_cons.1 hf with rfl | hf
  · trivial
  rw [List.mem_singleton.1 hf]
  show ∀ t ∈ some newYear, t ≤ newYear + 60 * PackageCacheState.nanosPerSec
  decide

/-- The first refresh of an agent fails, and the cache counts as fresh. -/
theorem fresh_without_refresh : ∃ (x : CacheTexts) (w w' : CacheWorld) (tr : List (Fired CacheWorld CacheAct)),
    x.Faithful ∧ w.Installed x ∧ Run (caching x) w tr w' ∧ (∀ t, ¬ SucceededAt tr t) ∧
      ¬ FreshMeansRefreshed tr := by
  have hrun := run_trace (caching newYearTexts) newAgent [.failure newYear "unavailable" .sound, .ask newYear] rfl
  have hnone : ∀ t, ¬ SucceededAt
      ((trace (caching newYearTexts) newAgent [.failure newYear "unavailable" .sound, .ask newYear]).getD []) t := by
    rintro t ⟨f, hf, env, hact⟩
    rcases List.mem_cons.1 hf with rfl | hf
    · cases hact
    · rw [List.mem_singleton.1 hf] at hact
      cases hact
  refine ⟨newYearTexts, newAgent, _, _, newYearTexts_faithful, newAgent_installed _, hrun, hnone, fun h => ?_⟩
  obtain ⟨t, ⟨f, hf, env, hact⟩, _⟩ := h [_] _ [] newYear rfl rfl (by decide)
  exact hnone t ⟨f, List.mem_append_left [_] hf, env, hact⟩

end LinuxPatchApi.Packages
