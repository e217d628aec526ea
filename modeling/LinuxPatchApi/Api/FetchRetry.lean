/-
The retry of a patch transaction: what the transaction does after a failed `apply_patches`, and for which errors it
retries exactly when the error mentions a fetch signature.
-/
import LinuxPatchApi.Packages.ErrorOrigins
import LinuxPatchApi.Api.Requests

namespace LinuxPatchApi.Api

open Text Interaction LinuxPatchApi.Packages

/-! ## Fetch errors -/

def fetchSignatures : List String := ["404", "not found", "failed to fetch", "unable to fetch"]

/-- A fetch signature is in the text, in any letter case. -/
def showsFetch (s : String) : Bool := fetchSignatures.any (contains (toLowercase s))

/-- A fetch signature is in a text of the error's chain, or in the captured error output. -/
def mentionsFetch (e : AnyhowError) : Bool := (e.chain ++ (extractStderr e).toList).any showsFetch

theorem isFetchError_eq (e : AnyhowError) : isFetchError e = showsFetch e.display := by
  simp [isFetchError, showsFetch, fetchSignatures, Bool.or_assoc]

theorem AnyhowError.display_mem (e : AnyhowError) : e.display ∈ e.chain := by
  unfold AnyhowError.display AnyhowError.chain
  cases e.contexts <;> simp

/-- An error that is taken for a fetch error mentions a signature. -/
theorem mentionsFetch_of_display {e : AnyhowError} (h : showsFetch e.display = true) : mentionsFetch e = true :=
  List.any_eq_true.2 ⟨e.display, List.mem_append_left _ (AnyhowError.display_mem e), h⟩

/-- Contexts that show no signature change neither what an error mentions nor, unless there are none, what it shows. -/
theorem mentionsFetch_within {own : List String} (h : ∀ c ∈ own, showsFetch c = false) (e : AnyhowError) :
    mentionsFetch (e.within own) = mentionsFetch e := by
  have hown : own.any showsFetch = false := by simpa using h
  have hstderr : extractStderr (e.within own) = extractStderr e := rfl
  unfold mentionsFetch
  rw [hstderr]
  simp only [AnyhowError.chain, AnyhowError.within, List.append_assoc, List.any_append, hown, Bool.false_or]

theorem showsFetch_within {own : List String} (h : ∀ c ∈ own, showsFetch c = false) (e : AnyhowError) :
    showsFetch (e.within own).display = true ↔ own = [] ∧ showsFetch e.display = true := by
  cases own with
  | nil => simp [AnyhowError.within]
  | cons c own =>
    have hdisplay : (e.within (c :: own)).display = c := rfl
    rw [hdisplay, h c (List.mem_cons_self ..)]
    simp

/-- The search on characters, which evaluates faster. -/
theorem showsFetch_eq (s : String) :
    showsFetch s = ([['4', '0', '4'], ['n', 'o', 't', ' ', 'f', 'o', 'u', 'n', 'd'],
      ['f', 'a', 'i', 'l', 'e', 'd', ' ', 't', 'o', ' ', 'f', 'e', 't', 'c', 'h'],
      ['u', 'n', 'a', 'b', 'l', 'e', ' ', 't', 'o', ' ', 'f', 'e', 't', 'c', 'h']].any fun needle =>
        hasInfix needle (s.toList.flatMap lowerChar)) := by
  unfold showsFetch fetchSignatures
  simp only [List.any_cons, List.any_nil, contains, toLowercase, String.toList_ofList]
  rfl

theorem patchContexts_silent (kind : BackendKind) : ∀ c ∈ kind.patchContexts, showsFetch c = false := by
  cases kind with
  | apt =>
    simp only [showsFetch_eq]
    decide +kernel
  | _ => simp [BackendKind.patchContexts]

/-! ## What follows a failed application -/

section Retry

variable {kind : BackendKind} {packages : Option (List String)} {t : List (Event Response)}

/-- The cache is refreshed once more and, if that succeeds, the patches are applied once more. -/
inductive Retried (kind : BackendKind) (packages : Option (List String)) : List (Event Response) → Prop
  | refreshFailed {t : List (Event Response)} (e : AnyhowError)
      (hrefresh : Runs kind.backend.refreshPackageCache.run t (.error e)) : Retried kind packages t
  | reapplied {t t' : List (Event Response)} (r : Except AnyhowError Unit)
      (hrefresh : Runs kind.backend.refreshPackageCache.run t (.ok ()))
      (happly : Runs (kind.backend.applyPatches packages).run t' r) : Retried kind packages (t ++ t')

/-- What follows an application that failed with the error: a retry exactly when the error mentions a signature, and
otherwise nothing. -/
structure RetryExact (kind : BackendKind) (packages : Option (List String)) (e : AnyhowError)
    (t : List (Event Response)) : Prop where
  fires : mentionsFetch e = true → Retried kind packages t
  silent : mentionsFetch e = false → t = []

theorem runs_withContext {c : String} {op : Op Unit} {r : Except AnyhowError Unit}
    (h : Runs (withContext c op).run t r) : ∃ s, Runs op.run t s ∧ (r = .ok () ↔ s = .ok ()) := by
  obtain ⟨t₁, t₂, s, rfl, h₁, h₂⟩ := runs_attempt_bind.1 h
  cases s <;> obtain ⟨rfl, rfl⟩ := runs_pure.1 h₂ <;> refine ⟨_, by simpa using h₁, by simp⟩

theorem retried_patchRetry {r : Except AnyhowError Unit} (h : Runs (patchRetry kind.backend packages).run t r) :
    Retried kind packages t := by
  rcases runs_bindE.1 h with ⟨e, h₁, _⟩ | ⟨t₁, t₂, _, rfl, h₁, h₂⟩
  · obtain ⟨s, hs, hok⟩ := runs_withContext h₁
    cases s with
    | ok => exact absurd (hok.2 rfl) (by simp)
    | error e => exact .refreshFailed e hs
  · obtain ⟨s, hs, hok⟩ := runs_withContext h₁
    obtain ⟨s', hs', _⟩ := runs_withContext h₂
    rw [hok.1 rfl] at hs
    exact .reapplied s' hs hs'

/-- A refresh calls something: it records its outcome. -/
theorem refresh_ne_nil {r : Except AnyhowError Unit} (h : Runs kind.backend.refreshPackageCache.run t r) : t ≠ [] := by
  have hask {e : Effect} {f : Response e → Op Unit} {t : List (Event Response)} {r : Except AnyhowError Unit}
      (h : Runs (do let s ← ask e; f s : Op Unit).run t r) : t ≠ [] := by
    rcases runs_bindE.1 h with ⟨_, h₁, _⟩ | ⟨t₁, t₂, _, rfl, h₁, _⟩
    · obtain ⟨_, _, rfl⟩ := runs_ask.1 h₁
      exact List.cons_ne_nil _ _
    · obtain ⟨_, _, rfl⟩ := runs_ask.1 h₁
      exact List.cons_ne_nil _ _
  have hrecord (label : String) (refresh : Op String) {t : List (Event Response)} {r : Except AnyhowError Unit}
      (h : Runs (recordRefresh label refresh).run t r) : t ≠ [] := by
    obtain ⟨t₁, t₂, s, rfl, _, h₂⟩ := runs_attempt_bind.1 h
    cases s <;> exact List.append_ne_nil_of_right_ne_nil t₁ (hask h₂)
  cases kind <;> exact hrecord _ _ h

theorem Retried.ne_nil (h : Retried kind packages t) : t ≠ [] := by
  cases h with
  | refreshFailed e hrefresh => exact refresh_ne_nil hrefresh
  | reapplied r hrefresh happly => exact fun h => refresh_ne_nil hrefresh (List.append_eq_nil_iff.1 h).1

/-- The stages of a transaction. -/
theorem runs_patchTransaction {b : PackageManagerBackend} {r : Except AnyhowError Unit}
    (h : Runs (patchTransaction b packages).run t r) :
    (∃ e, Runs b.refreshPackageCache.run t (.error e)) ∨ ∃ t₁ t₂ t₃ s, t = t₁ ++ (t₂ ++ t₃) ∧
      Runs b.refreshPackageCache.run t₁ (.ok ()) ∧ Runs (b.applyPatches packages).run t₂ s ∧
      ∀ e, s = .error e → Runs (if isFetchError e then patchRetry b packages else throw e : Op Unit).run t₃ r := by
  rcases runs_bindE.1 h with ⟨e, h₁, _⟩ | ⟨t₁, t', _, rfl, h₁, h₂⟩
  · obtain ⟨s, hs, hok⟩ := runs_withContext h₁
    cases s with
    | ok => exact absurd (hok.2 rfl) (by simp)
    | error e => exact .inl ⟨e, hs⟩
  obtain ⟨s, hs, hok⟩ := runs_withContext h₁
  rw [hok.1 rfl] at hs
  obtain ⟨t₂, t₃, s, rfl, h₃, h₄⟩ := runs_attempt_bind.1 h₂
  refine .inr ⟨t₁, t₂, t₃, s, rfl, hs, h₃, ?_⟩
  rintro e rfl
  exact h₄

/-- The transaction goes on, after an application that failed, by the outermost text of the error. -/
theorem runs_rest {b : PackageManagerBackend} {t₁ t₂ t₃ : List (Event Response)} {r : Except AnyhowError Unit}
    {e : AnyhowError} (hrun : Runs (patchTransaction b packages).run (t₁ ++ (t₂ ++ t₃)) r)
    (hrefresh : Runs b.refreshPackageCache.run t₁ (.ok ()))
    (happly : Runs (b.applyPatches packages).run t₂ (.error e)) :
    Runs (if isFetchError e then patchRetry b packages else throw e : Op Unit).run t₃ r := by
  rcases runs_patchTransaction hrun with ⟨e', hfailed⟩ | ⟨s₁, s₂, s₃, s, heq, h₁, h₂, h₃⟩
  · obtain ⟨_, hok, _⟩ := hrefresh.unique hfailed (List.append_nil (t₁ ++ (t₂ ++ t₃))).symm
    cases hok
  obtain ⟨_, _, heq⟩ := hrefresh.unique h₁ heq
  obtain ⟨_, hs, rfl⟩ := happly.unique h₂ heq
  exact h₃ e hs.symm

theorem runs_afterFailure {t₁ t₂ t₃ : List (Event Response)} {r : Except AnyhowError Unit} {e : AnyhowError}
    (hrun : Runs (patchTransaction kind.backend packages).run (t₁ ++ t₂ ++ t₃) r)
    (hrefresh : Runs kind.backend.refreshPackageCache.run t₁ (.ok ()))
    (happly : Runs (kind.backend.applyPatches packages).run t₂ (.error e)) :
    if showsFetch e.display = true then Retried kind packages t₃ else t₃ = [] := by
  rw [List.append_assoc] at hrun
  have hrest := runs_rest hrun hrefresh happly
  rw [isFetchError_eq] at hrest
  split
  next hshows =>
    rw [if_pos hshows] at hrest
    exact retried_patchRetry hrest
  next hshows =>
    rw [if_neg hshows] at hrest
    exact (runs_pure.1 hrest).1

theorem retryExact_iff_display {t₁ t₂ t₃ : List (Event Response)} {r : Except AnyhowError Unit} {e : AnyhowError}
    (hrun : Runs (patchTransaction kind.backend packages).run (t₁ ++ t₂ ++ t₃) r)
    (hrefresh : Runs kind.backend.refreshPackageCache.run t₁ (.ok ()))
    (happly : Runs (kind.backend.applyPatches packages).run t₂ (.error e)) :
    RetryExact kind packages e t₃ ↔ mentionsFetch e = false ∨ showsFetch e.display = true := by
  have hafter := runs_afterFailure hrun hrefresh happly
  constructor
  · intro hexact
    cases hmentions : mentionsFetch e with
    | false => exact .inl rfl
    | true =>
      by_contra hshows
      rw [if_neg (fun h => hshows (.inr h))] at hafter
      exact (hexact.fires hmentions).ne_nil hafter
  · rintro (hmentions | hshows)
    · have hshows : showsFetch e.display ≠ true := fun h => by simp [mentionsFetch_of_display h] at hmentions
      rw [if_neg hshows] at hafter
      exact ⟨fun h => by simp [hmentions] at h, fun _ => hafter⟩
    · rw [if_pos hshows] at hafter
      exact ⟨fun _ => hafter, fun h => by simp [mentionsFetch_of_display hshows] at h⟩

/-- The error of a failed application is the runner's answer to one of its commands, or on APT perhaps a text of the
agent, inside of the backend's contexts; and what follows is exact if and only if that answer mentions no fetch
signature, or shows one in its outermost text and is inside of no context. -/
theorem retry_exact_iff {t₁ t₂ t₃ : List (Event Response)} {r : Except AnyhowError Unit} {e : AnyhowError}
    (hrun : Runs (patchTransaction kind.backend packages).run (t₁ ++ t₂ ++ t₃) r)
    (hrefresh : Runs kind.backend.refreshPackageCache.run t₁ (.ok ()))
    (happly : Runs (kind.backend.applyPatches packages).run t₂ (.error e)) (hkept : ∀ event ∈ t₂, EventKept event) :
    ∃ own cause, (∀ c ∈ own, c ∈ kind.patchContexts) ∧ Origin (fun _ => kind = .apt) t₂ own cause e ∧
      (RetryExact kind packages e t₃ ↔ mentionsFetch cause = false ∨ (own = [] ∧ showsFetch cause.display = true)) := by
  obtain ⟨own, cause, hown, horigin⟩ := explained_applyPatches kind packages t₂ e happly hkept
  have hsilent : ∀ c ∈ own, showsFetch c = false := fun c hc => patchContexts_silent kind c (hown c hc)
  refine ⟨own, cause, hown, horigin, ?_⟩
  rw [retryExact_iff_display hrun hrefresh happly, horigin.within, mentionsFetch_within hsilent,
    showsFetch_within hsilent]

end Retry

/-! ## Hosts on which the application fails -/

/-- A transaction that ends with the error of the application. -/
theorem runs_unretried {b : PackageManagerBackend} {packages : Option (List String)} {t₁ t₂ : List (Event Response)}
    {e : AnyhowError} (hrefresh : Runs b.refreshPackageCache.run t₁ (.ok ()))
    (happly : Runs (b.applyPatches packages).run t₂ (.error e)) (hshows : showsFetch e.display = false) :
    Runs (patchTransaction b packages).run (t₁ ++ t₂ ++ []) (.error e) := by
  have hcontext : Runs (withContext "initial cache refresh failed" b.refreshPackageCache).run t₁ (.ok ()) :=
    runs_attempt_bind.2 ⟨t₁, [], _, by simp, hrefresh, .pure _⟩
  rw [List.append_assoc]
  refine runs_bindE.2 (.inr ⟨t₁, t₂ ++ [], (), rfl, hcontext, runs_attempt_bind.2 ⟨t₂, [], _, rfl, happly, ?_⟩⟩)
  dsimp only
  rw [isFetchError_eq, hshows, if_neg Bool.false_ne_true]
  exact .pure _

/-- The reply of a host on which only the command with the first argument fails. -/
def failingReply (first stderr : String) (program : String) (args : List String) : Except AnyhowError CommandOutput :=
  if args.head? = some first then
    .error (.ofCommand {
      program, args, exitCode := some 100, stdout := "", stderr, spawnError := none, timedOut := false })
  else .ok ⟨some 0, "", "", false⟩

theorem failingReply_contract (first stderr : String) :
    RunnerContract (Host.empty.replying (failingReply first stderr)) := by
  intro program args timeout
  show KeepsContract (failingReply first stderr program (args.map Arg.text))
  unfold failingReply
  split <;> rfl

/-- On this host `yum update` fails without a word about fetching. -/
abbrev yumHost : (e : Effect) → Response e := Host.empty.replying (failingReply "update" "Killed")

/-- The error of the application on it. -/
abbrev yumFailure : AnyhowError := .ofCommand {
  program := "yum", args := ["update", "-y"], exitCode := some 100, stdout := "", stderr := "Killed"
  spawnError := none, timedOut := false }

/-- A failure that is not about fetching is handed on: nothing follows. -/
theorem yum_retry_exact :
    ∃ own cause, (∀ c ∈ own, c ∈ BackendKind.yum.patchContexts) ∧
      Origin (fun _ => BackendKind.yum = .apt) (exec yumHost (YumBackend.applyPatches none).run).1 own cause
        yumFailure ∧
      (RetryExact .yum none yumFailure [] ↔
        mentionsFetch cause = false ∨ (own = [] ∧ showsFetch cause.display = true)) := by
  have hrefresh : Runs BackendKind.yum.backend.refreshPackageCache.run _ (.ok ()) := runs_exec yumHost _
  have happly : Runs (BackendKind.yum.backend.applyPatches none).run _ (.error yumFailure) := runs_exec yumHost _
  exact retry_exact_iff (runs_unretried hrefresh happly (by decide)) hrefresh happly
    (failingReply_contract _ _).eventKept

/-- On this host `apt-get install` fails to fetch. -/
abbrev aptHost : (e : Effect) → Response e := Host.empty.replying (failingReply "install" "E: Failed to fetch curl")

/-- The error of the application on it. -/
abbrev aptFailure : AnyhowError := (AnyhowError.ofCommand {
  program := "apt-get", args := ["install", "-y", "--", "curl"], exitCode := some 100, stdout := ""
  stderr := "E: Failed to fetch curl", spawnError := none, timedOut := false }).context "Failed to execute apt command"

/-- `apt-get` fails to fetch, and the transaction ends without a second refresh. -/
theorem apt_fetch_error_missed : ∃ t₁ t₂ r,
    Runs (patchTransaction BackendKind.apt.backend (some ["curl"])).run (t₁ ++ t₂ ++ []) r ∧
      Runs BackendKind.apt.backend.refreshPackageCache.run t₁ (.ok ()) ∧
      Runs (BackendKind.apt.backend.applyPatches (some ["curl"])).run t₂ (.error aptFailure) ∧
      (∀ event ∈ t₂, EventKept event) ∧ mentionsFetch aptFailure = true ∧
      ¬ RetryExact .apt (some ["curl"]) aptFailure [] := by
  have hrefresh : Runs BackendKind.apt.backend.refreshPackageCache.run _ (.ok ()) := runs_exec aptHost _
  have happly : Runs (BackendKind.apt.backend.applyPatches (some ["curl"])).run _ (.error aptFailure) :=
    runs_exec aptHost _
  have hmentions : mentionsFetch aptFailure = true := by decide +kernel
  refine ⟨_, _, _, runs_unretried hrefresh happly (by decide), hrefresh, happly, (failingReply_contract _ _).eventKept,
    hmentions, fun h => ?_⟩
  exact (h.fires hmentions).ne_nil rfl

end LinuxPatchApi.Api
