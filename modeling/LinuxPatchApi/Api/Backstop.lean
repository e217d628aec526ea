/-
Whether the commands of a mutation closure fit into the backstop of its watchdog: upper bounds on the
sum of their deadlines over all traces, and traces that attain more.
-/
import LinuxPatchApi.Api.Requests
import LinuxPatchApi.Packages.Locks

namespace LinuxPatchApi.Api

open Text Interaction LinuxPatchApi.Packages LinuxPatchApi.Jobs

/-- What a call may take: a command takes at most its deadline, if it has one. -/
def deadline : Effect → Option Nat
  | .run _ _ timeout => timeout
  | _ => some 0

/-- On every trace the deadlines of the commands sum to at most `n`. -/
def Within {α : Type} (n : Nat) (op : Op α) : Prop := Bound deadline n op.run

/-- On some trace that returns `r` they sum to `n`. -/
def Takes {α : Type} (n : Nat) (op : Op α) (r : Except AnyhowError α) : Prop := Attains deadline n op.run r

/-! ## Upper bounds -/

section Upper

variable {α β : Type} {n m : Nat}

theorem Within.pure {a : α} : Within n (pure a : Op α) := Bound.pureE a n

theorem Within.throw {e : AnyhowError} : Within n (throw e : Op α) := Bound.throwE e n

theorem Within.mono {op : Op α} (h : Within n op) (hnm : n ≤ m) : Within m op := Bound.mono h hnm

theorem Within.bind {op : Op α} {f : α → Op β} (h : Within n op) (hf : ∀ a, Within m (f a)) :
    Within (n + m) (op >>= f) := Bound.bindE h hf

theorem Within.attempt {op : Op α} (h : Within n op) : Within n (Fallible.attempt op) := Bound.attempt h

/-- What follows costs nothing, on success and on failure. -/
theorem Within.handle {op : Op α} {f : Except AnyhowError α → Op β} (h : Within n op)
    (hok : ∀ a, Within 0 (f (.ok a))) (herr : ∀ e, Within 0 (f (.error e))) :
    Within n (Fallible.attempt op >>= f) := by
  refine h.attempt.bind (m := 0) fun r => ?_
  cases r with
  | ok a => exact hok a
  | error e => exact herr e

theorem total_of_noRun : ∀ {t : List (Event Response)}, (∀ e ∈ t, deadline e.1 = some 0) → total deadline t = some 0
  | [], _ => rfl
  | e :: t, h => by
    have ht : total deadline t = some 0 := total_of_noRun fun e' he => h e' (by simp [he])
    simp [total, h e (by simp), ht]

/-- An operation that runs no command takes no time. -/
theorem Within.of_guarded {op : Op α} (h : Guarded (fun _ => False) op) : Within 0 op := by
  intro t r ht
  refine ⟨0, total_of_noRun fun e he => ?_, Nat.le_refl 0⟩
  obtain ⟨pre, post, rfl⟩ := List.append_of_mem he
  have hguard := h.at_event ht rfl
  obtain ⟨e, answer⟩ := e
  cases e with
  | run => exact hguard.elim
  | _ => rfl

theorem within_ask {e : Effect} (h : deadline e = some 0) : Within 0 (ask e) := Bound.performE h

theorem within_runWithTimeout (program : String) (args : List Arg) :
    Within n (runWithTimeout program args (some n)) := Bound.perform rfl

theorem within_runCommandTimed (program : String) (args : List Arg) : Within n (runCommandTimed program args n) :=
  (within_runWithTimeout program args).bind (m := 0) fun _ => .pure

theorem within_acceptableExit (program : String) (args : List Arg) (acceptable : List Int) :
    Within n (runCommandWithAcceptableExit program args acceptable (some n)) :=
  (within_runWithTimeout program args).attempt.bind (m := 0) fun _ => Bound.pure _ 0

theorem within_recordRefresh {label : String} {refresh : Op String} (h : Within n refresh) :
    Within n (recordRefresh label refresh) :=
  h.handle (fun _ => (within_ask rfl).bind (m := 0) fun _ => .pure) fun _ =>
    (within_ask rfl).bind (m := 0) fun _ => .throw

theorem within_withContext {text : String} {op : Op Unit} (h : Within n op) : Within n (withContext text op) :=
  h.handle (fun _ => .pure) fun _ => .throw

theorem timeoutFor_le (refreshing : List String) (args : List Arg) : timeoutFor refreshing args ≤ 1800 := by
  unfold timeoutFor
  split <;> decide

/-! apt: every command is bracketed by clean-ups and audits. -/

theorem within_ensureDpkgClean : Within 60 AptBackend.ensureDpkgClean := by
  refine (Within.of_guarded guarded_cleanupStaleAptLocks).bind (m := 60) fun _ => ?_
  exact (within_runCommandTimed _ _).handle (fun _ => .pure) fun _ => .throw

theorem within_recheckDpkg : Within 60 AptBackend.recheckDpkg := by
  refine (within_runCommandTimed _ _).bind (m := 0) fun recheck => ?_
  split
  · exact .pure
  · exact .throw

theorem within_verifyDpkgClean : Within 180 AptBackend.verifyDpkgClean := by
  refine (within_runCommandTimed _ _).bind (m := 120) fun auditOutput => ?_
  split
  · exact .pure
  · exact within_ensureDpkgClean.bind fun _ => within_recheckDpkg

theorem within_afterAptGet (args : List Arg) (result : Except AnyhowError CommandOutput) :
    Within 180 (AptBackend.afterAptGet args result) := by
  have hcleanup (e : AnyhowError) : Within 180 (do
      let _ ← Fallible.attempt AptBackend.ensureDpkgClean
      throw e : Op String) := within_ensureDpkgClean.attempt.bind (m := 120) fun _ => .throw
  cases result with
  | error e => exact hcleanup _
  | ok output =>
    show Within 180 (ite _ _ _)
    split
    · exact within_verifyDpkgClean.bind (m := 0) fun _ => .pure
    · exact hcleanup _

theorem within_runApt {args : List Arg} (h : timeoutFor ["update"] args ≤ n) :
    Within (n + 240) (AptBackend.runApt args) := by
  refine ((within_ask rfl).bind (m := n + 240) fun locked => ?_).mono (by omega)
  split
  · refine (within_ensureDpkgClean.bind (m := n + 180) fun _ => ?_).mono (by omega)
    exact ((within_runWithTimeout _ _).mono h).attempt.bind fun r => within_afterAptGet args r
  · exact .throw

/-! pacman: every command comes after a wait, which runs none. -/

theorem within_runPacman {args : List Arg} (h : timeoutFor ["-Sy", "-Syu"] args ≤ n) :
    Within n (PacmanBackend.runPacman args) := by
  refine ((Within.of_guarded guarded_waitWhileLocked).bind (m := n) fun _ => ?_).mono (by omega)
  refine ((within_acceptableExit _ _ _).mono h).handle (fun _ => .pure) fun e => ?_
  refine Within.bind (n := 0) (m := 0) ?_ fun _ => .throw
  unfold PacmanBackend.removeLockAfterTimeout
  split
  · exact (within_ask rfl).bind (m := 0) fun _ => .pure
  · exact .pure

/-! The operations of the backends. -/

/-- One command of a backend: at most 1800 s, and 240 more around it on apt. -/
theorem within_packageCommand (program : String) (refreshing : List String) (args : List Arg) :
    Within 2040 (discard (runCommandTimed program args (timeoutFor refreshing args))) := by
  have hle : timeoutFor refreshing args ≤ 2040 := (timeoutFor_le refreshing args).trans (by omega)
  exact ((within_runCommandTimed program args).mono hle).bind (m := 0) fun _ => .pure

theorem within_aptCommand (args : List Arg) : Within 2040 (discard (AptBackend.runApt args)) :=
  (within_runApt (timeoutFor_le _ args)).bind (m := 0) fun _ => .pure

theorem within_pacmanCommand (args : List Arg) : Within 2040 (discard (PacmanBackend.runPacman args)) := by
  have hle : timeoutFor ["-Sy", "-Syu"] args ≤ 2040 := (timeoutFor_le _ args).trans (by omega)
  exact (within_runPacman hle).bind (m := 0) fun _ => .pure

theorem within_installPackages (kind : BackendKind) (packages : List PackageSpec) (options : InstallOptions) :
    Within 2040 (kind.backend.installPackages packages options) := by
  cases kind with
  | apt => exact within_aptCommand _
  | dnf | yum | apk => exact within_packageCommand _ _ _
  | pacman => exact within_pacmanCommand _

theorem within_updatePackage (kind : BackendKind) (name : String) : Within 2040 (kind.backend.updatePackage name) := by
  cases kind with
  | apt => exact within_aptCommand _
  | dnf | yum | apk => exact within_packageCommand _ _ _
  | pacman => exact within_pacmanCommand _

theorem within_removePackage (kind : BackendKind) (name : String) :
    Within 2040 (kind.backend.removePackage name false) := by
  cases kind with
  | apt => exact within_aptCommand _
  | dnf | yum | apk => exact within_packageCommand _ _ _
  | pacman => exact within_pacmanCommand _

/-- Without apt's clean-ups a refresh is one command. -/
theorem within_refreshPackageCache {kind : BackendKind} (h : kind ≠ .apt) :
    Within 300 kind.backend.refreshPackageCache := by
  cases kind with
  | apt => exact absurd rfl h
  | dnf => exact within_recordRefresh (within_acceptableExit _ _ _)
  | yum | apk => exact within_recordRefresh (within_runCommandTimed _ _)
  | pacman => exact within_recordRefresh (within_runPacman (show timeoutFor _ ["-Sy"] ≤ 300 by decide))

theorem within_pacman_upgradeAll : Within 300 (PacmanBackend.backend.applyPatches none) :=
  (within_runPacman (show timeoutFor _ ["-Syu", "--noconfirm"] ≤ 300 by decide)).bind (m := 0) fun _ => .pure

theorem within_patchTransaction {b : PackageManagerBackend} {packages : Option (List String)}
    (hr : Within n b.refreshPackageCache) (ha : Within m (b.applyPatches packages)) :
    Within ((n + m) + (n + m)) (patchTransaction b packages) := by
  refine ((within_withContext hr).bind (m := m + (n + m)) fun _ => ha.attempt.bind (m := n + m) fun r => ?_).mono
    (by omega)
  cases r with
  | ok _ => exact .pure
  | error e =>
    show Within (n + m) (ite _ _ _)
    split
    · exact (within_withContext hr).bind fun _ => within_withContext ha
    · exact .throw

end Upper

/-! ## Traces that attain more -/

section Lower

variable {α β : Type} {n m : Nat}

theorem Takes.pure {a : α} : Takes 0 (pure a : Op α) (.ok a) := Attains.pureE a

theorem Takes.throw {e : AnyhowError} : Takes 0 (throw e : Op α) (.error e) := Attains.throwE e

theorem Takes.of_eq {op : Op α} {r : Except AnyhowError α} (h : Takes n op r) (hnm : n = m) : Takes m op r := hnm ▸ h

theorem Takes.bind {op : Op α} {f : α → Op β} {a : α} {r : Except AnyhowError β} (h : Takes n op (.ok a))
    (hf : Takes m (f a) r) : Takes (n + m) (op >>= f) r := Attains.bindE h hf

theorem Takes.fail {op : Op α} {f : α → Op β} {e : AnyhowError} (h : Takes n op (.error e)) :
    Takes n (op >>= f) (.error e) := Attains.failE h

theorem Takes.attempt {op : Op α} {r : Except AnyhowError α} (h : Takes n op r) :
    Takes n (Fallible.attempt op) (.ok r) := Attains.attempt h

theorem takes_ask (e : Effect) (r : Response e) (h : deadline e = some 0) : Takes 0 (ask e) (.ok r) :=
  Attains.performE h r

/-- A command may take its whole deadline, whatever it ends with. -/
theorem takes_runWithTimeout (program : String) (args : List Arg) (r : Except AnyhowError CommandOutput) :
    Takes n (runWithTimeout program args (some n)) r :=
  ⟨[⟨.run program args (some n), r⟩], runs_runWithTimeout.2 rfl, rfl⟩

/-- The output of a command that exits with `code`. -/
def exited (code : Int) (stdout stderr : String) : CommandOutput := ⟨some code, stdout, stderr, false⟩

theorem takes_runCommandTimed (program : String) (args : List Arg) (stdout : String) :
    Takes n (runCommandTimed program args n) (.ok stdout) :=
  (takes_runWithTimeout program args (.ok (exited 0 stdout ""))).bind (m := 0) .pure

theorem takes_runCommandTimed_error (program : String) (args : List Arg) (e : AnyhowError) :
    Takes n (runCommandTimed program args n) (.error e) := (takes_runWithTimeout program args (.error e)).fail

theorem takes_acceptableExit (program : String) (args : List Arg) (acceptable : List Int)
    (r : Except AnyhowError CommandOutput) :
    Takes n (runCommandWithAcceptableExit program args acceptable (some n)) (acceptExit acceptable r) :=
  (takes_runWithTimeout program args r).attempt.bind (m := 0) (Attains.pure _)

theorem takes_recordRefresh {label output : String} {refresh : Op String} (h : Takes n refresh (.ok output)) :
    Takes n (recordRefresh label refresh) (.ok ()) :=
  h.attempt.bind (m := 0) ((takes_ask .updateSuccess () rfl).bind (m := 0) .pure)

theorem takes_recordRefresh_error {label : String} {refresh : Op String} {e : AnyhowError}
    (h : Takes n refresh (.error e)) : Takes n (recordRefresh label refresh) (.error e) :=
  h.attempt.bind (m := 0) ((takes_ask (.updateFailure _) () rfl).bind (m := 0) .throw)

/-! apt with no lock file there. -/

theorem takes_cleanupLocks : ∀ paths : List String, Takes 0 (AptBackend.cleanupLocks paths) (.ok ())
  | [] => .pure
  | path :: paths => by
    have hpath : Takes 0 (pathExists path) (.ok false) := (takes_ask (.pathExists path) false rfl).bind (m := 0) .pure
    exact (hpath.bind (m := 0) .pure).bind (m := 0) (takes_cleanupLocks paths)

theorem takes_ensureDpkgClean : Takes 60 AptBackend.ensureDpkgClean (.ok ()) :=
  (takes_cleanupLocks _).bind (m := 60) ((takes_runCommandTimed "dpkg" _ "").attempt.bind (m := 0) .pure)

theorem takes_verifyDpkgClean : Takes 60 AptBackend.verifyDpkgClean (.ok ()) :=
  (takes_runCommandTimed "dpkg" _ "").bind (m := 0) .pure

/-- The error of an audit that complains again after a clean-up. -/
def stillDirty : AnyhowError :=
  anyhow ("dpkg --audit shows half-configured packages after operation and cleanup: " ++ trim "half-configured")

theorem takes_verifyDpkgClean_dirty : Takes 180 AptBackend.verifyDpkgClean (.error stillDirty) := by
  have haudit : Takes 60 (AptBackend.runDpkg ["--audit"]) (.ok "half-configured") := takes_runCommandTimed _ _ _
  have hrecheck : Takes 60 AptBackend.recheckDpkg (.error stillDirty) := haudit.bind (m := 0) .throw
  exact haudit.bind (m := 120) (takes_ensureDpkgClean.bind (m := 60) hrecheck)

/-- An `apt-get` that takes its whole deadline, between a clean-up and what follows. -/
theorem takes_runApt {args : List Arg} (output : CommandOutput) {r : Except AnyhowError String}
    (hafter : Takes m (AptBackend.afterAptGet args (.ok output)) r) :
    Takes (60 + timeoutFor ["update"] args + m) (AptBackend.runApt args) r := by
  have hget : Takes (timeoutFor ["update"] args)
      (runWithTimeout "apt-get" args (some (timeoutFor ["update"] args))) (.ok output) := takes_runWithTimeout _ _ _
  refine ((takes_ask .lockAptMutex true rfl).bind (m := 60 + (timeoutFor ["update"] args + m)) ?_).of_eq (by omega)
  exact takes_ensureDpkgClean.bind (hget.attempt.bind hafter)

theorem takes_runApt_ok (args : List Arg) :
    Takes (60 + timeoutFor ["update"] args + 60) (AptBackend.runApt args) (.ok "") :=
  takes_runApt (exited 0 "" "") (takes_verifyDpkgClean.bind (m := 0) .pure)

theorem takes_runApt_dirty (args : List Arg) :
    Takes (60 + timeoutFor ["update"] args + 180) (AptBackend.runApt args) (.error stillDirty) :=
  takes_runApt (exited 0 "" "") takes_verifyDpkgClean_dirty.fail

theorem takes_runApt_failed (args : List Arg) (stderr : String) :
    Takes (60 + timeoutFor ["update"] args + 60) (AptBackend.runApt args)
      (.error (AptBackend.aptGetFailed args (exited 100 "" stderr))) :=
  takes_runApt (exited 100 "" stderr) (takes_ensureDpkgClean.attempt.bind (m := 0) .throw)

theorem takes_apt_refresh : Takes 420 AptBackend.refreshPackageCache (.ok ()) :=
  takes_recordRefresh (takes_runApt_ok ["update"])

theorem takes_apt_selfUpdate (name : String) :
    Takes 2580 (selfUpdateTransaction AptBackend.backend name) (.error stillDirty) := by
  have hrefresh : Takes 540 AptBackend.refreshPackageCache (.error stillDirty) :=
    takes_recordRefresh_error (takes_runApt_dirty ["update"])
  have hupdate : Takes 2040 (AptBackend.updatePackage name) (.error stillDirty) :=
    (takes_runApt_dirty ["install", "-y", "--only-upgrade", "--", .request name]).fail
  exact hrefresh.attempt.bind (m := 2040) hupdate

theorem takes_fixBroken (failure : String) : Takes 1920 (AptBackend.fixBroken failure) (.ok ()) :=
  (takes_runApt_ok ["-f", "install", "-y"]).attempt.bind (m := 0) .pure

/-- Everything is upgraded after broken dependencies were fixed; named packages are upgraded at the
second attempt, after an error about dependencies. -/
theorem takes_apt_applyPatches (packages : Option (List String)) :
    ∃ n, 2400 < n ∧ Takes n (AptBackend.applyPatches packages) (.ok ()) := by
  cases packages with
  | none =>
    have hup : Takes 1920 (AptBackend.runApt ["dist-upgrade", "-y"]) (.ok "") := takes_runApt_ok _
    refine ⟨1920 + 1920, by omega, (takes_fixBroken _).bind ?_⟩
    exact hup.attempt.bind (m := 0) .pure
  | some pkgs =>
    have hfail : Takes 1920 (AptBackend.runApt (AptBackend.patchArgs (some pkgs))) (.error
        (AptBackend.aptGetFailed (AptBackend.patchArgs (some pkgs)) (exited 100 "" "unmet dependencies"))) :=
      takes_runApt_failed _ _
    have hup : Takes 1920 (AptBackend.runApt (AptBackend.patchArgs (some pkgs))) (.ok "") := takes_runApt_ok _
    have hretry : Takes (1920 + 1920) (AptBackend.retryPatches (some pkgs)
      (AptBackend.patchArgs (some pkgs))) (.ok ()) :=
      (takes_fixBroken _).bind (hup.attempt.bind (m := 0) .pure)
    have hdep : AptBackend.dependencyIssue (toLowercase "unmet dependencies") = true := by decide
    refine ⟨1920 + (1920 + 1920), by omega, Takes.of_eq (.bind .pure ?_) (Nat.zero_add _)⟩
    refine hfail.attempt.bind (m := 1920 + 1920) ?_
    show Takes _ (ite _ _ (ite (AptBackend.dependencyIssue (toLowercase "unmet dependencies") = true) _ _)) _
    rw [if_neg (by simp), if_pos hdep]
    exact hretry

/-! The other backends: every command that is asked for with a refresh or an upgrade. -/

/-- A failed download, of which the error text says so. -/
def fetchFailure (program : String) : AnyhowError :=
  .ofCommand {
    program, args := [], exitCode := some 1, stdout := "", stderr := "404", spawnError := none, timedOut := false }

theorem takes_waitWhileLocked : Takes 0 PacmanBackend.waitWhileLocked (.ok ()) := by
  have hgone : Takes 0 (pathExists PacmanBackend.lockPath) (.ok false) :=
    (takes_ask (.pathExists _) false rfl).bind (m := 0) .pure
  exact hgone.bind (m := 0) .pure

theorem takes_runPacman (args : List Arg) :
    Takes (timeoutFor ["-Sy", "-Syu"] args) (PacmanBackend.runPacman args) (.ok "") := by
  have hcmd : Takes (timeoutFor ["-Sy", "-Syu"] args) (runCommandWithAcceptableExit "pacman" args [0]
      (some (timeoutFor ["-Sy", "-Syu"] args))) (.ok "") := takes_acceptableExit _ _ _ (.ok (exited 0 "" ""))
  refine (takes_waitWhileLocked.bind ?_).of_eq (Nat.zero_add _)
  exact hcmd.attempt.bind (m := 0) .pure

theorem takes_runPacman_failed (args : List Arg) :
    Takes (timeoutFor ["-Sy", "-Syu"] args) (PacmanBackend.runPacman args) (.error (fetchFailure "pacman")) := by
  have hcmd : Takes (timeoutFor ["-Sy", "-Syu"] args) (runCommandWithAcceptableExit "pacman" args [0]
      (some (timeoutFor ["-Sy", "-Syu"] args))) (.error (fetchFailure "pacman")) :=
    takes_acceptableExit _ _ _ (.error (fetchFailure "pacman"))
  have hkept : Takes 0 (PacmanBackend.removeLockAfterTimeout (fetchFailure "pacman")) (.ok ()) := by
    unfold PacmanBackend.removeLockAfterTimeout
    rw [if_neg (by decide)]
    exact .pure
  refine (takes_waitWhileLocked.bind ?_).of_eq (Nat.zero_add _)
  exact hcmd.attempt.bind (m := 0) (hkept.bind (m := 0) .throw)

theorem takes_refreshPackageCache {kind : BackendKind} (h : kind ≠ .apt) :
    Takes 300 kind.backend.refreshPackageCache (.ok ()) := by
  cases kind with
  | apt => exact absurd rfl h
  | dnf => exact takes_recordRefresh (takes_acceptableExit _ _ _ (.ok (exited 0 "" "")))
  | yum | apk => exact takes_recordRefresh (takes_runCommandTimed _ _ "")
  | pacman => exact takes_recordRefresh (takes_runPacman ["-Sy"])

/-- Except for pacman's upgrade of everything, an upgrade has the deadline of a package operation. -/
theorem takes_applyPatches {kind : BackendKind} {packages : Option (List String)} (h : kind ≠ .apt)
    (hp : ¬ (kind = .pacman ∧ packages = none)) :
    ∃ e, isFetchError e = true ∧ Takes 1800 (kind.backend.applyPatches packages) (.error e) := by
  cases kind with
  | apt => exact absurd rfl h
  | dnf =>
    refine ⟨fetchFailure "dnf", by decide, ?_⟩
    cases packages <;> exact (takes_runCommandTimed_error _ _ _).fail
  | yum =>
    refine ⟨fetchFailure "yum", by decide, ?_⟩
    cases packages <;> exact (takes_runCommandTimed_error _ _ _).fail
  | apk =>
    refine ⟨fetchFailure "apk", by decide, ?_⟩
    cases packages <;> exact (takes_runCommandTimed_error _ _ _).fail
  | pacman =>
    refine ⟨fetchFailure "pacman", by decide, ?_⟩
    cases packages with
    | none => exact absurd ⟨rfl, rfl⟩ hp
    | some pkgs => exact (takes_runPacman_failed _).fail

theorem takes_withContext {text : String} {op : Op Unit} (h : Takes n op (.ok ())) :
    Takes n (withContext text op) (.ok ()) := h.attempt.bind (m := 0) .pure

theorem takes_patchTransaction {b : PackageManagerBackend} {packages : Option (List String)}
    (hr : Takes n b.refreshPackageCache (.ok ())) (ha : Takes m (b.applyPatches packages) (.ok ())) :
    Takes (n + m) (patchTransaction b packages) (.ok ()) :=
  (takes_withContext hr).bind (ha.attempt.bind (m := 0) .pure)

/-- After a failed download both commands run again. -/
theorem takes_patchTransaction_retry {b : PackageManagerBackend} {packages : Option (List String)} {e : AnyhowError}
    (hr : Takes n b.refreshPackageCache (.ok ())) (ha : Takes m (b.applyPatches packages) (.error e))
    (he : isFetchError e = true) :
    Takes (n + (m + (n + m))) (patchTransaction b packages) (.error (e.context "retry patch apply failed")) := by
  have hfail : Takes m (withContext "retry patch apply failed" (b.applyPatches packages))
      (.error (e.context "retry patch apply failed")) := ha.attempt.bind (m := 0) .throw
  refine (takes_withContext hr).bind (ha.attempt.bind ?_)
  show Takes _ (ite _ _ _) _
  rw [if_pos he]
  exact (takes_withContext hr).bind hfail

end Lower

/-! ## The backstop -/

/-- The condition on backend and closure. -/
def fitsBackstop (kind : BackendKind) : MutationClosure → Prop
  | .install _ _ | .update _ | .remove _ => True
  | .selfUpdate _ | .cacheRefresh _ => kind ≠ .apt
  | .patchApply packages => kind = .pacman ∧ packages = none

/-- The backstop that the job of a closure gets. -/
def backstopOf : MutationClosure → Nat
  | .cacheRefresh _ => 360
  | .install _ _ | .update _ | .selfUpdate _ | .remove _ | .patchApply _ => 2400

/-- A validated name does not begin like the name of a bookkeeping job. -/
theorem startsWith_underscores {s : String} (h : beginsAlphanumeric s = true) : startsWith s "__" = false := by
  unfold beginsAlphanumeric at h
  unfold startsWith
  cases hs : s.toList with
  | nil => rw [hs] at h; cases h
  | cons c cs =>
    rw [hs] at h
    have hc : c ≠ '_' := by
      rintro rfl
      have hunderscore : isAsciiAlphanumeric '_' = true := h
      exact absurd hunderscore (by decide)
    simp [List.isPrefixOf, Ne.symm hc]

theorem not_internal {j : Job} (h : ∀ p ∈ j.packages, beginsAlphanumeric p = true) : j.isInternal = false := by
  unfold Job.isInternal
  rw [List.any_eq_false]
  intro p hp
  simp [startsWith_underscores (h p hp)]

/-- Only refreshes are anchored by bookkeeping jobs. -/
theorem jobPackages_alphanumeric {req : Request} {c : MutationClosure} (hc : c ∈ req.mutations) :
    (∃ origin, c = .cacheRefresh origin) ∨ ∀ p ∈ c.jobPackages, beginsAlphanumeric p = true := by
  cases req with
  | installPackages packages options =>
    simp only [Request.mutations] at hc
    split at hc
    · cases hc
    next hok =>
      cases List.mem_singleton.1 hc
      right
      intro p hp
      obtain ⟨pkg, hpkg, rfl⟩ := List.mem_map.1 hp
      exact validatePackageNames_ok hok pkg hpkg
  | updatePackage name =>
    simp only [Request.mutations] at hc
    split at hc
    · cases hc
    next hok =>
      have hn : beginsAlphanumeric name = true := (validateText_ok hok).1
      right
      split at hc <;> cases List.mem_singleton.1 hc <;> simpa [MutationClosure.jobPackages] using hn
  | removePackage name =>
    simp only [Request.mutations] at hc
    split at hc
    · cases hc
    next hok =>
      have hn : beginsAlphanumeric name = true := (validateText_ok hok).1
      cases List.mem_singleton.1 hc
      right
      simpa [MutationClosure.jobPackages] using hn
  | applyPatches packages allowReboot rebootDelaySeconds =>
    simp only [Request.mutations] at hc
    split at hc
    · cases hc
    next hok =>
      cases List.mem_singleton.1 hc
      exact .inr (validateNames_ok hok)
  | listPatches stale | healthCheck stale =>
    simp only [Request.mutations] at hc
    split at hc
    · cases List.mem_singleton.1 hc
      exact .inl ⟨_, rfl⟩
    · cases hc
  | listPackages | getPackage | getServiceStatus | getSystemInfo | rebootSystem | rollbackJob | deleteJob => cases hc

theorem watchdogBackstopFor_mutation {req : Request} {c : MutationClosure} (hc : c ∈ req.mutations) {j : Job}
    (hj : j.packages = c.jobPackages) : SchedulerState.watchdogBackstopFor j = backstopOf c := by
  unfold SchedulerState.watchdogBackstopFor
  cases c with
  | cacheRefresh origin =>
    have hint : j.isInternal = true := by
      unfold Job.isInternal
      rw [hj]
      cases origin <;> decide
    rw [if_pos hint]
    rfl
  | install | update | selfUpdate | remove | patchApply =>
    have hnames := (jobPackages_alphanumeric hc).resolve_left (by simp)
    rw [← hj] at hnames
    rw [if_neg (by simp [not_internal hnames])]
    rfl

theorem within_backstop {kind : BackendKind} {c : MutationClosure} (h : fitsBackstop kind c) :
    Within (backstopOf c) (c.op kind.backend) := by
  cases c with
  | install packages options => exact (within_installPackages kind packages options).mono (by simp [backstopOf])
  | update name => exact (within_updatePackage kind name).mono (by simp [backstopOf])
  | remove name => exact (within_removePackage kind name).mono (by simp [backstopOf])
  | cacheRefresh origin => exact (within_refreshPackageCache h).mono (by simp [backstopOf])
  | selfUpdate name =>
    exact ((within_refreshPackageCache h).attempt.bind fun _ =>
      within_updatePackage kind name).mono (by simp [backstopOf])
  | patchApply packages =>
    obtain ⟨rfl, rfl⟩ := h
    have hr : Within 300 BackendKind.pacman.backend.refreshPackageCache := within_refreshPackageCache (by simp)
    exact (within_patchTransaction hr within_pacman_upgradeAll).mono (by simp [backstopOf])

theorem takes_beyond_backstop {kind : BackendKind} {c : MutationClosure} (h : ¬ fitsBackstop kind c) :
    ∃ n r, backstopOf c < n ∧ Takes n (c.op kind.backend) r := by
  cases c with
  | install | update | remove => exact absurd trivial h
  | cacheRefresh origin =>
    have hk : kind = .apt := not_not.1 h
    subst hk
    exact ⟨420, _, by simp [backstopOf], takes_apt_refresh⟩
  | selfUpdate name =>
    have hk : kind = .apt := not_not.1 h
    subst hk
    exact ⟨2580, _, by simp [backstopOf], takes_apt_selfUpdate name⟩
  | patchApply packages =>
    by_cases hk : kind = .apt
    · subst hk
      obtain ⟨n, hn, happly⟩ := takes_apt_applyPatches packages
      have hlt : 2400 < 420 + n := by omega
      exact ⟨420 + n, _, hlt, takes_patchTransaction takes_apt_refresh happly⟩
    · obtain ⟨e, he, happly⟩ := takes_applyPatches hk h
      exact ⟨_, _, by simp [backstopOf], takes_patchTransaction_retry (takes_refreshPackageCache hk) happly he⟩

/-- The deadlines of a closure's commands fit into the backstop of its job on every trace exactly when it
installs, updates or removes, or refreshes or updates the agent without apt's clean-ups around it, or
is the patch closure of pacman's upgrade of everything. -/
theorem fits_backstop_iff (kind : BackendKind) (req : Request) (c : MutationClosure) (j : Job)
    (hc : c ∈ req.mutations) (hj : j.packages = c.jobPackages) :
    Within (SchedulerState.watchdogBackstopFor j) (c.op kind.backend) ↔ fitsBackstop kind c := by
  rw [watchdogBackstopFor_mutation hc hj]
  constructor
  · intro hw
    by_contra h
    obtain ⟨n, r, hlt, htakes⟩ := takes_beyond_backstop h
    have hle : n ≤ backstopOf c := Bound.le hw htakes
    omega
  · exact within_backstop

/-- The job of a background refresh that a patch list starts. -/
def refreshJob : Job := Job.new ⟨0, none⟩ 1 .install ["__patch_list_refresh__"]

theorem fits_backstop_dnfRefresh :
    Within (SchedulerState.watchdogBackstopFor refreshJob)
      ((MutationClosure.cacheRefresh .patchList).op DnfBackend.backend) :=
  (fits_backstop_iff .dnf (.listPatches true) (.cacheRefresh .patchList) refreshJob (by decide) rfl).2
    (by simp [fitsBackstop])

/-- On apt a background refresh without any failure may take 420 s, and its watchdog waits 360 s. -/
theorem apt_refresh_beyond_backstop : ¬ Within (SchedulerState.watchdogBackstopFor refreshJob)
    ((MutationClosure.cacheRefresh .patchList).op AptBackend.backend) := by
  intro hw
  have hle : 420 ≤ SchedulerState.watchdogBackstopFor refreshJob := Bound.le hw takes_apt_refresh
  exact absurd hle (by decide)

end LinuxPatchApi.Api
