/-
Every operation of every backend is guarded: it runs command lines whose request texts are among the
texts that it was given, and it removes nothing but lock files, with a justification.
-/
import LinuxPatchApi.Packages.Locks

namespace LinuxPatchApi.Packages

open Text Interaction

/-- Command lines are in `A` when their request texts are in `T`. -/
def Permits (A : List Arg → Prop) (T : String → Prop) : Prop := ∀ args, (∀ s, Arg.request s ∈ args → T s) → A args

section

variable {A : List Arg → Prop} {T : String → Prop}

/-- A command line without request texts. -/
theorem Permits.own (hA : Permits A T) {args : List Arg} (h : ∀ s, Arg.request s ∉ args) : A args :=
  hA args fun s hs => absurd hs (h s)

/-- A command line of which only the last argument is from the request. -/
theorem Permits.last (hA : Permits A T) (args : List Arg) {name : String} (h : ∀ s, Arg.request s ∉ args)
    (hn : T name) : A (args ++ [.request name]) := by
  refine hA _ fun s hs => ?_
  rcases List.mem_append.1 hs with hs | hs
  · exact absurd hs (h s)
  · cases List.mem_singleton.1 hs
    exact hn

/-- A command line that ends with the names of a request. -/
theorem Permits.names (hA : Permits A T) (args : List Arg) {names : List String} (h : ∀ s, Arg.request s ∉ args)
    (hn : ∀ n ∈ names, T n) : A (args ++ names.map Arg.request) := by
  refine hA _ fun s hs => ?_
  rcases List.mem_append.1 hs with hs | hs
  · exact absurd hs (h s)
  · obtain ⟨n, hmem, he⟩ := List.mem_map.1 hs
    cases he
    exact hn s hmem

/-- A command line that ends with the packages of a request, with their versions. -/
theorem Permits.specs (hA : Permits A T) (hT : ∀ s rest, T s → T (s ++ rest)) {args : List Arg} {sep : String}
    {packages : List PackageSpec} (h : ∀ s, Arg.request s ∉ args) (hp : ∀ pkg ∈ packages, T pkg.name) :
    A (args ++ packages.map (PackageSpec.arg sep)) := by
  refine hA _ fun s hs => ?_
  rcases List.mem_append.1 hs with hs | hs
  · exact absurd hs (h s)
  · obtain ⟨pkg, hmem, he⟩ := List.mem_map.1 hs
    unfold PackageSpec.arg at he
    split at he <;> cases he
    · exact hT _ _ (hT _ _ (hp pkg hmem))
    · exact hp pkg hmem

/-! ## The system -/

theorem guarded_firstFound {α : Type} (xs : List α) {q : α → Op (Option String)} (h : ∀ x ∈ xs, Guarded A (q x)) :
    Guarded A (firstFound (xs.map q)) := by
  induction xs with
  | nil => exact .pure _
  | cons x xs ih =>
    refine .bind (h x (by simp)) fun found => ?_
    cases found with
    | some version => exact .pure _
    | none => exact ih fun y hy => h y (by simp [hy])

theorem guarded_whenAvailable {tool : String} {query : Op (Option String)} (h : Guarded A query) :
    Guarded A (whenAvailable tool query) := by
  refine .bind (guarded_commandAvailable tool) fun available => ?_
  split
  · exact h
  · exact .pure _

theorem guarded_kernelFrom {tool : String} {args : List Arg} {parse : String → Option String} (h : A args) :
    Guarded A (kernelFrom tool args parse) := .bind (guarded_tryRun h) fun _ => .pure _

theorem guarded_getInstalledKernelVersion (hA : Permits A T) : Guarded A getInstalledKernelVersion := by
  refine guarded_firstFound (q := id) [_, _, _, _] fun query hq => ?_
  simp only [List.mem_cons, List.not_mem_nil, or_false] at hq
  rcases hq with rfl | rfl | rfl | rfl
  · exact guarded_whenAvailable (guarded_kernelFrom (hA.own (by simp)))
  · exact guarded_whenAvailable (guarded_kernelFrom (hA.own (by simp)))
  · exact guarded_whenAvailable (guarded_firstFound _ fun pkg _ => guarded_kernelFrom (hA.own (by simp)))
  · exact guarded_whenAvailable (guarded_kernelFrom (hA.own (by simp)))

theorem guarded_isLxcContainer : Guarded A isLxcContainer := by
  refine .bind (guarded_readFile _) fun environ => ?_
  split
  · exact .pure _
  refine .bind (guarded_readFile _) fun cgroup => ?_
  split
  · exact .pure _
  refine .bind (guarded_pathExists _) fun docker => ?_
  split
  · exact .pure _
  · exact guarded_pathExists _

theorem guarded_checkPendingReboot (hA : Permits A T) : Guarded A checkPendingReboot := by
  refine .bind (guarded_pathExists _) fun _ => ?_
  split
  · exact .pure _
  refine .bind (guarded_pathExists _) fun _ => ?_
  split
  · exact .pure _
  have hdnf : Guarded A dnfNeedsRestarting := by
    refine .bind (guarded_commandAvailable _) fun _ => ?_
    split
    · exact .bind (guarded_tryRun (hA.own (by simp))) fun _ => .pure _
    · exact .pure _
  refine .bind hdnf fun _ => ?_
  split
  · exact .pure _
  refine .bind guarded_isLxcContainer fun _ => ?_
  split
  · exact .pure _
  refine .bind (guarded_getInstalledKernelVersion hA) fun installed => ?_
  cases installed with
  | none => exact .pure _
  | some version => exact .bind (.relay rfl) fun _ => .pure _

theorem guarded_getSystemInfo (hA : Permits A T) : Guarded A getSystemInfo := by
  refine .bind (guarded_tryRun (hA.own (by simp))) fun _ => ?_
  refine .bind (guarded_readFile _) fun _ => ?_
  refine .bind (guarded_tryRun (hA.own (by simp))) fun _ => ?_
  refine .bind (guarded_tryRun (hA.own (by simp))) fun _ => ?_
  exact .bind (guarded_checkPendingReboot hA) fun _ => .pure _

theorem guarded_rebootSystem (hA : Permits A T) (delaySeconds : Nat) : Guarded A (rebootSystem delaySeconds) := by
  unfold rebootSystem
  split
  · exact .bind (guarded_runCommandTimed (hA.own (by simp))) fun _ => .pure _
  · exact .bind (guarded_runCommandTimed (hA.own (by simp))) fun _ => .pure _

theorem guarded_unitStatus (hA : Permits A T) (u : UnitProperties) : Guarded A (unitStatus u) := by
  have hhealthy : Guarded A (unitHealthy u) := by
    unfold unitHealthy
    split
    · exact .bind (guarded_tryRun (hA.own (by simp))) fun _ => .pure _
    · exact .pure _
  unfold unitStatus
  split
  · exact .pure _
  · exact .bind hhealthy fun _ => .pure _

theorem guarded_getSystemdServiceStatus (hA : Permits A T) {name : String} (hn : T name) :
    Guarded A (getSystemdServiceStatus name) := by
  refine .bind (guarded_runWithTimeout (hA _ (by simpa using hn))) fun output => ?_
  split
  · exact .pure _
  · exact guarded_unitStatus hA _

theorem guarded_getOpenrcServiceStatus (hA : Permits A T) {name : String} (hn : T name) :
    Guarded A (getOpenrcServiceStatus name) := by
  refine .bind (guarded_runWithTimeout (hA _ (by simpa using hn))) fun output => ?_
  split
  · exact .bind (guarded_tryRun (hA.own (by simp))) fun _ => .pure _
  split
  · exact .pure _
  · exact .throw _

theorem guarded_withServiceName {name : String} {query : Op (Option ServiceStatus)}
    (h : validateServiceName name = .ok () → Guarded A query) : Guarded A (withServiceName name query) := by
  unfold withServiceName
  split
  · exact .throw _
  next hv => exact h hv

theorem guarded_recordRefresh {label : String} {refresh : Op String} (h : Guarded A refresh) :
    Guarded A (recordRefresh label refresh) := by
  refine .bind h.attempt fun r => ?_
  cases r with
  | ok output => exact .bind (.ask rfl) fun _ => .pure _
  | error e => exact .bind (.ask rfl) fun _ => .throw _

theorem guarded_checkedName {name : String} {query : Op (Option Package)} (h : Guarded A query) :
    Guarded A (checkedName name query) := by
  unfold checkedName
  split
  · exact .throw _
  · exact h

/-! ## The backends -/

/-- All operations of a backend that serve requests are guarded. -/
structure BackendGuarded (A : List Arg → Prop) (T : String → Prop) (b : PackageManagerBackend) : Prop where
  listPackages : ∀ {filter}, (∀ f, filter = some f → T f) → Guarded A (b.listPackages filter)
  getPackage : ∀ {name}, T name → Guarded A (b.getPackage name)
  installPackages : ∀ {packages} options, (∀ pkg ∈ packages, T pkg.name) →
    Guarded A (b.installPackages packages options)
  updatePackage : ∀ {name}, T name → Guarded A (b.updatePackage name)
  removePackage : ∀ {name} purge, T name → Guarded A (b.removePackage name purge)
  listPatches : Guarded A b.listPatches
  applyPatches : ∀ {packages}, (∀ n ∈ Option.getD packages [], T n) → Guarded A (b.applyPatches packages)
  getSystemInfo : Guarded A b.getSystemInfo
  rebootSystem : ∀ delaySeconds, Guarded A (b.rebootSystem delaySeconds)
  getServiceStatus : ∀ {name}, (validateServiceName name = .ok () → T name) → Guarded A (b.getServiceStatus name)
  refreshPackageCache : Guarded A b.refreshPackageCache
  packageDatabaseClean : Guarded A b.packageDatabaseClean

/-! ## APT -/

namespace AptBackend

theorem guarded_runDpkg {args : List Arg} (h : A args) : Guarded A (runDpkg args) := guarded_runCommandTimed h

theorem guarded_runAptCli {args : List Arg} (h : A args) : Guarded A (runAptCli args) := guarded_runCommandTimed h

theorem guarded_ensureDpkgClean (hA : Permits A T) : Guarded A ensureDpkgClean := by
  refine .bind guarded_cleanupStaleAptLocks fun _ => ?_
  refine .bind (guarded_runDpkg (hA.own (by simp))).attempt fun r => ?_
  cases r with
  | ok _ => exact .pure _
  | error e => exact .throw _

theorem guarded_verifyDpkgClean (hA : Permits A T) : Guarded A verifyDpkgClean := by
  refine .bind (guarded_runDpkg (hA.own (by simp))) fun audit => ?_
  split
  · exact .pure _
  refine .bind (guarded_ensureDpkgClean hA) fun _ => ?_
  refine .bind (guarded_runDpkg (hA.own (by simp))) fun recheck => ?_
  split
  · exact .pure _
  · exact .throw _

theorem guarded_runApt (hA : Permits A T) {args : List Arg} (h : A args) : Guarded A (runApt args) := by
  have hafter : ∀ r, Guarded A (afterAptGet args r) := by
    intro r
    cases r with
    | error e => exact .bind (guarded_ensureDpkgClean hA).attempt fun _ => .throw _
    | ok output =>
      unfold afterAptGet
      simp only
      split
      · exact .bind (guarded_verifyDpkgClean hA) fun _ => .pure _
      · exact .bind (guarded_ensureDpkgClean hA).attempt fun _ => .throw _
  refine .bind (.ask rfl) fun locked => ?_
  show Guarded A (ite _ _ _)
  split
  · refine .bind (guarded_ensureDpkgClean hA) fun _ => ?_
    exact .bind (guarded_runWithTimeout h).attempt hafter
  · exact .throw _

theorem guarded_getPackage (hA : Permits A T) {name : String} (hn : T name) : Guarded A (getPackage name) := by
  refine .bind (guarded_runDpkg (hA.last ["-s"] (by simp) hn)).attempt fun r => ?_
  cases r with
  | error e => exact .bind (guarded_runAptCli (hA.last ["list"] (by simp) hn)) fun _ => .pure _
  | ok info =>
    have hup : Guarded A (do
        let output ← runAptCli ["list", "--upgradable", .request name]
        return contains output name : Op Bool) :=
      .bind (guarded_runAptCli (hA.last ["list", "--upgradable"] (by simp) hn)) fun _ => .pure _
    refine .bind hup.unwrapOr fun upgradable => ?_
    cases upgradable with
    | true =>
      have hpolicy : Guarded A (runCommandTimed "apt-cache" ["policy", .request name] quickOpTimeout) :=
        guarded_runCommandTimed (hA.last ["policy"] (by simp) hn)
      exact .bind (.unwrapOr (.bind hpolicy fun _ => .pure _)) fun _ => .pure _
    | false => exact .bind (.pure _) fun _ => .pure _

theorem guarded_heldFallback (hA : Permits A T) (failure : String) : Guarded A (heldFallback failure) := by
  have hfall : Guarded A fallbackToHoldRespectingUpgrade := by
    refine .bind (Guarded.unwrapOr (guarded_runCommandTimed (hA.own (by simp)))) fun _ => ?_
    exact .bind (guarded_runApt hA (hA.own (by simp))) fun _ => .pure _
  refine .bind hfall.attempt fun r => ?_
  cases r with
  | ok _ => exact .throw _
  | error e => exact .throw _

theorem guarded_fixBroken (hA : Permits A T) (failure : String) : Guarded A (fixBroken failure) := by
  refine .bind (guarded_runApt hA (hA.own (by simp))).attempt fun r => ?_
  cases r with
  | ok _ => exact .pure _
  | error e => exact .throw _

theorem guarded_retryPatches (hA : Permits A T) {packages : Option (List String)} {args : List Arg} (h : A args) :
    Guarded A (retryPatches packages args) := by
  refine .bind (guarded_fixBroken hA _) fun _ => ?_
  refine .bind (guarded_runApt hA h).attempt fun r => ?_
  cases r with
  | ok _ => exact .pure _
  | error e =>
    simp only
    split
    · exact guarded_heldFallback hA _
    · exact .throw _

theorem guarded_applyPatches (hA : Permits A T) {packages : Option (List String)}
    (hp : ∀ n ∈ packages.getD [], T n) : Guarded A (applyPatches packages) := by
  have hattempt : ∀ args, A args → Guarded A (attemptPatches packages args) := by
    intro args h
    refine .bind (guarded_runApt hA h).attempt fun r => ?_
    cases r with
    | ok _ => exact .pure _
    | error e =>
      simp only
      split
      · exact guarded_heldFallback hA _
      split
      · exact guarded_retryPatches hA h
      · exact .throw _
  cases packages with
  | none => exact .bind (guarded_fixBroken hA _) fun _ => hattempt _ (hA.own (by simp [patchArgs]))
  | some pkgs => exact .bind (.pure _) fun _ => hattempt _ (hA.names _ (by simp) hp)

theorem guarded (hA : Permits A T) (hT : ∀ s rest, T s → T (s ++ rest)) : BackendGuarded A T backend where
  listPackages := by
    intro filter hf
    cases filter with
    | none => exact .bind (guarded_runAptCli (hA.own (by simp))) fun _ => .pure _
    | some f => exact .bind (guarded_runAptCli (hA.last ["list"] (by simp) (hf f rfl))) fun _ => .pure _
  getPackage := guarded_getPackage hA
  installPackages := by
    intro packages options hp
    refine .bind (guarded_runApt hA (hA.specs hT ?_ hp)) fun _ => .pure _
    intro s
    cases options.noRecommends <;> cases options.force <;> simp
  updatePackage := fun hn =>
    .bind (guarded_runApt hA (hA.last ["install", "-y", "--only-upgrade", "--"] (by simp) hn)) fun _ => .pure _
  removePackage := by
    intro name purge hn
    cases purge with
    | true => exact .bind (guarded_runApt hA (hA.last ["purge", "-y", "--"] (by simp) hn)) fun _ => .pure _
    | false => exact .bind (guarded_runApt hA (hA.last ["remove", "-y", "--"] (by simp) hn)) fun _ => .pure _
  listPatches := .bind (guarded_runAptCli (hA.own (by simp))) fun _ => .pure _
  applyPatches := guarded_applyPatches hA
  getSystemInfo := guarded_getSystemInfo hA
  rebootSystem := guarded_rebootSystem hA
  getServiceStatus := by
    intro name hn
    refine guarded_withServiceName fun hok => ?_
    refine .bind (guarded_pathExists _) fun _ => .bind (guarded_pathExists _) fun _ => ?_
    split
    · exact guarded_getSystemdServiceStatus hA (hn hok)
    split
    · exact guarded_getOpenrcServiceStatus hA (hn hok)
    · exact .throw _
  refreshPackageCache := guarded_recordRefresh (guarded_runApt hA (hA.own (by simp)))
  packageDatabaseClean := .bind (guarded_runDpkg (hA.own (by simp))) fun _ => .pure _

end AptBackend

/-! ## APK -/

namespace ApkBackend

theorem guarded_runApk {args : List Arg} (h : A args) : Guarded A (runApk args) := guarded_runCommandTimed h

theorem guarded_parseApkInfo (hA : Permits A T) {output name : String} {status : PackageStatus} (hn : T name) :
    Guarded A (parseApkInfo output name status) := by
  refine .bind (.unwrapOr (.bind (guarded_runApk (hA.last ["list", "--upgradable"] (by simp) hn))
    fun _ => .pure _)) fun upgradable => ?_
  cases upgradable with
  | true =>
    exact .bind (.unwrapOr (.bind (guarded_runApk (hA.last ["info"] (by simp) hn)) fun _ => .pure _))
      fun _ => .pure _
  | false => exact .bind (.pure _) fun _ => .pure _

theorem guarded_lookUpPackage (hA : Permits A T) {name : String} (hn : T name) : Guarded A (lookUpPackage name) := by
  refine .bind (guarded_runApk (hA.last ["list", "--installed"] (by simp) hn)) fun listOutput => ?_
  split
  · exact .bind (guarded_runApk (hA.last ["info", "-a"] (by simp) hn)) fun _ => guarded_parseApkInfo hA hn
  · exact .unwrapOr (.bind (guarded_runApk (hA.last ["search"] (by simp) hn)) fun _ => .pure _)

theorem guarded (hA : Permits A T) (hT : ∀ s rest, T s → T (s ++ rest)) : BackendGuarded A T backend where
  listPackages := by
    intro filter hf
    cases filter with
    | none => exact .bind (guarded_runApk (hA.own (by simp))) fun _ => .pure _
    | some f =>
      exact .bind (guarded_runApk (hA.last ["list", "--installed"] (by simp) (hf f rfl))) fun _ => .pure _
  getPackage := fun hn => guarded_checkedName (guarded_lookUpPackage hA hn)
  installPackages := by
    intro packages options hp
    refine .bind (guarded_runApk (hA.specs hT ?_ hp)) fun _ => .pure _
    intro s
    cases options.force <;> simp
  updatePackage := fun hn =>
    .bind (guarded_runApk (hA.last ["add", "--upgrade", "--"] (by simp) hn)) fun _ => .pure _
  removePackage := fun _ hn => .bind (guarded_runApk (hA.last ["del", "--"] (by simp) hn)) fun _ => .pure _
  listPatches := .bind (guarded_runApk (hA.own (by simp))) fun _ => .pure _
  applyPatches := by
    intro packages hp
    cases packages with
    | none => exact .bind (guarded_runApk (hA.own (by simp))) fun _ => .pure _
    | some pkgs => exact .bind (guarded_runApk (hA.names ["upgrade", "--"] (by simp) hp)) fun _ => .pure _
  getSystemInfo := guarded_getSystemInfo hA
  rebootSystem := by
    intro delaySeconds
    have hnow : Guarded A rebootNow := .bind (guarded_runCommandTimed (hA.own (by simp))) fun _ => .pure _
    show Guarded A (rebootSystem delaySeconds)
    unfold rebootSystem
    split
    · refine .bind (guarded_commandAvailable _) fun available => ?_
      split
      · exact guarded_rebootSystem hA delaySeconds
      · exact hnow
    · exact hnow
  getServiceStatus := fun hn => guarded_withServiceName fun hok => guarded_getOpenrcServiceStatus hA (hn hok)
  refreshPackageCache := guarded_recordRefresh (guarded_runApk (hA.own (by simp)))
  packageDatabaseClean := .pure _

end ApkBackend

/-! ## DNF and YUM -/

namespace Rpm

theorem guarded_runRpm {args : List Arg} (h : A args) : Guarded A (runRpm args) := guarded_runCommandTimed h

theorem guarded_listPackages (hA : Permits A T) {filter : Option String} (hf : ∀ f, filter = some f → T f) :
    Guarded A (listPackages filter) := by
  cases filter with
  | none => exact .bind (guarded_runRpm (hA.own (by simp))) fun _ => .pure _
  | some f => exact .bind (guarded_runRpm (hA.last ["-qa"] (by simp) (hf f rfl))) fun _ => .pure _

theorem guarded_parseRpmInfo (hA : Permits A T) {tool output name : String} (hn : T name) :
    Guarded A (parseRpmInfo tool output name) := by
  have hcheck : ∀ v, Guarded A (checkUpdate tool name v) := by
    intro v
    refine .bind (guarded_tryRun (hA.last ["check-update", "-q"] (by simp) hn)) fun o => ?_
    cases o with
    | none => exact .pure _
    | some o =>
      simp only
      split
      · exact .pure _
      · exact .pure _
  refine .bind (hcheck _) fun _ => ?_
  refine .bind (.unwrapOr ?_) fun _ => .pure _
  exact .bind (guarded_runRpm (hA.last ["-qR"] (by simp) hn)) fun _ => .pure _

theorem guarded_getPackage (hA : Permits A T) {tool name : String} (hn : T name) :
    Guarded A (getPackage tool name) := by
  have havailable : Guarded A (availablePackage tool name) := by
    refine .bind (guarded_tryRun (hA.last ["info", "-q"] (by simp) hn)) fun o => ?_
    cases o with
    | none => exact .pure _
    | some o =>
      simp only
      split
      · exact .pure _
      · exact .pure _
  refine guarded_checkedName (.bind (guarded_runRpm (hA.last ["-q"] (by simp) hn)).attempt fun r => ?_)
  cases r with
  | error e => exact havailable
  | ok _ => exact .bind (guarded_runRpm (hA.last ["-qi"] (by simp) hn)) fun _ => guarded_parseRpmInfo hA hn

theorem guarded_listPatches (hA : Permits A T) (tool : String) : Guarded A (listPatches tool) := by
  have hline : ∀ line, Guarded A (patchOfLine line) := by
    intro line
    unfold patchOfLine
    split
    · exact .bind (Guarded.unwrapOr (guarded_runRpm (hA.own (by simp)))) fun _ => .pure _
    · exact .pure _
  have hlines : ∀ ls, Guarded A (patchesOfLines ls) := by
    intro ls
    induction ls with
    | nil => exact .pure _
    | cons line rest ih =>
      rw [patchesOfLines]
      exact (hline line).bind fun _ => ih.bind fun _ => .pure _
  have hcheck : Guarded A (runCommandWithAcceptableExit tool ["check-update", "-q"] [0, 100] none) :=
    guarded_runCommandWithAcceptableExit (hA.own (by simp))
  exact hcheck.bind fun _ => hlines _

end Rpm

theorem DnfBackend.guarded (hA : Permits A T) (hT : ∀ s rest, T s → T (s ++ rest)) :
    BackendGuarded A T DnfBackend.backend where
  listPackages := Rpm.guarded_listPackages hA
  getPackage := Rpm.guarded_getPackage hA
  installPackages := by
    intro packages options hp
    refine .bind (guarded_runCommandTimed (hA.specs hT ?_ hp)) fun _ => .pure _
    intro s
    cases options.noRecommends <;> cases options.force <;> simp
  updatePackage := fun hn =>
    .bind (guarded_runCommandTimed (hA.last ["upgrade", "-y"] (by simp) hn)) fun _ => .pure _
  removePackage := by
    intro name purge hn
    cases purge with
    | true =>
      exact .bind (guarded_runCommandTimed (hA.last ["remove", "-y", "--noautoremove"] (by simp) hn))
        fun _ => .pure _
    | false => exact .bind (guarded_runCommandTimed (hA.last ["remove", "-y"] (by simp) hn)) fun _ => .pure _
  listPatches := Rpm.guarded_listPatches hA "dnf"
  applyPatches := by
    intro packages hp
    cases packages with
    | none => exact .bind (guarded_runCommandTimed (hA.own (by simp))) fun _ => .pure _
    | some pkgs =>
      exact .bind (guarded_runCommandTimed (hA.names ["upgrade", "-y"] (by simp) hp)) fun _ => .pure _
  getSystemInfo := guarded_getSystemInfo hA
  rebootSystem := guarded_rebootSystem hA
  getServiceStatus := fun hn => guarded_withServiceName fun hok => guarded_getSystemdServiceStatus hA (hn hok)
  refreshPackageCache := guarded_recordRefresh (guarded_runCommandWithAcceptableExit (hA.own (by simp)))
  packageDatabaseClean := .pure _

theorem YumBackend.guarded (hA : Permits A T) (hT : ∀ s rest, T s → T (s ++ rest)) :
    BackendGuarded A T YumBackend.backend where
  listPackages := Rpm.guarded_listPackages hA
  getPackage := Rpm.guarded_getPackage hA
  installPackages := fun _ hp => .bind (guarded_runCommandTimed (hA.specs hT (by simp) hp)) fun _ => .pure _
  updatePackage := fun hn =>
    .bind (guarded_runCommandTimed (hA.last ["update", "-y", "--"] (by simp) hn)) fun _ => .pure _
  removePackage := fun _ hn =>
    .bind (guarded_runCommandTimed (hA.last ["remove", "-y", "--"] (by simp) hn)) fun _ => .pure _
  listPatches := Rpm.guarded_listPatches hA "yum"
  applyPatches := by
    intro packages hp
    cases packages with
    | none => exact .bind (guarded_runCommandTimed (hA.own (by simp))) fun _ => .pure _
    | some pkgs =>
      exact .bind (guarded_runCommandTimed (hA.names ["update", "-y", "--"] (by simp) hp)) fun _ => .pure _
  getSystemInfo := guarded_getSystemInfo hA
  rebootSystem := guarded_rebootSystem hA
  getServiceStatus := fun hn => guarded_withServiceName fun hok => guarded_getSystemdServiceStatus hA (hn hok)
  refreshPackageCache := guarded_recordRefresh (guarded_runCommandTimed (hA.own (by simp)))
  packageDatabaseClean := .pure _

/-! ## Pacman -/

namespace PacmanBackend

theorem guarded_parsePacmanInfo (hA : Permits A T) {output name : String} (hn : T name) :
    Guarded A (parsePacmanInfo output name) := by
  have hqu : Guarded A (runPacman ["-Qu", .request name]) := guarded_runPacman (hA.last ["-Qu"] (by simp) hn)
  refine .bind (.unwrapOr (.bind hqu fun _ => .pure _)) fun upgradable => ?_
  cases upgradable with
  | true => exact .bind (.unwrapOr (.bind hqu fun _ => .pure _)) fun _ => .pure _
  | false => exact .bind (.pure _) fun _ => .pure _

theorem guarded_getPackage (hA : Permits A T) {name : String} (hn : T name) : Guarded A (getPackage name) := by
  have havailable : Guarded A (availablePackage name) := by
    refine .bind (guarded_tryRun (hA.last ["-Si"] (by simp) hn)) fun o => ?_
    cases o with
    | none => exact .pure _
    | some o =>
      simp only
      split
      · exact .pure _
      · exact .pure _
  refine guarded_checkedName (.bind (guarded_runPacman (hA.last ["-Q"] (by simp) hn)).attempt fun r => ?_)
  cases r with
  | error e => exact havailable
  | ok _ =>
    exact .bind (guarded_runPacman (hA.last ["-Qi"] (by simp) hn)) fun _ => guarded_parsePacmanInfo hA hn

theorem guarded (hA : Permits A T) : BackendGuarded A T backend where
  listPackages := by
    intro filter hf
    cases filter with
    | none => exact .bind (guarded_runPacman (hA.own (by simp))) fun _ => .pure _
    | some f => exact .bind (guarded_runPacman (hA.last ["-Q"] (by simp) (hf f rfl))) fun _ => .pure _
  getPackage := guarded_getPackage hA
  installPackages := by
    intro packages options hp
    refine .bind (guarded_runPacman (hA _ fun s hs => ?_)) fun _ => .pure _
    simp only [List.mem_append, List.mem_map] at hs
    rcases hs with (hs | hs) | ⟨pkg, hmem, he⟩
    · exact absurd hs (by cases options.force <;> simp)
    · exact absurd hs (by simp)
    · cases he
      exact hp pkg hmem
  updatePackage := fun hn =>
    .bind (guarded_runPacman (hA.last ["-S", "--noconfirm", "--"] (by simp) hn)) fun _ => .pure _
  removePackage := fun _ hn =>
    .bind (guarded_runPacman (hA.last ["-R", "--noconfirm", "--"] (by simp) hn)) fun _ => .pure _
  listPatches := .bind (guarded_runPacmanWithAcceptableExit (hA.own (by simp))) fun _ => .pure _
  applyPatches := by
    intro packages hp
    cases packages with
    | none => exact .bind (guarded_runPacman (hA.own (by simp))) fun _ => .pure _
    | some pkgs =>
      exact .bind (guarded_runPacman (hA.names ["-S", "--noconfirm", "--needed", "--"] (by simp) hp))
        fun _ => .pure _
  getSystemInfo := guarded_getSystemInfo hA
  rebootSystem := guarded_rebootSystem hA
  getServiceStatus := fun hn => guarded_withServiceName fun hok => guarded_getSystemdServiceStatus hA (hn hok)
  refreshPackageCache := guarded_recordRefresh (guarded_runPacman (hA.own (by simp)))
  packageDatabaseClean := .pure _

end PacmanBackend

theorem BackendKind.guarded (hA : Permits A T) (hT : ∀ s rest, T s → T (s ++ rest)) (kind : BackendKind) :
    BackendGuarded A T kind.backend := by
  cases kind with
  | apt => exact AptBackend.guarded hA hT
  | dnf => exact DnfBackend.guarded hA hT
  | yum => exact YumBackend.guarded hA hT
  | apk => exact ApkBackend.guarded hA hT
  | pacman => exact PacmanBackend.guarded hA

end

end LinuxPatchApi.Packages
