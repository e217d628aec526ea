/-
`src/api/handlers`: the HTTP requests that reach the package manager backend, the validation that the
handlers make first, the closures that they pass to `dispatch_mutation`, and the operations that they
call themselves.
-/
import LinuxPatchApi.Packages.Pacman
import LinuxPatchApi.Jobs.Scheduler

namespace LinuxPatchApi.Api

open Text Interaction LinuxPatchApi.Packages LinuxPatchApi.Jobs

/-! ## Mutation closures -/

/-- `is_fetch_error`: only the outermost text of the error is looked at. -/
def isFetchError (e : AnyhowError) : Bool :=
  let msg := toLowercase e.display
  contains msg "404" || contains msg "not found" || contains msg "failed to fetch" || contains msg "unable to fetch"

/-- `.context(text)` on a result. -/
def withContext (text : String) (op : Op Unit) : Op Unit := do
  match ← Fallible.attempt op with
  | .ok _ => return ()
  | .error e => throw (e.context text)

/-- The health check and the patch list refresh the cache in the background. -/
inductive RefreshOrigin where
  | healthCheck
  | patchList
  deriving DecidableEq, Repr

/-- The closures that handlers pass to `dispatch_mutation`. -/
inductive MutationClosure where
  | install (packages : List PackageSpec) (options : InstallOptions)
  | update (name : String)
  | selfUpdate (name : String)
  | remove (name : String)
  | patchApply (packages : Option (List String))
  | cacheRefresh (origin : RefreshOrigin)
  deriving DecidableEq, Repr

section Closures

variable (b : PackageManagerBackend)

/-- The closure of a self-update: a failed cache refresh does not stop it. -/
def selfUpdateTransaction (name : String) : Op Unit := do
  let _ ← Fallible.attempt b.refreshPackageCache
  b.updatePackage name

/-- Stage 3 of a patch transaction. -/
def patchRetry (packages : Option (List String)) : Op Unit := do
  withContext "retry cache refresh failed" b.refreshPackageCache
  withContext "retry patch apply failed" (b.applyPatches packages)

/-- The patch transaction: refresh, apply, and once more when fetching failed. -/
def patchTransaction (packages : Option (List String)) : Op Unit := do
  withContext "initial cache refresh failed" b.refreshPackageCache
  match ← Fallible.attempt (b.applyPatches packages) with
  | .ok _ => return ()
  | .error e => if isFetchError e then patchRetry b packages else throw e

def MutationClosure.op : MutationClosure → Op Unit
  | .install packages options => b.installPackages packages options
  | .update name => b.updatePackage name
  | .selfUpdate name => selfUpdateTransaction b name
  | .remove name => b.removePackage name false
  | .patchApply packages => patchTransaction b packages
  | .cacheRefresh _ => b.refreshPackageCache

end Closures

/-- The package list of the job that anchors the closure. -/
def MutationClosure.jobPackages : MutationClosure → List String
  | .install packages _ => packages.map (·.name)
  | .update name | .selfUpdate name | .remove name => [name]
  | .patchApply packages => packages.getD []
  | .cacheRefresh .healthCheck => ["__health_refresh__"]
  | .cacheRefresh .patchList => ["__patch_list_refresh__"]

/-! ## Requests -/

/-- The requests to endpoints that use the backend or change the jobs. -/
inductive Request where
  /-- `GET /packages`, of whose query only the name reaches the backend. -/
  | listPackages (name : Option String)
  | getPackage (name : String)
  | installPackages (packages : List PackageSpec) (options : InstallOptions)
  | updatePackage (name : String)
  | removePackage (name : String)
  /-- `GET /patches`, with whether the cache is stale then. -/
  | listPatches (stale : Bool)
  | applyPatches (packages : Option (List String)) (allowReboot : Bool) (rebootDelaySeconds : Nat)
  | getServiceStatus (name : String)
  | getSystemInfo
  | healthCheck (stale : Bool)
  | rebootSystem (delaySeconds : Nat) (force ackCorruptionRisk : Bool)
  | rollbackJob (jobId : Uuid)
  | deleteJob (jobId : Uuid)
  deriving DecidableEq, Repr

/-- A package in a request: its name, and its version if there is one. -/
def validateSpec (pkg : PackageSpec) : Except String Unit := do
  validatePackageName pkg.name
  match pkg.version with
  | some version => validateVersionString version
  | none => pure ()

/-- `validate_package_names`: the first complaint about a name or a version. -/
def validatePackageNames : List PackageSpec → Except String Unit
  | [] => .ok ()
  | pkg :: pkgs => do
    validateSpec pkg
    validatePackageNames pkgs

/-- The validation of the names in a patch request. -/
def validateNames : List String → Except String Unit
  | [] => .ok ()
  | name :: names => do
    validatePackageName name
    validateNames names

/-- The check of the service endpoint. -/
def invalidServicePath (name : String) : Bool := name.isEmpty || contains name "/" || contains name ".."

/-- The closures that serving the request passes to `dispatch_mutation` when its job is admitted. -/
def Request.mutations : Request → List MutationClosure
  | .installPackages packages options =>
    match validatePackageNames packages with
    | .error _ => []
    | .ok () => [.install packages options]
  | .updatePackage name =>
    match validatePackageName name with
    | .error _ => []
    | .ok () => if name = selfPackageName then [.selfUpdate name] else [.update name]
  | .removePackage name =>
    match validatePackageName name with
    | .error _ => []
    | .ok () => [.remove name]
  | .applyPatches packages _ _ =>
    match validateNames (packages.getD []) with
    | .error _ => []
    | .ok () => [.patchApply packages]
  | .listPatches stale => if stale then [.cacheRefresh .patchList] else []
  | .healthCheck stale => if stale then [.cacheRefresh .healthCheck] else []
  | _ => []

/-- An operation of which the result does not matter here. -/
def discard {α : Type} (op : Op α) : Op Unit := do
  let _ ← op

/-- The operations that the handler, or the task that it spawns, calls outside of a mutation. -/
def Request.queries (b : PackageManagerBackend) : Request → List (Op Unit)
  | .listPackages name => [discard (b.listPackages name)]
  | .getPackage name =>
    match validatePackageName name with
    | .error _ => []
    | .ok () => [discard (b.getPackage name)]
  | .listPatches _ => [discard b.listPatches]
  | .applyPatches packages allowReboot rebootDelaySeconds =>
    match validateNames (packages.getD []) with
    | .error _ => []
    | .ok () => if allowReboot then [discard b.getSystemInfo, b.rebootSystem rebootDelaySeconds] else []
  | .getServiceStatus name => if invalidServicePath name then [] else [discard (b.getServiceStatus name)]
  | .getSystemInfo => [discard b.getSystemInfo, discard b.packageDatabaseClean]
  | .rebootSystem delaySeconds _ _ => [b.rebootSystem delaySeconds]
  | .installPackages _ _ | .updatePackage _ | .removePackage _ | .healthCheck _ | .rollbackJob _ | .deleteJob _ => []

/-- All that serving the request may make the backend do. -/
def Request.programs (b : PackageManagerBackend) (req : Request) : List (Op Unit) :=
  req.queries b ++ req.mutations.map (·.op b)

/-! ## What the validation promises -/

theorem validateSpec_ok {pkg : PackageSpec} (h : validateSpec pkg = .ok ()) : beginsAlphanumeric pkg.name = true := by
  simp only [validateSpec, bind, Except.bind] at h
  split at h
  · cases h
  next hn => exact (validateText_ok hn).1

theorem validatePackageNames_ok {packages : List PackageSpec} (h : validatePackageNames packages = .ok ()) :
    ∀ pkg ∈ packages, beginsAlphanumeric pkg.name = true := by
  induction packages with
  | nil => simp
  | cons pkg pkgs ih =>
    simp only [validatePackageNames, bind, Except.bind] at h
    split at h
    · cases h
    next hn =>
    intro p hp
    rcases List.mem_cons.1 hp with rfl | hp
    · exact validateSpec_ok hn
    · exact ih h p hp

theorem validateNames_ok {names : List String} (h : validateNames names = .ok ()) :
    ∀ name ∈ names, beginsAlphanumeric name = true := by
  induction names with
  | nil => simp
  | cons name names ih =>
    simp only [validateNames, bind, Except.bind] at h
    split at h
    · cases h
    next hn =>
    intro n hmem
    rcases List.mem_cons.1 hmem with rfl | hmem
    · exact (validateText_ok hn).1
    · exact ih h n hmem

end LinuxPatchApi.Api
