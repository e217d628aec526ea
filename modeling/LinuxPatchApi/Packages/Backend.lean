/-
The common part of `src/packages/mod.rs`: the validators, the data of packages, patches, services and
the system, and the trait that every package manager backend implements.
-/
import LinuxPatchApi.Packages.Coordinator

namespace LinuxPatchApi.Packages

open Text Interaction

/-- `MAX_NAME_LENGTH`. -/
def maxNameLength : Nat := 256

/-- `SELF_PACKAGE_NAME`. -/
def selfPackageName : String := "linux-patch-api"

/-! ## Validation -/

/-- What the three validators share: a text of bounded length in bytes that starts with an ASCII letter
or digit and whose other characters may also be those of `extra`. -/
def validateText (what : String) (extra : List Char) (extraNames : String) (text : String) : Except String Unit :=
  match text.toList with
  | [] => .error (what ++ " cannot be empty")
  | c :: cs =>
    if text.utf8ByteSize > maxNameLength then
      .error (what ++ " exceeds maximum length of " ++ toString maxNameLength ++ " characters")
    else if !isAsciiAlphanumeric c then
      .error (what ++ " must start with an alphanumeric character: '" ++ text ++ "'")
    else if !(c :: cs).all (fun c => isAsciiAlphanumeric c || extra.contains c) then
      .error (what ++ " contains invalid characters: '" ++ text ++ "'. Only alphanumeric, " ++ extraNames ++
        " are allowed")
    else .ok ()

def validatePackageName (name : String) : Except String Unit :=
  validateText "Package name" ['+', '.', '_', '-'] "plus, dot, underscore, and hyphen" name

def validateVersionString (version : String) : Except String Unit :=
  validateText "Version string" ['+', '.', '_', '-', ':', '~']
    "plus, dot, underscore, hyphen, colon, and tilde" version

def validateServiceName (name : String) : Except String Unit :=
  validateText "Service name" ['_', '.', '@', '+', '-'] "underscore, dot, at-sign, plus, and hyphen" name

/-- The text begins with an ASCII letter or digit. -/
def beginsAlphanumeric (s : String) : Bool :=
  match s.toList with
  | [] => false
  | c :: _ => isAsciiAlphanumeric c

theorem validateText_ok {what : String} {extra : List Char} {extraNames text : String}
    (h : validateText what extra extraNames text = .ok ()) :
    beginsAlphanumeric text = true ∧ text.utf8ByteSize ≤ maxNameLength ∧
      ∀ c ∈ text.toList, isAsciiAlphanumeric c = true ∨ c ∈ extra := by
  unfold validateText at h
  unfold beginsAlphanumeric
  split at h
  · cases h
  next c cs hcs =>
  rw [hcs]
  split at h
  · cases h
  next hlen =>
  split at h
  · cases h
  next hc =>
  split at h
  · cases h
  next hall =>
  refine ⟨by simpa using hc, Nat.le_of_not_lt hlen, fun d hd => ?_⟩
  simp only [Bool.not_eq_true', Bool.not_eq_false, List.all_eq_true] at hall
  have := hall d hd
  simpa using this

/-! ## Data -/

inductive PackageStatus where
  | installed
  | available
  | upgradable
  | notInstalled
  deriving DecidableEq, Repr

structure Package where
  name : String
  version : String
  status : PackageStatus
  upgradable : Bool
  latestVersion : Option String
  description : String := ""
  dependencies : List String := []
  reverseDependencies : List String := []
  installDate : Option String := none
  sizeInstalled : Option String := none
  deriving DecidableEq, Repr

structure InstallOptions where
  force : Bool := false
  noRecommends : Bool := false
  deriving DecidableEq, Repr

structure PackageSpec where
  name : String
  version : Option String
  deriving DecidableEq, Repr

structure Patch where
  name : String
  currentVersion : String
  availableVersion : String
  severity : String
  description : String
  cveIds : List String
  requiresReboot : Bool
  deriving DecidableEq, Repr

structure SystemInfo where
  hostname : String
  os : String
  osVersion : String
  kernel : String
  architecture : String
  lastUpdateCheck : Option String
  lastUpdateApply : Option String
  pendingReboot : Bool
  deriving DecidableEq, Repr

structure ServiceStatus where
  name : String
  displayName : String
  activeState : String
  subState : String
  loadState : String
  enabledState : String
  mainPid : Option Nat
  healthy : Bool
  deriving DecidableEq, Repr

/-- `REBOOT_REQUIRED_PACKAGE_PREFIXES`. -/
def rebootRequiredPackagePrefixes : List String :=
  ["kernel", "linux-image", "linux-headers", "linux-generic", "linux-base", "linux-firmware", "glibc", "libc6",
    "systemd", "dbus", "openssl", "libssl", "grub", "shim", "initramfs", "kmod", "microcode", "intel-microcode",
    "amd64-microcode"]

def packageRequiresReboot (packageName : String) : Bool :=
  let nameLower := toLowercase packageName
  rebootRequiredPackagePrefixes.any fun p => startsWith nameLower p || contains nameLower p

/-- The severity that every backend guesses from a package's name. -/
def severityOf (name : String) : String :=
  if contains name "kernel" || contains name "ssl" || contains name "security" then "critical"
  else if contains name "lib" then "high"
  else "medium"

/-- A patch as the backends report it. -/
def Patch.of (name currentVersion availableVersion description : String) : Patch :=
  { name, currentVersion, availableVersion, severity := severityOf name, description, cveIds := []
    requiresReboot := packageRequiresReboot name }

/-! ## The trait -/

/-- `PackageManagerBackend`, without its deprecated method and its cache getter. -/
structure PackageManagerBackend where
  listPackages : Option String → Op (List Package)
  getPackage : String → Op (Option Package)
  installPackages : List PackageSpec → InstallOptions → Op Unit
  updatePackage : String → Op Unit
  removePackage : String → Bool → Op Unit
  listPatches : Op (List Patch)
  applyPatches : Option (List String) → Op Unit
  getSystemInfo : Op SystemInfo
  rebootSystem : Nat → Op Unit
  getServiceStatus : String → Op (Option ServiceStatus)
  refreshPackageCache : Op Unit
  getInstalledVersion : String → Op (Option String)
  getCandidateVersion : String → Op (Option String)
  repairPackageDatabase : Op Unit := pure ()
  packageDatabaseClean : Op Bool := pure true
  restartOwnService : Op Unit

/-- Spawns a command and does not wait for it. -/
def spawnDetached (program : String) (args : List String) (failure : String) : Op Unit := do
  let spawned : Except String Unit ← ask (.spawn program args)
  match spawned with
  | .ok _ => return ()
  | .error e => throw ((anyhow e).context failure)

/-- The default `restart_own_service`. -/
def restartOwnServiceDefault : Op Unit :=
  spawnDetached "systemctl" ["restart", "linux-patch-api.service"] "Failed to spawn service restart command"

/-- What the cache refreshes share: the outcome of the command is recorded in the cache state. -/
def recordRefresh (label : String) (refresh : Op String) : Op Unit := do
  match ← Fallible.attempt refresh with
  | .ok _ =>
    let _ ← ask .updateSuccess
    return ()
  | .error e =>
    let _ ← ask (.updateFailure (label ++ " cache refresh failed: " ++ formatErrorForCache e))
    throw e

/-! ## Identifiers -/

/-- The characters before and after the first hyphen that a digit follows. -/
def nameVersionChars : List Char → Option (List Char × List Char)
  | [] => none
  | c :: cs =>
    if c = '-' ∧ cs.head?.any isAsciiDigit = true then some ([], cs)
    else (nameVersionChars cs).map fun (name, version) => (c :: name, version)

/-- Name and version of a package identifier; no version when no hyphen comes before a digit. -/
def splitNameVersion (ident : String) : String × String :=
  match nameVersionChars ident.toList with
  | some (name, version) => (String.ofList name, String.ofList version)
  | none => (ident, "")

example : splitNameVersion "perl-net-ssleay-1.94-r0" = ("perl-net-ssleay", "1.94-r0") := by decide
example : splitNameVersion "nohyphen" = ("nohyphen", "") := by decide

/-- A version, unless it is empty. -/
def nonemptyVersion (version : String) : Option String := if version.isEmpty then none else some version

end LinuxPatchApi.Packages
