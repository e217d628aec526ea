/-
`PacmanBackend` of `src/packages/mod.rs`: package operations on Arch, each after a wait for the
database lock; and the five backends together.
-/
import LinuxPatchApi.Packages.Rpm

namespace LinuxPatchApi.Packages

open Text Interaction

namespace PacmanBackend

/-! ## The database lock -/

def lockPath : String := "/var/lib/pacman/db.lck"

/-- Seconds that a lock is waited for. -/
def maxWait : Nat := 60

/-- One round of the wait loop, after sleeps of `slept` seconds in all. -/
def waitRound (slept : Nat) (again : Op Unit) : Op Unit := do
  if ← pathExists lockPath then
    let waited : { seconds : Nat // slept ≤ seconds } ← ask (.elapsed slept)
    if maxWait ≤ waited.val then
      let _ ← ask (.removeFile lockPath)
    else
      let _ ← ask (.sleep 5)
      again

/-- The wait loop with `n` sleeps to go: a sleep takes at least its five seconds, so that after twelve
of them the time is up. -/
def waitForLock : Nat → Op Unit
  | 0 => waitRound maxWait (return ())
  | n + 1 => waitRound (maxWait - 5 * (n + 1)) (waitForLock n)

/-- An error that says that pacman was killed at its deadline. -/
def saysTimedOut (e : AnyhowError) : Bool := contains e.display "timed out"

def waitWhileLocked : Op Unit := do
  if ← pathExists lockPath then waitForLock 12

/-- Pacman leaves its lock behind when it is killed. -/
def removeLockAfterTimeout (e : AnyhowError) : Op Unit := do
  if saysTimedOut e then
    let _ ← ask (.removeFile lockPath)

def runPacmanWithAcceptableExit (args : List Arg) (acceptable : List Int) : Op String := do
  waitWhileLocked
  match ← Fallible.attempt
      (runCommandWithAcceptableExit "pacman" args acceptable (some (timeoutFor ["-Sy", "-Syu"] args))) with
  | .ok output => return output
  | .error e =>
    removeLockAfterTimeout e
    throw e

def runPacman (args : List Arg) : Op String := runPacmanWithAcceptableExit args [0]

/-! ## Parsing -/

/-- A line of `pacman -Q`. -/
def parsePackageLine (line : String) : Option Package :=
  let trimmed := trim line
  if trimmed.isEmpty then none
  else match splitAtWhitespace trimmed with
    | [name, version] => some { name, version, status := .installed, upgradable := false, latestVersion := none }
    | _ => none

def parsePacmanPackageList (output : String) : List Package := (lines output).filterMap parsePackageLine

/-- Key and value of a line `Field : value`. -/
def keyValue (line : String) : Option (String × String) :=
  (splitOnce line ":").map fun (key, value) => (trim key, trim value)

/-- The words of a list field, unless it is empty or `None`. -/
def listField (value : String) : List String :=
  if value.isEmpty || value == "None" then [] else splitWhitespace value

/-- One line of `pacman -Qi`. -/
def infoLine (p : Package) (line : String) : Package :=
  match keyValue line with
  | none => p
  | some (key, value) =>
    match key with
    | "Version" => { p with version := value }
    | "Description" => { p with description := value }
    | "Installed Size" => { p with sizeInstalled := some value }
    | "Install Date" => { p with installDate := some value }
    | "Depends On" => { p with dependencies := p.dependencies ++ listField value }
    | "Required By" => { p with reverseDependencies := p.reverseDependencies ++ listField value }
    | _ => p

/-- One line of `pacman -Si`. -/
def availableLine (p : Package) (line : String) : Package :=
  match keyValue line with
  | none => p
  | some (key, value) =>
    match key with
    | "Version" => { p with version := value }
    | "Description" => { p with description := value }
    | _ => p

/-- The new version in a line of `pacman -Qu` about the package. -/
def newVersionInLine (name line : String) : Option String :=
  match splitWhitespace line with
  | first :: _ :: _ :: version :: _ => if first == name then some version else none
  | _ => none

/-! ## Queries -/

def parsePacmanInfo (output name : String) : Op (Option Package) := do
  let blank : Package := { name, version := "", status := .installed, upgradable := false, latestVersion := none }
  let p := (lines output).foldl infoLine blank
  let upgradable ← unwrapOr false do
    let o ← runPacman ["-Qu", .request name]
    return !(trim o).isEmpty
  let latestVersion ←
    if upgradable then unwrapOr none do
      let o ← runPacman ["-Qu", .request name]
      return (lines o).findSome? (newVersionInLine name)
    else pure (some p.version)
  return some { p with upgradable, latestVersion }

def listPackages (filter : Option String) : Op (List Package) := do
  let args : List Arg := match filter with
    | some f => ["-Q", .request f]
    | none => ["-Q"]
  let output ← runPacman args
  let packages := parsePacmanPackageList output
  match filter with
  | some f => return packages.filter fun p => contains p.name f
  | none => return packages

def availablePackage (name : String) : Op (Option Package) := do
  match ← tryRun "pacman" ["-Si", .request name] with
  | some output =>
    if output.success then
      let blank : Package := { name, version := "", status := .available, upgradable := false, latestVersion := none }
      return some ((lines output.stdout).foldl availableLine blank)
    else return none
  | none => return none

def lookUpPackage (name : String) : Op (Option Package) := do
  match ← Fallible.attempt (runPacman ["-Q", .request name]) with
  | .error _ => availablePackage name
  | .ok _ =>
    let infoOutput ← runPacman ["-Qi", .request name]
    parsePacmanInfo infoOutput name

def getPackage (name : String) : Op (Option Package) := checkedName name (lookUpPackage name)

/-- A line of `pacman -Qu`. -/
def patchOfLine (line : String) : Option Patch :=
  match splitWhitespace (trim line) with
  | name :: currentVersion :: arrow :: availableVersion :: _ =>
    if arrow == "->" then some (Patch.of name currentVersion availableVersion "Package update available") else none
  | _ => none

/-- `pacman -Qu` exits with 1 when there are no updates. -/
def listPatches : Op (List Patch) := do
  let output ← runPacmanWithAcceptableExit ["-Qu"] [0, 1]
  return (lines output).filterMap patchOfLine

def getInstalledVersion (name : String) : Op (Option String) :=
  unwrapOr none do
    let output ← runPacman ["-Q", .request name]
    return (splitAtWhitespace (trim ((lines output).headD "")))[1]?

/-- The version in a line of `pacman -Si`, unless it is empty. -/
def candidateInLine (line : String) : Option String :=
  (keyValue line).bind fun (key, value) => if key == "Version" then nonemptyVersion value else none

def getCandidateVersion (name : String) : Op (Option String) := do
  match ← tryRun "pacman" ["-Si", .request name] with
  | some o => if o.success then return (lines o.stdout).findSome? candidateInLine else return none
  | none => return none

/-! ## Mutations -/

/-- A version in the request is not used. -/
def installPackages (packages : List PackageSpec) (options : InstallOptions) : Op Unit := do
  let args : List Arg := ["-S", "--noconfirm", "--needed"]
  let force : List Arg := if options.force then ["--overwrite", "*"] else []
  let separator : List Arg := ["--"]
  let _ ← runPacman (args ++ force ++ separator ++ packages.map fun pkg => Arg.request pkg.name)

def updatePackage (name : String) : Op Unit := do
  let _ ← runPacman ["-S", "--noconfirm", "--", .request name]

def removePackage (name : String) (_purge : Bool) : Op Unit := do
  let _ ← runPacman ["-R", "--noconfirm", "--", .request name]

def applyPatches (packages : Option (List String)) : Op Unit := do
  let args : List Arg := match packages with
    | some pkgs => "-S" :: "--noconfirm" :: "--needed" :: "--" :: pkgs.map Arg.request
    | none => ["-Syu", "--noconfirm"]
  let _ ← runPacman args

def refreshPackageCache : Op Unit := recordRefresh "Pacman" (runPacman ["-Sy"])

def backend : PackageManagerBackend where
  listPackages := listPackages
  getPackage := getPackage
  installPackages := installPackages
  updatePackage := updatePackage
  removePackage := removePackage
  listPatches := listPatches
  applyPatches := applyPatches
  getSystemInfo := getSystemInfo
  rebootSystem := rebootSystem
  getServiceStatus := Rpm.getServiceStatus
  refreshPackageCache := refreshPackageCache
  getInstalledVersion := getInstalledVersion
  getCandidateVersion := getCandidateVersion
  restartOwnService := restartOwnServiceDefault

end PacmanBackend

/-! ## The factory -/

/-- The backends that `create_backend` chooses from. -/
inductive BackendKind where
  | apt
  | dnf
  | yum
  | apk
  | pacman
  deriving DecidableEq, Repr

def BackendKind.backend : BackendKind → PackageManagerBackend
  | .apt => AptBackend.backend
  | .dnf => DnfBackend.backend
  | .yum => YumBackend.backend
  | .apk => ApkBackend.backend
  | .pacman => PacmanBackend.backend

/-- `create_backend`: the first package manager that is there. -/
def createBackend : Op BackendKind := do
  if ← pathExists "/usr/bin/apt" then return .apt
  if ← pathExists "/usr/bin/dnf" then return .dnf
  if ← pathExists "/usr/bin/yum" then return .yum
  if ← pathExists "/usr/bin/apk" then return .apk
  if ← pathExists "/sbin/apk" then return .apk
  if ← pathExists "/usr/bin/pacman" then return .pacman
  throw (anyhow "No supported package manager found")

end LinuxPatchApi.Packages
