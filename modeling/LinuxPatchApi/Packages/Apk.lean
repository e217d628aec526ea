/-
`ApkBackend` of `src/packages/mod.rs`: package operations on Alpine.
-/
import LinuxPatchApi.Packages.Apt

namespace LinuxPatchApi.Packages

open Text Interaction

namespace ApkBackend

def runApk (args : List Arg) : Op String := runCommandTimed "apk" args (timeoutFor ["update"] args)

def parseNameVersion (ident : String) : String × String := splitNameVersion ident

/-! ## Parsing -/

/-- The description behind the repository in brackets. -/
def descriptionOf (rest : String) : String :=
  match splitOnce rest "] " with
  | some (_, description) => description
  | none =>
    match splitOnce rest "]" with
    | some (_, description) => trim description
    | none => rest

/-- A line of `apk list --installed`. -/
def parsePackageLine (line : String) : Option Package :=
  if (trim line).isEmpty then none
  else
    let (ident, description) : String × String := match (splitOnce line " [").or (splitOnce line " ") with
      | some (ident, rest) => (ident, descriptionOf rest)
      | none => (trim line, "")
    let (name, version) := parseNameVersion ident
    some { name, version, status := .installed, upgradable := false, latestVersion := none, description }

def parseApkPackageList (output : String) : List Package := (lines output).filterMap parsePackageLine

/-- The section of `apk info -a` that a line belongs to. -/
inductive InfoField where
  | description
  | webpage
  | installedSize
  | dependencies
  | provides
  | requiredBy
  deriving DecidableEq, Repr

/-- A package under construction and the current section. -/
structure InfoState where
  package : Package
  field : Option InfoField

def stripDependencyPrefixes (dep : String) : String :=
  trimStartMatches (trimStartMatches (trimStartMatches dep "so:") "cmd:") "pc:"

/-- A line inside a section. -/
def infoContent (st : InfoState) (line : String) : InfoState :=
  let p := st.package
  match st.field with
  | some .description => if p.description.isEmpty then { st with package := { p with description := trim line } } else st
  | some .dependencies =>
    { st with package := { p with dependencies := p.dependencies ++ (splitWhitespace line).map stripDependencyPrefixes } }
  | some .requiredBy =>
    { st with package := { p with
        reverseDependencies := p.reverseDependencies ++ (splitWhitespace line).map fun req => (parseNameVersion req).1 } }
  | some .installedSize =>
    if p.sizeInstalled.isNone then { st with package := { p with sizeInstalled := some (trim line ++ " bytes") } } else st
  | _ => st

/-- One line of `apk info -a`: a header begins a section, a blank line ends it. -/
def infoLine (name : String) (st : InfoState) (line : String) : InfoState :=
  let p := st.package
  if contains line " description:" then
    let header := ((splitOnce line " description:").map Prod.fst).getD ""
    let (parsedName, version) := parseNameVersion (trim header)
    { package := if parsedName == name || p.version.isEmpty then { p with version } else p
      field := some .description }
  else if contains line " webpage:" then { st with field := some .webpage }
  else if contains line " installed size:" then
    let sizeStr := trim (((splitOnce line " installed size:").map Prod.snd).getD "")
    { package := if sizeStr.isEmpty then p else { p with sizeInstalled := some (sizeStr ++ " bytes") }
      field := some .installedSize }
  else if contains line " dependencies:" then { st with field := some .dependencies }
  else if contains line " provides:" then { st with field := some .provides }
  else if contains line " required by:" then { st with field := some .requiredBy }
  else if !(trim line).isEmpty then infoContent st line
  else { st with field := none }

/-! ## Queries -/

def firstLineVersion (output : String) : Option String :=
  (lines output).head?.bind fun line => nonemptyVersion (parseNameVersion (trim line)).2

def parseApkInfo (output name : String) (status : PackageStatus) : Op (Option Package) := do
  let blank : Package := { name, version := "", status, upgradable := false, latestVersion := none }
  let p := ((lines output).foldl (infoLine name) ⟨blank, none⟩).package
  let upgradable ← unwrapOr false do
    let o ← runApk ["list", "--upgradable", .request name]
    return !(trim o).isEmpty && contains o name
  let latestVersion ←
    if upgradable then unwrapOr none do
      let o ← runApk ["info", .request name]
      return firstLineVersion o
    else pure (some p.version)
  return some { p with upgradable, latestVersion }

def listPackages (filter : Option String) : Op (List Package) := do
  let args : List Arg := match filter with
    | some f => ["list", "--installed", .request f]
    | none => ["list", "--installed"]
  let output ← runApk args
  return parseApkPackageList output

end ApkBackend

/-- The check of a package name that `get_package` makes in all backends but one. -/
def invalidPackageName (name : String) : Bool :=
  name.isEmpty || contains name "/" || contains name ".." || contains name " "

def checkedName (name : String) (query : Op (Option Package)) : Op (Option Package) :=
  if invalidPackageName name then throw (anyhow ("Invalid package name: " ++ name)) else query

namespace ApkBackend

/-- The first line of `apk search`. -/
def foundPackage (name output : String) : Option Package :=
  if !(trim output).isEmpty && contains output name then
    (lines output).head?.map fun firstLine =>
      let (pkgName, version) := parseNameVersion (trim firstLine)
      { name := pkgName, version, status := .available, upgradable := false, latestVersion := none }
  else none

def lookUpPackage (name : String) : Op (Option Package) := do
  let listOutput ← runApk ["list", "--installed", .request name]
  if !(trim listOutput).isEmpty && contains listOutput name then
    let infoOutput ← runApk ["info", "-a", .request name]
    parseApkInfo infoOutput name .installed
  else
    unwrapOr none do
      let output ← runApk ["search", .request name]
      return foundPackage name output

def getPackage (name : String) : Op (Option Package) := checkedName name (lookUpPackage name)

/-- A line of `apk list --upgradable`: new version, and the old one behind `<` if it is there. -/
def patchOfLine (line : String) : Option Patch :=
  if (trim line).isEmpty then none
  else
    let parts : Option (String × String) := match splitOnce line " < " with
      | some (ident, rest) => some (ident, ((splitOnce rest " ").map Prod.fst).getD rest)
      | none => (splitOnce line " ").map fun (ident, _) => (ident, "")
    parts.map fun (ident, currentVersion) =>
      Patch.of (parseNameVersion ident).1 currentVersion (parseNameVersion ident).2 "Package update available"

def listPatches : Op (List Patch) := do
  let output ← runApk ["list", "--upgradable"]
  return (lines output).filterMap patchOfLine

def getInstalledVersion (name : String) : Op (Option String) :=
  unwrapOr none do
    let output ← runApk ["list", "--installed", .request name]
    return ((lines output).filter (contains · name)).findSome? fun line =>
      nonemptyVersion (parseNameVersion (trim line)).2

def getCandidateVersion (name : String) : Op (Option String) :=
  unwrapOr none do
    let output ← runApk ["info", .request name]
    return firstLineVersion output

/-! ## Mutations -/

def installPackages (packages : List PackageSpec) (options : InstallOptions) : Op Unit := do
  let force : List Arg := if options.force then ["--force"] else []
  let separator : List Arg := ["--"]
  let args : List Arg := ["add"]
  let _ ← runApk (args ++ force ++ separator ++ packages.map (PackageSpec.arg "="))

def updatePackage (name : String) : Op Unit := do
  let _ ← runApk ["add", "--upgrade", "--", .request name]

def removePackage (name : String) (_purge : Bool) : Op Unit := do
  let _ ← runApk ["del", "--", .request name]

def applyPatches (packages : Option (List String)) : Op Unit := do
  let args : List Arg := match packages with
    | some pkgs => "upgrade" :: "--" :: pkgs.map Arg.request
    | none => ["upgrade"]
  let _ ← runApk args

def refreshPackageCache : Op Unit := recordRefresh "APK" (runApk ["update"])

def repairPackageDatabase : Op Unit := do
  let _ ← runApk ["fix"]

/-! ## The system -/

def rebootNow : Op Unit := do
  let _ ← runCommandTimed "reboot" [] quickOpTimeout

/-- A delayed reboot is immediate where `shutdown` is missing. -/
def rebootSystem (delaySeconds : Nat) : Op Unit := do
  if delaySeconds > 0 then
    if ← commandAvailable "shutdown" then Packages.rebootSystem delaySeconds else rebootNow
  else rebootNow

def getServiceStatus (name : String) : Op (Option ServiceStatus) := withServiceName name (getOpenrcServiceStatus name)

def backend : PackageManagerBackend where
  listPackages := listPackages
  getPackage := getPackage
  installPackages := installPackages
  updatePackage := updatePackage
  removePackage := removePackage
  listPatches := listPatches
  applyPatches := applyPatches
  getSystemInfo := getSystemInfo
  rebootSystem := rebootSystem
  getServiceStatus := getServiceStatus
  refreshPackageCache := refreshPackageCache
  getInstalledVersion := getInstalledVersion
  getCandidateVersion := getCandidateVersion
  repairPackageDatabase := repairPackageDatabase
  restartOwnService := spawnDetached "rc-service" ["linux-patch-api", "restart"] "Failed to spawn rc-service restart"

end ApkBackend

end LinuxPatchApi.Packages
