/-
`src/enroll/identity.rs`: what the agent finds out about its host before it enrolls, and the address that it reports.
What a file, a command or the list of interfaces answers may be another at every call.
-/
import LinuxPatchApi.Lib.Prog
import LinuxPatchApi.Lib.FinMap
import LinuxPatchApi.Net
import LinuxPatchApi.Packages.ErrorUtils
import Mathlib.Data.String.Basic

namespace LinuxPatchApi.Enroll

open LinuxPatchApi.Packages Text Interaction

/-! ## What is asked of the host -/

/-- An entry of `get_if_addrs`: an interface with one of its addresses. -/
structure Interface where
  name : String
  ip : IpAddr
  deriving DecidableEq, Repr

/-- Whether its address is a loopback address. -/
def Interface.isLoopback (i : Interface) : Bool := i.ip.isLoopback

/-- What `Command::output` returns of a process that ran. -/
structure Finished where
  success : Bool
  stdout : List UInt8
  stderr : List UInt8
  deriving DecidableEq, Repr

inductive HostQuery
  | readToString (path : String)
  | output (program : String) (args : List String)
  | getIfAddrs
  deriving DecidableEq, Repr

/-- An error of the operating system is its text. -/
abbrev HostQuery.Answer : HostQuery → Type
  | .readToString _ => Except String String
  | .output _ _ => Except String Finished
  | .getIfAddrs => Except String (List Interface)

abbrev HostOp := Fallible AnyhowError HostQuery HostQuery.Answer

def readHost (path : String) : HostOp (Except String String) := Fallible.perform (HostQuery.readToString path)

def commandOutput (program : String) (args : List String) : HostOp (Except String Finished) :=
  Fallible.perform (HostQuery.output program args)

def getIfAddrs : HostOp (Except String (List Interface)) := Fallible.perform HostQuery.getIfAddrs

/-- The output of a process that succeeded, decoded and trimmed. -/
def stdoutOf (output : Except String Finished) : Option String :=
  match output with
  | .ok o => if o.success then some (trim (fromUtf8Lossy o.stdout)) else none
  | .error _ => none

/-- The first that one of several ways gives; the later ones are not tried. -/
def firstOf {α : Type} : List (HostOp (Option α)) → HostOp (Option α)
  | [] => return none
  | way :: ways => do
    match ← way with
    | some a => return some a
    | none => firstOf ways

/-- What was found, or else an error. -/
def orFail {α : Type} (found : Option α) (error : AnyhowError) : HostOp α :=
  match found with
  | some a => return a
  | none => throw error

/-! ## Machine id and names -/

def getMachineId : HostOp String := do
  let primary ← readHost "/etc/machine-id"
  match primary.toOption.filter fun content => !(trim content).isEmpty with
  | some content => return trim content
  | none =>
    match ← readHost "/var/lib/dbus/machine-id" with
    | .error e => throw ((anyhow e).context
        "Failed to read machine-id from /etc/machine-id or /var/lib/dbus/machine-id")
    | .ok content =>
      if (trim content).isEmpty then throw (anyhow "machine-id file is empty") else return trim content

/-- `hostname -f`, if it gives a name with a domain. -/
def qualifiedName : HostOp (Option String) := do
  let output ← commandOutput "hostname" ["-f"]
  return (stdoutOf output).filter fun name => !name.isEmpty && contains name "." && name != "(none)"

/-- `hostname` with the domain of `hostname -d`, which is asked for only if there is a name. -/
def nameWithDomain : HostOp (Option String) := do
  let output ← commandOutput "hostname" []
  match (stdoutOf output).filter fun short => !short.isEmpty && short != "(none)" with
  | none => return none
  | some short =>
    let output ← commandOutput "hostname" ["-d"]
    return ((stdoutOf output).filter fun domain => !domain.isEmpty).map fun domain => short ++ "." ++ domain

def hostnameFile : HostOp (Option String) := do
  let content ← readHost "/etc/hostname"
  return (content.toOption.map trim).filter fun name => !name.isEmpty && name != "(none)"

/-- `hostname`, whatever name it gives. -/
def hostnameCommand : HostOp (Option String) := do
  let output ← commandOutput "hostname" []
  return (stdoutOf output).filter fun name => !name.isEmpty

def getFqdn : HostOp String := do
  let name ← firstOf [qualifiedName, nameWithDomain, hostnameFile, hostnameCommand]
  return name.getD "localhost"

/-- `split('.').next()`. -/
def firstLabel (name : String) : String := (split name '.').headD name

def labelOfFqdn : HostOp (Option String) := do
  let fqdn ← getFqdn
  return if fqdn != "localhost" && contains fqdn "." then some (firstLabel fqdn) else none

def getHostname : HostOp String := do
  let name ← firstOf [do return (← hostnameFile).map firstLabel, do return (← hostnameCommand).map firstLabel,
    labelOfFqdn]
  return name.getD "localhost"

/-! ## Addresses of the host -/

/-- The text of an address that the manager may reach, of a bridge and a link of its own neither. -/
def reportable (i : Interface) : Option String :=
  if i.isLoopback then none
  else match i.ip with
    | .v4 ip => if ip.isContainerBridge || ip.isLinkLocal then none else some ip.text
    | .v6 _ => none

/-- `sort` and `dedup`. -/
def sortDedup (addrs : List String) : List String :=
  (addrs.insertionSort (· ≤ ·)).destutter (· ≠ ·)

def getIpAddresses : HostOp (List String) := do
  match ← getIfAddrs with
  | .error e => throw ((anyhow e).context "Failed to enumerate network interfaces")
  | .ok ifaces => return sortDedup (ifaces.filterMap reportable)

/-- The word after the first `src`. -/
def sourceWord (words : List String) : Option String := (words.dropWhile (· != "src"))[1]?

/-- That word, if it is an address that may be reported. -/
def routeSource (stdout : String) : Option String :=
  (sourceWord (splitWhitespace stdout)).filter fun part => (Ipv4Addr.parse part).any fun ip =>
    !ip.isLoopback && !ip.isContainerBridge && !ip.isLinkLocal

def getRouteSourceIp (targetIp : String) : HostOp String := do
  match ← commandOutput "ip" ["route", "get", targetIp] with
  | .error e => throw ((anyhow e).context "Failed to execute 'ip route get' — is iproute2 installed?")
  | .ok o =>
    if !o.success then
      throw (anyhow ("'ip route get " ++ targetIp ++ "' failed: " ++ trim (fromUtf8Lossy o.stderr)))
    else orFail (routeSource (fromUtf8Lossy o.stdout)) (anyhow ("Could not determine source IP for route to '" ++
      targetIp ++ "' — 'ip route get' output: " ++ trim (fromUtf8Lossy o.stdout)))

/-- The address of an entry for the interface, of which bridges and links count too. -/
def addressOn (name : String) (i : Interface) : Option String :=
  if i.name != name then none
  else match i.ip with
    | .v4 ip => if i.isLoopback then none else some ip.text
    | .v6 _ => none

def getIpForInterface (interfaceName : String) : HostOp String := do
  match ← getIfAddrs with
  | .error e => throw ((anyhow e).context "Failed to enumerate network interfaces for interface lookup")
  | .ok ifaces =>
    orFail (ifaces.findSome? (addressOn interfaceName))
      (anyhow ("No non-loopback IPv4 address found on interface '" ++ interfaceName ++ "'"))

/-- The configured address, if it is one and no loopback address. -/
def configuredIp (reportIp : Option String) : Option String :=
  reportIp.filter fun ip => (Ipv4Addr.parse ip).any fun addr => !addr.isLoopback

/-- What a lookup gives; that it fails is only logged. -/
def tryLookup (lookup : Option (HostOp String)) : HostOp (Option String) :=
  match lookup with
  | none => return none
  | some op => do
    let found ← Fallible.attempt op
    return found.toOption

/-- What is left when nothing is configured and there is no route. -/
def detectedIp : HostOp String := do
  let addrs ← getIpAddresses
  orFail addrs.head? (anyhow "No suitable IPv4 address found on any interface")

def getPrimaryIp (reportInterface reportIp routeTarget : Option String) : HostOp String := do
  match ← firstOf [pure (configuredIp reportIp), tryLookup (reportInterface.map getIpForInterface),
    tryLookup (routeTarget.map getRouteSourceIp)] with
  | some ip => return ip
  | none => detectedIp

/-! ## The operating system -/

/-- The detail that a key of `/etc/os-release` fills. -/
def detailOf : String → Option String
  | "NAME" => some "distro"
  | "ID" => some "name"
  | "VERSION_ID" => some "version"
  | "ID_LIKE" => some "id_like"
  | "VERSION_CODENAME" => some "codename"
  | _ => none

def unquote (value : String) : String := trimChar (trimChar (trim value) '"') '\''

def osDetailsLine (details : FinMap String String) (line : String) : FinMap String String :=
  if (trim line).isEmpty || startsWith (trim line) "#" then details
  else match splitOnce (trim line) "=" with
    | none => details
    | some (key, value) => match detailOf key with
      | none => details
      | some detail => details.insert detail (unquote value)

/-- What `/etc/os-release` says. -/
def osReleaseDetails (content : Option String) : FinMap String String :=
  match content with
  | some content => (lines content).foldl osDetailsLine ∅
  | none => ((∅ : FinMap String String).insert "distro" "unknown").insert "version" "unknown"

/-- A kernel is reported unless `uname` ran and failed. -/
def kernelDetail (output : Except String Finished) (details : FinMap String String) : FinMap String String :=
  match output with
  | .error _ => details.insert "kernel" "unknown"
  | .ok o => if o.success then details.insert "kernel" (trim (fromUtf8Lossy o.stdout)) else details

def getOsDetails : HostOp (FinMap String String) := do
  let content ← readHost "/etc/os-release"
  let output ← commandOutput "uname" ["-r"]
  return kernelDetail output (osReleaseDetails content.toOption)

end LinuxPatchApi.Enroll
