/-
`src/auth/whitelist.rs`: the whitelist file, its entries, the manager that answers from the entries in memory, and
the append of an entry.
-/
import LinuxPatchApi.Files
import LinuxPatchApi.Net

namespace LinuxPatchApi.Auth

open LinuxPatchApi.Packages Disk FileM

/-! ## Entries -/

inductive WhitelistEntry
  | ip (ip : Ipv4Addr)
  | cidr (network : Ipv4Addr) (pfx : UInt8)
  | hostname (name : String) (resolved : Ipv4Addr)
  deriving DecidableEq, Repr

def ipInSubnet (ip network : Ipv4Addr) (pfx : UInt8) : Bool :=
  let mask : BitVec 32 := if pfx = 0 then 0 else BitVec.allOnes 32 <<< (32 - pfx).toNat
  ip.bits &&& mask == network.bits &&& mask

example : ipInSubnet (.ofOctets 192 168 1 100) (.ofOctets 192 168 1 0) 24 = true := by decide
example : ipInSubnet (.ofOctets 192 168 2 1) (.ofOctets 192 168 1 0) 24 = false := by decide
example : ipInSubnet (.ofOctets 1 2 3 4) (.ofOctets 0 0 0 0) 0 = true := by decide

def WhitelistEntry.allows (ip : Ipv4Addr) : WhitelistEntry → Bool
  | .ip allowed => ip == allowed
  | .cidr network pfx => ipInSubnet ip network pfx
  | .hostname _ resolved => ip == resolved

/-- The digits of a number below 256; the sign is off already. -/
def digitsU8 : Nat → List Char → Except String Nat
  | n, [] => .ok n
  | n, c :: cs =>
    if !Text.isAsciiDigit c then .error "invalid digit found in string"
    else if n * 10 + (c.toNat - 0x30) ≥ 256 then .error "number too large to fit in target type"
    else digitsU8 (n * 10 + (c.toNat - 0x30)) cs

/-- `parse::<u8>`. -/
def parseU8 (s : String) : Except String UInt8 :=
  match s.toList with
  | [] => .error "cannot parse integer from empty string"
  | ['+'] => .error "invalid digit found in string"
  | '+' :: cs => (digitsU8 0 cs).map UInt8.ofNat
  | cs => (digitsU8 0 cs).map UInt8.ofNat

def parseIpv4 (s : String) : Except AnyhowError Ipv4Addr :=
  match Ipv4Addr.parse s with
  | some ip => .ok ip
  | none => .error (anyhow "invalid IPv4 address syntax")

def parseCidr (entryStr ipStr prefixStr : String) : Except AnyhowError WhitelistEntry := do
  let ip ← (parseIpv4 ipStr).mapError fun e => e.context ("Invalid IP in CIDR notation: " ++ entryStr)
  let pfx ← ((parseU8 prefixStr).mapError anyhow).mapError fun e =>
    e.context ("Invalid prefix in CIDR notation: " ++ entryStr)
  if pfx > 32 then throw (anyhow ("Invalid CIDR prefix (must be 0-32): " ++ entryStr))
  return .cidr ip pfx

/-- The name service: the addresses of a name. -/
abbrev Lookup := String → Except String (List IpAddr)

def resolveHostname (lookup : Lookup) (hostname : String) : Except AnyhowError Ipv4Addr :=
  match lookup hostname with
  | .error e => .error ((anyhow e).context ("Failed to resolve hostname: " ++ hostname))
  | .ok addrs => match addrs.findSome? fun addr => match addr with | .v4 ip => some ip | .v6 _ => none with
    | some ip => .ok ip
    | none => .error (anyhow ("No IPv4 address found for hostname: " ++ hostname))

/-- One line of the file; comments, blanks and names that do not resolve are no entries. -/
def parseEntry (lookup : Lookup) (line : String) : Except AnyhowError (Option WhitelistEntry) :=
  let entryStr := Text.trim line
  if entryStr.isEmpty || Text.startsWith entryStr "#" then .ok none
  else match Text.splitOnce entryStr "/" with
    | some (ipStr, prefixStr) => (parseCidr entryStr ipStr prefixStr).map some
    | none => match Ipv4Addr.parse entryStr with
      | some ip => .ok (some (.ip ip))
      | none => match resolveHostname lookup entryStr with
        | .ok resolved => .ok (some (.hostname entryStr resolved))
        | .error _ => .ok none

def parseEntries (lookup : Lookup) : List String → Except AnyhowError (Finset WhitelistEntry)
  | [] => .ok ∅
  | line :: lines => do
    let entry ← parseEntry lookup line
    let rest ← parseEntries lookup lines
    return match entry with
      | some e => insert e rest
      | none => rest

/-- An address or a CIDR subnet, as `append_entry` takes them. -/
def parseAppended (entryStr : String) : Except AnyhowError WhitelistEntry :=
  match Text.splitOnce entryStr "/" with
  | some (ipStr, prefixStr) => parseCidr entryStr ipStr prefixStr
  | none => match parseIpv4 entryStr with
    | .ok ip => .ok (.ip ip)
    | .error e => .error (e.context ("Invalid IPv4 address: " ++ entryStr))

/-! ## The file -/

/-- The YAML library on `WhitelistConfig`, which is the list of lines. -/
structure WhitelistYaml where
  serialize : List String → Except String String
  parse : String → Except String (List String)

def loadConfig (y : WhitelistYaml) (s : HostFiles) (path : String) : Except AnyhowError (List String) :=
  match readString s path with
  | none => .error (anyhow ("Failed to read whitelist config: " ++ path))
  | some content => match y.parse content with
    | .error e => .error ((anyhow e).context ("Failed to parse whitelist config: " ++ path))
    | .ok lines => .ok lines

/-- The entries that a reload takes from the file. -/
def loadEntries (y : WhitelistYaml) (lookup : Lookup) (s : HostFiles) (path : String) :
    Except AnyhowError (Finset WhitelistEntry) :=
  match loadConfig y s path with
  | .error e => .error e
  | .ok lines => parseEntries lookup lines

/-! ## The manager -/

structure WhitelistManager where
  entries : Finset WhitelistEntry
  configPath : String
  deriving DecidableEq

inductive EventKind
  | modify
  | create
  | other
  deriving DecidableEq, Repr

/-- What `append_entry` has done when it returns Ok. -/
inductive Appended
  | duplicate
  | reloaded (entries : Finset WhitelistEntry)
  deriving DecidableEq

namespace WhitelistManager

/-- Loading the file, and then the watcher, which the notify library may refuse. -/
def new (y : WhitelistYaml) (lookup : Lookup) (s : HostFiles) (configPath : String) (watch : Except AnyhowError Unit) :
    Except AnyhowError WhitelistManager :=
  match loadEntries y lookup s configPath with
  | .error e => .error e
  | .ok entries => watch.map fun () => ⟨entries, configPath⟩

def newDenyAll : WhitelistManager := ⟨∅, ""⟩

/-- The callback of the watcher. -/
def onEvent (m : WhitelistManager) : EventKind → WhitelistManager
  -- "Whitelist file changed, reloading..." goes to the log, and nothing is reloaded
  | .modify | .create => m
  | .other => m

def isAllowed (m : WhitelistManager) (ip : Ipv4Addr) : Bool := decide (∃ e ∈ m.entries, e.allows ip = true)

def isSocketAllowed (m : WhitelistManager) : IpAddr → Bool
  | .v4 ip => m.isAllowed ip
  | .v6 _ => false

/-- The lock file beside the whitelist, and the lock on it, which `locked` grants or refuses. -/
def acquireLock (path : String) (locked : Except String Unit) : FileM Unit := do
  let lockPath := path ++ ".lock"
  (io (.write lockPath (.text ""))).context ("Failed to create lock file: " ++ lockPath)
  (reading fun _ => locked.mapError anyhow).context "Failed to acquire exclusive whitelist lock"

/-- The lines of the file, none if there is no file. -/
def currentLines (y : WhitelistYaml) (path : String) : FileM (List String) := do
  match ← Action.content path with
  | none => return []
  | some _ => (reading fun s => loadConfig y s path).context "Failed to load existing whitelist for append"

def ensureDirectory (path : String) : FileM Unit := do
  match Paths.parent path with
  | none => return ()
  | some parent =>
    if !(← Action.dirExists parent) then
      (io (.createDirAll parent)).context ("Failed to create whitelist directory: " ++ parent)

def writeTemp (temp yaml : String) : FileM Unit := do
  (io (.createNew temp 0o666 (.text ""))).context ("Failed to create temp whitelist file: " ++ temp)
  (io (.writeAll temp (.text yaml))).context ("Failed to write whitelist data to: " ++ temp)
  (io (.flush temp)).context ("Failed to flush whitelist data to: " ++ temp)

def writeLines (y : WhitelistYaml) (path : String) (lines : List String) : FileM Unit := do
  ensureDirectory path
  match y.serialize lines with
  | .error e => Action.fail ((anyhow e).context "Failed to serialize whitelist config")
  | .ok yaml =>
    let temp := Paths.withExtension path "tmp"
    writeTemp temp yaml
    (io (.rename temp path)).context ("Failed to atomically rename whitelist temp file " ++ temp ++ " to " ++ path)

/-- From the lock to the reload. -/
def appendLine (y : WhitelistYaml) (lookup : Lookup) (m : WhitelistManager) (locked : Except String Unit)
    (entryStr : String)
    (entry : WhitelistEntry) : FileM Appended := do
  acquireLock m.configPath locked
  -- checked again under the lock
  if entry ∈ m.entries then return .duplicate
  let lines ← currentLines y m.configPath
  writeLines y m.configPath (lines ++ [entryStr])
  let entries ← (reading fun s => loadEntries y lookup s m.configPath).context "Failed to reload whitelist after append"
  return .reloaded entries

def appendEntry (y : WhitelistYaml) (lookup : Lookup) (m : WhitelistManager) (locked : Except String Unit)
    (ipOrCidr : String) :
    FileM Appended :=
  let entryStr := Text.trim ipOrCidr
  if entryStr.isEmpty then bail "Cannot append empty whitelist entry"
  else match parseAppended entryStr with
    | .error e => Action.fail e
    | .ok entry => if entry ∈ m.entries then pure .duplicate else appendLine y lookup m locked entryStr entry

/-- The manager after `append_entry`. -/
def afterAppend (m : WhitelistManager) : Except AnyhowError Appended → WhitelistManager
  | .ok (.reloaded entries) => { m with entries }
  | _ => m

end WhitelistManager

end LinuxPatchApi.Auth
