/-
`src/enroll/mod.rs` and the polling of `src/enroll/client.rs`: registration, the polling token in the configuration
file, the polling loop, and provisioning after the approval. What the network and the manager answer is given.
-/
import LinuxPatchApi.Enroll.Provision

namespace LinuxPatchApi.Enroll

open LinuxPatchApi.Packages Disk FileM

/-! ## The configuration -/

/-- `EnrollmentConfig`. -/
structure EnrollmentConfig where
  managerUrl : Option String
  pollingToken : String
  pollingIntervalSeconds : UInt64
  maxPollAttempts : UInt32
  reportInterface : Option String
  reportIp : Option String
  certRenewalThresholdDays : UInt32
  deriving DecidableEq, Repr

def EnrollmentConfig.default : EnrollmentConfig where
  managerUrl := none
  pollingToken := ""
  pollingIntervalSeconds := 60
  maxPollAttempts := 1440
  reportInterface := none
  reportIp := none
  certRenewalThresholdDays := 7

/-- The `tls` section. -/
structure TlsSection where
  enabled : Bool
  paths : TlsConfig
  deriving DecidableEq, Repr

/-- The sections of `AppConfig` that enrollment reads. -/
structure AppConfig where
  tls : Option TlsSection
  whitelist : Option String
  enrollment : Option EnrollmentConfig
  deriving DecidableEq, Repr

/-- The YAML library. -/
structure Yaml where
  serialize : AppConfig → Except String String
  parse : String → Except String AppConfig

/-- What was serialized is parsed back. -/
def Yaml.RoundTrip (y : Yaml) : Prop := ∀ c text, y.serialize c = .ok text → y.parse text = .ok c

namespace AppConfig

/-- `migrate_empty_strings`. -/
def migrateEmptyStrings (c : AppConfig) : AppConfig :=
  { c with
    enrollment := c.enrollment.map fun e => { e with managerUrl := e.managerUrl.filter fun url => !url.isEmpty } }

def load (y : Yaml) (s : HostFiles) (path : String) : Except AnyhowError AppConfig :=
  match readString s path with
  | none => .error (anyhow ("Failed to read config file: " ++ path))
  | some content => match y.parse content with
    | .error e => .error ((anyhow e).context ("Failed to parse config file: " ++ path))
    | .ok config => .ok config.migrateEmptyStrings

def tlsConfig (c : AppConfig) : Option TlsConfig := (c.tls.filter (·.enabled)).map (·.paths)

def whitelistPath (c : AppConfig) : String := c.whitelist.getD "/etc/linux_patch_api/whitelist.yaml"

/-- The saved polling token, empty if there is none. -/
def pollingToken (c : AppConfig) : String := (c.enrollment.map (·.pollingToken)).getD ""

def withToken (c : AppConfig) (token : String) : AppConfig :=
  { c with enrollment := some { c.enrollment.getD .default with pollingToken := token } }

def withoutToken (c : AppConfig) : AppConfig :=
  { c with enrollment := c.enrollment.map fun e => { e with pollingToken := "" } }

/-- The part of saving and of clearing the token that can fail. -/
def write (y : Yaml) (c : AppConfig) (path purpose : String) : FileM Unit :=
  match y.serialize c with
  | .error e => Action.fail ((anyhow e).context ("Failed to serialize config for polling token " ++ purpose))
  | .ok yaml => (io (.write path (.text yaml))).context ("Failed to write config file: " ++ path)

def savePollingToken (y : Yaml) (c : AppConfig) (token path : String) : FileM Unit :=
  (c.withToken token).write y path "persistence"

def clearPollingToken (y : Yaml) (c : AppConfig) (path : String) : FileM Unit := c.withoutToken.write y path "clear"

end AppConfig

/-! ## Polling -/

inductive EnrollmentStatusResponse
  | pending
  | approved (bundle : PkiBundle)
  | denied
  | notFound
  deriving DecidableEq, Repr

/-- What a round of the polling loop meets. Of an answer the body may be lost, and it may not parse. -/
inductive PollEvent
  | response (code : Nat) (body : Except String String) (parsed : Except String EnrollmentStatusResponse)
  | unreachable (error : String)
  | sigint
  | sigterm

/-- `poll_status`, for an answer of the manager. -/
def pollStatus (code : Nat) (body : Except String String) (parsed : Except String EnrollmentStatusResponse) :
    Except AnyhowError EnrollmentStatusResponse :=
  if code = 200 then
    match body, parsed with
    | .error e, _ => .error ((anyhow e).context "Failed to read status response body")
    | .ok _, .error e => .error ((anyhow e).context "Invalid status response — malformed JSON from manager")
    | .ok _, .ok status => .ok status
  else if code = 404 then .error (anyhow "Enrollment token expired or invalid (HTTP 404)")
  else if code = 429 then .error (anyhow "Rate limited (HTTP 429) — polling too frequently. Back off and retry.")
  else if code ≥ 500 then
    .error (anyhow ("Server error (HTTP " ++ toString code ++ ") — " ++ body.toOption.getD "no details" ++
      ". The manager may be experiencing issues."))
  else .error (anyhow ("Unexpected HTTP " ++ toString code ++ " — " ++ body.toOption.getD "no details"))

def effectiveInterval (intervalSeconds : UInt64) : UInt64 := if intervalSeconds = 0 then 60 else intervalSeconds

def effectiveMax (maxAttempts : UInt32) : Nat :=
  if maxAttempts = 0 ∨ maxAttempts > 1440 then 1440 else maxAttempts.toNat

def timedOut (max : Nat) (interval : UInt64) : AnyhowError :=
  let totalSeconds := UInt64.ofNat max * interval
  anyhow ("Enrollment timed out after " ++ toString (totalSeconds / 3600)
    ++ " hours (" ++ toString max ++ "/" ++ toString max ++
    " attempts)")

/-- How a round of the loop ends it; any other round is followed by a sleep and the next one. -/
def PollEvent.outcome : PollEvent → Option (Except AnyhowError PkiBundle)
  | .sigint => some (.error (anyhow "Enrollment interrupted by user"))
  | .sigterm => some (.error (anyhow "Enrollment interrupted by system signal"))
  | .unreachable _ => none
  | .response code body parsed => match pollStatus code body parsed with
    -- every error counts as transient, that of an unknown token too
    | .error _ => none
    | .ok .pending => none
    | .ok (.approved bundle) => some (.ok bundle)
    | .ok .denied => some (.error (anyhow "Enrollment request denied by administrator"))
    | .ok .notFound => some (.error (anyhow "Enrollment token expired or invalid"))

/-- The rounds from `attempt` on, and how the loop ends. -/
def pollLoop (poll : Nat → PollEvent) (max : Nat) (interval : UInt64) :
    Nat → Nat → List PollEvent × Except AnyhowError PkiBundle
  | _, 0 => ([], .error (timedOut max interval))
  | attempt, left + 1 => match (poll attempt).outcome with
    | some r => ([poll attempt], r)
    | none =>
      let (rounds, r) := pollLoop poll max interval (attempt + 1) left
      (poll attempt :: rounds, r)

def pollForApproval (poll : Nat → PollEvent) (intervalSeconds : UInt64) (maxAttempts : UInt32) :
    List PollEvent × Except AnyhowError PkiBundle :=
  pollLoop poll (effectiveMax maxAttempts) (effectiveInterval intervalSeconds) 1 (effectiveMax maxAttempts)

/-! ## The enrollment -/

/-- What the surroundings answer to one enrollment besides the file system. -/
structure EnrollmentAnswers where
  /-- The polling token of `register`, or its error. -/
  register : Except AnyhowError String
  /-- Setting up the signal handlers. -/
  signals : Except AnyhowError Unit
  poll : Nat → PollEvent
  fetchRepoConfig : Except AnyhowError RepoConfig
  managerIp : Except AnyhowError String
  gpg : String → GpgRun
  appendManagerToWhitelist : String → String → FileM Unit

/-- The token to poll with: the saved one, or a new one from the registration. -/
def obtainToken (x : EnrollmentAnswers) (config : AppConfig) : Except AnyhowError String :=
  if config.pollingToken = "" then
    match x.register with
    | .ok token => .ok token
    | .error e =>
      if Text.contains e.display "ENROLLMENT_CONFLICT" then
        .error (anyhow ("Host already registered with manager but no polling token available for resume. " ++
          "Please check the manager for your host status or re-enroll."))
      else .error e
  else .ok config.pollingToken

def pollPhase (x : EnrollmentAnswers) (config : AppConfig) : List PollEvent × Except AnyhowError PkiBundle :=
  match x.signals with
  | .error e => ([], .error e)
  | .ok () =>
    let enrollment := config.enrollment.getD .default
    pollForApproval x.poll enrollment.pollingIntervalSeconds enrollment.maxPollAttempts

/-- The repository configuration of the bundle must be written, that of the fallback endpoint may fail. -/
def provisionRepository (x : EnrollmentAnswers) (bundle : PkiBundle) : FileM Unit :=
  match bundle.repoConfig with
  | some repo => provisionRepoConfig x.gpg repo
  | none => match x.fetchRepoConfig with
    | .ok repo => (provisionRepoConfig x.gpg repo).ignore
    | .error _ => pure ()

def provisionPhase (y : Yaml) (x : EnrollmentAnswers) (config : AppConfig) (configPath : String) (bundle : PkiBundle) :
    FileM Unit := do
  provisionPkiBundle bundle config.tlsConfig
  provisionRepository x bundle
  match x.managerIp with
  | .error e => Action.fail (e.context "Failed to resolve manager IP - cannot update whitelist")
  | .ok ip =>
    x.appendManagerToWhitelist ip config.whitelistPath
    (config.withoutToken.write y configPath "clear").ignore

/-- `run_enrollment`; the caller's configuration is loaded again afterwards. -/
def runEnrollment (y : Yaml) (x : EnrollmentAnswers) (config : AppConfig) (configPath : String) : FileM Unit := do
  match obtainToken x config with
  | .error e => Action.fail e
  | .ok token =>
    let config := config.withToken token
    (config.write y configPath "persistence").ignore
    match (pollPhase x config).2 with
    | .error e => Action.fail e
    | .ok bundle => provisionPhase y x config configPath bundle

end LinuxPatchApi.Enroll
