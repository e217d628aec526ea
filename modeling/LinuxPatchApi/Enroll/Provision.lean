/-
`src/enroll/provision.rs`: the PEM check, the atomic write of a PEM file with its backup, the PKI bundle of an
approved enrollment, and the package repository of the manager.
-/
import LinuxPatchApi.Files

namespace LinuxPatchApi.Enroll

open LinuxPatchApi.Packages Disk FileM

/-! ## PEM files -/

def validatePem (pemData expectedType : String) : Except AnyhowError Unit :=
  let trimmed := Text.trim pemData
  let beginMarker := "-----BEGIN " ++ expectedType ++ "-----"
  let endMarker := "-----END " ++ expectedType ++ "-----"
  if trimmed.isEmpty then .error (anyhow ("PEM data is empty for type '" ++ expectedType ++ "'"))
  else if !Text.contains trimmed beginMarker then
    .error (anyhow ("Invalid PEM format: missing '" ++ beginMarker ++ "' marker for type '" ++ expectedType ++ "'"))
  else if !Text.contains trimmed endMarker then
    .error (anyhow ("Invalid PEM format: missing '" ++ endMarker ++ "' marker for type '" ++ expectedType ++ "'"))
  else .ok ()

def backupPath (path : String) : String := path ++ ".bak"

def tempPath (path : String) : String := Paths.withExtension path "tmp"

/-- The directory of the file, when it is not there yet. -/
def ensureDirectory (path : String) : FileM Unit := do
  match Paths.parent path with
  | none => return ()
  | some parent =>
    if !(← Action.dirExists parent) then
      (io (.createDirAll parent)).context ("Failed to create directory: " ++ parent)
      io (.metadata parent)
      (io (.setPermissions parent 0o755)).context ("Failed to set permissions on: " ++ parent)

/-- The original stays in place until the rename. -/
def backupExisting (path : String) : FileM Unit := do
  match ← Action.content path with
  | none => return ()
  | some _ => (io (.copy path (backupPath path))).context ("Failed to backup existing file: " ++ path)

def pemMode (isKey : Bool) : Nat := if isKey then 0o600 else 0o644

/-- A temporary file that must be new. -/
def writeTemp (temp pemData : String) (isKey : Bool) : FileM Unit := do
  (io (.createNew temp (pemMode isKey) (.text ""))).context ("Failed to create temp file: " ++ temp)
  (io (.writeAll temp (.text pemData))).context ("Failed to write PEM data to: " ++ temp)
  (io (.flush temp)).context ("Failed to flush PEM data to: " ++ temp)

def writePemFile (path pemData : String) (isKey : Bool) : FileM Unit := do
  ensureDirectory path
  backupExisting path
  let temp := tempPath path
  writeTemp temp pemData isKey
  (io (.rename temp path)).context ("Failed to atomically rename " ++ temp ++ " to " ++ path)

section WritePemFile

variable {env : HostSurroundings} {s t : HostFiles} {path pemData : String} {isKey : Bool} {e : AnyhowError} {a : Unit}

theorem lastChar_backupPath : Paths.lastChar (backupPath path) = some 'k' :=
  Paths.lastChar_append path (by decide)

/-- No temporary path ends in another letter. -/
theorem tempPath_ne {p : String} {c : Char} (hp : Paths.lastChar p = some c) (hc : c ≠ '/' ∧ c ≠ '.' ∧ c ≠ 'p') :
    tempPath path ≠ p :=
  Paths.withExtension_ne hp ⟨hc.1, hc.2.1⟩ (by decide) fun h => hc.2.2 (Option.some.inj (h.symm.trans (by decide)))

theorem backupPath_ne_tempPath (p : String) : tempPath p ≠ backupPath path :=
  tempPath_ne lastChar_backupPath (by decide)

/-- The directory is there or can be made. -/
def DirectoryReady (env : HostSurroundings) (path : String) : Prop :=
  ∀ parent, Paths.parent path = some parent → env.dirExists parent = false →
    env.outcome (.createDirAll parent) = .done ∧
    env.outcome (.metadata parent) = .done ∧ env.outcome (.setPermissions parent 0o755) = .done

theorem ensureDirectory_ok : (ensureDirectory path).run env s = (.ok a, t) ↔ DirectoryReady env path ∧ s = t := by
  unfold ensureDirectory DirectoryReady
  cases Paths.parent path with
  | none => simp
  | some parent =>
    simp only [Action.run_dirExists_bind]
    cases hd : env.dirExists parent with
    | true => simp [hd]
    | false =>
      rw [Bool.not_false, if_pos rfl, io_bind_ok, Action.bind_ok]
      simp [context_ok, io_ok, Action.Succeeds, Op.refusal, Op.effect, hd, and_assoc]

/-- The files after the backup. -/
def backedUp (s : HostFiles) (path : String) : HostFiles :=
  if s path = none then s else Function.update s (backupPath path) (s path)

theorem backedUp_of_ne {p : String} (h : p ≠ backupPath path) : backedUp s path p = s p := by
  unfold backedUp
  split
  · rfl
  · exact Function.update_of_ne h _ _

theorem backupExisting_ok : (backupExisting path).run env s = (.ok a, t) ↔
    (s path ≠ none → env.outcome (.copy path (backupPath path)) = .done) ∧ backedUp s path = t := by
  unfold backupExisting backedUp
  rw [Action.run_content_bind]
  cases h : s path with
  | none => simp
  | some c => simp [context_ok, io_ok, Action.Succeeds, Op.refusal, Op.effect, h]

/-- The temporary file can be made and written. -/
structure TempReady (env : HostSurroundings) (s : HostFiles) (temp pemData : String) (isKey : Bool) : Prop where
  fresh : s temp = none
  created : env.outcome (.createNew temp (pemMode isKey) (.text "")) = .done
  written : env.outcome (.writeAll temp (.text pemData)) = .done
  flushed : env.outcome (.flush temp) = .done

theorem writeTemp_ok {temp : String} : (writeTemp temp pemData isKey).run env s = (.ok a, t) ↔
    TempReady env s temp pemData isKey ∧ Function.update s temp (some (.text pemData)) = t := by
  rw [writeTemp, io_bind_ok, io_bind_ok, context_ok, io_ok]
  simp only [Action.Succeeds, Op.refusal, Op.effect, true_and, Function.update_idem]
  constructor
  · rintro ⟨⟨hf, hc⟩, hw, hl, ht⟩
    exact ⟨⟨by simpa using hf, hc, hw, hl⟩, ht⟩
  · rintro ⟨⟨hf, hc, hw, hl⟩, ht⟩
    exact ⟨⟨by simpa using hf, hc⟩, hw, hl, ht⟩

/-- Every operation of the write is carried out. -/
structure Writable (env : HostSurroundings) (s : HostFiles) (path pemData : String) (isKey : Bool) : Prop where
  directory : DirectoryReady env path
  backup : s path ≠ none → env.outcome (.copy path (backupPath path)) = .done
  temp : TempReady env s (tempPath path) pemData isKey
  renamed : env.outcome (.rename (tempPath path) path) = .done

/-- The files after a write. -/
def written (s : HostFiles) (path : String) (c : Content) : HostFiles := fun p =>
  if p = path then some c
  else if p = tempPath path then none
  else if p = backupPath path ∧ s path ≠ none then s path
  else s p

theorem written_eq (c : Content) : Op.effect (Function.update (backedUp s path) (tempPath path) (some c))
    (.rename (tempPath path) path) = written s path c := by
  funext p
  simp only [Op.effect, written, Function.update_self]
  by_cases hp : p = path
  · subst hp
    simp
  by_cases ht : p = tempPath path
  · subst ht
    simp [hp]
  rw [if_neg hp, if_neg ht, Function.update_of_ne hp, Function.update_of_ne ht, Function.update_of_ne ht]
  by_cases hb : p = backupPath path
  · subst hb
    unfold backedUp
    by_cases hs : s path = none <;> simp [hs]
  · rw [backedUp_of_ne hb, if_neg fun h => hb h.1]

theorem writePemFile_ok : (writePemFile path pemData isKey).run env s = (.ok a, t) ↔
    Writable env s path pemData isKey ∧ written s path (.text pemData) = t := by
  have hfresh : backedUp s path (tempPath path) = s (tempPath path) := backedUp_of_ne (backupPath_ne_tempPath path)
  rw [writePemFile, Action.bind_ok]
  constructor
  · rintro ⟨_, u, hd, h⟩
    obtain ⟨hdir, rfl⟩ := ensureDirectory_ok.1 hd
    obtain ⟨_, u, hb, h⟩ := Action.bind_ok.1 h
    obtain ⟨hbackup, rfl⟩ := backupExisting_ok.1 hb
    obtain ⟨_, u, ht, h⟩ := Action.bind_ok.1 h
    obtain ⟨⟨hf, hc, hw, hl⟩, rfl⟩ := writeTemp_ok.1 ht
    obtain ⟨⟨_, hren⟩, rfl⟩ := io_ok.1 (context_ok.1 h)
    exact ⟨⟨hdir, hbackup, ⟨hfresh.symm.trans hf, hc, hw, hl⟩, hren⟩, (written_eq _).symm⟩
  · rintro ⟨⟨hdir, hbackup, ⟨hf, hc, hw, hl⟩, hren⟩, rfl⟩
    refine ⟨(), _, ensureDirectory_ok.2 ⟨hdir, rfl⟩, Action.bind_ok.2 ⟨(), _, backupExisting_ok.2 ⟨hbackup, rfl⟩,
      Action.bind_ok.2 ⟨(), _, writeTemp_ok.2 ⟨⟨hfresh.trans hf, hc, hw, hl⟩, rfl⟩, ?_⟩⟩⟩
    exact context_ok.2 (io_ok.2 ⟨⟨by simp [Op.refusal], hren⟩, written_eq _⟩)

theorem confined_ensureDirectory {T : String → Prop} : Action.Confined T (ensureDirectory path) := by
  have hnone : ∀ {o : Op String Content}, o.changes = [] → Action.Confined T (io o) := fun ho =>
    confined_io (by simp [ho])
  unfold ensureDirectory
  split
  · exact Action.confined_pure _
  · refine (Action.confined_dirExists _).bind fun there => ?_
    cases there with
    | true => exact Action.confined_pure _
    | false =>
      exact (confined_context (hnone rfl)).bind fun _ => (hnone rfl).bind fun _ => confined_context (hnone rfl)

theorem confined_backupExisting : Action.Confined (· = backupPath path) (backupExisting path) := by
  refine (Action.confined_content _).bind fun c => ?_
  cases c with
  | none => exact Action.confined_pure _
  | some c => exact confined_context (confined_io (by simp [Op.changes]))

theorem confined_writeTemp {temp : String} : Action.Confined (· = temp) (writeTemp temp pemData isKey) :=
  (confined_context (confined_io (by simp [Op.changes]))).bind fun _ =>
    (confined_context (confined_io (by simp [Op.changes]))).bind fun _ =>
      confined_context (confined_io (by simp [Op.changes]))

/-- The paths that the write of a file works with. -/
def footprint (path : String) : List String := [path, tempPath path, backupPath path]

theorem confined_writePemFile : Action.Confined (· ∈ footprint path) (writePemFile path pemData isKey) :=
  confined_ensureDirectory.bind fun _ =>
    (confined_backupExisting.mono fun p hp => by simp [hp, footprint]).bind fun _ =>
    (confined_writeTemp.mono fun p hp => by simp [hp, footprint]).bind fun _ =>
      confined_context (confined_io fun p hp => by
        simp only [Op.changes, List.mem_cons, List.not_mem_nil, or_false] at hp
        rcases hp with rfl | rfl <;> simp [footprint])

/-- A write that fails has changed at most the backup and the temporary file. -/
theorem writePemFile_error (h : (writePemFile path pemData isKey).run env s = (.error e, t)) {p : String}
    (hb : p ≠ backupPath path) (ht : p ≠ tempPath path) : t p = s p := by
  rcases Action.bind_error.1 h with hdir | ⟨_, u₁, hdir, h⟩
  · exact (confined_ensureDirectory (T := fun _ => False)).kept hdir not_false
  rw [← (confined_ensureDirectory (T := fun _ => False)).kept hdir not_false]
  rcases Action.bind_error.1 h with hbackup | ⟨_, u₂, hbackup, h⟩
  · exact confined_backupExisting.kept hbackup hb
  rw [← confined_backupExisting.kept hbackup hb]
  rcases Action.bind_error.1 h with htemp | ⟨_, u₃, htemp, h⟩
  · exact confined_writeTemp.kept htemp ht
  rw [← confined_writeTemp.kept htemp ht]
  -- what is left is the rename, and one that fails changes nothing
  obtain ⟨e', hrename⟩ := context_error h
  rw [rename_error hrename]

end WritePemFile

/-! ## The PKI bundle -/

/-- The paths of `TlsConfig`. -/
structure TlsConfig where
  caCert : String
  serverCert : String
  serverKey : String
  crlPath : String
  deriving DecidableEq, Repr

/-- The default paths. -/
def TlsConfig.default : TlsConfig where
  caCert := "/etc/linux_patch_api/certs/ca.pem"
  serverCert := "/etc/linux_patch_api/certs/server.pem"
  serverKey := "/etc/linux_patch_api/certs/server.key.pem"
  crlPath := "/etc/linux_patch_api/certs/crl.pem"

/-- The manager's package repository, as it comes with the bundle or from its fallback endpoint. -/
structure RepoConfig where
  gpgPublicKey : String
  sourcesConfig : String
  distroId : String
  keyringPath : String
  apkRsaPublicKey : Option String
  deriving DecidableEq, Repr

structure PkiBundle where
  caCrt : String
  caChain : String
  serverCrt : String
  serverKey : String
  crlPem : String
  repoConfig : Option RepoConfig
  deriving DecidableEq, Repr

/-- A private key in any of three encodings. -/
def keyValid (serverKey : String) : Bool :=
  (validatePem serverKey "PRIVATE KEY").toBool || (validatePem serverKey "RSA PRIVATE KEY").toBool ||
    (validatePem serverKey "EC PRIVATE KEY").toBool

/-- The checks before the first write. -/
def validateBundle (b : PkiBundle) : Except AnyhowError Unit := do
  (validatePem b.caCrt "CERTIFICATE").mapError fun e => e.context "CA certificate validation failed"
  (validatePem b.serverCrt "CERTIFICATE").mapError fun e => e.context "Server certificate validation failed"
  if !keyValid b.serverKey then
    throw (anyhow "Server key validation failed: PEM must be PRIVATE KEY, RSA PRIVATE KEY, or EC PRIVATE KEY")

def provisionPkiBundle (b : PkiBundle) (tlsConfig : Option TlsConfig) : FileM Unit := do
  let tls := tlsConfig.getD .default
  match validateBundle b with
  | .error e => Action.fail e
  | .ok () =>
    (writePemFile tls.caCert b.caCrt false).context "Failed to write CA certificate"
    (writePemFile tls.serverCert b.serverCrt false).context "Failed to write server certificate"
    (writePemFile tls.serverKey b.serverKey true).context "Failed to write server key"
    if !(Text.trim b.crlPem).isEmpty then
      (writePemFile tls.crlPath b.crlPem false).context "Failed to write CRL"

/-! ## The package repository -/

/-- What becomes of `gpg --dearmor` on the key. -/
inductive GpgRun
  | exited (stdout : Content)
  | failed (stderr : String)
  | notInstalled
  | unavailable (error : String)
  /-- The key cannot be handed to it, or it cannot be waited for. -/
  | broken (e : AnyhowError)

def isApt (distroId : String) : Bool := distroId == "ubuntu" || distroId == "debian" || distroId == "linuxmint"

def isDnf (distroId : String) : Bool :=
  distroId == "fedora" || distroId == "rhel" || distroId == "almalinux" || distroId == "centos" ||
    distroId == "rocky" ||
    distroId == "amzn"

def isPacman (distroId : String) : Bool := distroId == "arch" || distroId == "manjaro" || distroId == "endeavouros"

def alpineRepositories : String := "/etc/apk/repositories"

def alpineKeysDir : String := "/etc/apk/keys"

def alpineKeyPath : String := alpineKeysDir ++ "/lpa-repo.rsa.pub"

def ensureAlpineKeysDirectory : FileM Unit := do
  if !(← Action.dirExists alpineKeysDir) then
    (io (.createDirAll alpineKeysDir)).context "Failed to create /etc/apk/keys directory"
    io (.setPermissions alpineKeysDir 0o755)

def provisionAlpineKey (rsaKey : String) : FileM Unit := do
  ensureAlpineKeysDirectory
  let temp := alpineKeyPath ++ ".tmp"
  replace temp alpineKeyPath (.text rsaKey) ("Failed to write temp RSA key file: " ++ temp)
    ("Failed to rename temp RSA key to " ++ alpineKeyPath)
  io (.setPermissions alpineKeyPath 0o644)

/-- The repository is appended to the others. -/
def appendAlpineRepository (sourcesConfig : String) : FileM Unit := do
  let existing := (← readToString alpineRepositories).getD ""
  if Text.contains existing sourcesConfig then return ()
  replace (alpineRepositories ++ ".tmp") alpineRepositories
    (.text (Text.trimEnd existing ++ "\n" ++ sourcesConfig ++ "\n"))
    "Failed to write temp /etc/apk/repositories" "Failed to rename /etc/apk/repositories"

/-- A key that the manager does not send is left as it is. -/
def provisionAlpineRepoConfig (repo : RepoConfig) : FileM Unit := do
  match repo.apkRsaPublicKey with
  | none => pure ()
  | some rsaKey => provisionAlpineKey rsaKey
  appendAlpineRepository repo.sourcesConfig

/-- Where the sources go. -/
def sourcesPath (distroId : String) : Option String :=
  if isApt distroId then some "/etc/apt/sources.list.d/lpa.list"
  else if isDnf distroId then some "/etc/yum.repos.d/lpa.repo"
  else if isPacman distroId then some "/etc/pacman.d/lpa-repo"
  else none

def keyIsArmored (key : String) : Bool := Text.contains key "-----BEGIN PGP"

/-- The path of the armored key where gpg is missing. -/
def ascPath (keyringPath : String) : String := Text.trimEndMatches keyringPath ".gpg" ++ ".asc"

def provisionKeyring (gpg : String → GpgRun) (repo : RepoConfig) : FileM Unit := do
  if isApt repo.distroId && keyIsArmored repo.gpgPublicKey then
    match gpg repo.gpgPublicKey with
    | .exited stdout =>
      let temp := repo.keyringPath ++ ".tmp"
      replace temp repo.keyringPath stdout ("Failed to write temp keyring file: " ++ temp)
        ("Failed to rename temp keyring to " ++ repo.keyringPath)
      io (.setPermissions repo.keyringPath 0o644)
    | .failed stderr => bail ("gpg --dearmor failed: " ++ Text.trim stderr)
    | .notInstalled =>
      (writePemFile (ascPath repo.keyringPath) repo.gpgPublicKey false).context
        "Failed to write repo GPG key as .asc (gpg not installed for dearmor)"
    | .unavailable e => bail ("Failed to spawn gpg --dearmor: " ++ e)
    | .broken e => Action.fail e
  else
    (writePemFile repo.keyringPath repo.gpgPublicKey false).context "Failed to write repo GPG key"

/-- The directory of the sources, whose creation may fail. -/
def prepareSourcesDirectory (distroId : String) : FileM Unit :=
  if isDnf distroId then (io (.createDirAll "/etc/yum.repos.d")).ignore
  else if isPacman distroId then (io (.createDirAll "/etc/pacman.d")).ignore
  else pure ()

def provisionSources (repo : RepoConfig) : FileM Unit := do
  match sourcesPath repo.distroId with
  | none => bail ("Unknown distro for repo config: " ++ repo.distroId ++ " — cannot determine sources path")
  | some path =>
    prepareSourcesDirectory repo.distroId
    let temp := path ++ ".tmp"
    replace temp path (.text repo.sourcesConfig) ("Failed to write sources config to temp file " ++ temp)
      ("Failed to rename sources config to " ++ path)

def ensureKeyringDirectory (keyringPath : String) : FileM Unit := do
  match Paths.parent keyringPath with
  | none => bail "Invalid keyring path — no parent directory"
  | some keyringDir =>
    if !(← Action.dirExists keyringDir) then
      (io (.createDirAll keyringDir)).context "Failed to create keyring directory"
      io (.metadata keyringDir)
      io (.setPermissions keyringDir 0o755)

def provisionRepoConfig (gpg : String → GpgRun) (repo : RepoConfig) : FileM Unit := do
  if repo.distroId == "alpine" then provisionAlpineRepoConfig repo
  else
    ensureKeyringDirectory repo.keyringPath
    provisionKeyring gpg repo
    provisionSources repo

end LinuxPatchApi.Enroll
