/-
`validate_certs` of `src/config/loader.rs`, which decides at the start whether the server runs on the certificates
that are there, and the decision of `main` on its answer. Opening the files, the PEM and X.509 parsers, the key
check of rustls and the check of a signature are given.
-/
import LinuxPatchApi.Lib.Checks
import LinuxPatchApi.Enroll.Bundle
import LinuxPatchApi.Enroll.Enrollment

namespace LinuxPatchApi.Enroll

open LinuxPatchApi.Packages Checks

/-! ## Instants -/

/-- The nanoseconds of the least and the greatest `OffsetDateTime`. -/
def minNanos : Int := -377705116800000000000

def maxNanos : Int := 253402300799999999999

structure OffsetDateTime where
  nanos : Int
  inRange : minNanos ≤ nanos ∧ nanos ≤ maxNanos
  deriving DecidableEq

/-- `time::Duration::days`. -/
def durationDays (days : UInt32) : Int := days.toNat * 86400000000000

/-- `OffsetDateTime + Duration`, which panics where the sum is no instant. -/
def OffsetDateTime.add (t : OffsetDateTime) (nanos : Int) : Option OffsetDateTime :=
  if h : minNanos ≤ t.nanos + nanos ∧ t.nanos + nanos ≤ maxNanos then some ⟨t.nanos + nanos, h⟩ else none

/-! ## Certificates -/

abbrev Der := List UInt8

/-- What is looked at in an X.509 certificate; a name is its encoding. -/
structure Certificate where
  subject : List UInt8
  issuer : List UInt8
  notAfter : OffsetDateTime
  deriving DecidableEq

/-- The certificates of a PEM file, of which there is one at least. -/
structure CertChain where
  first : Der
  rest : List Der
  deriving DecidableEq

def CertChain.toList (c : CertChain) : List Der := c.first :: c.rest

def CertChain.ofList : List Der → Option CertChain
  | [] => none
  | first :: rest => some ⟨first, rest⟩

theorem CertChain.ofList_eq_some {l : List Der} {c : CertChain} : ofList l = some c ↔ l = c.toList := by
  obtain ⟨first, rest⟩ := c
  cases l <;> simp [ofList, toList]

/-- The parsers and checks of the libraries, over the private keys that are read. -/
structure CertLibraries (κ : Type) where
  certs : List UInt8 → Except String (List Der)
  privateKey : List UInt8 → Except String (Option κ)
  parseX509Certificate : Der → Except String Certificate
  /-- Whether `with_single_cert` takes the certificates and the key. -/
  withSingleCert : List Der → κ → Bool
  /-- Whether the first is signed with the key of the second. -/
  verifySignature : Der → Der → Bool

/-- The files, and which of them cannot be opened though they are there. -/
structure CertDisk where
  files : HostFiles
  openError : String → Option String

/-- `File::open`, of a file that is then read to its end. -/
def CertDisk.open (d : CertDisk) (path : String) : Except String Content :=
  match d.files path, d.openError path with
  | none, _ => .error "No such file or directory (os error 2)"
  | some _, some e => .error e
  | some c, none => .ok c

/-! ## Validation -/

inductive CertStatus
  | valid
  | expiringSoon (notAfter : OffsetDateTime)
  | missing (paths : List String)
  | corrupt (path error : String)
  | expired (path : String) (notAfter : OffsetDateTime)
  | keyMismatch
  | untrusted
  deriving DecidableEq

/-- How `validate_certs` ends. -/
inductive Validation
  | status (s : CertStatus)
  | error (e : AnyhowError)
  | panicked
  deriving DecidableEq

/-- The server starts on the certificates as they are. -/
def Validation.Starts (v : Validation) : Prop := v = .status .valid ∨ ∃ notAfter, v = .status (.expiringSoon notAfter)

/-- The files cannot be read, a certificate or the key is not found in them, or they do not go together. -/
def Validation.Rejected (v : Validation) : Prop :=
  (∃ e, v = .error e) ∨ (∃ path error, v = .status (.corrupt path error)) ∨ v = .status .keyMismatch

theorem Validation.Starts.not_rejected {v : Validation} (h : v.Starts) : ¬ v.Rejected := by
  rcases h with rfl | ⟨t, rfl⟩ <;> simp [Validation.Rejected]

/-- A file to be read, and how the messages speak of it. -/
structure PemFile where
  path : String
  name : String
  nothingFound : String

namespace TlsConfig

variable (tls : TlsConfig)

def caFile : PemFile := ⟨tls.caCert, "CA certificate", "No certificates found in CA PEM file"⟩

def serverFile : PemFile := ⟨tls.serverCert, "server certificate", "No certificates found in server PEM file"⟩

def keyFile : PemFile := ⟨tls.serverKey, "server key", "No private key found in server key PEM file"⟩

end TlsConfig

section Checks

variable {κ α : Type} (x : CertLibraries κ) (d : CertDisk) (now : OffsetDateTime)

/-- What the file holds, or the answer that is returned at once. -/
def PemFile.load (decode : List UInt8 → Except String (Option α)) (f : PemFile) : Except Validation α :=
  match d.open f.path with
  | .error e => .error (.error ((anyhow e).context ("Failed to open " ++ f.name ++ ": " ++ f.path)))
  | .ok content => match decode content.bytes with
    | .error e => .error (.error (anyhow ("Failed to parse " ++ f.name ++ " PEM: " ++ e)))
    | .ok none => .error (.status (.corrupt f.path f.nothingFound))
    | .ok (some a) => .ok a

/-- The certificates of a file, none for an empty list. -/
def decodeChain (bytes : List UInt8) : Except String (Option CertChain) := (x.certs bytes).map CertChain.ofList

def loadCerts (f : PemFile) : Except Validation CertChain := f.load d (decodeChain x)

def loadKey (f : PemFile) : Except Validation κ := f.load d x.privateKey

def checkExpiry (f : PemFile) (der : Der) : Except Validation Certificate :=
  match x.parseX509Certificate der with
  | .error e => .error (.status (.corrupt f.path ("Failed to parse " ++ f.name ++ " DER: " ++ e)))
  | .ok cert => if cert.notAfter.nanos < now.nanos then .error (.status (.expired f.path cert.notAfter)) else .ok cert

def verifyKeyMatch (_caCerts serverCerts : CertChain) (serverKey : κ) : Bool :=
  x.withSingleCert serverCerts.toList serverKey

def verifyCaTrust (serverDer caDer : Der) : Bool :=
  match x.parseX509Certificate serverDer, x.parseX509Certificate caDer with
  | .ok serverCert, .ok caCert => serverCert.issuer == caCert.subject
  | _, _ => false

/-- `now + threshold`. -/
def renewalLimit (thresholdDays : UInt32) : Except Validation OffsetDateTime :=
  match now.add (durationDays thresholdDays) with
  | none => .error .panicked
  | some limit => .ok limit

/-- The checks on files that are all there. -/
def checkCerts (tls : TlsConfig) (thresholdDays : UInt32) : Except Validation CertStatus := do
  let caCerts ← loadCerts x d tls.caFile
  let serverCerts ← loadCerts x d tls.serverFile
  let serverKey ← loadKey x d tls.keyFile
  let _ ← checkExpiry x now tls.caFile caCerts.first
  let serverCert ← checkExpiry x now tls.serverFile serverCerts.first
  let limit ← renewalLimit now thresholdDays
  let expiresSoon := serverCert.notAfter.nanos < limit.nanos
  require (verifyKeyMatch x caCerts serverCerts serverKey) (.status .keyMismatch)
  require (verifyCaTrust x serverCerts.first caCerts.first) (.status .untrusted)
  return if expiresSoon then .expiringSoon serverCert.notAfter else .valid

def missingPaths (tls : TlsConfig) : List String :=
  [tls.caCert, tls.serverCert, tls.serverKey].filter fun path => (d.files path).isNone

def thresholdDays (config : AppConfig) : UInt32 := (config.enrollment.map (·.certRenewalThresholdDays)).getD 7

def validateCerts (config : AppConfig) : Validation :=
  match config.tlsConfig with
  | none => .status .valid
  | some tls =>
    if missingPaths d tls ≠ [] then .status (.missing (missingPaths d tls))
    else match checkCerts x d now tls (thresholdDays config) with
      | .ok s => .status s
      | .error v => v

end Checks

/-! ## What the checks find -/

section Found

variable {κ α : Type} {x : CertLibraries κ} {d : CertDisk} {now : OffsetDateTime}

theorem OffsetDateTime.add_eq_some {t u : OffsetDateTime} {nanos : Int} :
    t.add nanos = some u ↔ u.nanos = t.nanos + nanos := by
  obtain ⟨n, hn⟩ := u
  unfold OffsetDateTime.add
  split
  · next h => simp [eq_comm]
  · next h =>
    refine iff_of_false (by simp) ?_
    rintro rfl
    exact h hn

/-- The instant is a date. -/
def Fits (now : OffsetDateTime) (days : UInt32) : Prop := now.nanos + durationDays days ≤ maxNanos

theorem renewalLimit_ok {days : UInt32} {limit : OffsetDateTime} :
    renewalLimit now days = .ok limit ↔ limit.nanos = now.nanos + durationDays days := by
  rw [← OffsetDateTime.add_eq_some, renewalLimit]
  cases now.add (durationDays days) <;> simp

theorem fits_iff {days : UInt32} :
    Fits now days ↔ ∃ limit : OffsetDateTime, limit.nanos = now.nanos + durationDays days := by
  constructor
  · intro hle
    have hnow := now.inRange.1
    have hdays : 0 ≤ durationDays days := by
      unfold durationDays
      omega
    exact ⟨⟨now.nanos + durationDays days, by omega, hle⟩, rfl⟩
  · rintro ⟨limit, hlimit⟩
    have hle := limit.inRange.2
    unfold Fits
    omega

/-- The file can be opened and holds the certificates. -/
def HoldsCerts (x : CertLibraries κ) (d : CertDisk) (path : String) (chain : CertChain) : Prop :=
  ∃ content, d.open path = .ok content ∧ x.certs content.bytes = .ok chain.toList

/-- The file can be opened, and its first private key is the key. -/
def HoldsKey (x : CertLibraries κ) (d : CertDisk) (path : String) (key : κ) : Prop :=
  ∃ content, d.open path = .ok content ∧ x.privateKey content.bytes = .ok (some key)

theorem PemFile.load_ok {decode : List UInt8 → Except String (Option α)} {f : PemFile} {a : α} :
    f.load d decode = .ok a ↔ ∃ content, d.open f.path = .ok content ∧ decode content.bytes = .ok (some a) := by
  unfold PemFile.load
  cases d.open f.path with
  | error e => simp
  | ok content =>
    simp only [Except.ok.injEq, exists_eq_left']
    rcases decode content.bytes with e | _ | b <;> simp

/-- The file can be opened, and reading it as PEM ends with this error, or finds nothing. -/
def Undecoded {α : Type} (decode : List UInt8 → Except String (Option α)) (d : CertDisk) (path : String) :
    Option String → Prop
  | some e => ∃ content, d.open path = .ok content ∧ decode content.bytes = .error e
  | none => ∃ content, d.open path = .ok content ∧ decode content.bytes = .ok none

/-- What reading the file ends with when it is no PEM file of its kind. -/
def PemFile.answer (f : PemFile) : Option String → Validation
  | some e => .error (anyhow ("Failed to parse " ++ f.name ++ " PEM: " ++ e))
  | none => .status (.corrupt f.path f.nothingFound)

theorem PemFile.load_undecoded {decode : List UInt8 → Except String (Option α)} {f : PemFile} {r : Option String}
    (h : Undecoded decode d f.path r) : f.load d decode = .error (f.answer r) := by
  unfold PemFile.load
  cases r with
  | some e =>
    obtain ⟨content, hopen, hdecode⟩ := h
    rw [hopen]
    simp only [hdecode, PemFile.answer]
  | none =>
    obtain ⟨content, hopen, hdecode⟩ := h
    rw [hopen]
    simp only [hdecode, PemFile.answer]

theorem PemFile.load_error {decode : List UInt8 → Except String (Option α)} {f : PemFile} {v : Validation}
    (h : f.load d decode = .error v) : v.Rejected := by
  unfold PemFile.load at h
  split at h
  · cases h
    exact .inl ⟨_, rfl⟩
  split at h
  · cases h
    exact .inl ⟨_, rfl⟩
  · cases h
    exact .inr (.inl ⟨_, _, rfl⟩)
  · cases h

theorem decodeChain_ok {bytes : List UInt8} {chain : CertChain} :
    decodeChain x bytes = .ok (some chain) ↔ x.certs bytes = .ok chain.toList := by
  unfold decodeChain
  cases x.certs bytes with
  | error e => simp [Except.map]
  | ok l => simp [Except.map, CertChain.ofList_eq_some]

theorem loadCerts_ok {f : PemFile} {chain : CertChain} : loadCerts x d f = .ok chain ↔ HoldsCerts x d f.path chain := by
  simp only [loadCerts, PemFile.load_ok, decodeChain_ok, HoldsCerts]

theorem loadKey_ok {f : PemFile} {key : κ} : loadKey x d f = .ok key ↔ HoldsKey x d f.path key := PemFile.load_ok

theorem checkExpiry_error {f : PemFile} {der : Der} {v : Validation} (h : checkExpiry x now f der = .error v) :
    v.Rejected ∨ ∃ cert, x.parseX509Certificate der = .ok cert ∧ cert.notAfter.nanos < now.nanos ∧
      v = .status (.expired f.path cert.notAfter) := by
  unfold checkExpiry at h
  split at h
  · cases h
    exact .inl (.inr (.inl ⟨_, _, rfl⟩))
  · next cert hcert =>
    split at h
    · next hlt =>
      cases h
      exact .inr ⟨cert, hcert, hlt, rfl⟩
    · cases h

theorem checkExpiry_ok {f : PemFile} {der : Der} {cert : Certificate} : checkExpiry x now f der = .ok cert ↔
    x.parseX509Certificate der = .ok cert ∧ now.nanos ≤ cert.notAfter.nanos := by
  unfold checkExpiry
  cases x.parseX509Certificate der with
  | error e => simp
  | ok c =>
    by_cases h : c.notAfter.nanos < now.nanos
    · simp only [h, if_true, reduceCtorEq, Except.ok.injEq, false_iff, not_and, not_le]
      rintro rfl
      exact h
    · simp only [h, if_false, Except.ok.injEq, iff_self_and]
      rintro rfl
      omega

end Found

/-! ## Sound answers -/

/-- What the three files hold when they parse. -/
structure CertBundle (κ : Type) where
  ca : CertChain
  server : CertChain
  key : κ
  caCert : Certificate
  serverCert : Certificate

section Sound

variable {κ : Type} (x : CertLibraries κ) (d : CertDisk) (now : OffsetDateTime) (days : UInt32) (tls : TlsConfig)

structure Parsed (b : CertBundle κ) : Prop where
  ca : HoldsCerts x d tls.caCert b.ca
  server : HoldsCerts x d tls.serverCert b.server
  key : HoldsKey x d tls.serverKey b.key
  caCert : x.parseX509Certificate b.ca.first = .ok b.caCert
  serverCert : x.parseX509Certificate b.server.first = .ok b.serverCert

/-- Neither certificate is expired, and the key is that of the server certificate. -/
structure Current (b : CertBundle κ) : Prop where
  ca : now.nanos ≤ b.caCert.notAfter.nanos
  server : now.nanos ≤ b.serverCert.notAfter.nanos
  key : x.withSingleCert b.server.toList b.key = true

/-- The server certificate is signed with the CA's key. -/
def Signed (b : CertBundle κ) : Prop := x.verifySignature b.server.first b.ca.first = true

/-- The issuer of the server certificate has the name of the CA. -/
def Named (b : CertBundle κ) : Prop := b.serverCert.issuer = b.caCert.subject

/-- What the code looks for before the server starts. -/
structure Accepted (b : CertBundle κ) : Prop where
  parsed : Parsed x d tls b
  current : Current x now b
  named : Named b
  fits : Fits now days

/-- The server certificate expires before the threshold. -/
def Soon (b : CertBundle κ) : Prop := b.serverCert.notAfter.nanos < now.nanos + durationDays days

instance (b : CertBundle κ) : Decidable (Soon now days b) := inferInstanceAs (Decidable (_ < _))

/-- The first of the files that is no PEM file of its kind, and the error of reading it if there is one. -/
inductive Unparsable : PemFile → Option String → Prop
  | ca {r : Option String} (h : Undecoded (decodeChain x) d tls.caCert r) : Unparsable tls.caFile r
  | server {r : Option String} {ca : CertChain} (hca : HoldsCerts x d tls.caCert ca)
      (h : Undecoded (decodeChain x) d tls.serverCert r) : Unparsable tls.serverFile r
  | key {r : Option String} {ca server : CertChain} (hca : HoldsCerts x d tls.caCert ca)
      (hserver : HoldsCerts x d tls.serverCert server) (h : Undecoded x.privateKey d tls.serverKey r) :
      Unparsable tls.keyFile r

/-- An answer that can be relied on. -/
structure SoundAnswer (v : Validation) : Prop where
  starts : v.Starts → ∃ b, Parsed x d tls b ∧ Current x now b ∧ Signed x b
  expiring : ∀ notAfter, v = .status (.expiringSoon notAfter) ↔
    ∃ b, Parsed x d tls b ∧ Current x now b ∧ Signed x b ∧ Soon now days b ∧ b.serverCert.notAfter = notAfter
  corrupt : missingPaths d tls = [] → ∀ f r, Unparsable x d tls f r → ∃ error, v = .status (.corrupt f.path error)

end Sound

section Answers

variable {κ : Type} {x : CertLibraries κ} {d : CertDisk} {now : OffsetDateTime} {days : UInt32} {tls : TlsConfig}

theorem HoldsCerts.unique {path : String} {c c' : CertChain} (h : HoldsCerts x d path c) (h' : HoldsCerts x d path c') :
    c = c' := by
  obtain ⟨content, hopen, hcerts⟩ := h
  obtain ⟨content', hopen', hcerts'⟩ := h'
  cases hopen.symm.trans hopen'
  have hlist := hcerts.symm.trans hcerts'
  obtain ⟨first, rest⟩ := c
  obtain ⟨first', rest'⟩ := c'
  simpa [CertChain.toList] using hlist

theorem HoldsKey.unique {path : String} {k k' : κ} (h : HoldsKey x d path k) (h' : HoldsKey x d path k') : k = k' := by
  obtain ⟨content, hopen, hkey⟩ := h
  obtain ⟨content', hopen', hkey'⟩ := h'
  cases hopen.symm.trans hopen'
  cases hkey.symm.trans hkey'
  rfl

/-- The files hold one bundle at most. -/
theorem Parsed.unique {b b' : CertBundle κ} (h : Parsed x d tls b) (h' : Parsed x d tls b') : b = b' := by
  obtain ⟨ca, server, key, caCert, serverCert⟩ := b
  obtain ⟨ca', server', key', caCert', serverCert'⟩ := b'
  cases h.ca.unique h'.ca
  cases h.server.unique h'.server
  cases h.key.unique h'.key
  cases h.caCert.symm.trans h'.caCert
  cases h.serverCert.symm.trans h'.serverCert
  rfl

theorem verifyCaTrust_iff {b : CertBundle κ} (h : Parsed x d tls b) :
    verifyCaTrust x b.server.first b.ca.first = true ↔ Named b := by
  simp [verifyCaTrust, h.serverCert, h.caCert, Named]

/-- What the checks come to when all of them are passed. -/
theorem checkCerts_ok {s : CertStatus} : checkCerts x d now tls days = .ok s ↔
    ∃ b, Accepted x d now days tls b ∧
      (if Soon now days b then .expiringSoon b.serverCert.notAfter else .valid) = s := by
  simp only [checkCerts, bind_eq_ok, loadCerts_ok, loadKey_ok, checkExpiry_ok, renewalLimit_ok, require_eq_ok]
  constructor
  · rintro ⟨ca, hca, server, hserver, key, hkey, caCert, ⟨hcaCert, hcaNow⟩, serverCert, ⟨hserverCert, hserverNow⟩,
      limit, hlimit, _, hmatch, _, htrust, hs⟩
    have hb : Parsed x d tls ⟨ca, server, key, caCert, serverCert⟩ := ⟨hca, hserver, hkey, hcaCert, hserverCert⟩
    refine ⟨_, ⟨hb, ⟨hcaNow, hserverNow, hmatch⟩, (verifyCaTrust_iff hb).1 htrust, fits_iff.2 ⟨limit, hlimit⟩⟩, ?_⟩
    rw [hlimit] at hs
    exact Except.ok.inj hs
  · rintro ⟨b, ⟨hb, hnow, hnamed, hfits⟩, rfl⟩
    obtain ⟨limit, hlimit⟩ := fits_iff.1 hfits
    refine ⟨b.ca, hb.ca, b.server, hb.server, b.key, hb.key, b.caCert, ⟨hb.caCert, hnow.ca⟩, b.serverCert,
      ⟨hb.serverCert, hnow.server⟩, limit, hlimit, (), hnow.key, (), (verifyCaTrust_iff hb).2 hnamed, ?_⟩
    rw [hlimit]
    rfl

/-- No answer that is given before the last check is one on which the server starts. -/
theorem checkCerts_refuses : Ends (fun v => ¬ v.Starts) (fun _ => True) (checkCerts x d now tls days) := by
  have hload : ∀ {α : Type} {decode : List UInt8 → Except String (Option α)} {f : PemFile},
      Ends (fun v => ¬ v.Starts) (fun _ => True) (f.load d decode) :=
    ends_true_iff.2 fun v h hs => hs.not_rejected (PemFile.load_error h)
  have hexpiry : ∀ {f : PemFile} {der : Der},
      Ends (fun v => ¬ v.Starts) (fun _ => True) (checkExpiry x now f der) := by
    refine ends_true_iff.2 fun v h hs => ?_
    rcases checkExpiry_error h with hr | ⟨cert, _, _, rfl⟩
    · exact hs.not_rejected hr
    · simp [Validation.Starts] at hs
  have hlimit : Ends (fun v => ¬ v.Starts) (fun _ => True) (renewalLimit now days) := by
    unfold renewalLimit
    split <;> simp [Validation.Starts]
  have hrequire : ∀ {c : Bool} {v : Validation}, ¬ v.Starts →
      Ends (fun v => ¬ v.Starts) (fun _ => True) (require c v) := by
    intro c v hv
    cases c
    · exact hv
    · exact trivial
  exact hload.bind fun ca => hload.bind fun server => hload.bind fun key => hexpiry.bind fun caCert =>
    hexpiry.bind fun serverCert => hlimit.bind fun limit => (hrequire (by simp [Validation.Starts])).bind fun _ =>
      (hrequire (by simp [Validation.Starts])).bind fun _ => trivial

variable {config : AppConfig}

theorem missingPaths_eq_nil : missingPaths d tls = [] ↔
    d.files tls.caCert ≠ none ∧ d.files tls.serverCert ≠ none ∧ d.files tls.serverKey ≠ none := by
  simp [missingPaths, List.filter_eq_nil_iff]

/-- A file that can be opened is there. -/
theorem CertDisk.there {path : String} {content : Content} (h : d.open path = .ok content) : d.files path ≠ none := by
  intro hnone
  rw [CertDisk.open, hnone] at h
  cases h

theorem Parsed.not_missing {b : CertBundle κ} (h : Parsed x d tls b) : missingPaths d tls = [] := by
  obtain ⟨_, hca, _⟩ := h.ca
  obtain ⟨_, hserver, _⟩ := h.server
  obtain ⟨_, hkey, _⟩ := h.key
  exact missingPaths_eq_nil.2 ⟨CertDisk.there hca, CertDisk.there hserver, CertDisk.there hkey⟩

theorem validateCerts_of_there (htls : config.tlsConfig = some tls) (hm : missingPaths d tls = []) :
    validateCerts x d now config = match checkCerts x d now tls (thresholdDays config) with
      | .ok s => .status s
      | .error v => v := by
  rw [validateCerts, htls]
  dsimp only
  rw [if_neg (not_not.2 hm)]

/-- The answers on which the server starts are the ones of the last line. -/
theorem validateCerts_starts (htls : config.tlsConfig = some tls) {s : CertStatus} (hs : (Validation.status s).Starts) :
    validateCerts x d now config = .status s ↔ checkCerts x d now tls (thresholdDays config) = .ok s := by
  constructor
  · intro h
    by_cases hm : missingPaths d tls = []
    · rw [validateCerts_of_there htls hm] at h
      have hstop : ∀ v, checkCerts x d now tls (thresholdDays config) = .error v → ¬ v.Starts :=
        ends_true_iff.1 checkCerts_refuses
      cases hc : checkCerts x d now tls (thresholdDays config) with
      | ok s' =>
        rw [hc] at h
        cases h
        rfl
      | error v =>
        rw [hc] at h
        cases h
        exact absurd hs (hstop _ hc)
    · rw [validateCerts, htls] at h
      dsimp only at h
      rw [if_pos hm] at h
      cases h
      simp [Validation.Starts] at hs
  · intro h
    obtain ⟨b, hb, _⟩ := checkCerts_ok.1 h
    rw [validateCerts_of_there htls hb.parsed.not_missing, h]

/-- The first file that is no PEM file gives the answer. -/
theorem validateCerts_unparsable (htls : config.tlsConfig = some tls) (hm : missingPaths d tls = []) {f : PemFile}
    {r : Option String} (h : Unparsable x d tls f r) : validateCerts x d now config = f.answer r := by
  rw [validateCerts_of_there htls hm, checkCerts]
  cases h with
  | ca h =>
    rw [loadCerts, PemFile.load_undecoded h]
    rfl
  | server hca h =>
    rw [loadCerts_ok (f := tls.caFile).2 hca, loadCerts, PemFile.load_undecoded h]
    rfl
  | key hca hserver h =>
    rw [loadCerts_ok (f := tls.caFile).2 hca, loadCerts_ok (f := tls.serverFile).2 hserver, loadKey,
      PemFile.load_undecoded h]
    rfl

/-- The server starts on files that hold a current bundle whose names agree. -/
theorem validateCerts_valid (htls : config.tlsConfig = some tls) : validateCerts x d now config = .status .valid ↔
    ∃ b, Accepted x d now (thresholdDays config) tls b ∧ ¬ Soon now (thresholdDays config) b := by
  rw [validateCerts_starts htls (.inl rfl), checkCerts_ok]
  refine exists_congr fun b => and_congr_right fun _ => ?_
  split <;> simp_all

theorem validateCerts_expiringSoon (htls : config.tlsConfig = some tls) {notAfter : OffsetDateTime} :
    validateCerts x d now config = .status (.expiringSoon notAfter) ↔
      ∃ b, Accepted x d now (thresholdDays config) tls b ∧ Soon now (thresholdDays config) b ∧
        b.serverCert.notAfter = notAfter := by
  rw [validateCerts_starts htls (.inr ⟨_, rfl⟩), checkCerts_ok]
  refine exists_congr fun b => and_congr_right fun _ => ?_
  split <;> simp_all

theorem Accepted.starts {b : CertBundle κ} (htls : config.tlsConfig = some tls)
    (h : Accepted x d now (thresholdDays config) tls b) : (validateCerts x d now config).Starts := by
  by_cases hs : Soon now (thresholdDays config) b
  · exact .inr ⟨_, (validateCerts_expiringSoon htls).2 ⟨b, h, hs, rfl⟩⟩
  · exact .inl ((validateCerts_valid htls).2 ⟨b, h, hs⟩)

theorem accepted_of_starts (htls : config.tlsConfig = some tls) (h : (validateCerts x d now config).Starts) :
    ∃ b, Accepted x d now (thresholdDays config) tls b := by
  rcases h with h | ⟨t, h⟩
  · obtain ⟨b, hb, _⟩ := (validateCerts_valid htls).1 h
    exact ⟨b, hb⟩
  · obtain ⟨b, hb, _⟩ := (validateCerts_expiringSoon htls).1 h
    exact ⟨b, hb⟩

/-- What makes an answer one that can be relied on. -/
structure Reliable (x : CertLibraries κ) (d : CertDisk) (now : OffsetDateTime) (days : UInt32) (tls : TlsConfig) :
    Prop where
  /-- No file is read with an error; a file in which nothing is found may be there. -/
  decoded : missingPaths d tls = [] → ∀ f text, ¬ Unparsable x d tls f (some text)
  named : ∀ b, Parsed x d tls b → Current x now b → Fits now days → Named b → Signed x b
  signed : ∀ b, Parsed x d tls b → Current x now b → Signed x b → Soon now days b → Fits now days ∧ Named b

/-- An answer can be relied on exactly when no PEM block is malformed, and among current certificates the CA's name
goes with the CA's signature, unless the threshold is beyond the last date. -/
theorem sound_answer_iff (htls : config.tlsConfig = some tls) :
    SoundAnswer x d now (thresholdDays config) tls (validateCerts x d now config) ↔
      Reliable x d now (thresholdDays config) tls := by
  constructor
  · rintro ⟨hstarts, hexpiring, hcorrupt⟩
    refine ⟨fun hm f text hu => ?_, fun b hb hnow hfits hnamed => ?_, fun b hb hnow hsigned hsoon => ?_⟩
    · obtain ⟨error, he⟩ := hcorrupt hm f _ hu
      rw [validateCerts_unparsable htls hm hu] at he
      cases he
    · obtain ⟨b', hb', _, hsigned⟩ := hstarts (Accepted.starts htls ⟨hb, hnow, hnamed, hfits⟩)
      cases hb.unique hb'
      exact hsigned
    · have hanswer := (hexpiring _).2 ⟨b, hb, hnow, hsigned, hsoon, rfl⟩
      obtain ⟨b', hb', _, _⟩ := (validateCerts_expiringSoon htls).1 hanswer
      cases hb.unique hb'.parsed
      exact ⟨hb'.fits, hb'.named⟩
  · rintro ⟨hdecoded, hnamed, hsigned⟩
    refine ⟨fun hs => ?_, fun t => ⟨fun h => ?_, ?_⟩, fun hm f r hu => ?_⟩
    · obtain ⟨b, hb⟩ := accepted_of_starts htls hs
      exact ⟨b, hb.parsed, hb.current, hnamed b hb.parsed hb.current hb.fits hb.named⟩
    · obtain ⟨b, hb, hsoon, ht⟩ := (validateCerts_expiringSoon htls).1 h
      exact ⟨b, hb.parsed, hb.current, hnamed b hb.parsed hb.current hb.fits hb.named, hsoon, ht⟩
    · rintro ⟨b, hb, hnow, hsign, hsoon, ht⟩
      obtain ⟨hfits, hn⟩ := hsigned b hb hnow hsign hsoon
      exact (validateCerts_expiringSoon htls).2 ⟨b, ⟨hb, hnow, hn, hfits⟩, hsoon, ht⟩
    · rw [validateCerts_unparsable htls hm hu]
      cases r with
      | some text => exact absurd hu (hdecoded hm f text)
      | none => exact ⟨_, rfl⟩

/-! ## The start -/

inductive Startup
  | serve
  | enroll (managerUrl : String)
  | exit (code : Nat)
  deriving DecidableEq, Repr

/-- `enrollment_manager_url`. -/
def enrollmentManagerUrl (config : AppConfig) : Option String :=
  (config.enrollment.bind (·.managerUrl)).filter fun url => !url.isEmpty

/-- What `main` does on the answer; a panic ends the process. -/
def startup (config : AppConfig) : Validation → Startup
  | .status .valid | .status (.expiringSoon _) => .serve
  | .status _ => match enrollmentManagerUrl config with
    | some managerUrl => .enroll managerUrl
    | none => .exit 0
  | .error _ => .exit 1
  | .panicked => .exit 101

theorem startup_eq_serve {v : Validation} : startup config v = .serve ↔ v.Starts := by
  unfold startup Validation.Starts
  split
  · simp
  · simp
  · split <;> simp_all
  · simp
  · simp

/-- The server never starts on certificates that have expired or do not belong to the key, whoever signed them. -/
theorem serves_current (htls : config.tlsConfig = some tls)
    (h : startup config (validateCerts x d now config) = .serve) : ∃ b, Parsed x d tls b ∧ Current x now b := by
  obtain ⟨b, hb⟩ := accepted_of_starts htls (startup_eq_serve.1 h)
  exact ⟨b, hb.parsed, hb.current⟩

/-- A malformed block stops the agent at every start, and it does not enroll again though it has a manager. -/
theorem malformed_never_enrolls (htls : config.tlsConfig = some tls) (hm : missingPaths d tls = []) {f : PemFile}
    {text : String} (h : Unparsable x d tls f (some text)) :
    startup config (validateCerts x d now config) = .exit 1 := by
  rw [validateCerts_unparsable htls hm h]
  rfl

end Answers

/-! ## A copied name -/

/-- Midnight of 1 January of the year 2026, and of 2030. -/
def newYear2026 : OffsetDateTime := ⟨1767225600000000000, by decide⟩

def newYear2030 : OffsetDateTime := ⟨1893456000000000000, by decide⟩

/-- A CA that issued its own certificate. -/
def caCertificate : Certificate := ⟨"CN=CA".toUTF8.data.toList, "CN=CA".toUTF8.data.toList, newYear2030⟩

/-- A certificate that has the CA as its issuer. -/
def agentCertificate : Certificate := ⟨"CN=agent".toUTF8.data.toList, "CN=CA".toUTF8.data.toList, newYear2030⟩

/-- Blocks around one byte. -/
def caPem : String := pemBlock "CERTIFICATE" "AA=="

def serverPem : String := pemBlock "CERTIFICATE" "AQ=="

/-- The files at the default paths. -/
def certFiles (ca : String) : HostFiles := fun p =>
  if p = TlsConfig.default.caCert then some (.text ca)
  else if p = TlsConfig.default.serverCert then some (.text serverPem)
  else if p = TlsConfig.default.serverKey then some (.text (pemBlock "PRIVATE KEY" "Ag=="))
  else none

def certDisk (ca : String) : CertDisk := ⟨certFiles ca, fun _ => none⟩

/-- Libraries to which the bytes 0 and 1 are the two certificates, and by which the CA has signed the other one or has
not; a block without an end is an error. -/
def sampleLibraries (signed : Bool) : CertLibraries Unit where
  certs bytes :=
    if bytes = caPem.toUTF8.data.toList then .ok [[0]]
    else if bytes = serverPem.toUTF8.data.toList then .ok [[1]]
    else .error "section end \"-----END CERTIFICATE-----\" missing"
  privateKey _ := .ok (some ())
  parseX509Certificate der := .ok (if der = [0] then caCertificate else agentCertificate)
  withSingleCert _ _ := true
  verifySignature _ _ := signed

def defaultConfig : AppConfig := ⟨some ⟨true, .default⟩, none, none⟩

def sampleBundle : CertBundle Unit := ⟨⟨[0], []⟩, ⟨[1], []⟩, (), caCertificate, agentCertificate⟩

theorem defaultConfig_tls : defaultConfig.tlsConfig = some .default := rfl

theorem sample_opened (ca : String) : (certDisk ca).open TlsConfig.default.caCert = .ok (.text ca) := by
  simp [certDisk, CertDisk.open, certFiles]

theorem sample_parsed (signed : Bool) :
    Parsed (sampleLibraries signed) (certDisk caPem) .default sampleBundle where
  ca := ⟨.text caPem, sample_opened _, by cases signed <;> decide +kernel⟩
  server := ⟨.text serverPem, by simp [certDisk, CertDisk.open, certFiles, TlsConfig.default],
    by cases signed <;> decide +kernel⟩
  key := ⟨.text (pemBlock "PRIVATE KEY" "Ag=="), by simp [certDisk, CertDisk.open, certFiles, TlsConfig.default], rfl⟩
  caCert := rfl
  serverCert := rfl

theorem sample_accepted (signed : Bool) :
    Accepted (sampleLibraries signed) (certDisk caPem) newYear2026 7 .default sampleBundle where
  parsed := sample_parsed signed
  current := ⟨by decide, by decide, rfl⟩
  named := rfl
  fits := by
    unfold Fits durationDays maxNanos
    decide

/-- A certificate that the CA has signed. -/
theorem sound_answer_signed : SoundAnswer (sampleLibraries true) (certDisk caPem) newYear2026 7 .default
    (validateCerts (sampleLibraries true) (certDisk caPem) newYear2026 defaultConfig) := by
  have hb := sample_parsed true
  refine (sound_answer_iff defaultConfig_tls).2 ⟨fun hm f text hu => ?_, fun b hb' _ _ _ => ?_, fun b hb' _ _ _ => ?_⟩
  · have hstarts : (validateCerts _ _ newYear2026 defaultConfig).Starts :=
      Accepted.starts defaultConfig_tls (sample_accepted true)
    rw [validateCerts_unparsable defaultConfig_tls hm hu] at hstarts
    simp [PemFile.answer, Validation.Starts] at hstarts
  · cases hb'.unique hb
    rfl
  · cases hb'.unique hb
    exact ⟨(sample_accepted true).fits, rfl⟩

/-- A certificate with the name of the CA, which it has not signed, is valid; and a CA file that breaks off is an
error. -/
theorem unsound_answers :
    ¬ SoundAnswer (sampleLibraries false) (certDisk caPem) newYear2026 7 .default
      (validateCerts (sampleLibraries false) (certDisk caPem) newYear2026 defaultConfig) ∧
    ¬ SoundAnswer (sampleLibraries true) (certDisk "-----BEGIN CERTIFICATE-----") newYear2026 7 .default
      (validateCerts (sampleLibraries true) (certDisk "-----BEGIN CERTIFICATE-----") newYear2026 defaultConfig) := by
  constructor
  · rintro ⟨hstarts, _, _⟩
    obtain ⟨b, hb, _, hsigned⟩ := hstarts (Accepted.starts defaultConfig_tls (sample_accepted false))
    cases hsigned
  · rintro ⟨_, _, hcorrupt⟩
    have hu : Unparsable (sampleLibraries true) (certDisk "-----BEGIN CERTIFICATE-----") .default
        TlsConfig.default.caFile (some "section end \"-----END CERTIFICATE-----\" missing") :=
      .ca ⟨_, sample_opened _, by decide +kernel⟩
    have hm : missingPaths (certDisk "-----BEGIN CERTIFICATE-----") .default = [] := by decide +kernel
    obtain ⟨error, he⟩ := hcorrupt hm _ _ hu
    rw [validateCerts_unparsable defaultConfig_tls hm hu] at he
    cases he

end LinuxPatchApi.Enroll
