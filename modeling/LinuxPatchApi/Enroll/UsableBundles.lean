/-
The PKI bundle that provisioning accepts, and what the next start makes of it. Before the files are written each text
is searched for two markers; at the start it is read as PEM and X.509 and the key is tried with the certificate.
-/
import LinuxPatchApi.Enroll.CrlOnDisk
import LinuxPatchApi.Enroll.Certificates

namespace LinuxPatchApi.Enroll

open LinuxPatchApi.Packages Disk FileM Checks

/-! ## What is not rejected -/

section Rejections

variable {κ α : Type} {x : CertLibraries κ} {d : CertDisk} {now : OffsetDateTime} {days : UInt32} {tls : TlsConfig}

/-- The certificates and the key are found in the texts, and they are of one pair, as far as that is looked at: after
a certificate that has expired, or a threshold beyond the last date, nothing else is. -/
def Passes (x : CertLibraries κ) (now : OffsetDateTime) (days : UInt32) (ca server key : List UInt8) : Prop :=
  ∃ (caCerts serverCerts : CertChain) (serverKey : κ), x.certs ca = .ok caCerts.toList ∧
    x.certs server = .ok serverCerts.toList ∧ x.privateKey key = .ok (some serverKey) ∧
    ∃ caCert, x.parseX509Certificate caCerts.first = .ok caCert ∧ (caCert.notAfter.nanos < now.nanos ∨
      ∃ serverCert, x.parseX509Certificate serverCerts.first = .ok serverCert ∧
        (serverCert.notAfter.nanos < now.nanos ∨ ¬ Fits now days ∨
          x.withSingleCert serverCerts.toList serverKey = true))

/-- The files can be opened, and what they hold passes. -/
def FilesPass (x : CertLibraries κ) (d : CertDisk) (now : OffsetDateTime) (days : UInt32) (tls : TlsConfig) : Prop :=
  ∃ ca server key, d.open tls.caCert = .ok ca ∧ d.open tls.serverCert = .ok server ∧ d.open tls.serverKey = .ok key ∧
    Passes x now days ca.bytes server.bytes key.bytes

theorem ends_load {decode : List UInt8 → Except String (Option α)} {f : PemFile} {Q : α → Prop} :
    Ends (fun v => ¬ v.Rejected) Q (f.load d decode) ↔
      ∃ a content, d.open f.path = .ok content ∧ decode content.bytes = .ok (some a) ∧ Q a := by
  rw [ends_of_never fun v h hn => hn (PemFile.load_error h)]
  simp only [PemFile.load_ok, exists_and_right, ← and_assoc]

theorem ends_checkExpiry {f : PemFile} {der : Der} {Q : Certificate → Prop} :
    Ends (fun v => ¬ v.Rejected) Q (checkExpiry x now f der) ↔
      ∃ cert, x.parseX509Certificate der = .ok cert ∧ (cert.notAfter.nanos < now.nanos ∨ Q cert) := by
  unfold checkExpiry
  cases x.parseX509Certificate der with
  | error e => simp [Validation.Rejected]
  | ok cert =>
    by_cases h : cert.notAfter.nanos < now.nanos
    · simp [h, Validation.Rejected]
    · simp [h]

theorem ends_renewalLimit {P : Prop} :
    Ends (fun v => ¬ v.Rejected) (fun _ => P) (renewalLimit now days) ↔ ¬ Fits now days ∨ P := by
  rw [fits_iff]
  cases h : renewalLimit now days with
  | error v =>
    have hno : ¬ ∃ limit : OffsetDateTime, limit.nanos = now.nanos + durationDays days := by
      rintro ⟨limit, hlimit⟩
      rw [renewalLimit_ok.2 hlimit] at h
      cases h
    refine iff_of_true ?_ (.inl hno)
    unfold renewalLimit at h
    split at h <;> cases h
    simp [Validation.Rejected]
  | ok limit =>
    have hlimit := renewalLimit_ok.1 h
    simp only [ends_ok]
    exact ⟨.inr, fun hor => hor.resolve_left fun hno => hno ⟨limit, hlimit⟩⟩

theorem ends_keyMismatch {c : Bool} {P : Unit → Prop} :
    Ends (fun v : Validation => ¬ v.Rejected) P (require c (Validation.status .keyMismatch)) ↔ c = true ∧ P () := by
  simp [ends_require, Validation.Rejected]

theorem ends_untrusted {c : Bool} :
    Ends (fun v : Validation => ¬ v.Rejected) (fun _ => True) (require c (Validation.status .untrusted)) := by
  cases c <;> simp [require, Validation.Rejected]

theorem ends_checkCerts : Ends (fun v => ¬ v.Rejected) (fun _ => True) (checkCerts x d now tls days) ↔
    FilesPass x d now days tls := by
  simp only [checkCerts, loadCerts, loadKey, ends_bind, ends_load, ends_checkExpiry, decodeChain_ok, ends_pure,
    ends_keyMismatch, ends_untrusted, ends_renewalLimit, and_true, verifyKeyMatch]
  constructor
  · rintro ⟨ca, caFile, hca, hcaCerts, server, serverFile, hserver, hserverCerts, key, keyFile, hkey, hprivate, hrest⟩
    exact ⟨caFile, serverFile, keyFile, hca, hserver, hkey, ca, server, key, hcaCerts, hserverCerts, hprivate, hrest⟩
  · rintro ⟨caFile, serverFile, keyFile, hca, hserver, hkey, ca, server, key, hcaCerts, hserverCerts, hprivate, hrest⟩
    exact ⟨ca, caFile, hca, hcaCerts, server, serverFile, hserver, hserverCerts, key, keyFile, hkey, hprivate, hrest⟩

variable {config : AppConfig}

/-- With TLS enabled and no file missing, the answer is no rejection exactly when the files pass. -/
theorem validateCerts_rejected (htls : config.tlsConfig = some tls) (hm : missingPaths d tls = []) :
    ¬ (validateCerts x d now config).Rejected ↔ FilesPass x d now (thresholdDays config) tls := by
  rw [← ends_checkCerts]
  cases h : checkCerts x d now tls (thresholdDays config) with
  | error v =>
    rw [validateCerts_of_there htls hm, h]
    rfl
  | ok s =>
    obtain ⟨b, hb, _⟩ := checkCerts_ok.1 h
    exact iff_of_true (hb.starts htls).not_rejected trivial

end Rejections

/-! ## After the provisioning -/

/-- No later write of a provisioning works with the path of an earlier file. -/
def TlsConfig.Kept (tls : TlsConfig) : Prop :=
  tls.caCert ∉ [tls.serverCert, tls.serverKey, tls.crlPath].flatMap footprint ∧
    tls.serverCert ∉ [tls.serverKey, tls.crlPath].flatMap footprint ∧ tls.serverKey ∉ footprint tls.crlPath

theorem default_kept : TlsConfig.default.Kept := by
  unfold TlsConfig.Kept
  decide +kernel

section Provisioned

variable {env : HostSurroundings} {s t : HostFiles} {b : PkiBundle} {tlsConfig : Option TlsConfig}

theorem crlMembers_footprint {tls : TlsConfig} {p : String} (h : p ∈ (b.crlMembers tls).flatMap (footprint ·.path)) :
    p ∈ footprint tls.crlPath := by
  unfold PkiBundle.crlMembers at h
  split at h
  · simpa using h
  · simp at h

/-- The files of an accepted bundle hold its texts. -/
theorem provisioned (h : (provisionPkiBundle b tlsConfig).run env s = (.ok (), t))
    (hkept : (tlsConfig.getD .default).Kept) : t (tlsConfig.getD .default).caCert = some (.text b.caCrt) ∧
      t (tlsConfig.getD .default).serverCert = some (.text b.serverCrt) ∧
      t (tlsConfig.getD .default).serverKey = some (.text b.serverKey) := by
  generalize htls : tlsConfig.getD .default = tls at hkept ⊢
  cases hv : validateBundle b with
  | error e =>
    simp only [provisionPkiBundle, hv, Action.run_fail] at h
    cases h
  | ok u =>
    cases u
    rw [provisionPkiBundle_all tlsConfig hv, htls, PkiBundle.allMembers, PkiBundle.members] at h
    simp only [List.cons_append, List.nil_append] at h
    obtain ⟨hca, hserver, hkey⟩ := hkept
    simp only [List.flatMap_cons, List.flatMap_nil, List.append_nil, List.mem_append, not_or] at hca hserver
    have hcaKept := writeMembers_kept [] h
    have hserverKept := writeMembers_kept [_] h
    have hkeyKept := writeMembers_kept [_, _] h
    simp only [List.flatMap_cons, List.mem_append, not_or] at hcaKept hserverKept
    exact ⟨hcaKept ⟨hca.1, hca.2.1, fun hmem => hca.2.2 (crlMembers_footprint hmem)⟩,
      hserverKept ⟨hserver.1, fun hmem => hserver.2 (crlMembers_footprint hmem)⟩,
      hkeyKept fun hmem => hkey (crlMembers_footprint hmem)⟩

variable {κ : Type} {x : CertLibraries κ} {now : OffsetDateTime} {config : AppConfig}
  {openError : String → Option String}

/-- The texts of the bundle pass. -/
def PkiBundle.Passes (b : PkiBundle) (x : CertLibraries κ) (now : OffsetDateTime) (days : UInt32) : Prop :=
  Enroll.Passes x now days (Content.text b.caCrt).bytes (Content.text b.serverCrt).bytes
    (Content.text b.serverKey).bytes

/-- The three files can be opened. -/
def Opens (openError : String → Option String) (tls : TlsConfig) : Prop :=
  openError tls.caCert = none ∧ openError tls.serverCert = none ∧ openError tls.serverKey = none

theorem open_ok {d : CertDisk} {path : String} {c c' : Content} (h : d.files path = some c) :
    d.open path = .ok c' ↔ d.openError path = none ∧ c' = c := by
  unfold CertDisk.open
  rw [h]
  cases d.openError path <;> simp [eq_comm]

/-- After an accepted bundle, the next start does not reject the files exactly when they pass, or one of them is gone;
where no write replaces an earlier file, exactly when the bundle passes. -/
theorem accepted_bundle_usable_iff (h : (provisionPkiBundle b config.tlsConfig).run env s = (.ok (), t)) :
    (¬ (validateCerts x ⟨t, openError⟩ now config).Rejected ↔ ∀ tls, config.tlsConfig = some tls →
      missingPaths ⟨t, openError⟩ tls = [] → FilesPass x ⟨t, openError⟩ now (thresholdDays config) tls) ∧
    ∀ tls, config.tlsConfig = some tls → tls.Kept → (¬ (validateCerts x ⟨t, openError⟩ now config).Rejected ↔
      Opens openError tls ∧ b.Passes x now (thresholdDays config)) := by
  constructor
  · cases htls : config.tlsConfig with
    | none => simp [validateCerts, htls, Validation.Rejected]
    | some tls =>
      simp only [Option.some.injEq, forall_eq']
      by_cases hm : missingPaths ⟨t, openError⟩ tls = []
      · rw [validateCerts_rejected htls hm]
        exact ⟨fun hpass _ => hpass, fun hpass => hpass hm⟩
      · refine iff_of_true ?_ fun hnil => absurd hnil hm
        simp [validateCerts, htls, hm, Validation.Rejected]
  · intro tls htls hkept
    obtain ⟨hca, hserver, hkey⟩ := provisioned h (by rwa [htls])
    rw [htls, Option.getD_some] at hca hserver hkey
    have hm : missingPaths ⟨t, openError⟩ tls = [] := missingPaths_eq_nil.2 (by simp [hca, hserver, hkey])
    rw [validateCerts_rejected htls hm]
    constructor
    · rintro ⟨ca, server, key, hopenCa, hopenServer, hopenKey, hpass⟩
      obtain ⟨hca', rfl⟩ := (open_ok hca).1 hopenCa
      obtain ⟨hserver', rfl⟩ := (open_ok hserver).1 hopenServer
      obtain ⟨hkey', rfl⟩ := (open_ok hkey).1 hopenKey
      exact ⟨⟨hca', hserver', hkey'⟩, hpass⟩
    · rintro ⟨⟨hca', hserver', hkey'⟩, hpass⟩
      exact ⟨_, _, _, (open_ok hca).2 ⟨hca', rfl⟩, (open_ok hserver).2 ⟨hserver', rfl⟩, (open_ok hkey).2 ⟨hkey', rfl⟩,
        hpass⟩

end Provisioned

/-! ## A bundle of words -/

/-- A bundle of the two sample certificates. -/
def certBundle : PkiBundle :=
  { newBundle with caCrt := caPem, serverCrt := serverPem, serverKey := pemBlock "PRIVATE KEY" "Ag==" }

/-- The files that a bundle leaves on a new host. -/
def leftBy (b : PkiBundle) : HostFiles := ((provisionPkiBundle b defaultConfig.tlsConfig).run .sound fun _ => none).2

theorem run_of_ok {m : FileM Unit} {env : HostSurroundings} {s : HostFiles} (h : (m.run env s).1 = .ok ()) :
    m.run env s = (.ok (), (m.run env s).2) := Prod.ext h rfl

theorem left_of_writes {b : PkiBundle} (h : validateBundle b = .ok ())
    (hw : ((writeMembers (b.allMembers .default)).run .sound fun _ => none).1 = .ok ()) :
    (provisionPkiBundle b defaultConfig.tlsConfig).run .sound (fun _ => none) = (.ok (), leftBy b) := by
  refine run_of_ok ?_
  rw [provisionPkiBundle_all _ h, defaultConfig_tls, Option.getD_some]
  exact hw

theorem certBundle_left :
    (provisionPkiBundle certBundle defaultConfig.tlsConfig).run .sound (fun _ => none) = (.ok (), leftBy certBundle) :=
  left_of_writes (by decide +kernel) (by decide +kernel)

theorem newBundle_left :
    (provisionPkiBundle newBundle defaultConfig.tlsConfig).run .sound (fun _ => none) = (.ok (), leftBy newBundle) :=
  left_of_writes newBundle_valid (by decide +kernel)

theorem certBundle_passes : certBundle.Passes (sampleLibraries true) newYear2026 7 :=
  ⟨⟨[0], []⟩, ⟨[1], []⟩, (), by decide +kernel, by decide +kernel, rfl, caCertificate, rfl,
    .inr ⟨agentCertificate, rfl, .inr (.inr rfl)⟩⟩

/-- Two certificates and the key of one of them are not rejected. -/
theorem certBundle_usable :
    ¬ (validateCerts (sampleLibraries true) ⟨leftBy certBundle, fun _ => none⟩ newYear2026 defaultConfig).Rejected :=
  ((accepted_bundle_usable_iff certBundle_left).2 .default defaultConfig_tls default_kept).2
    ⟨⟨rfl, rfl, rfl⟩, certBundle_passes⟩

/-- Libraries that read the words in the blocks of `newBundle`, which are no certificates. -/
def wordLibraries : CertLibraries Unit where
  certs bytes :=
    if bytes = newBundle.caCrt.toUTF8.data.toList then .ok ["new CA".toUTF8.data.toList]
    else if bytes = newBundle.serverCrt.toUTF8.data.toList then .ok ["new server".toUTF8.data.toList]
    else .ok []
  privateKey _ := .ok (some ())
  parseX509Certificate _ := .error "Parsing Error: InvalidCertificate"
  withSingleCert _ _ := false
  verifySignature _ _ := false

/-- Words between the markers are accepted and written, and the next start rejects them. -/
theorem accepted_words_rejected : ∃ (x : CertLibraries Unit) (s t : HostFiles) (b : PkiBundle),
    (provisionPkiBundle b defaultConfig.tlsConfig).run .sound s = (.ok (), t) ∧
      (validateCerts x ⟨t, fun _ => none⟩ newYear2026 defaultConfig).Rejected := by
  refine ⟨wordLibraries, fun _ => none, leftBy newBundle, newBundle, newBundle_left, ?_⟩
  by_contra hno
  have hm : missingPaths ⟨leftBy newBundle, fun _ => none⟩ .default = [] := by
    obtain ⟨hca, hserver, hkey⟩ := provisioned newBundle_left (by rw [defaultConfig_tls]; exact default_kept)
    rw [defaultConfig_tls, Option.getD_some] at hca hserver hkey
    exact missingPaths_eq_nil.2 (by simp [hca, hserver, hkey])
  obtain ⟨_, _, _, _, _, _, _, _, _, _, _, _, caCert, hparse, _⟩ := (validateCerts_rejected defaultConfig_tls hm).1 hno
  cases hparse

end LinuxPatchApi.Enroll
