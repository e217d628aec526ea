/-
What a failed provisioning of the PKI bundle leaves. The members are replaced one after the other and nothing
is rolled back: the previous bundle is whole exactly when the failure comes before the first rename, or what was
renamed before it is what was there already.
-/
import LinuxPatchApi.Enroll.Provision

namespace LinuxPatchApi.Enroll

open LinuxPatchApi.Packages Disk FileM

/-! ## Files that are apart -/

/-- The files, their temporary files and their backups are all different. -/
def TlsConfig.Apart (tls : TlsConfig) : Prop :=
  ([tls.caCert, tls.serverCert, tls.serverKey, tls.crlPath].flatMap footprint).Nodup

instance (tls : TlsConfig) : Decidable tls.Apart := inferInstanceAs (Decidable (List.Nodup _))

theorem default_apart : TlsConfig.default.Apart := by decide +kernel

section Writes

variable {env : HostSurroundings} {s t : HostFiles} {path other pemData : String} {isKey : Bool}

/-- A write leaves the paths that it does not work with. -/
theorem written_of_not_mem {p : String} (c : Content) (h : p ∉ footprint path) : written s path c p = s p := by
  simp only [footprint, List.mem_cons, List.not_mem_nil, or_false, not_or] at h
  rw [written, if_neg h.1, if_neg h.2.1, if_neg fun hb => h.2.2 hb.1]

/-- Whether a file can be written is a matter of the paths that the write works with. -/
theorem writable_congr (h : ∀ p ∈ footprint path, s p = t p) :
    Writable env s path pemData isKey ↔ Writable env t path pemData isKey := by
  have hp : s path = t path := h path (by simp [footprint])
  have ht : s (tempPath path) = t (tempPath path) := h _ (by simp [footprint])
  constructor
  · rintro ⟨hd, hb, ⟨hf, hc, hw, hl⟩, hr⟩
    exact ⟨hd, by rwa [← hp], ⟨ht ▸ hf, hc, hw, hl⟩, hr⟩
  · rintro ⟨hd, hb, ⟨hf, hc, hw, hl⟩, hr⟩
    exact ⟨hd, by rwa [hp], ⟨ht ▸ hf, hc, hw, hl⟩, hr⟩

end Writes

/-! ## A sequence of writes -/

/-- A file of the bundle, with its new content. -/
structure Member where
  path : String
  pemData : String
  isKey : Bool
  failure : String

namespace Member

variable (m : Member)

def write : FileM Unit := (writePemFile m.path m.pemData m.isKey).context m.failure

/-- The file holds the content that is about to be written. -/
def Held (s : HostFiles) : Prop := s m.path = some (.text m.pemData)

end Member

def writeMembers : List Member → FileM Unit
  | [] => return ()
  | m :: ms => do
    m.write
    writeMembers ms

/-- The writes leave the contents as they are up to the first that fails, which is not carried out. -/
def Intact (env : HostSurroundings) (s : HostFiles) : List Member → Prop
  | [] => True
  | m :: ms => ¬ Writable env s m.path m.pemData m.isKey ∨ m.Held s ∧ Intact env s ms

section Sequence

variable {env : HostSurroundings} {s t : HostFiles}

theorem intact_congr {ms : List Member} (h : ∀ p ∈ ms.flatMap (footprint ·.path), s p = t p) :
    Intact env s ms ↔ Intact env t ms := by
  induction ms with
  | nil => rfl
  | cons m ms ih =>
    rw [List.flatMap_cons] at h
    have hm : ∀ p ∈ footprint m.path, s p = t p := fun p hp => h p (List.mem_append_left _ hp)
    have hpath : s m.path = t m.path := hm _ (by simp [footprint])
    rw [Intact, Intact, writable_congr hm, ih fun p hp => h p (List.mem_append_right _ hp),
      Member.Held, Member.Held, hpath]

theorem member_write_ok {m : Member} {a : Unit} : m.write.run env s = (.ok a, t) ↔
    Writable env s m.path m.pemData m.isKey ∧ written s m.path (.text m.pemData) = t := by
  rw [Member.write, context_ok, writePemFile_ok]

/-- A failed write was not possible, and it left every file that it is not about. -/
theorem member_write_error {m : Member} {e : AnyhowError} (h : m.write.run env s = (.error e, t)) :
    ¬ Writable env s m.path m.pemData m.isKey ∧ ∀ p, p ≠ tempPath m.path → p ≠ backupPath m.path → t p = s p := by
  constructor
  · intro hw
    have hok := (member_write_ok (a := ()) (s := s)).2 ⟨hw, rfl⟩
    rw [h] at hok
    cases hok
  · obtain ⟨_, h⟩ := context_error h
    exact fun p ht hb => writePemFile_error h hb ht

theorem confined_writeMembers (ms : List Member) :
    Action.Confined (· ∈ ms.flatMap (footprint ·.path)) (writeMembers ms) := by
  induction ms with
  | nil => exact Action.confined_pure _
  | cons m ms ih =>
    refine (confined_context (confined_writePemFile.mono fun p hp => ?_)).bind fun _ => ih.mono fun p hp => ?_
    · exact List.mem_append_left _ hp
    · exact List.mem_append_right _ hp

/-- Writes that fail, or that are followed by a failure elsewhere, leave the files as they were exactly when
what was renamed before was there already. -/
theorem writeMembers_intact {rest : FileM Unit} {T : String → Prop} (hrest : Action.Confined T rest) {e : AnyhowError}
    {ms : List Member} (hapart : (ms.flatMap (footprint ·.path)).Nodup) (hT : ∀ m ∈ ms, ¬ T m.path)
    (h : (writeMembers ms >>= fun _ => rest).run env s = (.error e, t)) :
    (∀ m ∈ ms, t m.path = s m.path) ↔ Intact env s ms := by
  induction ms generalizing s with
  | nil => simp [Intact]
  | cons m ms ih =>
    rw [List.flatMap_cons, List.nodup_append'] at hapart
    obtain ⟨hself, hms, hdisj⟩ := hapart
    -- no other member is among the paths of this write
    have helse : ∀ p ∈ ms.flatMap (footprint ·.path), p ∉ footprint m.path := fun p hp hm => hdisj hm hp
    have hmem : ∀ x ∈ ms, x.path ∈ ms.flatMap (footprint ·.path) := fun x hx =>
      List.mem_flatMap.2 ⟨x, hx, by simp [footprint]⟩
    rw [writeMembers, bind_assoc] at h
    rw [Intact, List.forall_mem_cons]
    rcases Action.bind_error.1 h with h | ⟨_, u, hw, h⟩
    · obtain ⟨hnot, hleft⟩ := member_write_error h
      refine iff_of_true ⟨?_, fun x hx => ?_⟩ (.inl hnot)
      · simp only [footprint, List.nodup_cons, List.mem_cons, List.not_mem_nil, or_false, not_or] at hself
        exact hleft _ hself.1.1 hself.1.2
      · have hnot := helse _ (hmem x hx)
        simp only [footprint, List.mem_cons, List.not_mem_nil, or_false, not_or] at hnot
        exact hleft _ hnot.2.1 hnot.2.2
    · obtain ⟨hwritable, rfl⟩ := member_write_ok.1 hw
      have hih := ih hms (fun x hx => hT x (List.mem_cons_of_mem _ hx)) h
      have hsame : ∀ p ∈ ms.flatMap (footprint ·.path), written s m.path (.text m.pemData) p = s p := fun p hp =>
        written_of_not_mem _ (helse p hp)
      have hnew : t m.path = some (.text m.pemData) := by
        have hconf : Action.Confined (fun p => p ∈ ms.flatMap (footprint ·.path) ∨ T p)
            (writeMembers ms >>= fun _ => rest) :=
          ((confined_writeMembers ms).mono fun _ => .inl).bind fun _ => hrest.mono fun _ => .inr
        have hnot : ¬ (m.path ∈ ms.flatMap (footprint ·.path) ∨ T m.path) := by
          rintro (hp | hp)
          · exact helse _ hp (by simp [footprint])
          · exact hT m List.mem_cons_self hp
        rw [hconf.kept h hnot]
        exact if_pos rfl
      have hothers : (∀ x ∈ ms, t x.path = s x.path) ↔ ∀ x ∈ ms, t x.path = written s m.path (.text m.pemData) x.path :=
        forall₂_congr fun x hx => by rw [hsame _ (hmem x hx)]
      rw [hnew, hothers, hih, intact_congr hsame, Member.Held]
      simp [hwritable, eq_comm]

end Sequence

/-! ## The bundle -/

/-- The files of the bundle that a server cannot do without, in the order of the writes. -/
def PkiBundle.members (b : PkiBundle) (tls : TlsConfig) : List Member :=
  [⟨tls.caCert, b.caCrt, false, "Failed to write CA certificate"⟩,
    ⟨tls.serverCert, b.serverCrt, false, "Failed to write server certificate"⟩,
    ⟨tls.serverKey, b.serverKey, true, "Failed to write server key"⟩]

/-- The last write, of the CRL if there is one. -/
def provisionCrl (b : PkiBundle) (tls : TlsConfig) : FileM Unit :=
  if !(Text.trim b.crlPem).isEmpty then (writePemFile tls.crlPath b.crlPem false).context "Failed to write CRL"
  else pure ()

theorem provisionPkiBundle_eq {b : PkiBundle} (tlsConfig : Option TlsConfig) (h : validateBundle b = .ok ()) :
    provisionPkiBundle b tlsConfig = writeMembers (b.members (tlsConfig.getD .default)) >>= fun _ =>
      provisionCrl b (tlsConfig.getD .default) := by
  simp only [provisionPkiBundle, h, PkiBundle.members, writeMembers, Member.write, provisionCrl, bind_assoc, pure_bind]

theorem confined_provisionCrl (b : PkiBundle) (tls : TlsConfig) :
    Action.Confined (· ∈ footprint tls.crlPath) (provisionCrl b tls) := by
  unfold provisionCrl
  split
  · exact confined_context confined_writePemFile
  · exact Action.confined_pure _

/-- The CA certificate, the server certificate and the server key are what they were. -/
def SameBundle (tls : TlsConfig) (s t : HostFiles) : Prop :=
  t tls.caCert = s tls.caCert ∧ t tls.serverCert = s tls.serverCert ∧ t tls.serverKey = s tls.serverKey

/-- A provisioning that fails leaves the previous bundle exactly when the bundle is refused before any write, or
the members before the first one that cannot be written are the ones that were there. -/
theorem failed_bundle_same_iff {env : HostSurroundings} {s t : HostFiles} {b : PkiBundle} {tlsConfig : Option TlsConfig}
    {e : AnyhowError} (hp : (tlsConfig.getD .default).Apart)
    (h : (provisionPkiBundle b tlsConfig).run env s = (.error e, t)) :
    SameBundle (tlsConfig.getD .default) s t ↔
      (∃ refusal, validateBundle b = .error refusal) ∨ Intact env s (b.members (tlsConfig.getD .default)) := by
  generalize htls : tlsConfig.getD .default = tls at hp ⊢
  cases hv : validateBundle b with
  | error refusal =>
    simp only [provisionPkiBundle, hv, Action.run_fail] at h
    cases h
    exact iff_of_true ⟨rfl, rfl, rfl⟩ (.inl ⟨_, rfl⟩)
  | ok u =>
    cases u
    rw [provisionPkiBundle_eq tlsConfig hv, htls] at h
    have hsame : SameBundle tls s t ↔ ∀ m ∈ b.members tls, t m.path = s m.path := by
      simp [SameBundle, PkiBundle.members]
    have hsplit : ([tls.caCert, tls.serverCert, tls.serverKey].flatMap footprint ++ footprint tls.crlPath).Nodup := by
      simpa [TlsConfig.Apart] using hp
    obtain ⟨hmembers, _, hcrl⟩ := List.nodup_append'.1 hsplit
    have happart : ((b.members tls).flatMap (footprint ·.path)).Nodup := by simpa [PkiBundle.members] using hmembers
    have hother : ∀ m ∈ b.members tls, m.path ∉ footprint tls.crlPath := fun m hm hcrlPath =>
      hcrl (List.mem_flatMap.2 ⟨m.path, by
        simp only [PkiBundle.members, List.mem_cons, List.not_mem_nil, or_false] at hm
        rcases hm with rfl | rfl | rfl <;> simp, by simp [footprint]⟩) hcrlPath
    rw [hsame, writeMembers_intact (confined_provisionCrl b tls) happart hother h]
    simp

/-! ## A mix of two bundles -/

/-- A PEM block around a word. -/
def pemBlock (type word : String) : String :=
  "-----BEGIN " ++ type ++ "-----\n" ++ word ++ "\n-----END " ++ type ++ "-----"

def newBundle : PkiBundle where
  caCrt := pemBlock "CERTIFICATE" "bmV3IENB"
  caChain := ""
  serverCrt := pemBlock "CERTIFICATE" "bmV3IHNlcnZlcg=="
  serverKey := pemBlock "PRIVATE KEY" "bmV3IGtleQ=="
  crlPem := ""
  repoConfig := none

/-- An earlier bundle at the default paths. -/
def oldFiles : HostFiles := fun p =>
  if p = TlsConfig.default.caCert then some (.text (pemBlock "CERTIFICATE" "b2xkIENB"))
  else if p = TlsConfig.default.serverCert then some (.text (pemBlock "CERTIFICATE" "b2xkIHNlcnZlcg=="))
  else if p = TlsConfig.default.serverKey then some (.text (pemBlock "PRIVATE KEY" "b2xkIGtleQ=="))
  else none

/-- The device is full when the temporary file of the given path is written. -/
def fullAt (path : String) : HostSurroundings where
  dirExists := fun _ => true
  outcome := fun o => match o with
    | .writeAll p _ => if p = tempPath path then .failed "No space left on device (os error 28)" none else .done
    | _ => .done

theorem not_writable_full {path pemData : String} {isKey : Bool} {s : HostFiles} :
    ¬ Writable (fullAt path) s path pemData isKey := fun hw => by
  have hdone := hw.temp.written
  simp [fullAt] at hdone

/-- The error chain of the full device. -/
def fullError (failure temp : String) : AnyhowError :=
  ⟨[failure, "Failed to write PEM data to: " ++ temp], .message "No space left on device (os error 28)"⟩

theorem newBundle_valid : validateBundle newBundle = .ok () := by decide +kernel

/-- A run that fails with the error. -/
def Fails (m : FileM Unit) (env : HostSurroundings) (s : HostFiles) (e : AnyhowError) : Prop :=
  (m.run env s).1 = .error e

instance (m : FileM Unit) (env : HostSurroundings) (s : HostFiles) (e : AnyhowError) : Decidable (Fails m env s e) :=
  inferInstanceAs (Decidable ((m.run env s).1 = .error e))

theorem Fails.run_eq {m : FileM Unit} {env : HostSurroundings} {s : HostFiles} {e : AnyhowError} (h : Fails m env s e) :
    m.run env s = (.error e, (m.run env s).2) := Prod.ext h rfl

/-- The failure of the first write leaves everything. -/
theorem failed_bundle_same_first : SameBundle ((none : Option TlsConfig).getD .default) oldFiles
    ((provisionPkiBundle newBundle none).run (fullAt TlsConfig.default.caCert) oldFiles).2 := by
  have hfail : Fails (provisionPkiBundle newBundle none) (fullAt TlsConfig.default.caCert) oldFiles
      (fullError "Failed to write CA certificate" "/etc/linux_patch_api/certs/ca.tmp") := by
    rw [provisionPkiBundle_eq none newBundle_valid]
    decide +kernel
  have hp : ((none : Option TlsConfig).getD .default).Apart := default_apart
  exact (failed_bundle_same_iff hp hfail.run_eq).2 (.inr (.inl not_writable_full))

/-- The failure of the second write leaves the new CA beside the old certificate and key. -/
theorem failed_bundle_mixed : ∃ (env : HostSurroundings) (s t : HostFiles) (b : PkiBundle) (e : AnyhowError),
    (provisionPkiBundle b none).run env s = (.error e, t) ∧ ¬ SameBundle .default s t := by
  have hfail : Fails (provisionPkiBundle newBundle none) (fullAt TlsConfig.default.serverCert) oldFiles
      (fullError "Failed to write server certificate" "/etc/linux_patch_api/certs/server.tmp") := by
    rw [provisionPkiBundle_eq none newBundle_valid]
    decide +kernel
  refine ⟨_, _, _, _, _, hfail.run_eq, ?_⟩
  rintro ⟨hca, _⟩
  rw [provisionPkiBundle_eq none newBundle_valid] at hca
  exact absurd hca (by decide +kernel)

end LinuxPatchApi.Enroll
