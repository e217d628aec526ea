/-
`health_check` of `src/api/handlers/system.rs`: what it reports of the CRL, and what the verifier of client certificates
makes of that CRL at the same moment.
-/
import LinuxPatchApi.Auth.Revocation
import LinuxPatchApi.Enroll.KeyHealth
import LinuxPatchApi.Jobs.Scheduler
import LinuxPatchApi.Packages.Cache

namespace LinuxPatchApi.Auth

open Transition

/-! ## Reports on the CRL -/

/-- The `Display` text, which is also the serialised one. -/
def CrlStatus.text : CrlStatus → String
  | valid => "valid"
  | expired => "expired"
  | missing => "missing"
  | invalid => "invalid"
  | degraded => "degraded"

/-- Only a CRL that was valid when it was loaded is looked at again. -/
def CrlState.reevaluateExpiry (s : CrlState) (now : Int) : CrlStatus :=
  match s.status with
  | .valid => if s.nextUpdate.any (fun nu => decide ((nu : Int) < now)) then .expired else .valid
  | other => other

/-- No age is told of a file from the future. -/
def CrlState.crlAgeSeconds (s : CrlState) (now : Int) : Option Nat :=
  s.crlMtime.bind fun mtime => if mtime ≤ now then some (now - mtime).toNat else none

section Loaded

variable {pki : Pki} {caCertDer : Bytes}

/-- The state holds a verified CRL that was loaded at the time `now` or before it, or it holds none. -/
inductive LoadedBy (pki : Pki) (caCertDer : Bytes) (now : Int) (s : CrlState) : Prop
  | without : s.status ≠ .valid → s.status ≠ .expired → LoadedBy pki caCertDer now s
  | crl (t : Int) (bytes : Bytes) (crl : CertificateRevocationList) : t ≤ now → Verified pki bytes caCertDer crl →
      s.revokedSerials = crl.revoked.map formatSerialHex → s.nextUpdate = crl.nextUpdate.map timestampAsU64 →
      s.status = (if crl.nextUpdate.any (· < t) then .expired else .valid) → LoadedBy pki caCertDer now s

theorem LoadedBy.mono {now later : Int} {s : CrlState} (h : LoadedBy pki caCertDer now s) (hle : now ≤ later) :
    LoadedBy pki caCertDer later s := by
  cases h with
  | without hv he => exact .without hv he
  | crl t bytes crl ht hv hserials hnext hst => exact .crl t bytes crl (by omega) hv hserials hnext hst

/-- The time of the file does not matter. -/
theorem LoadedBy.of_mtime {now : Int} {s : CrlState} (h : LoadedBy pki caCertDer now s) (mtime : Option Int) :
    LoadedBy pki caCertDer now { s with crlMtime := mtime } := by
  cases h with
  | without hv he => exact .without hv he
  | crl t bytes crl ht hv hserials hnext hst => exact .crl t bytes crl ht hv hserials hnext hst

theorem loadCrlFromBytes_loadedBy (now : Int) (bytes : Bytes) (mtime : Option Int) :
    LoadedBy pki caCertDer now (loadCrlFromBytes pki now bytes mtime caCertDer) := by
  have hinvalid : LoadedBy pki caCertDer now (.empty .invalid mtime now) :=
    .without CrlStatus.noConfusion CrlStatus.noConfusion
  unfold loadCrlFromBytes
  split
  · exact hinvalid
  next crl hcrl =>
  split
  · exact hinvalid
  next caCert hca =>
  split
  · exact hinvalid
  next hv => exact .crl now bytes crl le_rfl ⟨hcrl, caCert, hca, by simpa using hv⟩ rfl rfl rfl

theorem loadCrl_loadedBy (now : Int) (file : FileRead) :
    LoadedBy pki caCertDer now (loadCrl pki now file caCertDer) := by
  cases file with
  | notFound | unreadable => exact .without CrlStatus.noConfusion CrlStatus.noConfusion
  | content bytes mtime => exact loadCrlFromBytes_loadedBy now bytes mtime

theorem initialCrl_loadedBy {now : Int} {file : FileRead} {s : CrlState}
    (h : initialCrl pki caCertDer now file = some s) : LoadedBy pki caCertDer now s := by
  have hfile : LoadedBy pki caCertDer now (loadCrl pki now file caCertDer) := loadCrl_loadedBy now file
  have hnone : LoadedBy pki caCertDer now (.default now) := .without CrlStatus.noConfusion CrlStatus.noConfusion
  unfold initialCrl at h
  dsimp only at h
  split at h <;> cases h
  · exact hfile
  · exact hfile
  · exact hnone
  · exact hnone

def HealthPhase.newState : HealthPhase → Option CrlState
  | .sleeping => none
  | .comparing newState | .storing newState => some newState

/-- The state in force and those on their way to it were loaded in time. -/
structure InTime (pki : Pki) (caCertDer : Bytes) (w : CrlWorld) : Prop where
  shared : LoadedBy pki caCertDer w.clock w.shared
  refresh : ∀ s ∈ w.refresh.newState, LoadedBy pki caCertDer w.clock s
  health : ∀ s ∈ w.health.newState, LoadedBy pki caCertDer w.clock s

theorem startup_inTime {w : CrlWorld} (hw : w.Startup pki caCertDer) : InTime pki caCertDer w := by
  refine ⟨initialCrl_loadedBy hw.shared, ?_, ?_⟩
  · rw [hw.refresh]
    rintro s ⟨⟩
  · rw [hw.health]
    rintro s ⟨⟩

/-- The step sets the clock back. -/
def SetsBack (f : Fired CrlWorld CrlAct) : Prop := f.post.clock < f.pre.clock

theorem inTime_step {f : Fired CrlWorld CrlAct} (hf : IsStep (crlAgent pki caCertDer) f) (hb : ¬ SetsBack f)
    (h : InTime pki caCertDer f.pre) : InTime pki caCertDer f.post := by
  obtain ⟨w, a, w'⟩ := f
  obtain ⟨hshared, hrefresh, hhealth⟩ := h
  have hs : CrlStep pki caCertDer w a w' := crlStep_of_step hf
  dsimp only at hshared hrefresh hhealth
  cases hs with
  | disk file => exact ⟨hshared, hrefresh, hhealth⟩
  | clock now =>
    have hle : w.clock ≤ now := not_lt.1 hb
    exact ⟨hshared.mono hle, fun s hs => (hrefresh s hs).mono hle, fun s hs => (hhealth s hs).mono hle⟩
  | fetch | failed =>
    refine ⟨hshared, ?_, hhealth⟩
    rintro s ⟨⟩
  | fetched body _ hv =>
    refine ⟨hshared, ?_, hhealth⟩
    rintro s ⟨⟩
    exact loadCrlFromBytes_loadedBy w.clock body none
  | written body newState hr | renamed body newState mtime hr =>
    refine ⟨hshared, ?_, hhealth⟩
    rintro s ⟨⟩
    exact hrefresh newState (by rw [hr]; rfl)
  | refreshed newState mtime hr =>
    refine ⟨(hrefresh newState (by rw [hr]; rfl)).of_mtime mtime, ?_, hhealth⟩
    rintro s ⟨⟩
  | loaded =>
    refine ⟨hshared, hrefresh, ?_⟩
    rintro s ⟨⟩
    exact loadCrl_loadedBy w.clock w.file
  | same =>
    refine ⟨hshared, hrefresh, ?_⟩
    rintro s ⟨⟩
  | differs newState hh =>
    refine ⟨hshared, hrefresh, ?_⟩
    rintro s ⟨⟩
    exact hhealth newState (by rw [hh]; rfl)
  | reloaded newState hh =>
    refine ⟨hhealth newState (by rw [hh]; rfl), hrefresh, ?_⟩
    rintro s ⟨⟩

/-! ## What the verifier makes of a CRL -/

/-- The dates of CRLs are from 1970 on and fit into 63 bits: `loadCrlFromBytes` makes unsigned seconds of them. -/
def Dated (pki : Pki) : Prop :=
  ∀ der crl, pki.crlFromDer der = some crl → ∀ t ∈ crl.nextUpdate, 0 ≤ t ∧ t < 2 ^ 63

/-- The verifier refuses exactly the certificates that this verified CRL lists, of those that WebPKI accepts. -/
structure Enforces (pki : Pki) (caCertDer : Bytes) (s : CrlState) (crl : CertificateRevocationList) : Prop where
  verified : ∃ bytes, Verified pki bytes caCertDer crl
  verdict : ∀ inner cert, inner cert = .ok () → (verifyClientCert pki inner s cert = .ok () ↔
    ∀ c, pki.parseX509Certificate cert = some c → c.serial ∉ crl.revoked)

theorem enforces_of_serials {s : CrlState} {bytes : Bytes} {crl : CertificateRevocationList}
    (hv : Verified pki bytes caCertDer crl) (hserials : s.revokedSerials = crl.revoked.map formatSerialHex)
    (hst : s.status = .valid ∨ s.status = .expired) : Enforces pki caCertDer s crl := by
  refine ⟨⟨bytes, hv⟩, fun inner cert hinner => ?_⟩
  rw [verifyClientCert_ok_iff hinner hst, hserials]
  simp only [List.mem_map_of_injective formatSerialHex_injective]

theorem verifyClientCert_unchecked {s : CrlState} (h : s.status = .missing ∨ s.status = .degraded)
    (inner : Bytes → Except TlsError Unit) (cert : Bytes) : verifyClientCert pki inner s cert = inner cert := by
  unfold verifyClientCert
  rcases h with h | h <;> rw [h] <;> cases inner cert <;> rfl

theorem timestampAsU64_of_dated {t : Int} (h0 : 0 ≤ t) (h : t < 2 ^ 63) : (timestampAsU64 t : Int) = t := by
  unfold timestampAsU64
  omega

theorem reevaluateExpiry_other {s : CrlState} (now : Int) (h : s.status ≠ .valid) :
    s.reevaluateExpiry now = s.status := by
  unfold CrlState.reevaluateExpiry
  split
  next hv => exact absurd hv h
  next => rfl

/-- The report looks at the date of the CRL, not at when it was loaded. -/
theorem reevaluateExpiry_eq {s : CrlState} {t now : Int} {crl : CertificateRevocationList} (ht : t ≤ now)
    (hd : ∀ u ∈ crl.nextUpdate, 0 ≤ u ∧ u < 2 ^ 63) (hnext : s.nextUpdate = crl.nextUpdate.map timestampAsU64)
    (hst : s.status = (if crl.nextUpdate.any (· < t) then .expired else .valid)) :
    s.reevaluateExpiry now = if crl.nextUpdate.any (· < now) then .expired else .valid := by
  cases hu : crl.nextUpdate with
  | none =>
    simp only [hu, Option.any_none, Option.map_none] at hst hnext ⊢
    simp [CrlState.reevaluateExpiry, hst, hnext]
  | some u =>
    have hcast : (timestampAsU64 u : Int) = u := timestampAsU64_of_dated (hd u hu).1 (hd u hu).2
    simp only [hu, Option.any_some, Option.map_some, decide_eq_true_eq] at hst hnext ⊢
    by_cases hlt : u < t
    · rw [if_pos hlt] at hst
      rw [reevaluateExpiry_other now (by simp [hst]), hst, if_pos (by omega)]
    · rw [if_neg hlt] at hst
      simp [CrlState.reevaluateExpiry, hst, hnext, hcast]

/-- What the verifier does with a CRL of which this is reported. -/
def Holds (pki : Pki) (caCertDer : Bytes) (s : CrlState) (now : Int) : CrlStatus → Prop
  | .valid => ∃ crl, Enforces pki caCertDer s crl ∧ ∀ t ∈ crl.nextUpdate, now ≤ t
  | .expired => ∃ crl, Enforces pki caCertDer s crl ∧ ∃ t ∈ crl.nextUpdate, t < now
  | .missing | .degraded => ∀ inner cert, verifyClientCert pki inner s cert = inner cert
  | .invalid => ∀ inner cert, ∃ e, verifyClientCert pki inner s cert = .error e

theorem LoadedBy.holds {now : Int} {s : CrlState} (hd : Dated pki) (h : LoadedBy pki caCertDer now s) :
    Holds pki caCertDer s now (s.reevaluateExpiry now) := by
  cases h with
  | without hv he =>
    rw [reevaluateExpiry_other now hv]
    cases hst : s.status with
    | valid => exact absurd hst hv
    | expired => exact absurd hst he
    | missing => exact verifyClientCert_unchecked (.inl hst)
    | degraded => exact verifyClientCert_unchecked (.inr hst)
    | invalid => exact fun _ _ => verifyClientCert_invalid hst
  | crl t bytes crl ht hv hserials hnext hst =>
    have henforces : Enforces pki caCertDer s crl :=
      enforces_of_serials hv hserials (by rw [hst]; split <;> simp)
    rw [reevaluateExpiry_eq ht (hd _ crl hv.1) hnext hst]
    cases hu : crl.nextUpdate with
    | none =>
      refine ⟨crl, henforces, ?_⟩
      rw [hu]
      rintro u ⟨⟩
    | some u =>
      by_cases hlt : u < now
      · rw [Option.any_some, decide_eq_true hlt, if_pos rfl]
        exact ⟨crl, henforces, u, hu, hlt⟩
      · rw [Option.any_some, decide_eq_false hlt, if_neg Bool.false_ne_true]
        refine ⟨crl, henforces, ?_⟩
        rw [hu]
        rintro v ⟨⟩
        omega

theorem run_holds {w w' : CrlWorld} {tr : List (Fired CrlWorld CrlAct)} (hd : Dated pki)
    (hw : w.Startup pki caCertDer) (hr : Run (crlAgent pki caCertDer) w tr w') (hb : ∀ f ∈ tr, ¬ SetsBack f) :
    Holds pki caCertDer w'.shared w'.clock (w'.shared.reevaluateExpiry w'.clock) :=
  (hr.invariant (fun _ hf hg => inTime_step hf hg) (startup_inTime hw) hb).shared.holds hd

end Loaded

end LinuxPatchApi.Auth

namespace LinuxPatchApi.Api

open LinuxPatchApi.Auth LinuxPatchApi.Enroll LinuxPatchApi.Jobs LinuxPatchApi.Packages Transition

/-! ## The health check -/

/-- What `health_check` reads besides the CRL. -/
structure HealthSources where
  cache : PackageCacheState
  cacheNow : Nat
  admissionMode : AdmissionMode
  selfUpdateActive : Bool
  gpgKey : GpgKeyStatus × Option String
  repoSynced : Option Bool
  repoLastSyncAt : Option Int

/-- The texts of chrono: of an instant, and of a Unix time in the range of dates. -/
structure HealthTexts where
  toRfc3339 : Nat → String
  fromTimestamp : Int → Option String

structure HealthData where
  status : String
  lastCacheUpdate : Option String
  cacheStatus : String
  crlStatus : Option String
  crlAgeSeconds : Option Nat
  crlNextUpdate : Option String
  gpgKeyStatus : Option String
  gpgKeyExpiresAt : Option String
  repoConfigSynced : Option Bool
  repoConfigLastSync : Option String
  deriving DecidableEq, Repr

def healthCheck (x : HealthTexts) (src : HealthSources) (crl : CrlState) (now : Int) : HealthData :=
  let status := "healthy"
  let status := if src.admissionMode = .recovery then "degraded" else status
  let status := if src.selfUpdateActive then "degraded" else status
  let effectiveCrlStatus := crl.reevaluateExpiry now
  let status := if effectiveCrlStatus = .invalid then "degraded" else status
  let status := if effectiveCrlStatus = .expired then "degraded" else status
  let status := if degradesHealth src.gpgKey.1 then "degraded" else status
  let status := if src.repoSynced = some false then "degraded" else status
  { status := status
    lastCacheUpdate := src.cache.lastUpdate.map x.toRfc3339
    cacheStatus := if src.cache.isStale src.cacheNow then "stale" else "fresh"
    crlStatus := some effectiveCrlStatus.text
    crlAgeSeconds := crl.crlAgeSeconds now
    crlNextUpdate := crl.nextUpdate.bind fun nu => x.fromTimestamp nu
    gpgKeyStatus := some src.gpgKey.1.asStr
    gpgKeyExpiresAt := src.gpgKey.2
    repoConfigSynced := src.repoSynced
    -- a time before 1970 has no text
    repoConfigLastSync := src.repoLastSyncAt.bind fun t => if 0 ≤ t then x.fromTimestamp t else none }

/-- Nothing but the CRL can trouble the agent. -/
structure HealthSources.Untroubled (src : HealthSources) : Prop where
  admission : src.admissionMode ≠ .recovery
  selfUpdate : src.selfUpdateActive = false
  gpgKey : src.gpgKey.1 = .valid
  repo : src.repoSynced ≠ some false

theorem degradesHealth_eq_false_iff (status : GpgKeyStatus) : degradesHealth status = false ↔ status = .valid := by
  cases status <;> decide

/-- One check of the handler. -/
theorem downgraded_healthy_iff {c : Prop} [Decidable c] {status : String} :
    (if c then "degraded" else status) = "healthy" ↔ ¬ c ∧ status = "healthy" := by
  by_cases h : c <;> simp [h]

theorem downgraded_cases {c : Prop} [Decidable c] {status : String} (h : status = "healthy" ∨ status = "degraded") :
    (if c then "degraded" else status) = "healthy" ∨ (if c then "degraded" else status) = "degraded" := by
  by_cases hc : c <;> simp [hc, h]

section HealthCheck

variable (x : HealthTexts) (src : HealthSources) (crl : CrlState) (now : Int)

theorem healthCheck_cases : (healthCheck x src crl now).status = "healthy" ∨
    (healthCheck x src crl now).status = "degraded" :=
  downgraded_cases (downgraded_cases (downgraded_cases (downgraded_cases (downgraded_cases
    (downgraded_cases (.inl rfl))))))

theorem healthCheck_healthy_iff : (healthCheck x src crl now).status = "healthy" ↔
    src.Untroubled ∧ crl.reevaluateExpiry now ≠ .invalid ∧ crl.reevaluateExpiry now ≠ .expired := by
  simp only [healthCheck, downgraded_healthy_iff, Bool.not_eq_true, degradesHealth_eq_false_iff, and_true]
  constructor
  · rintro ⟨hrepo, hkey, hexpired, hinvalid, hupdate, hmode⟩
    exact ⟨⟨hmode, hupdate, hkey, hrepo⟩, hinvalid, hexpired⟩
  · rintro ⟨⟨hmode, hupdate, hkey, hrepo⟩, hinvalid, hexpired⟩
    exact ⟨hrepo, hkey, hexpired, hinvalid, hupdate, hmode⟩

end HealthCheck

theorem text_injective : Function.Injective CrlStatus.text := by
  intro a b
  cases a <;> cases b <;> decide

/-! ## Truthful reports -/

/-- What the answer says of the CRL is what the verifier does with it at the time, and the agent is healthy when it says
so. -/
structure Truthful (pki : Pki) (caCertDer : Bytes) (src : HealthSources) (crl : CrlState) (now : Int)
    (data : HealthData) : Prop where
  told : ∃ reported : CrlStatus, data.crlStatus = some reported.text
  sound : ∀ reported : CrlStatus, data.crlStatus = some reported.text → Holds pki caCertDer crl now reported
  healthy : data.status = "healthy" → src.Untroubled ∧
    (Holds pki caCertDer crl now .valid ∨ Holds pki caCertDer crl now .missing)
  degraded : data.status ≠ "healthy" → data.status = "degraded" ∧
    (src.Untroubled → Holds pki caCertDer crl now .expired ∨ Holds pki caCertDer crl now .invalid)

theorem truthful_of_holds {pki : Pki} {caCertDer : Bytes} {crl : CrlState} {now : Int}
    (h : Holds pki caCertDer crl now (crl.reevaluateExpiry now)) (x : HealthTexts) (src : HealthSources) :
    Truthful pki caCertDer src crl now (healthCheck x src crl now) := by
  refine ⟨⟨_, rfl⟩, fun reported hr => ?_, fun hs => ?_, fun hs => ⟨(healthCheck_cases x src crl now).resolve_left hs,
    fun hsrc => ?_⟩⟩
  · rwa [← text_injective (Option.some_injective _ hr)]
  · obtain ⟨hsrc, hinvalid, hexpired⟩ := (healthCheck_healthy_iff x src crl now).1 hs
    refine ⟨hsrc, ?_⟩
    cases hst : crl.reevaluateExpiry now <;> rw [hst] at h
    case valid => exact .inl h
    case missing => exact .inr h
    -- no CRL is enforced in either case
    case degraded => exact .inr h
    case expired => exact absurd hst hexpired
    case invalid => exact absurd hst hinvalid
  · rw [Ne, healthCheck_healthy_iff] at hs
    cases hst : crl.reevaluateExpiry now with
    | expired => exact .inl (hst ▸ h)
    | invalid => exact .inr (hst ▸ h)
    | valid | missing | degraded => exact absurd ⟨hsrc, by simp [hst], by simp [hst]⟩ hs

/-- Whatever the two tasks, the manager and the disk do from the start on, the CRL status of `health_check` is what the
verifier makes of clients, as long as the clock is not set back. -/
theorem health_reports_truthful {pki : Pki} {caCertDer : Bytes} {w w' : CrlWorld} {tr : List (Fired CrlWorld CrlAct)}
    (hd : Dated pki) (hw : w.Startup pki caCertDer) (hr : Run (crlAgent pki caCertDer) w tr w')
    (hb : ∀ f ∈ tr, ¬ SetsBack f) (x : HealthTexts) (src : HealthSources) :
    Truthful pki caCertDer src w'.shared w'.clock (healthCheck x src w'.shared w'.clock) :=
  truthful_of_holds (run_holds hd hw hr hb) x src

/-- CRLs that are due at the time 10. -/
def duePki : Pki := { bytePki with
  crlFromDer := fun der => match der with
    | 0x30 :: serials => some ⟨serials, serials.map UInt8.toNat, some 10⟩
    | _ => none }

theorem duePki_dated : Dated duePki := by
  intro der crl h t ht
  unfold duePki at h
  dsimp only at h
  split at h <;> cases h
  cases ht
  decide

/-- The CRL falls due while it is in force. -/
def fallsDue : List CrlAct := revokeSeven ++ [.clock 20]

def quietSources : HealthSources :=
  ⟨⟨none, false, none, 3600, 0⟩, 0, .open, false, (.valid, none), some true, some 0⟩

def noTexts : HealthTexts := ⟨fun _ => "", fun _ => none⟩

theorem health_reports_truthful_due :
    (healthCheck noTexts quietSources
      (endState bareAgent ((trace (crlAgent duePki [0xCA]) bareAgent fallsDue).getD [])).shared 20).crlStatus =
        some "expired" ∧
    Truthful duePki [0xCA] quietSources
      (endState bareAgent ((trace (crlAgent duePki [0xCA]) bareAgent fallsDue).getD [])).shared
      (endState bareAgent ((trace (crlAgent duePki [0xCA]) bareAgent fallsDue).getD [])).clock
      (healthCheck noTexts quietSources
        (endState bareAgent ((trace (crlAgent duePki [0xCA]) bareAgent fallsDue).getD [])).shared
        (endState bareAgent ((trace (crlAgent duePki [0xCA]) bareAgent fallsDue).getD [])).clock) :=
  ⟨by decide, health_reports_truthful duePki_dated ⟨by decide, rfl, rfl⟩
    (run_trace _ bareAgent fallsDue (by decide)) (by unfold SetsBack; decide) noTexts quietSources⟩

end LinuxPatchApi.Api
