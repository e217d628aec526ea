/-
`src/auth/crl.rs`: the in-memory state of the certificate revocation list, loading and verifying it,
and `src/auth/mtls.rs`: the client certificate verifier that consults it. The parsers of the
x509-parser and base64 crates and the signature check are given functions (`Pki`).
-/
import Mathlib.Data.Nat.Digits.Lemmas
import LinuxPatchApi.Lib.Text

namespace LinuxPatchApi.Auth

abbrev Bytes := List UInt8

/-! ## Given parsers -/

/-- What the agent reads of a parsed CRL; `signed` is the part that the signature covers. -/
structure CertificateRevocationList where
  signed : Bytes
  revoked : List Nat
  nextUpdate : Option Int
  deriving DecidableEq

/-- What the agent reads of a parsed certificate. -/
structure X509Certificate where
  serial : Nat
  publicKey : Bytes
  deriving DecidableEq

/-- The third-party parsers and the signature check. -/
structure Pki where
  base64Decode : String → Option Bytes
  crlFromDer : Bytes → Option CertificateRevocationList
  parseX509Certificate : Bytes → Option X509Certificate
  verifySignature : CertificateRevocationList → Bytes → Bool

/-! ## State -/

inductive CrlStatus where
  | valid
  | expired
  | missing
  | invalid
  | degraded
  deriving DecidableEq, Repr

structure CrlState where
  revokedSerials : List String
  status : CrlStatus
  crlMtime : Option Int
  loadedAt : Int
  nextUpdate : Option Nat
  deriving DecidableEq, Repr

/-- A state without revoked serials. -/
def CrlState.empty (status : CrlStatus) (crlMtime : Option Int) (now : Int) : CrlState :=
  ⟨[], status, crlMtime, now, none⟩

/-- `CrlState::default`. -/
def CrlState.default (now : Int) : CrlState := .empty .missing none now

def CrlState.isRevoked (s : CrlState) (serialHex : String) : Bool := s.revokedSerials.contains serialHex

/-! ## Serial numbers -/

/-- `BigUint::to_bytes_be`: one zero byte for zero, no leading zero byte otherwise. -/
def toBytesBe (n : Nat) : List Nat := if n = 0 then [0] else (Nat.digits 256 n).reverse

def hexDigit (n : Nat) : Char := if n < 10 then Char.ofNat (0x30 + n) else Char.ofNat (0x61 + (n - 10))

/-- `format!("{:02x}", b)`. -/
def hexByte (b : Nat) : List Char := [hexDigit (b / 16), hexDigit (b % 16)]

def formatSerialHex (serial : Nat) : String := String.ofList ((toBytesBe serial).flatMap hexByte)

example : formatSerialHex 0x0123abcd = "0123abcd" := by decide

def certSerialHex (pki : Pki) (certDer : Bytes) : Option String :=
  (pki.parseX509Certificate certDer).map fun cert => formatSerialHex cert.serial

/-! ## Loading -/

/-- The bytes between two PEM markers: what `extract_pem_crl_der` and `extract_pem_cert_der` share. -/
def extractPemDer (pki : Pki) (beginMarker endMarker : String) (pem : Bytes) : Option Bytes := do
  let (_, rest) ← Text.splitAtFirst beginMarker.toList (Text.fromUtf8Lossy pem).toList
  let (block, _) ← Text.splitAtFirst endMarker.toList rest
  pki.base64Decode (String.ofList (block.filter fun c => !Text.isWhitespace c))

def extractPemCertDer (pki : Pki) (pem : Bytes) : Option Bytes :=
  extractPemDer pki "-----BEGIN CERTIFICATE-----" "-----END CERTIFICATE-----" pem

def extractPemCrlDer (pki : Pki) (pem : Bytes) : Option Bytes :=
  extractPemDer pki "-----BEGIN X509 CRL-----" "-----END X509 CRL-----" pem

/-- `nu.timestamp() as u64`. -/
def timestampAsU64 (t : Int) : Nat := (t % 2 ^ 64).toNat

def loadCrlFromBytes (pki : Pki) (now : Int) (crlBytes : Bytes) (crlMtime : Option Int) (caCertDer : Bytes) :
    CrlState :=
  match pki.crlFromDer ((extractPemCrlDer pki crlBytes).getD crlBytes) with
  | none => .empty .invalid crlMtime now
  | some crl =>
    match pki.parseX509Certificate ((extractPemCertDer pki caCertDer).getD caCertDer) with
    | none => .empty .invalid crlMtime now
    | some caCert =>
      if !pki.verifySignature crl caCert.publicKey then .empty .invalid crlMtime now
      else
        { revokedSerials := crl.revoked.map formatSerialHex
          status := if crl.nextUpdate.any (· < now) then .expired else .valid
          crlMtime := crlMtime
          loadedAt := now
          nextUpdate := crl.nextUpdate.map timestampAsU64 }

/-- What reading the CRL file gives: its content with its modification time, if that can be read. -/
inductive FileRead where
  | content (bytes : Bytes) (mtime : Option Int)
  | notFound
  | unreadable
  deriving DecidableEq, Repr

def loadCrl (pki : Pki) (now : Int) (file : FileRead) (caCertDer : Bytes) : CrlState :=
  match file with
  | .notFound => .empty .missing none now
  | .unreadable => .empty .degraded none now
  | .content bytes mtime => loadCrlFromBytes pki now bytes mtime caCertDer

/-! ## What loading decides -/

/-- The CRL in the bytes parses and its signature verifies against the CA certificate. -/
def Verified (pki : Pki) (crlBytes caCertDer : Bytes) (crl : CertificateRevocationList) : Prop :=
  pki.crlFromDer ((extractPemCrlDer pki crlBytes).getD crlBytes) = some crl ∧
    ∃ caCert, pki.parseX509Certificate ((extractPemCertDer pki caCertDer).getD caCertDer) = some caCert ∧
      pki.verifySignature crl caCert.publicKey = true

/-- Bytes are refused as Invalid, or they hold a verified CRL whose serials are the state's. -/
theorem loadCrlFromBytes_spec (pki : Pki) (now : Int) (bytes : Bytes) (mtime : Option Int) (ca : Bytes) :
    (loadCrlFromBytes pki now bytes mtime ca).status = .invalid ∨
    ∃ crl, Verified pki bytes ca crl ∧
      ((loadCrlFromBytes pki now bytes mtime ca).status = .valid ∨
        (loadCrlFromBytes pki now bytes mtime ca).status = .expired) ∧
      (loadCrlFromBytes pki now bytes mtime ca).revokedSerials = crl.revoked.map formatSerialHex := by
  unfold loadCrlFromBytes
  split
  · exact .inl rfl
  next crl hcrl =>
  split
  · exact .inl rfl
  next caCert hca =>
  split
  · exact .inl rfl
  next hv =>
  refine .inr ⟨crl, ⟨hcrl, caCert, hca, by simpa using hv⟩, ?_, rfl⟩
  simp only
  split
  · exact .inr rfl
  · exact .inl rfl

/-! ## The verifier -/

inductive TlsError where
  /-- The chain does not verify. -/
  | webpki
  /-- `CertificateError::Revoked`. -/
  | revoked
  deriving DecidableEq, Repr

/-- `CrlAwareVerifier::verify_client_cert`, with the chain validation of WebPKI as given. -/
def verifyClientCert (pki : Pki) (inner : Bytes → Except TlsError Unit) (crl : CrlState) (endEntity : Bytes) :
    Except TlsError Unit :=
  match inner endEntity with
  | .error e => .error e
  | .ok () =>
    match crl.status with
    | .valid | .expired =>
      match certSerialHex pki endEntity with
      | some serialHex => if crl.isRevoked serialHex then .error .revoked else .ok ()
      | none => .ok ()
    | .missing | .degraded => .ok ()
    | .invalid => .error .revoked

/-- The state is that of a CRL, valid or expired, with the serial on it. -/
def CrlState.Lists (s : CrlState) (serial : Nat) : Prop :=
  (s.status = .valid ∨ s.status = .expired) ∧ formatSerialHex serial ∈ s.revokedSerials

/-- The state makes the verifier reject the serial: it is fail-closed, or it lists the serial. -/
def CrlState.Rejects (s : CrlState) (serial : Nat) : Prop := s.status = .invalid ∨ s.Lists serial

/-- A state that rejects a serial rejects every certificate that carries it, whatever WebPKI says. -/
theorem rejects_spec {pki : Pki} {s : CrlState} {serial : Nat} (h : s.Rejects serial)
    (inner : Bytes → Except TlsError Unit) {cert : Bytes} {c : X509Certificate}
    (hc : pki.parseX509Certificate cert = some c) (hs : c.serial = serial) :
    ∃ e, verifyClientCert pki inner s cert = .error e := by
  unfold verifyClientCert
  cases inner cert with
  | error e => exact ⟨e, rfl⟩
  | ok _ =>
    have hx : certSerialHex pki cert = some (formatSerialHex serial) := by
      simp [certSerialHex, hc, hs]
    rcases h with h | ⟨h | h, hm⟩
    · exact ⟨.revoked, by simp [h]⟩
    · exact ⟨.revoked, by simp [h, hx, CrlState.isRevoked, hm]⟩
    · exact ⟨.revoked, by simp [h, hx, CrlState.isRevoked, hm]⟩

end LinuxPatchApi.Auth
