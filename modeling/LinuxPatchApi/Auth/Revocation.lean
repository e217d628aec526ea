/-
What the client certificate verifier decides about a certificate that WebPKI accepts: the hex texts of serial numbers
differ where the numbers do, and a certificate passes a CRL when its serial number is not on it or cannot be read.
-/
import LinuxPatchApi.Auth.CrlWorld

namespace LinuxPatchApi.Auth

/-! ## Hex texts as numbers -/

theorem hexDigit_inj {a b : ℕ} (ha : a < 16) (hb : b < 16) (h : hexDigit a = hexDigit b) : a = b := by
  have hall : ∀ x ∈ List.range 16, ∀ y ∈ List.range 16, hexDigit x = hexDigit y → x = y := by decide
  exact hall a (List.mem_range.2 ha) b (List.mem_range.2 hb) h

theorem hexByte_inj {a b : ℕ} (ha : a < 256) (hb : b < 256) (h : hexByte a = hexByte b) : a = b := by
  simp only [hexByte, List.cons.injEq, and_true] at h
  have hhigh : a / 16 = b / 16 := hexDigit_inj (by omega) (by omega) h.1
  have hlow : a % 16 = b % 16 := hexDigit_inj (by omega) (by omega) h.2
  omega

/-- Two digits for each byte: texts of byte sequences are equal only if the sequences are. -/
theorem flatMap_hexByte_inj : ∀ {as bs : List ℕ}, (∀ a ∈ as, a < 256) → (∀ b ∈ bs, b < 256) →
    as.flatMap hexByte = bs.flatMap hexByte → as = bs
  | [], [], _, _, _ => rfl
  | [], b :: bs, _, _, h => by simp [hexByte] at h
  | a :: as, [], _, _, h => by simp [hexByte] at h
  | a :: as, b :: bs, ha, hb, h => by
    rw [List.flatMap_cons, List.flatMap_cons] at h
    have hlen : (hexByte a).length = (hexByte b).length := rfl
    obtain ⟨hhead, htail⟩ := List.append_inj h hlen
    rw [hexByte_inj (ha a (by simp)) (hb b (by simp)) hhead,
      flatMap_hexByte_inj (fun x hx => ha x (by simp [hx])) (fun x hx => hb x (by simp [hx])) htail]

theorem toBytesBe_lt {n b : ℕ} (h : b ∈ toBytesBe n) : b < 256 := by
  unfold toBytesBe at h
  split at h
  · simp only [List.mem_singleton] at h
    omega
  · exact Nat.digits_lt_base (by norm_num) (List.mem_reverse.1 h)

/-- The number is what its bytes spell in base 256. -/
theorem ofDigits_toBytesBe (n : ℕ) : Nat.ofDigits 256 (toBytesBe n).reverse = n := by
  unfold toBytesBe
  split
  next h => simp [h]
  next h => rw [List.reverse_reverse, Nat.ofDigits_digits]

theorem formatSerialHex_injective : Function.Injective formatSerialHex := by
  intro m n h
  have hchars : (toBytesBe m).flatMap hexByte = (toBytesBe n).flatMap hexByte := String.ofList_injective h
  have hbytes : toBytesBe m = toBytesBe n :=
    flatMap_hexByte_inj (fun _ => toBytesBe_lt) (fun _ => toBytesBe_lt) hchars
  rw [← ofDigits_toBytesBe m, hbytes, ofDigits_toBytesBe]

/-! ## Which certificates pass -/

section Check

variable {pki : Pki} {inner : Bytes → Except TlsError Unit} {s : CrlState} {cert : Bytes}

theorem verifyClientCert_invalid (h : s.status = .invalid) : ∃ e, verifyClientCert pki inner s cert = .error e := by
  unfold verifyClientCert
  cases inner cert with
  | error e => exact ⟨e, rfl⟩
  | ok _ => exact ⟨.revoked, by rw [h]⟩

/-- With a CRL at hand, a certificate that WebPKI accepts passes unless its serial is read and listed. -/
theorem verifyClientCert_ok_iff (hinner : inner cert = .ok ()) (hs : s.status = .valid ∨ s.status = .expired) :
    verifyClientCert pki inner s cert = .ok () ↔
      ∀ c, pki.parseX509Certificate cert = some c → formatSerialHex c.serial ∉ s.revokedSerials := by
  unfold verifyClientCert
  rw [hinner]
  cases hc : pki.parseX509Certificate cert with
  | none => rcases hs with hs | hs <;> simp [hs, certSerialHex, hc]
  | some c => rcases hs with hs | hs <;> simp [hs, certSerialHex, hc, CrlState.isRevoked]

/-- The serial numbers on the CRL in the bytes. -/
def Listed (pki : Pki) (bytes caCertDer : Bytes) (serial : ℕ) : Prop :=
  ∃ crl, Verified pki bytes caCertDer crl ∧ serial ∈ crl.revoked

/-- The texts in a state that was built from a CRL are those of its serials, and comparing texts compares numbers. -/
theorem mem_revokedSerials_iff {now : Int} {bytes caCertDer : Bytes} {mtime : Option Int}
    (hs : (loadCrlFromBytes pki now bytes mtime caCertDer).status ≠ .invalid) {serial : ℕ} :
    formatSerialHex serial ∈ (loadCrlFromBytes pki now bytes mtime caCertDer).revokedSerials ↔
      Listed pki bytes caCertDer serial := by
  rcases loadCrlFromBytes_spec pki now bytes mtime caCertDer with h | ⟨crl, hcrl, _, hserials⟩
  · exact absurd h hs
  rw [hserials, List.mem_map_of_injective formatSerialHex_injective]
  constructor
  · intro h
    exact ⟨crl, hcrl, h⟩
  · rintro ⟨crl', hcrl', h⟩
    cases hcrl.1.symm.trans hcrl'.1
    exact h

/-- What the check promises of a certificate that WebPKI accepts, when the state was built from the bytes. -/
structure FailsClosed (pki : Pki) (inner : Bytes → Except TlsError Unit) (bytes caCertDer : Bytes) (s : CrlState)
    (cert : Bytes) : Prop where
  passed : s.status = .valid ∨ s.status = .expired → (verifyClientCert pki inner s cert = .ok () ↔
    ∃ c, pki.parseX509Certificate cert = some c ∧ ¬ Listed pki bytes caCertDer c.serial)
  invalid : s.status = .invalid → ∃ e, verifyClientCert pki inner s cert = .error e
  numeric : Function.Injective formatSerialHex

end Check

/-- The check is exact for the certificates whose serial number can be read, and for no others. -/
theorem check_fails_closed_iff {pki : Pki} {inner : Bytes → Except TlsError Unit} {now : Int} {bytes caCertDer : Bytes}
    {mtime : Option Int} {cert : Bytes} (haccepted : inner cert = .ok ()) :
    FailsClosed pki inner bytes caCertDer (loadCrlFromBytes pki now bytes mtime caCertDer) cert ↔
      ((loadCrlFromBytes pki now bytes mtime caCertDer).status ≠ .invalid →
        (pki.parseX509Certificate cert).isSome) := by
  generalize hs : loadCrlFromBytes pki now bytes mtime caCertDer = s
  have hlisted : s.status ≠ .invalid → ∀ serial, formatSerialHex serial ∈ s.revokedSerials ↔
      Listed pki bytes caCertDer serial := by
    rw [← hs]
    exact fun h _ => mem_revokedSerials_iff h
  have hstatus : s.status = .invalid ∨ s.status = .valid ∨ s.status = .expired := by
    rw [← hs]
    rcases loadCrlFromBytes_spec pki now bytes mtime caCertDer with h | ⟨_, _, h, _⟩
    · exact .inl h
    · exact .inr h
  constructor
  · intro h hvalid
    have hcrl : s.status = .valid ∨ s.status = .expired := hstatus.resolve_left hvalid
    by_contra hnone
    rw [Option.isSome_iff_ne_none, not_not] at hnone
    -- a serial that cannot be read is compared with nothing
    have hok : verifyClientCert pki inner s cert = .ok () :=
      (verifyClientCert_ok_iff haccepted hcrl).2 (by simp [hnone])
    obtain ⟨c, hc, _⟩ := (h.passed hcrl).1 hok
    rw [hnone] at hc
    cases hc
  · intro h
    refine ⟨fun hcrl => ?_, verifyClientCert_invalid, formatSerialHex_injective⟩
    have hvalid : s.status ≠ .invalid := by rcases hcrl with hcrl | hcrl <;> simp [hcrl]
    obtain ⟨c, hc⟩ := Option.isSome_iff_exists.1 (h hvalid)
    rw [verifyClientCert_ok_iff haccepted hcrl]
    constructor
    · intro hout
      exact ⟨c, hc, fun hl => hout c hc ((hlisted hvalid _).2 hl)⟩
    · rintro ⟨c', hc', hl⟩ d hd hmem
      cases hc'.symm.trans hd
      exact hl ((hlisted hvalid _).1 hmem)

/-- A readable certificate and a CRL with another serial. -/
theorem check_fails_closed_eight : FailsClosed bytePki (fun _ => .ok ()) [0x30, 0x07] [0xCA]
    (loadCrlFromBytes bytePki 0 [0x30, 0x07] none [0xCA]) [0x08] :=
  (check_fails_closed_iff rfl).2 fun _ => rfl

/-- WebPKI accepts a certificate that the parser of the second check refuses: it passes the CRL, with no serial
number compared. -/
theorem unreadable_certificate_passes : ∃ (pki : Pki) (inner : Bytes → Except TlsError Unit) (s : CrlState)
    (cert : Bytes), inner cert = .ok () ∧ s = loadCrlFromBytes pki 0 [0x30, 0x07] none [0xCA] ∧ s.status = .valid ∧
      verifyClientCert pki inner s cert = .ok () ∧ pki.parseX509Certificate cert = none :=
  ⟨bytePki, fun _ => .ok (), _, [0x07, 0x00], rfl, rfl, by decide, by decide, rfl⟩

end LinuxPatchApi.Auth
