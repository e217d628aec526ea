/-
The PEM reader of `src/auth/crl.rs` with the standard Base64 decoder: which files it accepts and what it takes
from them, and that certificates and CRLs come to the same whether they are stored in PEM or in DER.
-/
import LinuxPatchApi.Auth.Crl
import LinuxPatchApi.Lib.Base64
import LinuxPatchApi.Lib.Markers

namespace LinuxPatchApi.Auth

open Text

/-- The decoder is the base64 crate's engine `STANDARD`. -/
def Pki.StandardBase64 (pki : Pki) : Prop := ∀ text, pki.base64Decode text = Base64.decode text.toList

/-- A text with the block between the markers, which begin nowhere earlier; the block without its blanks is the
encoding of the bytes. -/
structure Encloses (beginMarker endMarker : String) (text : List Char) (der : Bytes) (before block after : List Char) :
    Prop where
  text : text = before ++ beginMarker.toList ++ block ++ endMarker.toList ++ after
  first : NotBefore beginMarker.toList before
  last : NotBefore endMarker.toList block
  der : (block.filter fun c => !isWhitespace c) = Base64.encode der

section Accepted

variable {pki : Pki} {beginMarker endMarker : String} {pem der : Bytes}

theorem marker_toList_ne_nil {marker : String} (h : marker ≠ "") : marker.toList ≠ [] :=
  fun hnil => h (String.toList_eq_nil_iff.1 hnil)

theorem Encloses.read (hstd : pki.StandardBase64) (hbegin : beginMarker ≠ "") (hend : endMarker ≠ "")
    {before block after : List Char}
    (h : Encloses beginMarker endMarker (fromUtf8Lossy pem).toList der before block after) :
    extractPemDer pki beginMarker endMarker pem = some der := by
  have hfirst := (splitAtFirst_eq_some_iff (marker_toList_ne_nil hbegin)).2
    ⟨show (fromUtf8Lossy pem).toList = before ++ beginMarker.toList ++ (block ++ endMarker.toList ++ after) by
      simpa using h.text, h.first⟩
  have hlast := (splitAtFirst_eq_some_iff (marker_toList_ne_nil hend)).2
    ⟨show block ++ endMarker.toList ++ after = block ++ endMarker.toList ++ after from rfl, h.last⟩
  simp only [extractPemDer, Option.bind_eq_bind, hfirst, hlast, Option.bind_some, hstd _, String.toList_ofList]
  exact Base64.decode_eq_some.2 h.der

/-- Exactly the first block is read, and exactly if it is the canonical encoding of something. -/
theorem extractPemDer_iff (hstd : pki.StandardBase64) (hbegin : beginMarker ≠ "") (hend : endMarker ≠ "") :
    extractPemDer pki beginMarker endMarker pem = some der ↔
      ∃ before block after, Encloses beginMarker endMarker (fromUtf8Lossy pem).toList der before block after := by
  constructor
  · intro h
    simp only [extractPemDer, Option.bind_eq_bind, Option.bind_eq_some_iff, Prod.exists, hstd _, String.toList_ofList,
      Base64.decode_eq_some, splitAtFirst_eq_some_iff (marker_toList_ne_nil hbegin),
      splitAtFirst_eq_some_iff (marker_toList_ne_nil hend)] at h
    obtain ⟨before, rest, ⟨htext, hfirst⟩, block, after, ⟨rfl, hlast⟩, hder⟩ := h
    exact ⟨before, block, after, by simpa using htext, hfirst, hlast, hder⟩
  · rintro ⟨before, block, after, h⟩
    exact h.read hstd hbegin hend

end Accepted

/-! ## Files in PEM -/

/-- The bytes in PEM: the markers stand at the beginning of the file or of a line, before which no block begins, and
around digits that are broken up by blanks in any way; what else is in the file does not matter. -/
structure Armored (beginMarker endMarker : String) (pem der : Bytes) : Prop where
  parts : ∃ (before after : Bytes) (block : List Char),
    pem = before ++ asciiBytes (beginMarker.toList ++ block ++ endMarker.toList) ++ after ∧
    (before = [] ∨ ∃ lines, before = lines ++ [10] ∧ ¬ beginMarker.toList <:+: (fromUtf8Lossy lines).toList) ∧
    (∀ c ∈ block, c.toNat < 128) ∧ (block.filter fun c => !isWhitespace c) = Base64.encode der

/-- What the markers are made of. -/
structure IsMarker (marker : String) : Prop where
  head : marker.toList.head? = some '-'
  ascii : ∀ c ∈ marker.toList, c.toNat < 128
  oneLine : '\n' ∉ marker.toList

theorem IsMarker.ne_nil {marker : String} (h : IsMarker marker) : marker.toList ≠ [] := by
  intro hnil
  have hhead := h.head
  rw [hnil] at hhead
  cases hhead

theorem IsMarker.ne_empty {marker : String} (h : IsMarker marker) : marker ≠ "" := by
  rintro rfl
  exact h.ne_nil rfl

/-- There is no dash among digits and blanks. -/
theorem dash_not_mem {block : List Char} {der : Bytes}
    (h : (block.filter fun c => !isWhitespace c) = Base64.encode der) : '-' ∉ block := by
  intro hmem
  have hdash : '-' ∈ Base64.encode der := by
    rw [← h, List.mem_filter]
    exact ⟨hmem, by decide⟩
  rcases Base64.mem_encode hdash with hpad | ⟨n, hn, hdigit⟩
  · cases hpad
  · have hvalue := Base64.value_digit hn
    rw [← hdigit] at hvalue
    cases hvalue

section Markers

variable {pki : Pki} {beginMarker endMarker : String} {pem der : Bytes}

theorem notBefore_before {before : Bytes} (hb : IsMarker beginMarker)
    (h : before = [] ∨ ∃ lines, before = lines ++ [10] ∧ ¬ beginMarker.toList <:+: (fromUtf8Lossy lines).toList) :
    NotBefore beginMarker.toList (fromUtf8Lossy before).toList := by
  rcases h with rfl | ⟨lines, rfl, hlines⟩
  · exact notBefore_nil hb.ne_nil
  · have hline := @fromUtf8Lossy_ascii ['\n'] (by simp) (by simp) lines []
    rw [List.append_nil] at hline
    rw [show lines ++ [10] = lines ++ asciiBytes ['\n'] from rfl, hline,
      show (fromUtf8Lossy []).toList = [] by decide, List.append_nil]
    exact notBefore_line hb.oneLine hb.ne_nil hlines

/-- A file in PEM is read back. -/
theorem Armored.read (hstd : pki.StandardBase64) (hb : IsMarker beginMarker) (he : IsMarker endMarker)
    (h : Armored beginMarker endMarker pem der) : extractPemDer pki beginMarker endMarker pem = some der := by
  obtain ⟨before, after, block, rfl, hbefore, hblock, hder⟩ := h.parts
  have hascii : ∀ c ∈ beginMarker.toList ++ block ++ endMarker.toList, c.toNat < 128 := by
    intro c hc
    rcases List.mem_append.1 hc with hc | hc
    · exact (List.mem_append.1 hc).elim (hb.ascii c) (hblock c)
    · exact he.ascii c hc
  have hencloses : Encloses beginMarker endMarker
      (fromUtf8Lossy (before ++ asciiBytes (beginMarker.toList ++ block ++ endMarker.toList) ++ after)).toList der
      (fromUtf8Lossy before).toList block (fromUtf8Lossy after).toList := by
    refine ⟨?_, notBefore_before hb hbefore, notBefore_of_not_mem he.head (dash_not_mem hder), hder⟩
    rw [fromUtf8Lossy_ascii hascii (by simp [hb.ne_nil])]
    simp
  exact hencloses.read hstd hb.ne_empty he.ne_empty

end Markers

theorem isMarker_certificate : IsMarker "-----BEGIN CERTIFICATE-----" ∧ IsMarker "-----END CERTIFICATE-----" :=
  ⟨⟨by decide, by simp, by decide⟩, ⟨by decide, by simp, by decide⟩⟩

theorem isMarker_crl : IsMarker "-----BEGIN X509 CRL-----" ∧ IsMarker "-----END X509 CRL-----" :=
  ⟨⟨by decide, by simp, by decide⟩, ⟨by decide, by simp, by decide⟩⟩

/-- The file is the certificate, in PEM or in DER; a DER file must not look like PEM. -/
def HoldsCertificate (pki : Pki) (file der : Bytes) : Prop :=
  Armored "-----BEGIN CERTIFICATE-----" "-----END CERTIFICATE-----" file der ∨
    file = der ∧ extractPemCertDer pki der = none

def HoldsCrl (pki : Pki) (file der : Bytes) : Prop :=
  Armored "-----BEGIN X509 CRL-----" "-----END X509 CRL-----" file der ∨
    file = der ∧ extractPemCrlDer pki der = none

section Holds

variable {pki : Pki}

theorem HoldsCertificate.der (hstd : pki.StandardBase64) {file der : Bytes} (h : HoldsCertificate pki file der) :
    (extractPemCertDer pki file).getD file = der := by
  rcases h with h | ⟨rfl, hder⟩
  · have hread : extractPemCertDer pki file = some der := h.read hstd isMarker_certificate.1 isMarker_certificate.2
    rw [hread, Option.getD_some]
  · rw [hder, Option.getD_none]

theorem HoldsCrl.der (hstd : pki.StandardBase64) {file der : Bytes} (h : HoldsCrl pki file der) :
    (extractPemCrlDer pki file).getD file = der := by
  rcases h with h | ⟨rfl, hder⟩
  · have hread : extractPemCrlDer pki file = some der := h.read hstd isMarker_crl.1 isMarker_crl.2
    rw [hread, Option.getD_some]
  · rw [hder, Option.getD_none]

/-- What is loaded depends on the CRL and on the CA certificate only, not on how either is stored. -/
theorem load_of_der (hstd : pki.StandardBase64) {crlFile crlFile' crlDer caFile caFile' caDer : Bytes}
    (hcrl : HoldsCrl pki crlFile crlDer) (hcrl' : HoldsCrl pki crlFile' crlDer)
    (hca : HoldsCertificate pki caFile caDer) (hca' : HoldsCertificate pki caFile' caDer) (now : Int)
    (mtime : Option Int) :
    loadCrlFromBytes pki now crlFile mtime caFile = loadCrlFromBytes pki now crlFile' mtime caFile' := by
  unfold loadCrlFromBytes
  rw [hcrl.der hstd, hcrl'.der hstd, hca.der hstd, hca'.der hstd]

end Holds

/-! ## A CRL of three bytes -/

/-- Every CRL parses and verifies, and so does every certificate. -/
def trustingPki : Pki where
  base64Decode text := Base64.decode text.toList
  crlFromDer der := some ⟨der, [1], none⟩
  parseX509Certificate der := some ⟨1, der⟩
  verifySignature _ _ := true

theorem trustingPki_standard : trustingPki.StandardBase64 := fun _ => rfl

/-- The lines of a block after a note. -/
def threeBytes (marker endMarker : String) : Bytes :=
  asciiBytes "a note\n".toList ++ asciiBytes (marker.toList ++ "\nAQ\r\n ID\n".toList ++ endMarker.toList) ++ [10]

theorem threeBytes_armored {marker endMarker : String}
    (h : ¬ marker.toList <:+: (fromUtf8Lossy (asciiBytes "a note".toList)).toList) :
    Armored marker endMarker (threeBytes marker endMarker) [1, 2, 3] :=
  ⟨_, [10], "\nAQ\r\n ID\n".toList, rfl, .inr ⟨asciiBytes "a note".toList, by decide, h⟩, by simp, by decide⟩

theorem load_of_der_three :
    loadCrlFromBytes trustingPki 0 (threeBytes "-----BEGIN X509 CRL-----" "-----END X509 CRL-----") none
        (threeBytes "-----BEGIN CERTIFICATE-----" "-----END CERTIFICATE-----") =
      loadCrlFromBytes trustingPki 0 [1, 2, 3] none [1, 2, 3] :=
  load_of_der trustingPki_standard (.inl (threeBytes_armored fun h => absurd h.length_le (by decide)))
    (.inr ⟨rfl, by decide⟩) (.inl (threeBytes_armored fun h => absurd h.length_le (by decide)))
    (.inr ⟨rfl, by decide⟩) 0 none

theorem extractPemDer_iff_three :
    extractPemDer trustingPki "-----BEGIN CERTIFICATE-----" "-----END CERTIFICATE-----"
        (threeBytes "-----BEGIN CERTIFICATE-----" "-----END CERTIFICATE-----") = some [1, 2, 3] ↔
      ∃ before block after, Encloses "-----BEGIN CERTIFICATE-----" "-----END CERTIFICATE-----"
        (fromUtf8Lossy (threeBytes "-----BEGIN CERTIFICATE-----" "-----END CERTIFICATE-----")).toList [1, 2, 3]
        before block after :=
  extractPemDer_iff trustingPki_standard (by decide) (by decide)

end LinuxPatchApi.Auth
