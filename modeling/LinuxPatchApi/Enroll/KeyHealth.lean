/-
`src/enroll/repo_health.rs`, `check_gpg_key_health`: one status and one expiry for all the keys that gpg lists. Every
line of a key overwrites what the lines before it said, the status and the expiry apart from each other: the last line
that is expired or revoked gives the one, the last line with a date the other.
-/
import LinuxPatchApi.Enroll.RepoHealth
import LinuxPatchApi.Lib.Overwrite
import LinuxPatchApi.Lib.Lines

namespace LinuxPatchApi.Enroll

open LinuxPatchApi.Packages Text Overwrite

/-! ## The functions -/

inductive GpgKeyStatus
  | valid
  | expired
  | missing
  | revoked
  deriving DecidableEq, Repr

def GpgKeyStatus.asStr : GpgKeyStatus → String
  | valid => "valid"
  | expired => "expired"
  | missing => "missing"
  | revoked => "revoked"

/-- One line of the listing; `rfc3339` is the text for a Unix time, if it is in the range of dates. -/
def gpgKeyLine (rfc3339 : ℤ → Option String) (acc : GpgKeyStatus × Option String) (line : String) :
    GpgKeyStatus × Option String :=
  let fields := split line ':'
  if fields.length < 6 then acc
  else if fields.getD 0 "" == "pub" || fields.getD 0 "" == "sub" then
    let validity := fields.getD 1 ""
    let expires := fields.getD 5 ""
    let expiryTimestamp :=
      if expires.isEmpty then acc.2
      else match parseI64 expires with
        | some secs => if 0 < secs then rfc3339 secs else acc.2
        | none => acc.2
    let status :=
      if 'e' ∈ validity.toList then .expired
      else if 'r' ∈ validity.toList then .revoked
      else acc.1
    (status, expiryTimestamp)
  else acc

def parseGpgKeyStatus (rfc3339 : ℤ → Option String) (gpgOutput : String) : GpgKeyStatus × Option String :=
  (lines gpgOutput).foldl (gpgKeyLine rfc3339) (.valid, none)

def filePresentAndNonempty (s : HostFiles) (path : String) : Bool :=
  match s path with
  | some c => !c.bytes.isEmpty
  | none => false

/-- `check_gpg_key_health`, given the distribution that was detected and what `gpg --show-keys` writes for a keyring,
if it is there and succeeds. -/
def checkGpgKeyHealth (rfc3339 : ℤ → Option String) (distroId : Except AnyhowError String) (s : HostFiles)
    (gpg : String → Option (List UInt8)) : GpgKeyStatus × Option String :=
  match distroId.bind expectedRepoPaths with
  | .error _ => (.missing, none)
  | .ok (_, keyringPath) =>
    if !filePresentAndNonempty s keyringPath then (.missing, none)
    else match gpg keyringPath with
      | none => (.valid, none)
      | some stdout => parseGpgKeyStatus rfc3339 (fromUtf8Lossy stdout)

/-- Whether `health_check` reports a degraded agent for the key's sake. -/
def degradesHealth (status : GpgKeyStatus) : Bool := status == .missing || status == .expired || status == .revoked

/-! ## The lines of the keys -/

/-- The fields of a `pub` or `sub` line. -/
structure KeyLine where
  fields : List String
  isKey : 6 ≤ fields.length ∧ (fields.getD 0 "" = "pub" ∨ fields.getD 0 "" = "sub")
  deriving DecidableEq

def keyLine (line : String) : Option KeyLine :=
  if h : 6 ≤ (split line ':').length ∧ ((split line ':').getD 0 "" = "pub" ∨ (split line ':').getD 0 "" = "sub") then
    some ⟨split line ':', h⟩
  else none

def keyLines (gpgOutput : String) : List KeyLine := (lines gpgOutput).filterMap keyLine

namespace KeyLine

/-- A `pub` line. -/
def Primary (k : KeyLine) : Prop := k.fields.getD 0 "" = "pub"

def Expired (k : KeyLine) : Prop := 'e' ∈ (k.fields.getD 1 "").toList

def Revoked (k : KeyLine) : Prop := 'r' ∈ (k.fields.getD 1 "").toList

def Bad (k : KeyLine) : Prop := k.Expired ∨ k.Revoked

instance (k : KeyLine) : Decidable k.Primary := inferInstanceAs (Decidable (_ = _))

instance (k : KeyLine) : Decidable k.Expired := inferInstanceAs (Decidable (_ ∈ _))

instance (k : KeyLine) : Decidable k.Revoked := inferInstanceAs (Decidable (_ ∈ _))

/-- What the line alone says. -/
def status (k : KeyLine) : GpgKeyStatus := if k.Expired then .expired else if k.Revoked then .revoked else .valid

/-- The line is one of a key with the status. -/
def Has (k : KeyLine) : GpgKeyStatus → Prop
  | .revoked => k.Revoked
  | .expired => k.Expired
  | .valid => ¬ k.Bad
  | .missing => False

/-- The time in a field. -/
def time (k : KeyLine) (column : ℕ) : Option ℤ := (parseI64 (k.fields.getD column "")).filter (0 < ·)

/-- The time in a field as a date. -/
def date (rfc3339 : ℤ → Option String) (column : ℕ) (k : KeyLine) : Option String := (k.time column).bind rfc3339

/-- There is a time in the field that the function reads. -/
def Dated (k : KeyLine) : Prop := k.time 5 ≠ none

end KeyLine

/-! ## The last lines decide -/

section Parse

variable {rfc3339 : ℤ → Option String} {line : String} {k b : KeyLine} {keys : List KeyLine}

theorem parseI64_empty {s : String} (h : s.isEmpty = true) : parseI64 s = none := by
  rw [String.isEmpty_iff.1 h]
  rfl

/-- What the line sets the status to. -/
def KeyLine.mark (k : KeyLine) : Option GpgKeyStatus :=
  if k.Expired then some .expired else if k.Revoked then some .revoked else none

theorem KeyLine.mark_bad (h : k.Bad) : k.mark = some k.status := by
  unfold mark status
  by_cases he : k.Expired
  · rw [if_pos he, if_pos he]
  · have hr : k.Revoked := h.resolve_left he
    rw [if_neg he, if_neg he, if_pos hr, if_pos hr]

theorem KeyLine.mark_good (h : ¬ k.Bad) : k.mark = none := by
  have he : ¬ k.Expired := fun he => h (.inl he)
  have hr : ¬ k.Revoked := fun hr => h (.inr hr)
  rw [mark, if_neg he, if_neg hr]

theorem KeyLine.status_bad (h : k.Bad) : k.status = .expired ∨ k.status = .revoked := by
  unfold status
  by_cases he : k.Expired
  · exact .inl (if_pos he)
  · exact .inr (by rw [if_neg he, if_pos (h.resolve_left he)])

theorem KeyLine.getD_mark (k : KeyLine) (status : GpgKeyStatus) : k.mark.getD status =
    if 'e' ∈ (k.fields.getD 1 "").toList then .expired
    else if 'r' ∈ (k.fields.getD 1 "").toList then .revoked
    else status := by
  unfold mark
  by_cases he : k.Expired
  · rw [if_pos he, if_pos (show 'e' ∈ (k.fields.getD 1 "").toList from he), Option.getD_some]
  · rw [if_neg he, if_neg (show ¬ 'e' ∈ (k.fields.getD 1 "").toList from he)]
    by_cases hr : k.Revoked
    · rw [if_pos hr, if_pos (show 'r' ∈ (k.fields.getD 1 "").toList from hr), Option.getD_some]
    · rw [if_neg hr, if_neg (show ¬ 'r' ∈ (k.fields.getD 1 "").toList from hr), Option.getD_none]

theorem KeyLine.getD_date (k : KeyLine) (expiry : Option String) : ((k.time 5).map rfc3339).getD expiry =
    if (k.fields.getD 5 "").isEmpty then expiry
    else match parseI64 (k.fields.getD 5 "") with
      | some secs => if 0 < secs then rfc3339 secs else expiry
      | none => expiry := by
  unfold time
  by_cases hempty : (k.fields.getD 5 "").isEmpty = true
  · rw [if_pos hempty, parseI64_empty hempty]
    rfl
  · rw [if_neg hempty]
    cases parseI64 (k.fields.getD 5 "") with
    | none => rfl
    | some secs => by_cases hpos : 0 < secs <;> simp [Option.filter, hpos]

/-- A line that is none of a key changes nothing, one of a key what it says itself. -/
theorem gpgKeyLine_eq (acc : GpgKeyStatus × Option String) : gpgKeyLine rfc3339 acc line =
    match keyLine line with
    | none => acc
    | some k => (k.mark.getD acc.1, ((k.time 5).map rfc3339).getD acc.2) := by
  unfold gpgKeyLine keyLine
  generalize split line ':' = fields
  dsimp only
  split
  · next hshort => rw [dif_neg fun h => by omega]
  · next hlong =>
    split
    · next hkind =>
      have hkey : 6 ≤ fields.length ∧ (fields.getD 0 "" = "pub" ∨ fields.getD 0 "" = "sub") :=
        ⟨by omega, by simpa using hkind⟩
      rw [dif_pos hkey]
      exact Prod.ext (KeyLine.getD_mark ⟨fields, hkey⟩ acc.1).symm (KeyLine.getD_date ⟨fields, hkey⟩ acc.2).symm
    · next hkind =>
      have hother : ¬ (fields.getD 0 "" = "pub" ∨ fields.getD 0 "" = "sub") := by simpa using hkind
      rw [dif_neg fun h => hother h.2]

theorem parseGpgKeyStatus_eq (rfc3339 : ℤ → Option String) (output : String) : parseGpgKeyStatus rfc3339 output =
    (run KeyLine.mark .valid (keyLines output), run (fun k => (k.time 5).map rfc3339) none (keyLines output)) := by
  have hfold : parseGpgKeyStatus rfc3339 output = (keyLines output).foldl
      (fun acc k => (k.mark.getD acc.1, ((k.time 5).map rfc3339).getD acc.2)) (.valid, none) := by
    rw [keyLines, List.foldl_filterMap, parseGpgKeyStatus]
    congr 1
    funext acc line
    rw [gpgKeyLine_eq]
    cases keyLine line <;> rfl
  rw [hfold]
  exact Prod.ext (observe (v := Prod.fst) (fun _ _ => rfl) _ _) (observe (v := Prod.snd) (fun _ _ => rfl) _ _)

theorem run_mark_last (h : Last KeyLine.Bad keys b) : run KeyLine.mark .valid keys = b.status :=
  run_last h (fun _ hc => KeyLine.mark_good hc) (KeyLine.mark_bad h.prop)

theorem run_mark_good (h : ∀ k ∈ keys, ¬ k.Bad) : run KeyLine.mark .valid keys = .valid :=
  run_unset fun k hk => KeyLine.mark_good (h k hk)

theorem KeyLine.map_time_undated (h : ¬ k.Dated) : (k.time 5).map rfc3339 = none := by
  rw [not_not.1 h, Option.map_none]

theorem run_date_last (h : Last KeyLine.Dated keys b) :
    run (fun k => (k.time 5).map rfc3339) none keys = b.date rfc3339 5 := by
  obtain ⟨secs, hsecs⟩ := Option.ne_none_iff_exists'.1 h.prop
  refine run_last h (fun _ hc => KeyLine.map_time_undated hc) ?_
  rw [KeyLine.date, hsecs, Option.map_some, Option.bind_some]

/-- The function finds the keys valid exactly when no line says otherwise, in whatever order they are listed. -/
theorem parseGpgKeyStatus_valid_iff {output : String} :
    (parseGpgKeyStatus rfc3339 output).1 = .valid ↔ ∀ k ∈ keyLines output, ¬ k.Bad := by
  rw [parseGpgKeyStatus_eq]
  rcases exists_last KeyLine.Bad (keyLines output) with hgood | ⟨b, hb⟩
  · exact iff_of_true (run_mark_good hgood) hgood
  · refine iff_of_false (fun h => ?_) fun h => h b hb.mem hb.prop
    have hstatus : b.status = .valid := (run_mark_last hb).symm.trans h
    rcases KeyLine.status_bad hb.prop with hbad | hbad <;> rw [hstatus] at hbad <;> cases hbad

theorem degradesHealth_iff {status : GpgKeyStatus} : degradesHealth status = true ↔ status ≠ .valid := by
  cases status <;> decide

/-- The agent is degraded unless its keyring is there and no line that gpg lists for it is bad. Which line comes last
does not matter for this. -/
theorem checkGpgKeyHealth_degrades_iff {distroId : Except AnyhowError String} {s : HostFiles}
    {gpg : String → Option (List UInt8)} :
    degradesHealth (checkGpgKeyHealth rfc3339 distroId s gpg).1 = true ↔
      ∀ sourcesPath keyringPath, distroId.bind expectedRepoPaths = .ok (sourcesPath, keyringPath) →
        filePresentAndNonempty s keyringPath = true →
          ∃ stdout, gpg keyringPath = some stdout ∧ ∃ k ∈ keyLines (fromUtf8Lossy stdout), k.Bad := by
  rw [degradesHealth_iff, checkGpgKeyHealth]
  rcases distroId.bind expectedRepoPaths with e | ⟨sourcesPath, keyringPath⟩
  · simp
  · dsimp only
    cases hthere : filePresentAndNonempty s keyringPath with
    | false =>
      refine iff_of_true (by simp) ?_
      rintro _ _ hpaths hpresent
      cases hpaths
      rw [hthere] at hpresent
      cases hpresent
    | true =>
      cases hgpg : gpg keyringPath with
      | none =>
        refine iff_of_false (by simp) fun h => ?_
        obtain ⟨stdout, hstdout, _⟩ := h sourcesPath keyringPath rfl hthere
        rw [hgpg] at hstdout
        cases hstdout
      | some stdout =>
        have hbad : (parseGpgKeyStatus rfc3339 (fromUtf8Lossy stdout)).1 ≠ .valid ↔
            ∃ k ∈ keyLines (fromUtf8Lossy stdout), k.Bad := by
          rw [Ne, parseGpgKeyStatus_valid_iff]
          push Not
          rfl
        show (parseGpgKeyStatus rfc3339 (fromUtf8Lossy stdout)).1 ≠ .valid ↔ _
        rw [hbad]
        constructor
        · rintro h _ _ hpaths _
          cases hpaths
          exact ⟨stdout, hgpg, h⟩
        · intro h
          obtain ⟨stdout', hstdout, hk⟩ := h sourcesPath keyringPath rfl hthere
          rw [hgpg] at hstdout
          cases hstdout
          exact hk

end Parse

/-! ## The key that the status is about -/

/-- The line is of a key with the status: a primary key, if there is one with it. -/
def Determines (keys : List KeyLine) (status : GpgKeyStatus) (k : KeyLine) : Prop :=
  k ∈ keys ∧ k.Has status ∧ (k.Primary ∨ ∀ j ∈ keys, j.Primary → ¬ j.Has status)

/-- The status is the worst of the primary keys, and the expiry that of a key with the status; `column` is the field in
which the key's expiry is listed. -/
structure Unmasked (rfc3339 : ℤ → Option String) (column : ℕ) (keys : List KeyLine) (status : GpgKeyStatus)
    (expiryTimestamp : Option String) : Prop where
  revoked : (∃ k ∈ keys, k.Primary ∧ k.Revoked) → status = .revoked
  expired : (∃ k ∈ keys, k.Primary ∧ k.Expired) → (∀ k ∈ keys, k.Primary → ¬ k.Revoked) → status = .expired
  expiry : keys ≠ [] → ∃ k, Determines keys status k ∧ k.date rfc3339 column = expiryTimestamp
  noKey : keys = [] → expiryTimestamp = none

/-- The date of the last line with a time where the function reads it, or none, is that of the key of `k`. -/
def DatedLike (rfc3339 : ℤ → Option String) (column : ℕ) (keys : List KeyLine) (k : KeyLine) : Prop :=
  (∀ d, Last KeyLine.Dated keys d → d.date rfc3339 5 = k.date rfc3339 column) ∧
    ((∀ d ∈ keys, ¬ d.Dated) → k.date rfc3339 column = none)

/-- The last line that is expired or revoked says the worst of the primary keys, and the last line with a time has the
date of a key with that status. -/
structure LastLinesAgree (rfc3339 : ℤ → Option String) (column : ℕ) (keys : List KeyLine) : Prop where
  revoked : (∃ k ∈ keys, k.Primary ∧ k.Revoked) → ∀ b, Last KeyLine.Bad keys b → b.status = .revoked
  expired : (∃ k ∈ keys, k.Primary ∧ k.Expired) → (∀ k ∈ keys, k.Primary → ¬ k.Revoked) →
    ∀ b, Last KeyLine.Bad keys b → b.status = .expired
  bad : ∀ b, Last KeyLine.Bad keys b → ∃ k, Determines keys b.status k ∧ DatedLike rfc3339 column keys k
  good : (∀ k ∈ keys, ¬ k.Bad) → keys ≠ [] → ∃ k, Determines keys .valid k ∧ DatedLike rfc3339 column keys k

section Health

variable {rfc3339 : ℤ → Option String} {column : ℕ} {keys : List KeyLine}

theorem datedLike_iff {k : KeyLine} : DatedLike rfc3339 column keys k ↔
    k.date rfc3339 column = run (fun k => (k.time 5).map rfc3339) none keys := by
  rcases exists_last KeyLine.Dated keys with hnone | ⟨d, hd⟩
  · rw [run_unset fun c hc => KeyLine.map_time_undated (hnone c hc)]
    constructor
    · exact fun h => h.2 hnone
    · exact fun h => ⟨fun d hd => (hnone d hd.mem hd.prop).elim, fun _ => h⟩
  · constructor
    · intro h
      rw [run_date_last hd, h.1 d hd]
    · refine fun h => ⟨fun d' hd' => ?_, fun hnone => (hnone d hd.mem hd.prop).elim⟩
      rw [h, run_date_last hd']

theorem determined_iff {status : GpgKeyStatus} :
    (∃ k, Determines keys status k ∧ k.date rfc3339 column = run (fun k => (k.time 5).map rfc3339) none keys) ↔
      ∃ k, Determines keys status k ∧ DatedLike rfc3339 column keys k :=
  exists_congr fun _ => and_congr_right' datedLike_iff.symm

/-- A revoked or an expired primary key shows whatever the order of the lines, with the expiry of the key that the
status is about, exactly when the last lines agree. -/
theorem key_health_unmasked_iff (rfc3339 : ℤ → Option String) (column : ℕ) (output : String) :
    Unmasked rfc3339 column (keyLines output) (parseGpgKeyStatus rfc3339 output).1
        (parseGpgKeyStatus rfc3339 output).2 ↔
      LastLinesAgree rfc3339 column (keyLines output) := by
  rw [parseGpgKeyStatus_eq]
  constructor
  · rintro ⟨hrevoked, hexpired, hexpiry, _⟩
    constructor
    · intro h b hb
      exact (run_mark_last hb).symm.trans (hrevoked h)
    · intro h hnone b hb
      exact (run_mark_last hb).symm.trans (hexpired h hnone)
    · intro b hb
      have hlast := determined_iff.1 (hexpiry (List.ne_nil_of_mem hb.mem))
      rwa [run_mark_last hb] at hlast
    · intro hgood hne
      have hlast := determined_iff.1 (hexpiry hne)
      rwa [run_mark_good hgood] at hlast
  · rintro ⟨hrevoked, hexpired, hbad, hgood⟩
    rcases exists_last KeyLine.Bad (keyLines output) with hnone | ⟨b, hb⟩
    · rw [run_mark_good hnone]
      constructor
      · rintro ⟨k, hk, _, hrev⟩
        exact (hnone k hk (.inr hrev)).elim
      · rintro ⟨k, hk, _, hexp⟩ _
        exact (hnone k hk (.inl hexp)).elim
      · exact fun hne => determined_iff.2 (hgood hnone hne)
      · intro hnil
        rw [hnil]
        rfl
    · rw [run_mark_last hb]
      constructor
      · exact fun h => hrevoked h b hb
      · exact fun h hnot => hexpired h hnot b hb
      · exact fun _ => determined_iff.2 (hbad b hb)
      · intro hnil
        exact (List.ne_nil_of_mem hb.mem hnil).elim

end Health

/-- What gpg lists of a keyring with a key that was revoked, and the one before it, which has expired. -/
def rotatedKeys : List String :=
  -- with the algorithm before the key id, so that the sixth field is when the key was made, the seventh when it expires
  ["pub:r:4096:1:1A2B3C4D5E6F7A8B:1600000000:1800000000::-:::sc::::::23::0:",
    "fpr:::::::::00112233445566778899AABB1A2B3C4D5E6F7A8B:",
    "pub:e:4096:1:9C8D7E6F5A4B3C2D:1500000000:1700000000::-:::sc::::::23::0:",
    "fpr:::::::::CCDDEEFF00112233445566779C8D7E6F5A4B3C2D:"]

def rotatedKeyring : String := unlines rotatedKeys

/-- The dates of its times. -/
def rotationDates : ℤ → Option String
  | 1500000000 => some "2017-07-14T02:40:00+00:00"
  | 1600000000 => some "2020-09-13T12:26:40+00:00"
  | 1700000000 => some "2023-11-14T22:13:20+00:00"
  | 1800000000 => some "2027-01-15T08:00:00+00:00"
  | _ => none

/-- The expired key hides that the other one is revoked. -/
theorem revocation_masked :
    parseGpgKeyStatus rotationDates rotatedKeyring = (.expired, some "2017-07-14T02:40:00+00:00") ∧
      ¬ Unmasked rotationDates 6 (keyLines rotatedKeyring) (parseGpgKeyStatus rotationDates rotatedKeyring).1
        (parseGpgKeyStatus rotationDates rotatedKeyring).2 := by
  have hlines : lines rotatedKeyring = rotatedKeys := lines_unlines (by decide +kernel)
  have hparse : parseGpgKeyStatus rotationDates rotatedKeyring = (.expired, some "2017-07-14T02:40:00+00:00") := by
    rw [parseGpgKeyStatus, hlines]
    decide +kernel
  have hrevoked : ∃ k ∈ keyLines rotatedKeyring, k.Primary ∧ k.Revoked := by
    rw [keyLines, hlines]
    decide +kernel
  refine ⟨hparse, fun h => ?_⟩
  have hstatus := h.revoked hrevoked
  rw [hparse] at hstatus
  cases hstatus

end LinuxPatchApi.Enroll
