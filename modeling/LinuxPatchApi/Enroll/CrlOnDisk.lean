/-
The two writers of the CRL file: the provisioning of an enrollment, which writes what the manager sends, and
`refresh_crl` of `src/auth/crl.rs`, which verifies first. A start refuses a CRL that does not verify under the CA
file, and never does so for one that the agent wrote exactly when each step leaves the two files in accord.
-/
import LinuxPatchApi.Auth.CrlWorld
import LinuxPatchApi.Enroll.Bundle

namespace LinuxPatchApi.Enroll

open LinuxPatchApi.Packages LinuxPatchApi.Auth Disk FileM Transition

/-! ## The refresh -/

def crlTempPath (crlPath : String) : String := Paths.withExtension crlPath "pem.tmp"

/-- An operation whose error is given with a text before it. -/
def labelled (label : String) (o : Op String Content) : Action String Content String Unit :=
  Action.mapError (label ++ ·) (Action.perform o)

/-- The directory of the CRL, when it is not there yet. -/
def ensureCrlDirectory (crlPath : String) : Action String Content String Unit := do
  let parent := (Paths.parent crlPath).getD "/tmp"
  if !(← Action.dirExists parent) then labelled "Failed to create CRL directory: " (.createDirAll parent)

/-- A temporary file that an earlier refresh has left; that it cannot be removed shows when it is created. -/
def removeStale (tmp : String) : Action String Content String Unit := do
  match ← Action.content tmp with
  | none => return ()
  | some _ => (Action.perform (.remove tmp)).ignore

/-- The part of `refresh_crl` that persists the CRL. -/
def persistCrl (crlPath crlPem : String) : Action String Content String Unit := do
  let tmp := crlTempPath crlPath
  ensureCrlDirectory crlPath
  removeStale tmp
  labelled "Failed to create temp CRL file: " (.createNew tmp 0o644 (.text ""))
  labelled "Failed to write temp CRL file: " (.writeAll tmp (.text crlPem))
  (Action.perform (.flush tmp)).ignore
  labelled "Failed to rename temp CRL file: " (.rename tmp crlPath)

/-- `refresh_crl`, given what the fetch returns; the result is the state that it swaps in. -/
def refreshCrl (pki : Pki) (now : Int) (crlPath : String) (caCertDer : Bytes) (fetched : Except String String)
    (mtime : Option Int) : Action String Content String CrlState := do
  match fetched with
  | .error e => Action.fail e
  | .ok crlPem =>
    let newState := loadCrlFromBytes pki now (Content.text crlPem).bytes none caCertDer
    if newState.status = .invalid then Action.fail "CRL signature verification failed after fetch"
    else
      persistCrl crlPath crlPem
      return { newState with crlMtime := mtime }

section Persist

variable {env : HostSurroundings} {s t : HostFiles} {crlPath crlPem : String} {a : Unit}

theorem labelled_ok {label : String} {o : Op String Content} :
    (labelled label o).run env s = (.ok a, t) ↔ Action.Succeeds env s o ∧ o.effect s = t := by
  rw [labelled, Action.mapError_ok, Action.perform_ok]

theorem confined_labelled {T : String → Prop} {label : String} {o : Op String Content} (h : ∀ p ∈ o.changes, T p) :
    Action.Confined T (labelled label o) := (Action.confined_perform h).mapError

/-- Every operation of the refresh that it waits for is carried out. -/
structure Persistable (env : HostSurroundings) (s : HostFiles) (crlPath crlPem : String) : Prop where
  directory : env.dirExists ((Paths.parent crlPath).getD "/tmp") = false →
    env.outcome (.createDirAll ((Paths.parent crlPath).getD "/tmp")) = .done
  stale : s (crlTempPath crlPath) ≠ none → env.outcome (.remove (crlTempPath crlPath)) = .done
  created : env.outcome (.createNew (crlTempPath crlPath) 0o644 (.text "")) = .done
  written : env.outcome (.writeAll (crlTempPath crlPath) (.text crlPem)) = .done
  renamed : env.outcome (.rename (crlTempPath crlPath) crlPath) = .done

theorem ensureCrlDirectory_ok : (ensureCrlDirectory crlPath).run env s = (.ok a, t) ↔
    (env.dirExists ((Paths.parent crlPath).getD "/tmp") = false →
      env.outcome (.createDirAll ((Paths.parent crlPath).getD "/tmp")) = .done) ∧ s = t := by
  unfold ensureCrlDirectory
  simp only [Action.run_dirExists_bind]
  cases env.dirExists ((Paths.parent crlPath).getD "/tmp") with
  | true => simp
  | false => simp [labelled_ok, Action.Succeeds, Op.refusal, Op.effect]

/-- After the removal the temporary file is gone, or it is still there. -/
theorem removeStale_run (env : HostSurroundings) (s : HostFiles) (tmp : String) :
    ∃ u, (removeStale tmp).run env s = (.ok (), u) ∧ (∀ p, p ≠ tmp → u p = s p) ∧
    (u tmp = none ↔ (s tmp ≠ none → env.outcome (.remove tmp) = .done)) := by
  unfold removeStale
  rw [Action.run_content_bind]
  cases hs : s tmp with
  | none => exact ⟨s, rfl, fun _ _ => rfl, by simp [hs]⟩
  | some c =>
    refine ⟨_, rfl, fun p hp => ?_, ?_⟩
    · exact Action.confined_perform (T := (· = tmp)) (by simp [Op.changes]) env s p hp
    · rw [Action.run_perform]
      cases ho : env.outcome (.remove tmp) with
      | done => simp [Op.refusal, Op.effect, hs]
      | failed error residue => simp [Op.refusal, Op.leave, hs]

/-- Whether the flush succeeds does not matter. -/
theorem run_flush {tmp : String} : (Action.perform (.flush tmp) : Action String Content String Unit).ignore.run env s =
    (.ok (), s) := by
  show (_, ((Action.perform (.flush tmp) : Action String Content String Unit).run env s).2) = _
  rw [Action.run_perform]
  cases env.outcome (.flush tmp) <;> rfl

/-- The files after a refresh. -/
def persisted (s : HostFiles) (crlPath crlPem : String) : HostFiles := fun p =>
  if p = crlPath then some (.text crlPem) else if p = crlTempPath crlPath then none else s p

theorem persisted_eq {u : HostFiles} {c : Content} (hu : ∀ p, p ≠ crlTempPath crlPath → u p = s p) :
    Op.effect (Function.update (Function.update u (crlTempPath crlPath) (some c)) (crlTempPath crlPath)
      (some (.text crlPem))) (.rename (crlTempPath crlPath) crlPath) = persisted s crlPath crlPem := by
  funext p
  simp only [Op.effect, persisted, Function.update_self]
  by_cases hp : p = crlPath
  · rw [hp, Function.update_self, if_pos rfl]
  rw [Function.update_of_ne hp, if_neg hp]
  by_cases ht : p = crlTempPath crlPath
  · rw [ht, Function.update_self, if_pos rfl]
  · rw [Function.update_of_ne ht, Function.update_of_ne ht, Function.update_of_ne ht, if_neg ht, hu p ht]

theorem persistCrl_ok : (persistCrl crlPath crlPem).run env s = (.ok a, t) ↔
    Persistable env s crlPath crlPem ∧ persisted s crlPath crlPem = t := by
  obtain ⟨u, hrun, hu, hfresh⟩ := removeStale_run env s (crlTempPath crlPath)
  rw [persistCrl, Action.bind_ok]
  constructor
  · rintro ⟨_, v, hdir, h⟩
    obtain ⟨hdirectory, rfl⟩ := ensureCrlDirectory_ok.1 hdir
    obtain ⟨_, v, hstale, h⟩ := Action.bind_ok.1 h
    obtain rfl : u = v := (Prod.ext_iff.1 (hrun.symm.trans hstale)).2
    obtain ⟨_, v, hcreate, h⟩ := Action.bind_ok.1 h
    obtain ⟨⟨hnone, hcreated⟩, rfl⟩ := labelled_ok.1 hcreate
    obtain ⟨_, v, hwrite, h⟩ := Action.bind_ok.1 h
    obtain ⟨⟨_, hwritten⟩, rfl⟩ := labelled_ok.1 hwrite
    obtain ⟨_, v, hflush, h⟩ := Action.bind_ok.1 h
    rw [run_flush] at hflush
    cases hflush
    obtain ⟨⟨_, hrenamed⟩, rfl⟩ := labelled_ok.1 h
    exact ⟨⟨hdirectory, hfresh.1 (by simpa [Op.refusal] using hnone), hcreated, hwritten, hrenamed⟩,
      (persisted_eq hu).symm⟩
  · rintro ⟨⟨hdirectory, hstale, hcreated, hwritten, hrenamed⟩, rfl⟩
    refine ⟨(), _, ensureCrlDirectory_ok.2 ⟨hdirectory, rfl⟩, Action.bind_ok.2 ⟨(), u, hrun, ?_⟩⟩
    refine Action.bind_ok.2 ⟨(), _, labelled_ok.2 ⟨⟨by simp [Op.refusal, hfresh.2 hstale], hcreated⟩, rfl⟩, ?_⟩
    refine Action.bind_ok.2 ⟨(), _, labelled_ok.2 ⟨⟨rfl, hwritten⟩, rfl⟩, ?_⟩
    refine Action.bind_ok.2 ⟨(), _, run_flush, ?_⟩
    exact labelled_ok.2 ⟨⟨by simp [Op.refusal, Op.effect], hrenamed⟩, persisted_eq hu⟩

theorem confined_ensureCrlDirectory : Action.Confined (fun _ => False) (ensureCrlDirectory crlPath) := by
  refine (Action.confined_dirExists _).bind fun there => ?_
  cases there with
  | true => exact Action.confined_pure _
  | false => exact confined_labelled (by simp [Op.changes])

/-- A refresh that fails leaves everything but its temporary file. -/
theorem persistCrl_error {e : String} (h : (persistCrl crlPath crlPem).run env s = (.error e, t)) {p : String}
    (hp : p ≠ crlTempPath crlPath) : t p = s p := by
  have hop : ∀ {o : Op String Content} {label : String}, o.changes = [crlTempPath crlPath] →
      Action.Confined (· = crlTempPath crlPath) (labelled label o) := fun ho => confined_labelled (by simp [ho])
  rcases Action.bind_error.1 h with hdir | ⟨_, u₁, hdir, h⟩
  · exact confined_ensureCrlDirectory.kept hdir not_false
  rw [← confined_ensureCrlDirectory.kept hdir (p := p) not_false]
  obtain ⟨u₂, hrun, hu, _⟩ := removeStale_run env u₁ (crlTempPath crlPath)
  rcases Action.bind_error.1 h with hstale | ⟨_, u, hstale, h⟩
  · rw [hrun] at hstale
    cases hstale
  obtain rfl : u₂ = u := (Prod.ext_iff.1 (hrun.symm.trans hstale)).2
  rw [← hu p hp]
  rcases Action.bind_error.1 h with hcreate | ⟨_, u₃, hcreate, h⟩
  · exact (hop rfl).kept hcreate hp
  rw [← (hop rfl).kept hcreate hp]
  rcases Action.bind_error.1 h with hwrite | ⟨_, u₄, hwrite, h⟩
  · exact (hop rfl).kept hwrite hp
  rw [← (hop rfl).kept hwrite hp]
  rcases Action.bind_error.1 h with hflush | ⟨_, u₅, hflush, h⟩
  · rw [run_flush] at hflush
    cases hflush
  rw [run_flush] at hflush
  cases hflush
  obtain ⟨_, h, _⟩ := Action.mapError_error.1 h
  rw [Action.perform_rename_error h]

end Persist

/-! ## The provisioning -/

def PkiBundle.hasCrl (b : PkiBundle) : Bool := !(Text.trim b.crlPem).isEmpty

/-- The CRL, if there is one. -/
def PkiBundle.crlMembers (b : PkiBundle) (tls : TlsConfig) : List Member :=
  if b.hasCrl then [⟨tls.crlPath, b.crlPem, false, "Failed to write CRL"⟩] else []

/-- All files of the bundle, the CRL last. -/
def PkiBundle.allMembers (b : PkiBundle) (tls : TlsConfig) : List Member := b.members tls ++ b.crlMembers tls

/-- All writes are carried out, one after the other. -/
def AllWritable (env : HostSurroundings) : HostFiles → List Member → Prop
  | _, [] => True
  | s, m :: ms => Writable env s m.path m.pemData m.isKey ∧ AllWritable env (written s m.path (.text m.pemData)) ms

section Provision

variable {env : HostSurroundings} {s t : HostFiles} {m : Member} {ms : List Member} {r : Except AnyhowError Unit}
  {b : PkiBundle}

theorem writeMembers_append (ms ms' : List Member) :
    writeMembers (ms ++ ms') = writeMembers ms >>= fun _ => writeMembers ms' := by
  induction ms with
  | nil => rfl
  | cons m ms ih => simp only [List.cons_append, writeMembers, ih, bind_assoc]

theorem provisionCrl_eq (b : PkiBundle) (tls : TlsConfig) : provisionCrl b tls = writeMembers (b.crlMembers tls) := by
  unfold provisionCrl PkiBundle.crlMembers PkiBundle.hasCrl
  split
  · exact (bind_pure _).symm
  · rfl

theorem provisionPkiBundle_all {b : PkiBundle} (tlsConfig : Option TlsConfig) (h : validateBundle b = .ok ()) :
    provisionPkiBundle b tlsConfig = writeMembers (b.allMembers (tlsConfig.getD .default)) := by
  rw [provisionPkiBundle_eq tlsConfig h, PkiBundle.allMembers, writeMembers_append, provisionCrl_eq]

/-- The writes succeed when they are all carried out. -/
theorem writeMembers_ok : (∃ t, (writeMembers ms).run env s = (.ok (), t)) ↔ AllWritable env s ms := by
  induction ms generalizing s with
  | nil => exact iff_of_true ⟨s, rfl⟩ trivial
  | cons m ms ih =>
    rw [AllWritable, ← ih]
    constructor
    · rintro ⟨t, h⟩
      obtain ⟨_, u, hw, hrest⟩ := Action.bind_ok.1 h
      obtain ⟨hwritable, rfl⟩ := member_write_ok.1 hw
      exact ⟨hwritable, t, hrest⟩
    · rintro ⟨hwritable, t, hrest⟩
      exact ⟨t, Action.bind_ok.2 ⟨(), _, member_write_ok.2 ⟨hwritable, rfl⟩, hrest⟩⟩

/-- The first file, when it can be written, is written whatever becomes of the others. -/
theorem writeMembers_head (hapart : ((m :: ms).flatMap (footprint ·.path)).Nodup)
    (h : (writeMembers (m :: ms)).run env s = (r, t)) (hw : Writable env s m.path m.pemData m.isKey) :
    t m.path = some (.text m.pemData) := by
  rw [List.flatMap_cons, List.nodup_append'] at hapart
  have hrun : (writeMembers ms).run env (written s m.path (.text m.pemData)) = (r, t) := by
    rw [← h, writeMembers, Action.run_bind, (member_write_ok (a := ())).2 ⟨hw, rfl⟩]
  rw [(confined_writeMembers ms).kept hrun fun hp => hapart.2.2 (by simp [footprint]) hp]
  exact if_pos rfl

/-- When the first file cannot be written, nothing is. -/
theorem writeMembers_not_head (h : (writeMembers (m :: ms)).run env s = (r, t))
    (hw : ¬ Writable env s m.path m.pemData m.isKey) {p : String} (hp : p ≠ tempPath m.path ∧ p ≠ backupPath m.path) :
    t p = s p ∧ ∃ e, r = .error e := by
  cases r with
  | ok u =>
    obtain ⟨_, _, hok, _⟩ := Action.bind_ok.1 h
    exact (hw (member_write_ok.1 hok).1).elim
  | error e =>
    rcases Action.bind_error.1 h with h | ⟨_, _, hok, _⟩
    · exact ⟨(member_write_error h).2 p hp.1 hp.2, e, rfl⟩
    · exact (hw (member_write_ok.1 hok).1).elim

/-- Writes that fail leave the last file. -/
theorem writeMembers_last {e : AnyhowError} (hapart : ((ms ++ [m]).flatMap (footprint ·.path)).Nodup)
    (h : (writeMembers (ms ++ [m])).run env s = (.error e, t)) : t m.path = s m.path := by
  induction ms generalizing s with
  | nil =>
    simp only [List.nil_append, List.flatMap_cons, List.flatMap_nil, List.append_nil, footprint, List.nodup_cons,
      List.mem_cons, List.not_mem_nil, or_false, not_or] at hapart
    rcases Action.bind_error.1 h with h | ⟨_, _, _, h⟩
    · exact (member_write_error h).2 _ hapart.1.1 hapart.1.2
    · cases h
  | cons x ms ih =>
    rw [List.cons_append, List.flatMap_cons, List.nodup_append'] at hapart
    obtain ⟨_, hrest, hdisj⟩ := hapart
    have hnot : m.path ∉ footprint x.path := fun hx =>
      hdisj hx (List.mem_flatMap.2 ⟨m, by simp, by simp [footprint]⟩)
    rcases Action.bind_error.1 h with h | ⟨_, _, hok, h⟩
    · simp only [footprint, List.mem_cons, List.not_mem_nil, or_false, not_or] at hnot
      exact (member_write_error h).2 _ hnot.2.1 hnot.2.2
    · obtain ⟨_, rfl⟩ := member_write_ok.1 hok
      rw [ih hrest h, written_of_not_mem _ hnot]

/-- A file stays as it is written when none of the writes after it works with its path. -/
theorem writeMembers_kept (before : List Member) (h : (writeMembers (before ++ m :: ms)).run env s = (.ok (), t))
    (hm : m.path ∉ ms.flatMap (footprint ·.path)) : t m.path = some (.text m.pemData) := by
  rw [writeMembers_append] at h
  obtain ⟨_, u, _, h⟩ := Action.bind_ok.1 h
  obtain ⟨_, v, hw, h⟩ := Action.bind_ok.1 h
  obtain ⟨_, rfl⟩ := member_write_ok.1 hw
  rw [(confined_writeMembers ms).kept h hm]
  exact if_pos rfl

/-- No other file of the bundle works with the path of the CRL. -/
theorem crlPath_not_mem {tls : TlsConfig} (hp : tls.Apart) {path : String}
    (h : path ∈ [tls.caCert, tls.serverCert, tls.serverKey]) : tls.crlPath ∉ footprint path := by
  have hsplit : ([tls.caCert, tls.serverCert, tls.serverKey].flatMap footprint ++ footprint tls.crlPath).Nodup := by
    simpa [TlsConfig.Apart] using hp
  obtain ⟨_, _, hdisj⟩ := List.nodup_append'.1 hsplit
  exact fun hmem => hdisj (List.mem_flatMap.2 ⟨path, h, hmem⟩) (by simp [footprint])

theorem crlPath_ne {tls : TlsConfig} (hp : tls.Apart) : tls.crlPath ≠ tls.caCert ∧
    tls.crlPath ≠ tempPath tls.caCert ∧ tls.crlPath ≠ backupPath tls.caCert := by
  have hnot : tls.crlPath ∉ footprint tls.caCert := crlPath_not_mem hp (by simp)
  simpa [footprint] using hnot

theorem ca_ne {tls : TlsConfig} (hp : tls.Apart) :
    tls.caCert ≠ tempPath tls.caCert ∧ tls.caCert ≠ backupPath tls.caCert := by
  have hsplit : (footprint tls.caCert ++ [tls.serverCert, tls.serverKey, tls.crlPath].flatMap footprint).Nodup := hp
  have hca := (List.nodup_append'.1 hsplit).1
  simp only [footprint, List.nodup_cons, List.mem_cons, List.not_mem_nil, or_false, not_or] at hca
  exact hca.1

theorem allMembers_nodup {tls : TlsConfig} (hp : tls.Apart) :
    ((b.allMembers tls).flatMap (footprint ·.path)).Nodup := by
  unfold PkiBundle.allMembers PkiBundle.crlMembers
  split
  · simpa [PkiBundle.members, TlsConfig.Apart] using hp
  · have hsub : ([tls.caCert, tls.serverCert, tls.serverKey].flatMap footprint).Nodup := by
      have hsplit : ([tls.caCert, tls.serverCert, tls.serverKey].flatMap footprint ++ footprint tls.crlPath).Nodup := by
        simpa [TlsConfig.Apart] using hp
      exact (List.nodup_append'.1 hsplit).1
    simpa [PkiBundle.members] using hsub

/-- The two files after a provisioning that can write the CA file. -/
theorem provision_spec {tls : TlsConfig} (hp : tls.Apart) (hw : Writable env s tls.caCert b.caCrt false)
    (h : (writeMembers (b.allMembers tls)).run env s = (r, t)) : t tls.caCert = some (.text b.caCrt) ∧
      (b.hasCrl = true ∧ AllWritable env s (b.allMembers tls) → r = .ok () ∧ t tls.crlPath = some (.text b.crlPem)) ∧
      (¬ (b.hasCrl = true ∧ AllWritable env s (b.allMembers tls)) →
        t tls.crlPath = s tls.crlPath ∧ (r.toBool && b.hasCrl) = false) := by
  have hnodup := allMembers_nodup (b := b) hp
  refine ⟨writeMembers_head hnodup h hw, ?_, fun hnot => ?_⟩
  · rintro ⟨hcrl, hall⟩
    obtain ⟨t', hok⟩ := writeMembers_ok.2 hall
    obtain ⟨rfl, rfl⟩ := Prod.mk.injEq .. ▸ h.symm.trans hok
    simp only [PkiBundle.allMembers, PkiBundle.crlMembers, hcrl, if_true] at hok
    exact ⟨rfl, writeMembers_kept _ hok (by simp)⟩
  · cases hcrl : b.hasCrl with
    | false =>
      refine ⟨?_, Bool.and_false _⟩
      simp only [PkiBundle.allMembers, PkiBundle.crlMembers, hcrl, Bool.false_eq_true, if_false, List.append_nil] at h
      refine (confined_writeMembers _).kept h fun hmem => ?_
      obtain ⟨x, hx, hfoot⟩ := List.mem_flatMap.1 hmem
      simp only [PkiBundle.members, List.mem_cons, List.not_mem_nil, or_false] at hx
      exact crlPath_not_mem hp (by rcases hx with rfl | rfl | rfl <;> simp) hfoot
    | true =>
      cases r with
      | ok u => exact (hnot ⟨hcrl, writeMembers_ok.1 ⟨t, h⟩⟩).elim
      | error e =>
        simp only [PkiBundle.allMembers, PkiBundle.crlMembers, hcrl, if_true] at h hnodup
        exact ⟨writeMembers_last hnodup h, rfl⟩

end Provision

/-! ## The start -/

/-- The CA file as `main` reads it. -/
def caBytes (tls : TlsConfig) (s : HostFiles) : Bytes := ((s tls.caCert).map Content.bytes).getD []

def crlFile (tls : TlsConfig) (s : HostFiles) : FileRead :=
  match s tls.crlPath with
  | none => .notFound
  | some c => .content c.bytes none

/-- No CRL in the bytes that verifies under the CA certificate. -/
def Refused (pki : Pki) (crlBytes caCertDer : Bytes) : Prop := ¬ ∃ crl, Verified pki crlBytes caCertDer crl

theorem loadCrlFromBytes_invalid {pki : Pki} (now : Int) {bytes : Bytes} (mtime : Option Int) {ca : Bytes} :
    (loadCrlFromBytes pki now bytes mtime ca).status = .invalid ↔ Refused pki bytes ca := by
  unfold loadCrlFromBytes Refused Verified
  split
  · next hcrl => exact iff_of_true rfl fun ⟨_, h, _⟩ => by rw [hcrl] at h; cases h
  next crl hcrl =>
  split
  · next hca => exact iff_of_true rfl fun ⟨_, _, _, h, _⟩ => by rw [hca] at h; cases h
  next caCert hca =>
  split
  · next hv =>
    refine iff_of_true rfl fun ⟨crl', h, caCert', h', hv'⟩ => ?_
    rw [hcrl] at h
    rw [hca] at h'
    cases h
    cases h'
    simp [hv'] at hv
  · next hv =>
    refine iff_of_false ?_ fun hno => hno ⟨crl, hcrl, caCert, hca, by simpa using hv⟩
    simp only
    split <;> simp

theorem initialCrl_eq_none {pki : Pki} {tls : TlsConfig} {s : HostFiles} {now : Int} :
    initialCrl pki (caBytes tls s) now (crlFile tls s) = none ↔
      ∃ c, s tls.crlPath = some c ∧ Refused pki c.bytes (caBytes tls s) := by
  unfold initialCrl crlFile
  cases hs : s tls.crlPath with
  | none => simp [loadCrl, CrlState.empty]
  | some c =>
    simp only [loadCrl, Option.some.injEq, exists_eq_left']
    rw [← loadCrlFromBytes_invalid now none]
    cases (loadCrlFromBytes pki now c.bytes none (caBytes tls s)).status <;> simp

/-- The files are different ones, and so is the temporary file of a refresh. -/
structure TlsConfig.Separate (tls : TlsConfig) : Prop where
  apart : tls.Apart
  temp_ca : tls.caCert ≠ crlTempPath tls.crlPath
  temp_crl : tls.crlPath ≠ crlTempPath tls.crlPath

theorem default_separate : TlsConfig.default.Separate := ⟨default_apart, by decide +kernel, by decide +kernel⟩

/-! ## The host -/

structure Host where
  files : HostFiles
  /-- The CA certificate that the running daemon has read. -/
  daemon : Option Bytes
  /-- The CRL file is one that the agent wrote. -/
  crlWritten : Bool

inductive HostAct
  | start (now : Int)
  | stop
  /-- `provision_pki_bundle`, in the daemon's start or in another process. -/
  | provision (b : PkiBundle) (env : HostSurroundings)
  | refresh (now : Int) (fetched : Except String String) (mtime : Option Int) (env : HostSurroundings)

namespace Host

variable (pki : Pki) (tlsConfig : Option TlsConfig)

/-- The daemon runs unless `main` refuses the CRL. -/
def start (u : Host) (now : Int) : Host :=
  let ca := caBytes (tlsConfig.getD .default) u.files
  { u with daemon := (initialCrl pki ca now (crlFile (tlsConfig.getD .default) u.files)).map fun _ => ca }

def provision (u : Host) (b : PkiBundle) (env : HostSurroundings) : Host :=
  let result := (provisionPkiBundle b tlsConfig).run env u.files
  { u with files := result.2, crlWritten := u.crlWritten || (result.1.toBool && b.hasCrl) }

def refresh (u : Host) (ca : Bytes) (now : Int) (fetched : Except String String) (mtime : Option Int)
    (env : HostSurroundings) : Host :=
  let result := (refreshCrl pki now (tlsConfig.getD .default).crlPath ca fetched mtime).run env u.files
  { u with files := result.2, crlWritten := u.crlWritten || result.1.toBool }

/-- Enrollments, starts and refreshes on one host. -/
def agent : Machine Host HostAct where
  init := fun u => u.crlWritten = false
  step u a := match a with
    | .start now => some (u.start pki tlsConfig now)
    | .stop => some { u with daemon := none }
    | .provision b env => some (u.provision tlsConfig b env)
    | .refresh now fetched mtime env => u.daemon.map fun ca => u.refresh pki tlsConfig ca now fetched mtime env

/-- A start does not refuse a CRL that the agent wrote. -/
def Restarts (u : Host) : Prop := u.crlWritten = true →
  ∀ now,
    initialCrl pki (caBytes (tlsConfig.getD .default) u.files) now (crlFile (tlsConfig.getD .default) u.files) ≠ none

/-- Once the CA file is written, the CRL of the bundle is written and verifies under it, or there is no CRL of the
agent's that does not. -/
def ProvisionGuard (u : Host) (b : PkiBundle) (env : HostSurroundings) : Prop :=
  validateBundle b = .ok () → Writable env u.files (tlsConfig.getD .default).caCert b.caCrt false →
    (b.hasCrl = true ∧ AllWritable env u.files (b.allMembers (tlsConfig.getD .default)) →
      ¬ Refused pki (Content.text b.crlPem).bytes (Content.text b.caCrt).bytes) ∧
    (¬ (b.hasCrl = true ∧ AllWritable env u.files (b.allMembers (tlsConfig.getD .default))) → u.crlWritten = true →
      ∀ c, u.files (tlsConfig.getD .default).crlPath = some c → ¬ Refused pki c.bytes (Content.text b.caCrt).bytes)

/-- A CRL that is fetched and written verifies under the CA file too, not only under the CA that the daemon has read. -/
def RefreshGuard (u : Host) (fetched : Except String String) (env : HostSurroundings) : Prop :=
  ∀ ca body, u.daemon = some ca → fetched = .ok body → ¬ Refused pki (Content.text body).bytes ca →
    Persistable env u.files (tlsConfig.getD .default).crlPath body →
      ¬ Refused pki (Content.text body).bytes (caBytes (tlsConfig.getD .default) u.files)

def Guarded (f : Fired Host HostAct) : Prop :=
  match f.act with
  | .start _ | .stop => True
  | .provision b env => f.pre.ProvisionGuard pki tlsConfig b env
  | .refresh _ fetched _ env => f.pre.RefreshGuard pki tlsConfig fetched env

variable {pki tlsConfig}

/-! ## What a step keeps -/

section Step

variable {u : Host} {b : PkiBundle} {env : HostSurroundings}

theorem restarts_iff : Restarts pki tlsConfig u ↔ (u.crlWritten = true → ∀ c,
    u.files (tlsConfig.getD .default).crlPath = some c →
      ¬ Refused pki c.bytes (caBytes (tlsConfig.getD .default) u.files)) := by
  refine imp_congr_right fun _ => ?_
  simp only [ne_eq, initialCrl_eq_none, not_exists, not_and]
  exact ⟨fun h => h 0, fun h _ => h⟩

theorem provision_restarts (hp : (tlsConfig.getD .default).Apart) (h : Restarts pki tlsConfig u) :
    Restarts pki tlsConfig (u.provision tlsConfig b env) ↔ u.ProvisionGuard pki tlsConfig b env := by
  rw [restarts_iff] at h ⊢
  rcases hrun : (provisionPkiBundle b tlsConfig).run env u.files with ⟨r, t⟩
  simp only [provision, hrun]
  unfold ProvisionGuard
  cases hv : validateBundle b with
  | error e =>
    simp only [provisionPkiBundle, hv, Action.run_fail] at hrun
    cases hrun
    exact iff_of_true (by simpa [Except.toBool] using h) fun hok => by cases hok
  | ok v =>
    rw [provisionPkiBundle_all tlsConfig hv] at hrun
    by_cases hw : Writable env u.files (tlsConfig.getD .default).caCert b.caCrt false
    · obtain ⟨hca, hall, hleft⟩ := provision_spec hp hw hrun
      have hbytes : caBytes (tlsConfig.getD .default) t = (Content.text b.caCrt).bytes := by rw [caBytes, hca]; rfl
      rw [hbytes]
      by_cases hwritten : b.hasCrl = true ∧ AllWritable env u.files (b.allMembers (tlsConfig.getD .default))
      · obtain ⟨rfl, hcrl⟩ := hall hwritten
        simp [hcrl, hwritten, hw, Except.toBool]
      · obtain ⟨hcrl, hflag⟩ := hleft hwritten
        rw [hcrl, hflag, Bool.or_false]
        exact ⟨fun hkeep _ _ => ⟨fun hno => (hwritten hno).elim, fun _ => hkeep⟩,
          fun hguard => (hguard rfl hw).2 hwritten⟩
    · obtain ⟨hca, e, rfl⟩ := writeMembers_not_head hrun hw (ca_ne hp)
      obtain ⟨hcrl, _⟩ := writeMembers_not_head hrun hw (crlPath_ne hp).2
      refine iff_of_true ?_ fun _ hno => (hw hno).elim
      simp only [Except.toBool, Bool.false_and, Bool.or_false, caBytes, hca, hcrl]
      exact h

theorem refresh_restarts (hp : (tlsConfig.getD .default).Separate) {ca : Bytes} {now : Int}
    {fetched : Except String String}
    {mtime : Option Int} (hd : u.daemon = some ca) (h : Restarts pki tlsConfig u) :
    Restarts pki tlsConfig (u.refresh pki tlsConfig ca now fetched mtime env) ↔
      u.RefreshGuard pki tlsConfig fetched env := by
  rw [restarts_iff] at h ⊢
  rcases hrun : (refreshCrl pki now (tlsConfig.getD .default).crlPath ca fetched mtime).run env u.files with ⟨r, t⟩
  simp only [refresh, hrun]
  unfold RefreshGuard
  cases fetched with
  | error e =>
    simp only [refreshCrl, Action.run_fail] at hrun
    cases hrun
    exact iff_of_true (by simpa [Except.toBool] using h) fun _ _ _ hok => by cases hok
  | ok body =>
    simp only [refreshCrl, loadCrlFromBytes_invalid] at hrun
    split at hrun
    · next hrefused =>
      cases hrun
      refine iff_of_true (by simpa [Except.toBool] using h) fun ca' body' hd' hok haccepted => ?_
      cases hok
      cases hd.symm.trans hd'
      exact (haccepted ((loadCrlFromBytes_invalid _ _).1 hrefused)).elim
    · next hverified =>
      have haccepted : ¬ Refused pki (Content.text body).bytes ca := fun hno =>
        hverified ((loadCrlFromBytes_invalid _ _).2 hno)
      by_cases hready : Persistable env u.files (tlsConfig.getD .default).crlPath body
      · rw [Action.run_bind, (persistCrl_ok (a := ())).2 ⟨hready, rfl⟩] at hrun
        cases hrun
        have hcrl : persisted u.files (tlsConfig.getD .default).crlPath body (tlsConfig.getD .default).crlPath =
            some (.text body) := if_pos rfl
        have hca : caBytes (tlsConfig.getD .default) (persisted u.files (tlsConfig.getD .default).crlPath body) =
            caBytes (tlsConfig.getD .default) u.files := by
          rw [caBytes, persisted, if_neg (crlPath_ne hp.apart).1.symm, if_neg hp.temp_ca, caBytes]
        rw [hcrl, hca]
        constructor
        · intro hkeep ca' body' hd' hok _ _
          cases hok
          exact hkeep (by simp [Except.toBool]) _ rfl
        · intro hguard _ c hc
          rw [← Option.some.inj hc]
          exact hguard ca body hd rfl haccepted hready
      · rw [Action.run_bind] at hrun
        rcases hpersist : (persistCrl (tlsConfig.getD .default).crlPath body).run env u.files with ⟨e | v, w⟩
        · rw [hpersist] at hrun
          cases hrun
          have hca := persistCrl_error hpersist hp.temp_ca
          have hcrl := persistCrl_error hpersist hp.temp_crl
          refine iff_of_true ?_ fun ca' body' _ hok _ hready' => ?_
          · simp only [Except.toBool, Bool.or_false, caBytes, hca, hcrl]
            exact h
          · cases hok
            exact (hready hready').elim
        · exact (hready (persistCrl_ok.1 hpersist).1).elim

end Step

/-- In a run of enrollments, starts and refreshes no start refuses a CRL that the agent wrote exactly when every
provisioning and every refresh meets its guard. -/
theorem restarts_run_iff (hp : (tlsConfig.getD .default).Separate) {u u' : Host} {tr : List (Fired Host HostAct)}
    (hinit : (agent pki tlsConfig).init u) (h : Run (agent pki tlsConfig) u tr u') :
    (∀ v ∈ states u tr, Restarts pki tlsConfig v) ↔ ∀ f ∈ tr, Guarded pki tlsConfig f := by
  have hstart : Restarts pki tlsConfig u := fun hwritten => by
    rw [show u.crlWritten = false from hinit] at hwritten
    cases hwritten
  refine h.forall_states_iff (fun f _ hf hpre => ?_) hstart
  unfold Guarded
  cases ha : f.act with
  | start now =>
    simp only [IsStep, agent, ha, Option.some.injEq] at hf
    rw [← hf]
    exact iff_of_true hpre trivial
  | stop =>
    simp only [IsStep, agent, ha, Option.some.injEq] at hf
    rw [← hf]
    exact iff_of_true hpre trivial
  | provision b env =>
    simp only [IsStep, agent, ha, Option.some.injEq] at hf
    rw [← hf]
    exact provision_restarts hp.apart hpre
  | refresh now fetched mtime env =>
    simp only [IsStep, agent, ha, Option.map_eq_some_iff] at hf
    obtain ⟨ca, hd, hf⟩ := hf
    rw [← hf]
    exact refresh_restarts hp hd hpre

end Host

/-! ## An unverified CRL -/

/-- A decoder for the blocks of `newBundle` and of two CRLs, of which the one that is issued by its CA verifies. -/
def wordPki : Pki where
  base64Decode text :=
    if text = "bmV3IENB" then some (Content.text "new CA").bytes
    else if text = "bmV3IENSTA==" then some (Content.text "new CRL").bytes
    else if text = "b2xkIENSTA==" then some (Content.text "old CRL").bytes
    else none
  crlFromDer der :=
    if der = (Content.text "new CRL").bytes ∨ der = (Content.text "old CRL").bytes then some ⟨der.take 3, [], none⟩
    else none
  parseX509Certificate der := if der = (Content.text "new CA").bytes then some ⟨1, der.take 3⟩ else none
  verifySignature crl publicKey := crl.signed == publicKey

/-- A bundle with a CRL. -/
def bundleWith (word : String) : PkiBundle := { newBundle with crlPem := pemBlock "X509 CRL" word }

def freshHost : Host := ⟨fun _ => none, none, false⟩

/-- The host after the provisioning. -/
def enrolled (word : String) : Host := freshHost.provision none (bundleWith word) .sound

/-- An enrollment, and the start of the daemon. -/
def enrollSteps (word : String) : List (Fired Host HostAct) :=
  [⟨freshHost, .provision (bundleWith word) .sound, enrolled word⟩,
    ⟨enrolled word, .start 0, (enrolled word).start wordPki none 0⟩]

theorem enrollSteps_run (word : String) : Run (Host.agent wordPki none) freshHost (enrollSteps word)
    ((enrolled word).start wordPki none 0) := .snoc (.snoc .nil rfl) rfl

/-- The CRL of the bundle verifies under its CA. -/
theorem restarts_run_verified :
    Run (Host.agent wordPki none) freshHost (enrollSteps "bmV3IENSTA==")
      ((enrolled "bmV3IENSTA==").start wordPki none 0) ∧
    ∀ v ∈ states freshHost (enrollSteps "bmV3IENSTA=="), Host.Restarts wordPki none v := by
  have hverified : ¬ Refused wordPki (Content.text (bundleWith "bmV3IENSTA==").crlPem).bytes
      (Content.text (bundleWith "bmV3IENSTA==").caCrt).bytes := by
    rw [← loadCrlFromBytes_invalid 0 none]
    decide +kernel
  have hp : ((none : Option TlsConfig).getD .default).Separate := default_separate
  have hinit : (Host.agent wordPki none).init freshHost := rfl
  refine ⟨enrollSteps_run _, (Host.restarts_run_iff hp hinit (enrollSteps_run _)).2 fun f hf => ?_⟩
  simp only [enrollSteps, List.mem_cons, List.not_mem_nil, or_false] at hf
  rcases hf with rfl | rfl
  · exact fun _ _ => ⟨fun _ => hverified, fun _ hwritten => by cases hwritten⟩
  · trivial

/-- The CRL of the bundle is that of another CA, and the start after the enrollment refuses it. -/
theorem unverified_crl_refused : ∃ (pki : Pki) (tlsConfig : Option TlsConfig) (u u' : Host)
    (tr : List (Fired Host HostAct)),
    (Host.agent pki tlsConfig).init u ∧ Run (Host.agent pki tlsConfig) u tr u' ∧
      ¬ ∀ v ∈ states u tr, Host.Restarts pki tlsConfig v := by
  refine ⟨wordPki, none, freshHost, _, _, rfl, enrollSteps_run "b2xkIENSTA==", fun hrestarts => ?_⟩
  have hvalid : validateBundle (bundleWith "b2xkIENSTA==") = .ok () := newBundle_valid
  have hstart := hrestarts (enrolled "b2xkIENSTA==") (by simp [states, enrollSteps])
  rw [enrolled, Host.Restarts, Host.provision, provisionPkiBundle_all none hvalid] at hstart
  exact hstart (by decide +kernel) 0 (by decide +kernel)

end LinuxPatchApi.Enroll
