/-
The two background tasks of `src/auth/crl.rs` that replace the shared CRL state, the CRL file and
whoever else writes that file, as one machine, and what a listed serial survives: it is rejected
until a task swaps in a state in which it is not listed.
-/
import LinuxPatchApi.Auth.Crl
import LinuxPatchApi.Lib.Transition

namespace LinuxPatchApi.Auth

open Transition

/-! ## The machine -/

/-- Where the task is in `refresh_crl`; the verified body waits to be written, then renamed. -/
inductive RefreshPhase where
  | idle
  | fetching
  | writing (body : Bytes) (newState : CrlState)
  | renaming (body : Bytes) (newState : CrlState)
  | storing (newState : CrlState)

/-- Where the task of `spawn_crl_health_task` is. -/
inductive HealthPhase where
  | sleeping
  | comparing (newState : CrlState)
  | storing (newState : CrlState)

structure CrlWorld where
  shared : CrlState
  file : FileRead
  clock : Int
  refresh : RefreshPhase
  health : HealthPhase

inductive CrlAct where
  /-- Something outside the agent deletes, replaces or blocks the CRL file. -/
  | disk (file : FileRead)
  | clock (now : Int)
  /-- `refresh_crl` is called. -/
  | fetch
  | fetched (body : Option Bytes)
  | writeTmp (ok : Bool)
  | rename (ok : Bool) (mtime : Option Int)
  /-- `refresh_crl` reads the modification time back and swaps. -/
  | storeRefreshed (mtime : Option Int)
  /-- The health task calls `load_crl`. -/
  | load
  | compare
  | storeReloaded

variable (pki : Pki) (caCertDer : Bytes)

def CrlWorld.step (w : CrlWorld) (a : CrlAct) : Option CrlWorld :=
  match a, w.refresh, w.health with
  | .disk file, _, _ => some { w with file := file }
  | .clock now, _, _ => some { w with clock := now }
  | .fetch, .idle, _ => some { w with refresh := .fetching }
  | .fetched none, .fetching, _ => some { w with refresh := .idle }
  | .fetched (some body), .fetching, _ =>
    let newState := loadCrlFromBytes pki w.clock body none caCertDer
    -- verified in memory before anything is written
    if newState.status = .invalid then some { w with refresh := .idle }
    else some { w with refresh := .writing body newState }
  | .writeTmp ok, .writing body newState, _ =>
    some { w with refresh := if ok then .renaming body newState else .idle }
  | .rename false _, .renaming _ _, _ => some { w with refresh := .idle }
  | .rename true mtime, .renaming body newState, _ =>
    some { w with file := .content body mtime, refresh := .storing newState }
  | .storeRefreshed mtime, .storing newState, _ =>
    some { w with shared := { newState with crlMtime := mtime }, refresh := .idle }
  | .load, _, .sleeping => some { w with health := .comparing (loadCrl pki w.clock w.file caCertDer) }
  | .compare, _, .comparing newState =>
    some { w with health := if w.shared.status ≠ newState.status then .storing newState else .sleeping }
  | .storeReloaded, _, .storing newState => some { w with shared := newState, health := .sleeping }
  | _, _, _ => none

/-- What `main` leaves in the shared state from the file, or `none` where it refuses to start. -/
def initialCrl (now : Int) (file : FileRead) : Option CrlState :=
  let initial := loadCrl pki now file caCertDer
  match initial.status with
  | .invalid => none
  | .valid | .expired => some initial
  | .missing | .degraded => some (.default now)

structure CrlWorld.Startup (w : CrlWorld) : Prop where
  shared : initialCrl pki caCertDer w.clock w.file = some w.shared
  refresh : w.refresh = .idle
  health : w.health = .sleeping

/-- The agent's CRL state among the tasks and the disk. -/
def crlAgent : Machine CrlWorld CrlAct where
  init := CrlWorld.Startup pki caCertDer
  step := CrlWorld.step pki caCertDer

/-! ## What a step does -/

/-- The moves of the machine, one constructor for each thing that can happen. -/
inductive CrlStep : CrlWorld → CrlAct → CrlWorld → Prop
  | disk (w : CrlWorld) (file : FileRead) : CrlStep w (.disk file) { w with file := file }
  | clock (w : CrlWorld) (now : Int) : CrlStep w (.clock now) { w with clock := now }
  | fetch (w : CrlWorld) (h : w.refresh = .idle) : CrlStep w .fetch { w with refresh := .fetching }
  | failed (w : CrlWorld) (a : CrlAct) (ha : a ≠ .load ∧ a ≠ .compare ∧ a ≠ .storeReloaded) :
      CrlStep w a { w with refresh := .idle }
  | fetched (w : CrlWorld) (body : Bytes) (h : w.refresh = .fetching)
      (hv : (loadCrlFromBytes pki w.clock body none caCertDer).status ≠ .invalid) :
      CrlStep w (.fetched (some body))
        { w with refresh := .writing body (loadCrlFromBytes pki w.clock body none caCertDer) }
  | written (w : CrlWorld) (body : Bytes) (newState : CrlState) (h : w.refresh = .writing body newState) :
      CrlStep w (.writeTmp true) { w with refresh := .renaming body newState }
  | renamed (w : CrlWorld) (body : Bytes) (newState : CrlState) (mtime : Option Int)
      (h : w.refresh = .renaming body newState) :
      CrlStep w (.rename true mtime) { w with file := .content body mtime, refresh := .storing newState }
  | refreshed (w : CrlWorld) (newState : CrlState) (mtime : Option Int) (h : w.refresh = .storing newState) :
      CrlStep w (.storeRefreshed mtime)
        { w with shared := { newState with crlMtime := mtime }, refresh := .idle }
  | loaded (w : CrlWorld) (h : w.health = .sleeping) :
      CrlStep w .load { w with health := .comparing (loadCrl pki w.clock w.file caCertDer) }
  | same (w : CrlWorld) (newState : CrlState) (h : w.health = .comparing newState) :
      CrlStep w .compare { w with health := .sleeping }
  | differs (w : CrlWorld) (newState : CrlState) (h : w.health = .comparing newState)
      (hd : w.shared.status ≠ newState.status) :
      CrlStep w .compare { w with health := .storing newState }
  | reloaded (w : CrlWorld) (newState : CrlState) (h : w.health = .storing newState) :
      CrlStep w .storeReloaded { w with shared := newState, health := .sleeping }

variable {pki caCertDer}

theorem crlStep_of_step {f : Fired CrlWorld CrlAct} (hf : IsStep (crlAgent pki caCertDer) f) :
    CrlStep pki caCertDer f.pre f.act f.post := by
  obtain ⟨w, a, w'⟩ := f
  replace hf : CrlWorld.step pki caCertDer w a = some w' := hf
  show CrlStep pki caCertDer w a w'
  unfold CrlWorld.step at hf
  split at hf
  case h_1 file => cases hf; exact .disk w file
  case h_2 now => cases hf; exact .clock w now
  case h_3 hr => cases hf; exact .fetch w hr
  case h_4 => cases hf; exact .failed w _ (by simp)
  case h_5 body hr =>
    simp only at hf
    split at hf
    · cases hf; exact .failed w _ (by simp)
    next hv => cases hf; exact .fetched w body hr hv
  case h_6 ok body newState hr =>
    cases hf
    cases ok with
    | false => exact .failed w _ (by simp)
    | true => exact .written w body newState hr
  case h_7 => cases hf; exact .failed w _ (by simp)
  case h_8 mtime body newState hr => cases hf; exact .renamed w body newState mtime hr
  case h_9 mtime newState hr => cases hf; exact .refreshed w newState mtime hr
  case h_10 hh => cases hf; exact .loaded w hh
  case h_11 newState hh =>
    cases hf
    by_cases hd : w.shared.status ≠ newState.status
    · rw [if_pos hd]; exact .differs w newState hh hd
    · rw [if_neg hd]; exact .same w newState hh
  case h_12 newState hh => cases hf; exact .reloaded w newState hh
  case h_13 => cases hf

/-! ## What the tasks hold -/

/-- The state that `refresh_crl` carries passed the check of a fetched body. -/
def Fetched (pki : Pki) (caCertDer : Bytes) (newState : CrlState) : Prop :=
  ∃ now body, newState = loadCrlFromBytes pki now body none caCertDer ∧ newState.status ≠ .invalid

def RefreshPhase.newState : RefreshPhase → Option CrlState
  | .idle | .fetching => none
  | .writing _ newState | .renaming _ newState | .storing newState => some newState

def RefreshOk (pki : Pki) (caCertDer : Bytes) (w : CrlWorld) : Prop :=
  ∀ newState, w.refresh.newState = some newState → Fetched pki caCertDer newState

theorem startup_refreshOk {w : CrlWorld} (hw : w.Startup pki caCertDer) : RefreshOk pki caCertDer w := by
  intro newState h
  rw [hw.refresh] at h
  cases h

theorem refreshOk_step {f : Fired CrlWorld CrlAct} (hf : IsStep (crlAgent pki caCertDer) f)
    (h : RefreshOk pki caCertDer f.pre) : RefreshOk pki caCertDer f.post := by
  obtain ⟨w, a, w'⟩ := f
  have hs : CrlStep pki caCertDer w a w' := crlStep_of_step hf
  replace h : RefreshOk pki caCertDer w := h
  show RefreshOk pki caCertDer w'
  intro newState hn
  cases hs with
  | disk | clock | loaded | same | differs | reloaded => exact h newState hn
  | fetch | failed | refreshed => cases hn
  | fetched body hr hv =>
    cases hn
    exact ⟨w.clock, body, rfl, hv⟩
  | written body st hr | renamed body st _ hr =>
    cases hn
    exact h newState (by rw [hr]; rfl)

/-- The step is not one of the health task. -/
def OutsideHealth (f : Fired CrlWorld CrlAct) : Prop := f.act ≠ .load ∧ f.act ≠ .compare ∧ f.act ≠ .storeReloaded

/-- The health task's last step in the trace read the file, and got the state. -/
def Reloaded (pki : Pki) (caCertDer : Bytes) (newState : CrlState) : List (Fired CrlWorld CrlAct) → Prop :=
  Since False (fun g => g.act = .load ∧ newState = loadCrl pki g.pre.clock g.pre.file caCertDer) OutsideHealth

/-- The health task's last two steps in the trace read the file, and saw that what it holds differs in
status from what is in memory. -/
def Compared (pki : Pki) (caCertDer : Bytes) (newState : CrlState) (tr : List (Fired CrlWorld CrlAct)) : Prop :=
  ∃ before c after, tr = before ++ c :: after ∧ c.act = .compare ∧ c.pre.shared.status ≠ newState.status ∧
    Reloaded pki caCertDer newState before ∧ ∀ f ∈ after, OutsideHealth f

theorem Reloaded.outside {newState : CrlState} {tr : List (Fired CrlWorld CrlAct)} {f : Fired CrlWorld CrlAct}
    (h : Reloaded pki caCertDer newState tr) (hf : OutsideHealth f) : Reloaded pki caCertDer newState (tr ++ [f]) :=
  since_snoc.2 (.inr ⟨hf, h⟩)

theorem Compared.outside {newState : CrlState} {tr : List (Fired CrlWorld CrlAct)} {f : Fired CrlWorld CrlAct}
    (h : Compared pki caCertDer newState tr) (hf : OutsideHealth f) : Compared pki caCertDer newState (tr ++ [f]) := by
  obtain ⟨before, c, after, rfl, hact, hd, hl, hafter⟩ := h
  refine ⟨before, c, after ++ [f], by simp, hact, hd, hl, ?_⟩
  simpa [or_imp, forall_and] using ⟨hafter, hf⟩

/-- What the health task carries comes from the disk, and from a comparison before it is stored. -/
def HealthOk (pki : Pki) (caCertDer : Bytes) (tr : List (Fired CrlWorld CrlAct)) : HealthPhase → Prop
  | .sleeping => True
  | .comparing newState => Reloaded pki caCertDer newState tr
  | .storing newState => Compared pki caCertDer newState tr

theorem HealthOk.outside {tr : List (Fired CrlWorld CrlAct)} {f : Fired CrlWorld CrlAct} (hf : OutsideHealth f) :
    ∀ {p : HealthPhase}, HealthOk pki caCertDer tr p → HealthOk pki caCertDer (tr ++ [f]) p
  | .sleeping, _ => trivial
  | .comparing _, h => Reloaded.outside h hf
  | .storing _, h => Compared.outside h hf

theorem health_ok {w w' : CrlWorld} {tr : List (Fired CrlWorld CrlAct)} (hw : w.Startup pki caCertDer)
    (hr : Run (crlAgent pki caCertDer) w tr w') : HealthOk pki caCertDer tr w'.health := by
  induction hr with
  | nil => rw [hw.health]; trivial
  | @snoc tr v v' a _ hs ih =>
    have hstep : CrlStep pki caCertDer v a v' := crlStep_of_step (f := ⟨v, a, v'⟩) hs
    cases hstep with
    | disk | clock | fetch | fetched | written | renamed | refreshed => exact ih.outside (by simp [OutsideHealth])
    | failed _ ha => exact ih.outside (f := ⟨v, a, _⟩) ha
    | same | reloaded => trivial
    | loaded hh => exact since_snoc.2 (.inl ⟨rfl, rfl⟩)
    | differs newState hh hd =>
      rw [hh] at ih
      exact ⟨tr, _, [], rfl, rfl, hd, ih, by simp⟩

/-! ## Revocation -/

/-- A verified CRL without the serial is in the bytes, and its serials are the state's. -/
def Omits (pki : Pki) (caCertDer bytes : Bytes) (serial : Nat) (s : CrlState) : Prop :=
  ∃ crl, Verified pki bytes caCertDer crl ∧ serial ∉ crl.revoked ∧
    s.revokedSerials = crl.revoked.map formatSerialHex

/-- The step is the swap of `refresh_crl`, to a verified CRL without the serial. -/
def DroppedByRefresh (pki : Pki) (caCertDer : Bytes) (serial : Nat) (f : Fired CrlWorld CrlAct) : Prop :=
  (∃ mtime, f.act = .storeRefreshed mtime) ∧ ∃ body, Omits pki caCertDer body serial f.post.shared

/-- The step is the swap of the health task: of its two steps before the swap the first read a file that
was missing, that could not be read, or that held a verified CRL without the serial, and the second saw
another status in memory. -/
def DroppedByHealth (pki : Pki) (caCertDer : Bytes) (serial : Nat) (before : List (Fired CrlWorld CrlAct))
    (f : Fired CrlWorld CrlAct) : Prop :=
  f.act = .storeReloaded ∧ ∃ start g between c after, before = start ++ g :: (between ++ c :: after) ∧
    (∀ e ∈ between ++ after, OutsideHealth e) ∧
    g.act = .load ∧ f.post.shared = loadCrl pki g.pre.clock g.pre.file caCertDer ∧
    (g.pre.file = .notFound ∨ g.pre.file = .unreadable ∨
      ∃ bytes mtime, g.pre.file = .content bytes mtime ∧ Omits pki caCertDer bytes serial f.post.shared) ∧
    c.act = .compare ∧ c.pre.shared.status ≠ f.post.shared.status

/-- Bytes that load as a state without the serial, and not as Invalid, hold a verified CRL without it. -/
theorem omits_of_not_rejects {now : Int} {bytes : Bytes} {mtime : Option Int} {serial : Nat}
    (h : ¬ (loadCrlFromBytes pki now bytes mtime caCertDer).Rejects serial) :
    Omits pki caCertDer bytes serial (loadCrlFromBytes pki now bytes mtime caCertDer) := by
  rcases loadCrlFromBytes_spec pki now bytes mtime caCertDer with hi | ⟨crl, hv, hst, hser⟩
  · exact absurd (.inl hi) h
  · refine ⟨crl, hv, fun hm => h (.inr ⟨hst, ?_⟩), hser⟩
    rw [hser]
    exact List.mem_map_of_mem hm

/-- A step at which a rejected serial stops being rejected is one of the two swaps. -/
theorem rejects_step {f : Fired CrlWorld CrlAct} (hf : IsStep (crlAgent pki caCertDer) f) {serial : Nat}
    {tr : List (Fired CrlWorld CrlAct)} (hr : RefreshOk pki caCertDer f.pre)
    (hh : HealthOk pki caCertDer tr f.pre.health) (h : f.pre.shared.Rejects serial) :
    f.post.shared.Rejects serial ∨ DroppedByRefresh pki caCertDer serial f ∨
      DroppedByHealth pki caCertDer serial tr f := by
  by_cases hpost : f.post.shared.Rejects serial
  · exact .inl hpost
  obtain ⟨w, a, w'⟩ := f
  have hs : CrlStep pki caCertDer w a w' := crlStep_of_step hf
  refine .inr ?_
  cases hs with
  | disk | clock | fetch | failed | fetched | written | renamed | loaded | same | differs =>
    exact absurd h hpost
  | refreshed newState mtime hp =>
    obtain ⟨now, body, rfl, _⟩ := hr newState (by simp only at hp ⊢; rw [hp]; rfl)
    -- the modification time is not what the verifier looks at
    have hom : Omits pki caCertDer body serial (loadCrlFromBytes pki now body none caCertDer) :=
      omits_of_not_rejects hpost
    exact .inl ⟨⟨mtime, rfl⟩, body, hom⟩
  | reloaded newState hp =>
    simp only at hh
    rw [hp] at hh
    obtain ⟨_, c, after, rfl, hc, hd, hl, hafter⟩ := hh
    obtain ⟨hf, _⟩ | ⟨start, g, between, rfl, ⟨hg, rfl⟩, hbetween⟩ := hl
    · exact hf.elim
    refine .inr ⟨rfl, start, g, between, c, after, by simp, ?_, hg, rfl, ?_, hc, hd⟩
    · intro e he
      rcases List.mem_append.1 he with he | he
      exacts [hbetween e he, hafter e he]
    cases hfile : g.pre.file with
    | notFound => exact .inl rfl
    | unreadable => exact .inr (.inl rfl)
    | content bytes mtime =>
      simp only [hfile, loadCrl] at hpost ⊢
      exact .inr (.inr ⟨bytes, mtime, rfl, omits_of_not_rejects hpost⟩)

theorem rejects_run {w v w' : CrlWorld} {pre post : List (Fired CrlWorld CrlAct)}
    (hw : w.Startup pki caCertDer) (hpre : Run (crlAgent pki caCertDer) w pre v)
    (hpost : Run (crlAgent pki caCertDer) v post w') {serial : Nat} (h : v.shared.Rejects serial) :
    w'.shared.Rejects serial ∨ ∃ before f after, post = before ++ f :: after ∧
      (DroppedByRefresh pki caCertDer serial f ∨ DroppedByHealth pki caCertDer serial (pre ++ before) f) := by
  induction hpost with
  | nil => exact .inl h
  | @snoc post t t' a hr hs ih =>
    have hall : Run (crlAgent pki caCertDer) w (pre ++ post) t := hpre.append hr
    rcases ih with ht | ⟨before, f, after, rfl, hd⟩
    · have hrok : RefreshOk pki caCertDer t :=
        hall.always (fun f hf => refreshOk_step hf) (startup_refreshOk hw)
      rcases rejects_step (f := ⟨t, a, t'⟩) hs hrok (health_ok hw hall) ht with h' | hd
      · exact .inl h'
      · exact .inr ⟨post, _, [], rfl, hd⟩
    · exact .inr ⟨before, f, after ++ [⟨t, a, t'⟩], by simp, hd⟩

/-- After a state in which a serial is listed, every certificate with the serial is rejected at every
later handshake, unless in between `refresh_crl` swapped in a verified CRL without the serial, or the
health task swapped in what it had read just before from a missing or unreadable file or from one that
held a verified CRL without the serial. -/
theorem revocation_kept {w v w' : CrlWorld} {pre post : List (Fired CrlWorld CrlAct)}
    (hw : w.Startup pki caCertDer) (hpre : Run (crlAgent pki caCertDer) w pre v)
    (hpost : Run (crlAgent pki caCertDer) v post w') {serial : Nat} (hl : v.shared.Lists serial) :
    (∀ inner cert c, pki.parseX509Certificate cert = some c → c.serial = serial →
      ∃ e, verifyClientCert pki inner w'.shared cert = .error e) ∨
    ∃ before f after, post = before ++ f :: after ∧
      (DroppedByRefresh pki caCertDer serial f ∨ DroppedByHealth pki caCertDer serial (pre ++ before) f) := by
  rcases rejects_run hw hpre hpost (.inr hl) with h | h
  · exact .inl fun inner cert c hc hs => rejects_spec h inner hc hs
  · exact .inr h

/-! ## A revocation that is forgotten -/

/-- Parsers of a small format: a certificate is a byte, a CRL the byte 0x30 and one byte for each
serial, and only the CA with the byte 0xCA signs. -/
def bytePki : Pki where
  base64Decode := fun _ => none
  crlFromDer := fun der => match der with
    | 0x30 :: serials => some ⟨serials, serials.map UInt8.toNat, none⟩
    | _ => none
  parseX509Certificate := fun der => match der with
    | [b] => some ⟨b.toNat, [b]⟩
    | _ => none
  verifySignature := fun _ publicKey => publicKey == [0xCA]

def bareAgent : CrlWorld := ⟨.default 0, .notFound, 0, .idle, .sleeping⟩

theorem bareAgent_startup : bareAgent.Startup bytePki [0xCA] := ⟨by decide, rfl, rfl⟩

/-- A CRL that revokes serial 7 is fetched, verified, written and swapped in. -/
def revokeSeven : List CrlAct :=
  [.fetch, .fetched (some [0x30, 0x07]), .writeTmp true, .rename true (some 1), .storeRefreshed (some 1)]

/-- The file is deleted, and the health task runs once. -/
def deletedFile : List CrlAct := [.disk .notFound, .load, .compare, .storeReloaded]

def revokedAgent : CrlWorld :=
  endState bareAgent ((trace (crlAgent bytePki [0xCA]) bareAgent revokeSeven).getD [])

/-- The serial is accepted again although `refresh_crl` made no swap. -/
theorem revocation_forgotten : ∃ (w v w' : CrlWorld) (pre post : List (Fired CrlWorld CrlAct)),
    w.Startup bytePki [0xCA] ∧ Run (crlAgent bytePki [0xCA]) w pre v ∧
    Run (crlAgent bytePki [0xCA]) v post w' ∧ v.shared.Lists 7 ∧
    bytePki.parseX509Certificate [7] = some ⟨7, [7]⟩ ∧
    verifyClientCert bytePki (fun _ => .ok ()) w'.shared [7] = .ok () ∧
    ∀ f ∈ post, ¬ DroppedByRefresh bytePki [0xCA] 7 f := by
  refine ⟨bareAgent, revokedAgent, _, _, _, bareAgent_startup,
    run_trace _ bareAgent revokeSeven (by decide), run_trace _ revokedAgent deletedFile (by decide),
    ⟨by decide, by decide⟩, rfl, by decide, ?_⟩
  rintro f hf ⟨⟨mtime, hact⟩, _⟩
  have hacts : ((trace (crlAgent bytePki [0xCA]) revokedAgent deletedFile).getD []).map Fired.act = deletedFile := rfl
  have hmem := List.mem_map_of_mem (f := Fired.act) hf
  rw [hacts, hact] at hmem
  simp [deletedFile] at hmem

/-- After the revocation the file is replaced with bytes that do not verify: the health task makes the
agent refuse every client. -/
def garbledFile : List CrlAct := [.disk (.content [0x00] none), .load, .compare, .storeReloaded]

theorem revocation_kept_garbled :
    (∀ inner cert c, bytePki.parseX509Certificate cert = some c → c.serial = 7 → ∃ e, verifyClientCert bytePki inner
      (endState revokedAgent ((trace (crlAgent bytePki [0xCA]) revokedAgent garbledFile).getD [])).shared cert =
        .error e) ∨
    ∃ before f after, (trace (crlAgent bytePki [0xCA]) revokedAgent garbledFile).getD [] = before ++ f :: after ∧
      (DroppedByRefresh bytePki [0xCA] 7 f ∨ DroppedByHealth bytePki [0xCA] 7
        ((trace (crlAgent bytePki [0xCA]) bareAgent revokeSeven).getD [] ++ before) f) :=
  revocation_kept bareAgent_startup (run_trace _ bareAgent revokeSeven (by decide))
    (run_trace _ revokedAgent garbledFile (by decide)) ⟨by decide, by decide⟩

end LinuxPatchApi.Auth
