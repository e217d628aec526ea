/-
The critical files of an agent: PEM files, the whitelist, and the configuration with its polling token. A call that is
stopped by an error or a crash at any of its operations leaves the file as it was or as it should be, and can be
repeated, exactly when it leaves no temporary file; the configuration, which is written in place, can be torn.
-/
import LinuxPatchApi.Enroll.DeadTokens
import LinuxPatchApi.Enroll.ManagerWhitelist

namespace LinuxPatchApi.Enroll

open LinuxPatchApi.Packages LinuxPatchApi.Auth Disk FileM

/-- A call that stops where the surroundings `env` say, at an operation that fails or in which the agent crashes, has
left its file as it was or as it should be; and any of the calls `again` succeeds afterwards, if nothing fails. -/
structure Survives {α β : Type} (env : HostSurroundings) (s : HostFiles) (call : FileM α) (again : FileM β → Prop)
    (path : String) (new : Content → Prop) : Prop where
  intact : (call.run env s).2 path = s path ∨ ∃ c, new c ∧ (call.run env s).2 path = some c
  repeatable : ∀ next, again next → ∀ env', NothingFails env' → ∃ a t, next.run env' (call.run env s).2 = (.ok a, t)

section Survives

variable {α β : Type} {env : HostSurroundings} {s : HostFiles} {prepare : FileM String} {temp path : String}
  {mode : Nat} {texts : RewriteTexts} {rest : FileM α} {again : FileM β → Prop} {new : Content → Prop}

/-- A rewrite survives exactly when it is not cut: if it is repeated by calls that work on the file as it was and as it
should be when there is no temporary file, and one of which needs that there is none. -/
theorem survives_rewrite_iff (haside : Aside prepare temp path rest)
    (hnew : ∀ text u, prepare.run env s = (.ok text, u) → new (.text text))
    (hworks : ∀ t : HostFiles, t temp = none → (t path = s path ∨ ∃ c, new c ∧ t path = some c) →
      ∀ next, again next → ∀ env', NothingFails env' → ∃ a t', next.run env' t = (.ok a, t'))
    (hneeds : ∃ next, again next ∧ ∀ env' t a t', next.run env' t = (.ok a, t') → t temp = none) :
    Survives env s (rewrite prepare temp path mode texts rest) again path new ↔
      Uncut env s prepare temp path mode := by
  rcases hrun : (rewrite prepare temp path mode texts rest).run env s with ⟨r, t⟩
  obtain ⟨htemp, hpath⟩ := rewrite_left haside hrun
  rw [← htemp]
  constructor
  · intro h
    obtain ⟨next, hagain, hneeds⟩ := hneeds
    obtain ⟨a, t', hnext⟩ := h.repeatable next hagain .sound fun _ => rfl
    rw [hrun] at hnext
    exact hneeds _ _ a t' hnext
  · intro hnone
    have hintact : t path = s path ∨ ∃ c, new c ∧ t path = some c := by
      refine (hpath hnone).imp_right ?_
      rintro ⟨text, u, hprepare, ht⟩
      exact ⟨_, hnew text u hprepare, ht⟩
    constructor
    · rw [hrun]
      exact hintact
    · rw [hrun]
      exact hworks t hnone hintact

end Survives

/-! ## PEM files -/

section Pem

variable {env : HostSurroundings} {s t : HostFiles} {path pemData text : String} {isKey : Bool}

/-- What comes before the temporary file. -/
def preparePem (path pemData : String) : FileM String := do
  ensureDirectory path
  backupExisting path
  return pemData

def pemTexts (path : String) : RewriteTexts where
  create := "Failed to create temp file: " ++ tempPath path
  write := "Failed to write PEM data to: " ++ tempPath path
  flush := "Failed to flush PEM data to: " ++ tempPath path
  rename := "Failed to atomically rename " ++ tempPath path ++ " to " ++ path

theorem writePemFile_eq : writePemFile path pemData isKey =
    rewrite (preparePem path pemData) (tempPath path) path (pemMode isKey) (pemTexts path) (pure ()) := by
  unfold writePemFile rewrite preparePem writeTemp replaceNew
  simp only [bind_assoc, pure_bind]
  refine congrArg _ (funext fun _ => congrArg _ (funext fun _ => congrArg _ (funext fun _ => congrArg _ (funext fun _ =>
    congrArg _ (funext fun _ => ?_)))))
  exact (bind_pure _).symm

theorem preparePem_ok : (preparePem path pemData).run env s = (.ok text, t) ↔ DirectoryReady env path ∧
    (s path ≠ none → env.outcome (.copy path (backupPath path)) = .done) ∧ text = pemData ∧ t = backedUp s path := by
  unfold preparePem
  rw [Action.bind_ok]
  constructor
  · rintro ⟨_, u, hdir, h⟩
    obtain ⟨hready, rfl⟩ := ensureDirectory_ok.1 hdir
    obtain ⟨_, v, hbackup, h⟩ := Action.bind_ok.1 h
    obtain ⟨hcopied, rfl⟩ := backupExisting_ok.1 hbackup
    cases h
    exact ⟨hready, hcopied, rfl, rfl⟩
  · rintro ⟨hready, hcopied, rfl, rfl⟩
    exact ⟨(), _, ensureDirectory_ok.2 ⟨hready, rfl⟩, Action.bind_ok.2 ⟨(), _, backupExisting_ok.2 ⟨hcopied, rfl⟩, rfl⟩⟩

theorem backupPath_ne : path ≠ backupPath path := fun h => by
  have hlength := congrArg (fun p => p.toList.length) h
  simp [backupPath] at hlength

theorem aside_pem : Aside (preparePem path pemData) (tempPath path) path (pure ()) where
  prepare := by
    refine confined_ensureDirectory.bind fun _ => (confined_backupExisting.mono fun p hp => ?_).bind fun _ =>
      Action.confined_pure _
    rw [hp]
    exact ⟨(backupPath_ne_tempPath path).symm, backupPath_ne.symm⟩
  rest := Action.confined_pure _

/-- The call finds no temporary file, and if it creates one then it gets to the end. -/
def PemUncut (env : HostSurroundings) (s : HostFiles) (path pemData : String) (isKey : Bool) : Prop :=
  s (tempPath path) = none ∧ (DirectoryReady env path →
    (s path ≠ none → env.outcome (.copy path (backupPath path)) = .done) →
    env.outcome (.createNew (tempPath path) (pemMode isKey) (.text "")) = .done →
      Finishes env (tempPath path) path pemData ∧ path ≠ tempPath path)

theorem pemUncut_iff : Uncut env s (preparePem path pemData) (tempPath path) path (pemMode isKey) ↔
    PemUncut env s path pemData isKey := by
  refine and_congr_right fun _ => ?_
  constructor
  · intro h hready hcopied hcreated
    exact h pemData _ (preparePem_ok.2 ⟨hready, hcopied, rfl, rfl⟩) hcreated
  · intro h text u hprepare hcreated
    obtain ⟨hready, hcopied, rfl, _⟩ := preparePem_ok.1 hprepare
    exact h hready hcopied hcreated

/-- A PEM file survives a call exactly when no temporary file is there before it or left by it. -/
theorem pem_survives_iff : Survives env s (writePemFile path pemData isKey) (· = writePemFile path pemData isKey) path
    (· = .text pemData) ↔ PemUncut env s path pemData isKey := by
  rw [← pemUncut_iff, writePemFile_eq]
  refine survives_rewrite_iff aside_pem (fun text u h => ?_) (fun t hfresh _ next hnext env' hnothing => ?_) ?_
  · rw [(preparePem_ok.1 h).2.2.1]
  · rw [hnext, ← writePemFile_eq]
    exact ⟨(), _, writePemFile_ok.2 ⟨⟨fun _ _ _ => ⟨hnothing _, hnothing _, hnothing _⟩, fun _ => hnothing _,
      ⟨hfresh, hnothing _, hnothing _, hnothing _⟩, hnothing _⟩, rfl⟩⟩
  · refine ⟨_, rfl, fun env' t a t' h => ?_⟩
    rw [← writePemFile_eq] at h
    exact (writePemFile_ok.1 h).1.temp.fresh

end Pem

/-! ## The whitelist -/

section Append

open WhitelistManager

variable {y : WhitelistYaml} {lookup : Lookup} {m : WhitelistManager} {locked : Except String Unit}
  {env : HostSurroundings} {s t : HostFiles} {path ip : String} {entry : WhitelistEntry}

/-- The same call with any entries in memory and any answers of the name service; the lock is granted. -/
def appendAgain (y : WhitelistYaml) (path ip : String) (next : FileM Appended) : Prop :=
  ∃ lookup entries, next = appendEntry y lookup ⟨entries, path⟩ (.ok ()) ip

/-- The lines of the file and the new one. -/
def Appends (y : WhitelistYaml) (s : HostFiles) (path entryStr : String) (c : Content) : Prop :=
  ∃ text, y.serialize (fileLines y s path ++ [entryStr]) = .ok text ∧ c = .text text

/-- The lines of the file can be written with the new one, also twice. -/
structure Serializes (y : WhitelistYaml) (lines : List String) (entryStr : String) : Prop where
  once : ∃ text, y.serialize (lines ++ [entryStr]) = .ok text
  twice : ∃ text, y.serialize (lines ++ [entryStr] ++ [entryStr]) = .ok text

/-- The call finds no temporary file, and if it creates one then it gets to the rename. -/
def AppendUncut (y : WhitelistYaml) (m : WhitelistManager) (locked : Except String Unit) (env : HostSurroundings)
    (s : HostFiles) (entryStr : String) (entry : WhitelistEntry) : Prop :=
  s (whitelistTemp m.configPath) = none ∧ (entry ∉ m.entries → Prepared env m.configPath locked →
    env.outcome (.createNew (whitelistTemp m.configPath) 0o666 (.text "")) = .done →
    ∀ text, y.serialize (fileLines y s m.configPath ++ [entryStr]) = .ok text →
      Finishes env (whitelistTemp m.configPath) m.configPath text ∧ m.configPath ≠ whitelistTemp m.configPath)

/-- A call without errors works on a file that is missing or well-formed, if there is no temporary file. -/
theorem append_works {text : String} (hround : y.RoundTrip) (hvalid : parseAppended (Text.trim ip) = .ok entry)
    (htext : y.serialize (fileLines y t path ++ [Text.trim ip]) = .ok text) (hfresh : t (whitelistTemp path) = none)
    (hfile : t path = none ∨ WellFormed y t path) {next : FileM Appended} (hnext : appendAgain y path ip next)
    (hnothing : NothingFails env) : ∃ a t', next.run env t = (.ok a, t') := by
  obtain ⟨lookup, entries, rfl⟩ := hnext
  rw [appendEntry_eq hvalid]
  split
  · exact ⟨.duplicate, t, rfl⟩
  · have hprepared : Prepared env path (.ok ()) := ⟨hnothing _, rfl, fun _ _ _ => hnothing _⟩
    obtain ⟨a, ha⟩ := (rewriteAppend_ok lookup hround (trim_appendable hvalid) hfile).2
      ⟨⟨hprepared, hfresh, hnothing _, text, htext, hnothing.finishes _ _ _⟩, text, htext, rfl⟩
    exact ⟨a, _, ha⟩

/-- A call with nothing in memory works only then. -/
theorem append_needs (hround : y.RoundTrip)
    (h : ∀ next, appendAgain y path ip next → ∀ env, NothingFails env → ∃ a t', next.run env t = (.ok a, t')) :
    t (whitelistTemp path) = none ∧ (t path = none ∨ WellFormed y t path) := by
  obtain ⟨a, t', hnext⟩ := h _ ⟨fun _ => .error "", ∅, rfl⟩ .sound fun _ => rfl
  obtain ⟨entry, hvalid⟩ := appendEntry_valid hnext
  rw [appendEntry_eq hvalid, if_neg (Finset.notMem_empty entry)] at hnext
  exact rewriteAppend_needs hround hnext

theorem appended_lines {c : Content} (hround : y.RoundTrip) (hc : Appends y s path (Text.trim ip) c)
    (ht : t path = some c) : loadConfig y t path = .ok (fileLines y s path ++ [Text.trim ip]) := by
  obtain ⟨text, htext, rfl⟩ := hc
  simp only [loadConfig, readString, ht, hround _ text htext]

/-- A call without errors works after one that has left the file as it was or as it should be, and no temporary file. -/
theorem append_repeats (hround : y.RoundTrip) (hvalid : parseAppended (Text.trim ip) = .ok entry)
    (hyaml : Serializes y (fileLines y s path) (Text.trim ip)) (hfile : s path = none ∨ WellFormed y s path)
    (hfresh : t (whitelistTemp path) = none)
    (ht : t path = s path ∨ ∃ c, Appends y s path (Text.trim ip) c ∧ t path = some c) {next : FileM Appended}
    (hnext : appendAgain y path ip next) (hnothing : NothingFails env) : ∃ a t', next.run env t = (.ok a, t') := by
  rcases ht with hsame | ⟨_, ⟨text, htext, rfl⟩, ht⟩
  · obtain ⟨text, htext⟩ := hyaml.once
    rw [← fileLines_congr hsame] at htext
    exact append_works hround hvalid htext hfresh
      (hfile.imp (fun hnone => hsame.trans hnone) fun hwell => hwell.congr hsame.symm) hnext hnothing
  · obtain ⟨hwell, hlines⟩ := wellFormed_of_text hround htext ht (appended_wellFormed (trim_appendable hvalid) hfile)
    obtain ⟨text', htwice⟩ := hyaml.twice
    rw [← hlines] at htwice
    exact append_works hround hvalid htwice hfresh (.inr hwell) hnext hnothing

/-- On a file that is missing or well-formed the whitelist survives exactly when no temporary file is there before the
call or left by it. -/
theorem append_survives_of (hround : y.RoundTrip) (hvalid : parseAppended (Text.trim ip) = .ok entry)
    (hyaml : Serializes y (fileLines y s m.configPath) (Text.trim ip))
    (hfile : s m.configPath = none ∨ WellFormed y s m.configPath) :
    Survives env s (m.appendEntry y lookup locked ip) (appendAgain y m.configPath ip) m.configPath
      (Appends y s m.configPath (Text.trim ip)) ↔ AppendUncut y m locked env s (Text.trim ip) entry := by
  have hneeds : ∃ next, appendAgain y m.configPath ip next ∧ ∀ env' t a t', next.run env' t = (.ok a, t') →
      t (whitelistTemp m.configPath) = none := by
    refine ⟨_, ⟨lookup, ∅, rfl⟩, fun env' t a t' h => ?_⟩
    rw [appendEntry_eq hvalid, if_neg (Finset.notMem_empty entry)] at h
    exact (rewriteAppend_needs hround h).1
  unfold AppendUncut
  rw [appendEntry_eq hvalid]
  by_cases hmem : entry ∈ m.entries
  · -- the call does nothing, and the next ones meet the files as they were
    rw [if_pos hmem]
    constructor
    · intro h
      exact ⟨(append_needs hround h.repeatable).1, fun hnot => absurd hmem hnot⟩
    · rintro ⟨hfresh, _⟩
      exact ⟨.inl rfl, fun next hnext env' => append_repeats hround hvalid hyaml hfile hfresh (.inl rfl) hnext⟩
  · rw [if_neg hmem, rewriteAppend, survives_rewrite_iff aside_append ?_
      (fun t hfresh ht next hnext env' => append_repeats hround hvalid hyaml hfile hfresh ht hnext) hneeds]
    · refine and_congr_right fun _ => ?_
      constructor
      · intro h _ hprepared hcreated text htext
        exact h text _ ((prepareAppend_ok hfile).2 ⟨hprepared, htext, rfl⟩) hcreated
      · intro h text u hprepare hcreated
        obtain ⟨hprepared, htext, _⟩ := (prepareAppend_ok hfile).1 hprepare
        exact h hmem hprepared hcreated text htext
    · intro text u hprepare
      exact ⟨text, (prepareAppend_text hprepare).2, rfl⟩

/-- The call survives only with a valid entry and on a file that is missing or well-formed. -/
theorem append_survives_only (hround : y.RoundTrip)
    (h : Survives env s (m.appendEntry y lookup locked ip) (appendAgain y m.configPath ip) m.configPath
      (Appends y s m.configPath (Text.trim ip))) :
    ∃ entry, parseAppended (Text.trim ip) = .ok entry ∧ (s m.configPath = none ∨ WellFormed y s m.configPath) := by
  obtain ⟨a, t', hnext⟩ := h.repeatable _ ⟨fun _ => .error "", ∅, rfl⟩ .sound fun _ => rfl
  obtain ⟨entry, hvalid⟩ := appendEntry_valid hnext
  refine ⟨entry, hvalid, ?_⟩
  obtain ⟨hfresh, hleft⟩ := append_needs hround h.repeatable
  rcases hrun : (m.appendEntry y lookup locked ip).run env s with ⟨r, t⟩
  rw [hrun] at hfresh hleft
  dsimp only at hfresh hleft
  rw [appendEntry_eq hvalid] at hrun
  split at hrun
  · cases hrun
    exact hleft
  rcases (rewrite_left aside_append hrun).2 hfresh with hsame | ⟨text, u, hprepare, ht⟩
  · exact hleft.imp (fun hnone => hsame.symm.trans hnone) fun hwell => hwell.congr hsame
  · obtain ⟨hfile, htext⟩ := prepareAppend_text hprepare
    refine hfile.imp_right fun hconfig => ⟨_, hconfig, fun line hline => ?_⟩
    have hwell : WellFormed y t m.configPath := hleft.resolve_left fun hnone => by
      rw [ht] at hnone
      cases hnone
    obtain ⟨lines, hloaded, hlines⟩ := hwell
    rw [appended_lines hround ⟨text, htext, rfl⟩ ht] at hloaded
    cases hloaded
    exact hlines line (List.mem_append_left _ hline)

end Append

/-! ## The configuration -/

section Config

variable {env : HostSurroundings} {s t : HostFiles} {y : Yaml} {c : AppConfig} {path purpose text : String}

/-- The write stops after it has changed the file and before it is complete. -/
def Torn (env : HostSurroundings) (s : HostFiles) (path : String) (c : Content) : Prop :=
  ∃ e residue, env.outcome (.write path c) = .failed e (some residue) ∧ s path ≠ some residue ∧ residue ≠ c

/-- The configuration as text. -/
def Serialized (y : Yaml) (c : AppConfig) (x : Content) : Prop := ∃ text, y.serialize c = .ok text ∧ x = .text text

/-- What a write in place leaves. -/
def leftByWrite (s : HostFiles) (path : String) (c : Content) : Outcome Content → HostFiles
  | .done => Function.update s path (some c)
  | .failed _ (some residue) => Function.update s path (some residue)
  | .failed _ none => s

theorem write_eq (htext : y.serialize c = .ok text) :
    c.write y path purpose = (io (.write path (.text text))).context ("Failed to write config file: " ++ path) := by
  rw [AppConfig.write, htext]

theorem write_left (htext : y.serialize c = .ok text) : ((c.write y path purpose).run env s).2 =
    leftByWrite s path (.text text) (env.outcome (.write path (.text text))) := by
  rw [write_eq htext, context, Action.mapError_snd, io, Action.mapError_snd, Action.run_perform]
  cases env.outcome (.write path (.text text)) with
  | done => rfl
  | failed e residue => cases residue <;> rfl

/-- The file is as before or as written, unless the write is torn. -/
theorem leftByWrite_intact (x : Content) : leftByWrite s path x (env.outcome (.write path x)) path = s path ∨
    leftByWrite s path x (env.outcome (.write path x)) path = some x ↔ ¬ Torn env s path x := by
  unfold Torn
  cases houtcome : env.outcome (.write path x) with
  | done => simp [leftByWrite]
  | failed e residue =>
    cases residue with
    | none => simp [leftByWrite]
    | some residue =>
      simp only [leftByWrite, Function.update_self, Outcome.failed.injEq, Option.some.injEq]
      constructor
      · rintro (hold | hnew) ⟨_, _, ⟨_, rfl⟩, hother, hdiffers⟩
        · exact hother hold.symm
        · exact hdiffers hnew
      · intro hwhole
        by_contra hneither
        rw [not_or] at hneither
        exact hwhole ⟨e, residue, ⟨rfl, rfl⟩, fun hold => hneither.1 hold.symm, hneither.2⟩

/-- The configuration survives a write exactly when it is not torn by it. -/
theorem config_survives_iff : Survives env s (c.write y path purpose) (· = c.write y path purpose) path
    (Serialized y c) ↔ ∃ text, y.serialize c = .ok text ∧ ¬ Torn env s path (.text text) := by
  cases htext : y.serialize c with
  | error e =>
    refine iff_of_false (fun h => ?_) fun ⟨_, h, _⟩ => by cases h
    obtain ⟨a, t, hnext⟩ := h.repeatable _ rfl .sound fun _ => rfl
    rw [AppConfig.write, htext] at hnext
    cases hnext
  | ok text =>
    have hserialized : ∀ x, Serialized y c x ↔ x = .text text := by
      intro x
      unfold Serialized
      rw [htext]
      constructor
      · rintro ⟨_, htext', rfl⟩
        rw [Except.ok.inj htext']
      · intro hx
        exact ⟨text, rfl, hx⟩
    have hintact : _ ↔ ¬ Torn env s path (.text text) := leftByWrite_intact (.text text)
    constructor
    · rintro ⟨hleft, _⟩
      rw [write_left htext] at hleft
      refine ⟨text, rfl, hintact.1 (hleft.imp_right ?_)⟩
      rintro ⟨x, hx, hfile⟩
      rw [hfile, (hserialized x).1 hx]
    · rintro ⟨_, htext', hwhole⟩
      cases htext'
      constructor
      · rw [write_left htext]
        exact (hintact.2 hwhole).imp_right fun hfile => ⟨_, (hserialized _).2 rfl, hfile⟩
      · intro next hnext env' hnothing
        rw [hnext, write_eq htext]
        exact ⟨(), _, context_ok.2 (io_ok.2 ⟨⟨rfl, hnothing _⟩, rfl⟩)⟩

end Config

/-! ## All of them -/

/-- A PEM file and the whitelist survive a call exactly when it meets no temporary file and leaves none (and the append
is a valid one); the configuration, which is written in place, exactly when the write is not torn. -/
theorem critical_files_survive_iff {w : WhitelistYaml} (hround : w.RoundTrip) (m : WhitelistManager) (ip : String)
    (s : HostFiles) (hyaml : Serializes w (fileLines w s m.configPath) (Text.trim ip)) (lookup : Lookup)
    (locked : Except String Unit) (env : HostSurroundings) (path pemData : String) (isKey : Bool) (y : Yaml)
    (c : AppConfig) (token configPath : String) :
    (Survives env s (writePemFile path pemData isKey) (· = writePemFile path pemData isKey) path (· = .text pemData) ↔
      PemUncut env s path pemData isKey) ∧
    (Survives env s (m.appendEntry w lookup locked ip) (appendAgain w m.configPath ip) m.configPath
        (Appends w s m.configPath (Text.trim ip)) ↔
      ∃ entry, parseAppended (Text.trim ip) = .ok entry ∧
        (s m.configPath = none ∨ WellFormed w s m.configPath) ∧ AppendUncut w m locked env s (Text.trim ip) entry) ∧
    (Survives env s (c.savePollingToken y token configPath) (· = c.savePollingToken y token configPath) configPath
        (Serialized y (c.withToken token)) ↔
      ∃ text, y.serialize (c.withToken token) = .ok text ∧ ¬ Torn env s configPath (.text text)) ∧
    (Survives env s (c.clearPollingToken y configPath) (· = c.clearPollingToken y configPath) configPath
        (Serialized y c.withoutToken) ↔
      ∃ text, y.serialize c.withoutToken = .ok text ∧ ¬ Torn env s configPath (.text text)) := by
  refine ⟨pem_survives_iff, ?_, config_survives_iff, config_survives_iff⟩
  constructor
  · intro h
    obtain ⟨entry, hvalid, hfile⟩ := append_survives_only hround h
    exact ⟨entry, hvalid, hfile, (append_survives_of hround hvalid hyaml hfile).1 h⟩
  · rintro ⟨entry, hvalid, hfile, huncut⟩
    exact (append_survives_of hround hvalid hyaml hfile).2 huncut

/-! ## An enrolled host -/

def certPath : String := "/etc/linux_patch_api/certs/server.pem"

/-- A host with a certificate, a whitelist and a configuration. -/
def provisionedHost : HostFiles := fun p =>
  if p = certPath then some (.text "old") else if p = configPath then some (.text (tokenText "")) else oneAddress p

/-- A manager with nothing in memory. -/
def forgetful : WhitelistManager := ⟨∅, whitelistPath⟩

theorem provisionedHost_lines : fileLines addressesYaml provisionedHost whitelistPath = ["10.0.0.1"] := by
  have hsame : provisionedHost whitelistPath = oneAddress whitelistPath := rfl
  rw [fileLines_congr hsame, fileLines, oneAddress_config]

theorem provisionedHost_serializes :
    Serializes addressesYaml (fileLines addressesYaml provisionedHost whitelistPath) (Text.trim "10.0.0.5") := by
  rw [provisionedHost_lines]
  constructor
  · exact ⟨addressesText ["10.0.0.1", "10.0.0.5"], by decide +kernel⟩
  · exact ⟨addressesText ["10.0.0.1", "10.0.0.5", "10.0.0.5"], by decide +kernel⟩

/-- Surroundings that stop one operation. -/
def stoppedAt (o : Op String Content) (residue : Option Content) : HostSurroundings where
  dirExists := fun _ => true
  outcome := fun o' => if o' = o then .failed "No space left on device (os error 28)" residue else .done

theorem stoppedAt_outcome (o : Op String Content) (residue : Option Content) :
    (stoppedAt o residue).outcome o = .failed "No space left on device (os error 28)" residue := if_pos rfl

/-- The backup of the certificate is not made; all files survive. -/
theorem backup_stopped_survives :
    let env := stoppedAt (.copy certPath (backupPath certPath)) (some (.text ""))
    Survives env provisionedHost (writePemFile certPath "new" false) (· = writePemFile certPath "new" false) certPath
        (· = .text "new") ∧
      Survives env provisionedHost (forgetful.appendEntry addressesYaml noNames (.ok ()) "10.0.0.5")
        (appendAgain addressesYaml whitelistPath "10.0.0.5") whitelistPath
        (Appends addressesYaml provisionedHost whitelistPath (Text.trim "10.0.0.5")) ∧
      Survives env provisionedHost ((tokenConfig "").savePollingToken tokenYaml "tok" configPath)
        (· = (tokenConfig "").savePollingToken tokenYaml "tok" configPath) configPath
        (Serialized tokenYaml ((tokenConfig "").withToken "tok")) ∧
      Survives env provisionedHost ((tokenConfig "tok").clearPollingToken tokenYaml configPath)
        (· = (tokenConfig "tok").clearPollingToken tokenYaml configPath) configPath
        (Serialized tokenYaml (tokenConfig "tok").withoutToken) := by
  intro env
  have hsave := critical_files_survive_iff addressesYaml_roundTrip forgetful "10.0.0.5" provisionedHost
    provisionedHost_serializes noNames (.ok ()) env certPath "new" false tokenYaml (tokenConfig "") "tok" configPath
  have hclear := critical_files_survive_iff addressesYaml_roundTrip forgetful "10.0.0.5" provisionedHost
    provisionedHost_serializes noNames (.ok ()) env certPath "new" false tokenYaml (tokenConfig "tok") "tok" configPath
  refine ⟨hsave.1.2 ⟨rfl, fun _ hcopied => ?_⟩, hsave.2.1.2 ⟨.ip (.ofOctets 10 0 0 5), by decide,
    .inr (oneAddress_wellFormed.congr rfl), rfl, fun _ _ _ text _ => ⟨⟨rfl, rfl, rfl⟩, by decide⟩⟩,
    hsave.2.2.1.2 ⟨tokenText "tok", by decide +kernel, ?_⟩, hclear.2.2.2.2 ⟨tokenText "", by decide +kernel, ?_⟩⟩
  · have hcopy : env.outcome (.copy certPath (backupPath certPath)) = .done := hcopied (by decide)
    cases hcopy
  · rintro ⟨e, residue, houtcome, _⟩
    cases houtcome
  · rintro ⟨e, residue, houtcome, _⟩
    cases houtcome

/-- Each of the files may be lost, or the next call refused. -/
theorem stopped_calls_fail :
    ¬ Survives (stoppedAt (.rename (tempPath certPath) certPath) none) provisionedHost
        (writePemFile certPath "new" false) (· = writePemFile certPath "new" false) certPath (· = .text "new") ∧
      ¬ Survives (stoppedAt (.rename (whitelistTemp whitelistPath) whitelistPath) none) provisionedHost
        (forgetful.appendEntry addressesYaml noNames (.ok ()) "10.0.0.5")
        (appendAgain addressesYaml whitelistPath "10.0.0.5") whitelistPath
        (Appends addressesYaml provisionedHost whitelistPath (Text.trim "10.0.0.5")) ∧
      ¬ Survives (stoppedAt (.write configPath (.text (tokenText "tok"))) (some (.text ""))) provisionedHost
        ((tokenConfig "").savePollingToken tokenYaml "tok" configPath)
        (· = (tokenConfig "").savePollingToken tokenYaml "tok" configPath) configPath
        (Serialized tokenYaml ((tokenConfig "").withToken "tok")) := by
  have hparse : parseAppended (Text.trim "10.0.0.5") = .ok (.ip (.ofOctets 10 0 0 5)) := by decide
  refine ⟨fun h => ?_, fun h => ?_, fun h => ?_⟩
  · obtain ⟨_, huncut⟩ := pem_survives_iff.1 h
    obtain ⟨⟨_, _, hrenamed⟩, _⟩ := huncut (fun _ _ _ => ⟨rfl, rfl, rfl⟩) (fun _ => rfl) rfl
    cases hrenamed
  · obtain ⟨_, huncut⟩ := (append_survives_of addressesYaml_roundTrip hparse provisionedHost_serializes
      (.inr (oneAddress_wellFormed.congr rfl))).1 h
    obtain ⟨text, htext⟩ := provisionedHost_serializes.once
    obtain ⟨⟨_, _, hrenamed⟩, _⟩ := huncut (Finset.notMem_empty _) ⟨rfl, rfl, fun _ _ _ => rfl⟩ rfl text htext
    cases hrenamed
  · obtain ⟨text, htext, hwhole⟩ := config_survives_iff.1 h
    have hsaved : tokenYaml.serialize ((tokenConfig "").withToken "tok") = .ok (tokenText "tok") := by decide +kernel
    cases hsaved.symm.trans htext
    exact hwhole ⟨_, .text "", stoppedAt_outcome _ _, by decide +kernel, by decide +kernel⟩

end LinuxPatchApi.Enroll
