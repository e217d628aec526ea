/-
`src/enroll/repo_health.rs`: the check of the manager's package repository and its repair. The check compares two
files with texts of the configuration, the repair does not always write these texts there: a second call finds
nothing to do exactly when each of the two files is written with its text, or left alone with its text in it.
-/
import LinuxPatchApi.Enroll.Provision

namespace LinuxPatchApi.Enroll

open LinuxPatchApi.Packages Disk FileM

inductive RepoHealResult
  | alreadyConfigured
  | provisioned
  deriving DecidableEq, Repr

/-- The sources file and the keyring that the check reads. -/
def expectedRepoPaths (distroId : String) : Except AnyhowError (String × String) :=
  if isApt distroId then .ok ("/etc/apt/sources.list.d/lpa.list", "/etc/apt/keyrings/lpa-repo.gpg")
  else if isDnf distroId then .ok ("/etc/yum.repos.d/lpa.repo", "/etc/pki/rpm-gpg/lpa-repo.gpg")
  else if distroId == "alpine" then .ok (alpineRepositories, alpineKeyPath)
  else if isPacman distroId then .ok ("/etc/pacman.d/lpa-repo", "/etc/pacman.d/lpa-repo.gpg")
  else .error (anyhow ("Unrecognized distro '" ++ distroId ++ "' — cannot determine expected repo file paths"))

/-- The content of a file that exists and is not empty. -/
def readFileContent (s : HostFiles) (path : String) : Option String := (readString s path).filter fun x => !x.isEmpty

/-- The key that the check compares the keyring with. -/
def expectedKey (distroId : String) (repo : RepoConfig) : String :=
  if distroId == "alpine" then repo.apkRsaPublicKey.getD repo.gpgPublicKey else repo.gpgPublicKey

/-- `check_and_provision_repo_config`, given the distribution that was detected and what the manager answers. -/
def checkAndProvisionRepoConfig (gpg : String → GpgRun) (distroId : Except AnyhowError String)
    (fetched : Except AnyhowError RepoConfig) : FileM RepoHealResult := do
  match distroId.bind fun id => (expectedRepoPaths id).map (id, ·) with
  | .error e => Action.fail e
  | .ok (id, sourcesPath, keyringPath) =>
    match fetched with
    | .error e => Action.fail (e.context "Failed to fetch repo config from manager during self-heal")
    | .ok repo =>
      let sourcesMatch := (← readNonempty sourcesPath) == some repo.sourcesConfig
      let keyringMatch := (← readNonempty keyringPath) == some (expectedKey id repo)
      if sourcesMatch && keyringMatch then return .alreadyConfigured
      (provisionRepoConfig gpg repo).context "Failed to provision repo config during self-heal"
      return .provisioned
where
  readNonempty (path : String) : FileM (Option String) := ⟨fun _ s => (.ok (readFileContent s path), s)⟩

/-! ## What provisioning writes -/

/-- Where the key goes, and as what. -/
def keyringWrite (gpg : String → GpgRun) (repo : RepoConfig) : String × Content :=
  if isApt repo.distroId && keyIsArmored repo.gpgPublicKey then
    match gpg repo.gpgPublicKey with
    | .exited stdout => (repo.keyringPath, stdout)
    | _ => (ascPath repo.keyringPath, .text repo.gpgPublicKey)
  else (repo.keyringPath, .text repo.gpgPublicKey)

/-- What provisioning puts at a path, whatever was there. -/
def rewrites (gpg : String → GpgRun) (repo : RepoConfig) (path : String) : Option Content :=
  if repo.distroId = "alpine" then
    if path = alpineKeyPath then repo.apkRsaPublicKey.map .text else none
  else if sourcesPath repo.distroId = some path then some (.text repo.sourcesConfig)
  else if (keyringWrite gpg repo).1 = path then some (keyringWrite gpg repo).2
  else none

/-- The path is no temporary file and no backup. -/
def Settled (path : String) : Prop := ∃ c, Paths.lastChar path = some c ∧ c ≠ '/' ∧ c ≠ '.' ∧ c ≠ 'p' ∧ c ≠ 'k'

section Settled

variable {path p : String}

theorem Settled.ne_tempPath (h : Settled p) : p ≠ tempPath path := by
  obtain ⟨c, hc, h₁, h₂, h₃, _⟩ := h
  exact (tempPath_ne hc ⟨h₁, h₂, h₃⟩).symm

theorem Settled.ne_backupPath (h : Settled p) : p ≠ backupPath path := by
  rintro rfl
  obtain ⟨c, hc, _, _, _, h₄⟩ := h
  rw [lastChar_backupPath] at hc
  exact h₄ (Option.some.inj hc).symm

theorem Settled.ne_tmp (h : Settled p) : p ≠ path ++ ".tmp" := by
  rintro rfl
  obtain ⟨c, hc, _, _, h₃, _⟩ := h
  rw [Paths.lastChar_append path (by decide)] at hc
  exact h₃ (Option.some.inj hc).symm

end Settled

section Writes

variable {gpg : String → GpgRun} {repo : RepoConfig} {env : HostSurroundings} {s t : HostFiles} {a : Unit}

theorem writePemFile_settled {path pemData : String} {isKey : Bool}
    (h : (writePemFile path pemData isKey).run env s = (.ok a, t)) :
    t path = some (.text pemData) ∧ ∀ p, Settled p → p ≠ path → t p = s p := by
  obtain ⟨_, rfl⟩ := writePemFile_ok.1 h
  refine ⟨if_pos rfl, fun p hp hne => ?_⟩
  rw [written, if_neg hne, if_neg hp.ne_tempPath, if_neg fun hb => hp.ne_backupPath hb.1]

theorem setPermissions_ok {path : String} {mode : Nat} (h : (io (.setPermissions path mode)).run env s = (.ok a, t)) :
    t = s := (io_ok.1 h).2.symm

theorem provisionKeyring_ok (h : (provisionKeyring gpg repo).run env s = (.ok a, t)) :
    t (keyringWrite gpg repo).1 = some (keyringWrite gpg repo).2 ∧
      ∀ p, Settled p → p ≠ (keyringWrite gpg repo).1 → t p = s p := by
  unfold provisionKeyring at h
  unfold keyringWrite
  split at h
  · next harmored =>
    rw [if_pos harmored]
    split at h
    · next stdout hgpg =>
      simp only [hgpg]
      obtain ⟨_, u, hr, hs⟩ := Action.bind_ok.1 h
      rw [setPermissions_ok hs]
      obtain ⟨hpath, hothers⟩ := replace_ok hr
      exact ⟨hpath, fun p hp hne => hothers p hne hp.ne_tmp⟩
    · next hgpg => cases h
    · next hgpg =>
      simp only [hgpg]
      exact writePemFile_settled (context_ok.1 h)
    · cases h
    · cases h
  · next hplain =>
    rw [if_neg hplain]
    exact writePemFile_settled (context_ok.1 h)

theorem confined_prepareSourcesDirectory (distroId : String) :
    Action.Confined (fun _ => False) (prepareSourcesDirectory distroId) := by
  unfold prepareSourcesDirectory
  split
  · exact (confined_io (by simp [Op.changes])).ignore
  split
  · exact (confined_io (by simp [Op.changes])).ignore
  · exact Action.confined_pure _

theorem provisionSources_ok (h : (provisionSources repo).run env s = (.ok a, t)) :
    ∃ path, sourcesPath repo.distroId = some path ∧ t path = some (.text repo.sourcesConfig) ∧
      ∀ p, Settled p → p ≠ path → t p = s p := by
  unfold provisionSources at h
  split at h
  · cases h
  · next path hpath =>
    obtain ⟨_, u, hd, hr⟩ := Action.bind_ok.1 h
    have hu : ∀ p, u p = s p := fun p => (confined_prepareSourcesDirectory repo.distroId).kept hd not_false
    obtain ⟨hwritten, hothers⟩ := replace_ok hr
    exact ⟨path, hpath, hwritten, fun p hp hne => (hothers p hne hp.ne_tmp).trans (hu p)⟩

theorem confined_ensureKeyringDirectory (keyringPath : String) :
    Action.Confined (fun _ => False) (ensureKeyringDirectory keyringPath) := by
  have hnone : ∀ {o : Op String Content}, o.changes = [] → Action.Confined (fun _ => False) (io o) := fun ho =>
    confined_io (by simp [ho])
  unfold ensureKeyringDirectory
  split
  · exact Action.confined_fail _
  · refine (Action.confined_dirExists _).bind fun there => ?_
    cases there with
    | true => exact Action.confined_pure _
    | false => exact (confined_context (hnone rfl)).bind fun _ => (hnone rfl).bind fun _ => hnone rfl

theorem provisionRepoConfig_ok (hd : repo.distroId ≠ "alpine")
    (h : (provisionRepoConfig gpg repo).run env s = (.ok a, t))
    {p : String} (hp : Settled p) : t p = (rewrites gpg repo p).or (s p) := by
  rw [provisionRepoConfig, if_neg (by simpa using hd)] at h
  obtain ⟨_, u₁, he, h⟩ := Action.bind_ok.1 h
  obtain ⟨_, u₂, hk, hs⟩ := Action.bind_ok.1 h
  have hdir : u₁ p = s p := (confined_ensureKeyringDirectory repo.keyringPath).kept he not_false
  obtain ⟨hkey, hkeyOthers⟩ := provisionKeyring_ok hk
  obtain ⟨path, hpath, hsources, hothers⟩ := provisionSources_ok hs
  -- the sources are written last
  rw [rewrites, if_neg hd]
  by_cases hsp : p = path
  · subst hsp
    rw [if_pos hpath, hsources]
    rfl
  · rw [if_neg fun he => hsp (Option.some.inj (he.symm.trans hpath)), hothers p hp hsp]
    by_cases hkp : (keyringWrite gpg repo).1 = p
    · rw [if_pos hkp, ← hkp, hkey]
      rfl
    · rw [if_neg hkp, hkeyOthers p hp (Ne.symm hkp), hdir]
      rfl

theorem confined_ensureAlpineKeysDirectory : Action.Confined (fun _ => False) ensureAlpineKeysDirectory := by
  refine (Action.confined_dirExists _).bind fun there => ?_
  cases there with
  | true => exact Action.confined_pure _
  | false =>
    exact (confined_context (confined_io (by simp [Op.changes]))).bind fun _ => confined_io (by simp [Op.changes])

theorem provisionAlpineKey_ok {rsaKey : String} (h : (provisionAlpineKey rsaKey).run env s = (.ok a, t)) :
    t alpineKeyPath = some (.text rsaKey) ∧ ∀ p, Settled p → p ≠ alpineKeyPath → t p = s p := by
  obtain ⟨_, u₁, hd, h⟩ := Action.bind_ok.1 h
  obtain ⟨_, u₂, hr, hs⟩ := Action.bind_ok.1 h
  have hdir : ∀ p, u₁ p = s p := fun p => confined_ensureAlpineKeysDirectory.kept hd not_false
  obtain ⟨hkey, hothers⟩ := replace_ok hr
  rw [setPermissions_ok hs]
  exact ⟨hkey, fun p hp hne => (hothers p hne hp.ne_tmp).trans (hdir p)⟩

/-- A text that another one is appended to is not this other one. -/
theorem appended_ne (pre x : String) : pre ++ "\n" ++ x ++ "\n" ≠ x := fun h => by
  have hlen := congrArg String.length h
  simp only [String.length_append] at hlen
  have hnewline : "\n".length = 1 := rfl
  omega

theorem contains_self (x : String) : Text.contains x x = true := Text.contains_iff.2 (List.infix_refl _)

/-- The repositories hold nothing but the manager's one only when they did before. -/
theorem appendAlpineRepository_ok {x : String} (h : (appendAlpineRepository x).run env s = (.ok a, t)) :
    (t alpineRepositories = some (.text x) ↔ s alpineRepositories = some (.text x)) ∧
      ∀ p, Settled p → p ≠ alpineRepositories → t p = s p := by
  rw [appendAlpineRepository, run_readToString_bind] at h
  dsimp only at h
  split at h
  · next hin =>
    cases h
    exact ⟨Iff.rfl, fun _ _ _ => rfl⟩
  · next hout =>
    obtain ⟨hwritten, hothers⟩ := replace_ok h
    refine ⟨iff_of_false (fun ht => ?_) (fun hs => hout ?_), fun p hp hne => hothers p hne hp.ne_tmp⟩
    · rw [hwritten] at ht
      exact appended_ne _ x (Content.text.inj (Option.some.inj ht))
    · simp only [readString, hs, Option.getD_some]
      exact contains_self x

theorem settled_alpineRepositories : Settled alpineRepositories := ⟨'s', by decide, by decide⟩

theorem rewrites_alpineRepositories (hd : repo.distroId = "alpine") : rewrites gpg repo alpineRepositories = none := by
  rw [rewrites, if_pos hd, if_neg (by decide)]

theorem provisionAlpine_ok (hd : repo.distroId = "alpine") (h : (provisionRepoConfig gpg repo).run env s = (.ok a, t)) :
    (t alpineRepositories = some (.text repo.sourcesConfig) ↔ s alpineRepositories = some (.text repo.sourcesConfig)) ∧
      ∀ p, Settled p → p ≠ alpineRepositories → t p = (rewrites gpg repo p).or (s p) := by
  have hkey : ∃ u : HostFiles, (∀ p, Settled p → u p = (rewrites gpg repo p).or (s p)) ∧
      (appendAlpineRepository repo.sourcesConfig).run env u = (.ok a, t) := by
    rw [provisionRepoConfig, if_pos (by simpa using hd), provisionAlpineRepoConfig] at h
    simp only [rewrites, hd, if_true]
    cases hrsa : repo.apkRsaPublicKey with
    | none =>
      rw [hrsa] at h
      exact ⟨s, fun p _ => by simp, h⟩
    | some rsaKey =>
      rw [hrsa] at h
      obtain ⟨_, u, hk, h⟩ := Action.bind_ok.1 h
      obtain ⟨hkey, hothers⟩ := provisionAlpineKey_ok hk
      refine ⟨u, fun p hp => ?_, h⟩
      by_cases hpk : p = alpineKeyPath
      · subst hpk
        simp [hkey]
      · simp [hpk, hothers p hp hpk]
  obtain ⟨u, hu, h⟩ := hkey
  obtain ⟨hrepo, hothers⟩ := appendAlpineRepository_ok h
  refine ⟨?_, fun p hp hne => (hothers p hp hne).trans (hu p hp)⟩
  rw [hrepo, hu _ settled_alpineRepositories, rewrites_alpineRepositories hd, Option.none_or]

end Writes

/-! ## The second call -/

/-- Provisioning leaves the text at the path: it writes it there, or it leaves the path alone and finds it there. -/
def Leaves (gpg : String → GpgRun) (repo : RepoConfig) (s : HostFiles) (path text : String) : Prop :=
  text ≠ "" ∧ (rewrites gpg repo path).or (s path) = some (.text text)

/-- Both files that the check reads are left with the texts that it compares them with. -/
def Converges (gpg : String → GpgRun) (host : String) (repo : RepoConfig) (s : HostFiles) : Prop :=
  ∃ sources keyring, expectedRepoPaths host = .ok (sources, keyring) ∧ Leaves gpg repo s sources repo.sourcesConfig ∧
    Leaves gpg repo s keyring (expectedKey host repo)

section Check

variable {gpg : String → GpgRun} {host : String} {repo : RepoConfig} {env : HostSurroundings} {s t : HostFiles}

/-- The files that the check reads are settled, and the Alpine repositories are only ever a sources file. -/
theorem expectedRepoPaths_settled {sources keyring : String} (h : expectedRepoPaths host = .ok (sources, keyring)) :
    Settled sources ∧ Settled keyring ∧ keyring ≠ alpineRepositories := by
  unfold expectedRepoPaths at h
  split at h
  · cases h
    exact ⟨⟨'t', by decide, by decide⟩, ⟨'g', by decide, by decide⟩, by decide⟩
  split at h
  · cases h
    exact ⟨⟨'o', by decide, by decide⟩, ⟨'g', by decide, by decide⟩, by decide⟩
  split at h
  · cases h
    exact ⟨settled_alpineRepositories, ⟨'b', by decide, by decide⟩, by decide⟩
  split at h
  · cases h
    exact ⟨⟨'o', by decide, by decide⟩, ⟨'g', by decide, by decide⟩, by decide⟩
  · cases h

theorem readFileContent_eq_some {path text : String} :
    readFileContent s path = some text ↔ text ≠ "" ∧ s path = some (.text text) := by
  unfold readFileContent readString
  split
  · next x hx =>
    simp only [Option.filter_eq_some_iff, Option.some.injEq, Bool.not_eq_true', hx, Content.text.injEq]
    constructor
    · rintro ⟨rfl, hne⟩
      exact ⟨fun he => by simp [he] at hne, rfl⟩
    · rintro ⟨hne, rfl⟩
      exact ⟨rfl, by simpa using hne⟩
  · next hx =>
    constructor
    · intro h
      cases h
    · rintro ⟨_, hs⟩
      exact (hx text hs).elim

/-- The two comparisons of the check. -/
def Matches (host : String) (repo : RepoConfig) (s : HostFiles) (sources keyring : String) : Prop :=
  readFileContent s sources = some repo.sourcesConfig ∧ readFileContent s keyring = some (expectedKey host repo)

/-- The check, with the comparisons as a proposition. -/
theorem run_check {sources keyring : String} (hpaths : expectedRepoPaths host = .ok (sources, keyring)) :
    (Matches host repo s sources keyring →
      (checkAndProvisionRepoConfig gpg (.ok host) (.ok repo)).run env s = (.ok .alreadyConfigured, s)) ∧
    (¬ Matches host repo s sources keyring →
      (checkAndProvisionRepoConfig gpg (.ok host) (.ok repo)).run env s =
        ((provisionRepoConfig gpg repo).context "Failed to provision repo config during self-heal" >>= fun _ =>
          pure RepoHealResult.provisioned).run env s) := by
  have hcond : (readFileContent s sources == some repo.sourcesConfig &&
      readFileContent s keyring == some (expectedKey host repo)) = true ↔ Matches host repo s sources keyring := by
    simp [Matches]
  have hrun : (checkAndProvisionRepoConfig gpg (.ok host) (.ok repo)).run env s =
      (if readFileContent s sources == some repo.sourcesConfig &&
          readFileContent s keyring == some (expectedKey host repo) then pure RepoHealResult.alreadyConfigured
        else (provisionRepoConfig gpg repo).context "Failed to provision repo config during self-heal" >>= fun _ =>
          pure RepoHealResult.provisioned : FileM RepoHealResult).run env s := by
    simp only [checkAndProvisionRepoConfig, Except.bind, hpaths, Except.map]
    rfl
  exact ⟨fun hm => by rw [hrun, if_pos (hcond.2 hm)]; rfl, fun hm => by rw [hrun, if_neg fun h => hm (hcond.1 h)]⟩

/-- After a repair the comparisons succeed exactly when both texts are left where the check reads them. -/
theorem matches_iff {sources keyring : String} (hpaths : expectedRepoPaths host = .ok (sources, keyring)) {a : Unit}
    (h : (provisionRepoConfig gpg repo).run env s = (.ok a, t)) : Matches host repo t sources keyring ↔
      Leaves gpg repo s sources repo.sourcesConfig ∧ Leaves gpg repo s keyring (expectedKey host repo) := by
  obtain ⟨hsources, hkeyring, hne⟩ := expectedRepoPaths_settled hpaths
  rw [Matches, readFileContent_eq_some, readFileContent_eq_some, Leaves, Leaves]
  by_cases hd : repo.distroId = "alpine"
  · obtain ⟨hrepositories, hothers⟩ := provisionAlpine_ok hd h
    rw [hothers keyring hkeyring hne]
    by_cases hsp : sources = alpineRepositories
    · rw [hsp, hrepositories, rewrites_alpineRepositories hd, Option.none_or]
    · rw [hothers sources hsources hsp]
  · rw [provisionRepoConfig_ok hd h hsources, provisionRepoConfig_ok hd h hkeyring]

end Check

/-- After a call that provisioned, the next one finds the repository configured and writes nothing exactly when
the configuration converges. -/
theorem self_heal_settles_iff {gpg gpg' : String → GpgRun} {host : String} {repo : RepoConfig}
    {env env' : HostSurroundings} {s t : HostFiles}
    (h : (checkAndProvisionRepoConfig gpg (.ok host) (.ok repo)).run env s = (.ok .provisioned, t)) :
    (checkAndProvisionRepoConfig gpg' (.ok host) (.ok repo)).run env' t = (.ok .alreadyConfigured, t) ↔
      Converges gpg host repo s := by
  cases hpaths : expectedRepoPaths host with
  | error e =>
    simp only [checkAndProvisionRepoConfig, Except.bind, hpaths, Except.map, Action.run_fail] at h
    cases h
  | ok paths =>
    obtain ⟨sources, keyring⟩ := paths
    have hrepair : (provisionRepoConfig gpg repo).run env s = (.ok (), t) := by
      by_cases hm : Matches host repo s sources keyring
      · rw [(run_check hpaths).1 hm] at h
        cases h
      · rw [(run_check hpaths).2 hm] at h
        obtain ⟨_, u, hp, hpure⟩ := Action.bind_ok.1 h
        cases hpure
        exact context_ok.1 hp
    have hconv : Converges gpg host repo s ↔ Matches host repo t sources keyring := by
      rw [matches_iff hpaths hrepair, Converges]
      simp only [hpaths, Except.ok.injEq, Prod.mk.injEq]
      exact ⟨fun ⟨_, _, ⟨hs, hk⟩, hl⟩ => hs ▸ hk ▸ hl, fun hl => ⟨sources, keyring, ⟨rfl, rfl⟩, hl⟩⟩
    rw [hconv]
    constructor
    · intro hsame
      by_contra hm
      rw [(run_check hpaths).2 hm] at hsame
      obtain ⟨_, u, _, hpure⟩ := Action.bind_ok.1 hsame
      cases hpure
    · exact fun hm => (run_check hpaths).1 hm

/-- An armored key that gpg turns into its binary form never compares equal again. -/
theorem dearmored_never_converges {gpg : String → GpgRun} {host : String} {repo : RepoConfig}
    {s : HostFiles} {c : Content}
    (hhost : isApt host = true) (hrepo : isApt repo.distroId = true) (harmored : keyIsArmored repo.gpgPublicKey = true)
    (hgpg : gpg repo.gpgPublicKey = .exited c) (hc : ∀ text, c ≠ .text text)
    (hpath : repo.keyringPath = "/etc/apt/keyrings/lpa-repo.gpg") : ¬ Converges gpg host repo s := by
  rintro ⟨sources, keyring, hpaths, _, _, hkey⟩
  rw [expectedRepoPaths, if_pos hhost] at hpaths
  cases hpaths
  have hd : repo.distroId ≠ "alpine" := fun hd => by
    rw [hd] at hrepo
    exact absurd hrepo (by decide)
  have hwrite : keyringWrite gpg repo = ("/etc/apt/keyrings/lpa-repo.gpg", c) := by
    simp [keyringWrite, hrepo, harmored, hgpg, hpath]
  have hsources : sourcesPath repo.distroId ≠ some "/etc/apt/keyrings/lpa-repo.gpg" := by
    rw [sourcesPath, if_pos hrepo]
    decide
  rw [rewrites, if_neg hd, if_neg hsources, hwrite, if_pos rfl] at hkey
  exact hc _ (Option.some.inj hkey)

/-- A configuration for Fedora, with an armored key. -/
def fedoraRepo : RepoConfig where
  gpgPublicKey := "-----BEGIN PGP"
  sourcesConfig := "[lpa]"
  distroId := "fedora"
  keyringPath := "/etc/pki/rpm-gpg/lpa-repo.gpg"
  apkRsaPublicKey := none

/-- The same key for Ubuntu. -/
def ubuntuRepo : RepoConfig where
  gpgPublicKey := "-----BEGIN PGP"
  sourcesConfig := "deb"
  distroId := "ubuntu"
  keyringPath := "/etc/apt/keyrings/lpa-repo.gpg"
  apkRsaPublicKey := none

def noGpg : String → GpgRun := fun _ => .notInstalled

/-- The files after a call on a host without any of them. -/
def healed (gpg : String → GpgRun) (host : String) (repo : RepoConfig) : HostFiles :=
  ((checkAndProvisionRepoConfig gpg (.ok host) (.ok repo)).run .sound fun _ => none).2

theorem self_heal_settles_fedora : (checkAndProvisionRepoConfig noGpg (.ok "fedora") (.ok fedoraRepo)).run .sound
    (healed noGpg "fedora" fedoraRepo) = (.ok .alreadyConfigured, healed noGpg "fedora" fedoraRepo) := by
  have hfirst : (checkAndProvisionRepoConfig noGpg (.ok "fedora") (.ok fedoraRepo)).run .sound (fun _ => none) =
      (.ok .provisioned, healed noGpg "fedora" fedoraRepo) := Prod.ext (by decide +kernel) rfl
  exact (self_heal_settles_iff hfirst).2
    ⟨_, _, rfl, ⟨by decide, by decide +kernel⟩, ⟨by decide +kernel, by decide +kernel⟩⟩

/-- The first bytes of a binary key. -/
theorem not_isUtf8_packet : ¬ IsUtf8 [0x99, 0x01] := fun h => by
  have hfirst := h.isUTF8FirstByte_getElem_zero (by decide)
  revert hfirst
  decide

def someGpg : String → GpgRun := fun _ => .exited (.binary [0x99, 0x01] not_isUtf8_packet)

/-- On a host with gpg each call provisions again. -/
theorem self_heal_never_settles : ∃ (gpg : String → GpgRun) (repo : RepoConfig) (s t : HostFiles),
    (∀ key c, gpg key = .exited c → ∃ bytes h, c = .binary bytes h) ∧
      (checkAndProvisionRepoConfig gpg (.ok "ubuntu") (.ok repo)).run .sound s = (.ok .provisioned, t) ∧
      ((checkAndProvisionRepoConfig gpg (.ok "ubuntu") (.ok repo)).run .sound t).1 ≠ .ok .alreadyConfigured := by
  have hfirst : (checkAndProvisionRepoConfig someGpg (.ok "ubuntu") (.ok ubuntuRepo)).run .sound (fun _ => none) =
      (.ok .provisioned, healed someGpg "ubuntu" ubuntuRepo) := Prod.ext (by decide +kernel) rfl
  refine ⟨someGpg, ubuntuRepo, _, _, fun key c hc => ?_, hfirst, by decide +kernel⟩
  cases hc
  exact ⟨_, _, rfl⟩

end LinuxPatchApi.Enroll
