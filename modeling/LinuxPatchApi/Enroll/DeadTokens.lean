/-
Daemon starts one after another on one configuration file, and the polling token that each leaves in it. A run
saves the token that it polls with before the first poll, and clears it after an approval only; so what a rejected
run leaves in the file is what its save left there.
-/
import LinuxPatchApi.Enroll.Enrollment
import LinuxPatchApi.Lib.Transition

namespace LinuxPatchApi.Enroll

open LinuxPatchApi.Packages Disk FileM Transition

/-! ## Rejection -/

/-- The manager does not know the token, or the administrator has refused the host. -/
def PollEvent.rejects : PollEvent → Bool
  | .response code body parsed => code == 404 || match pollStatus code body parsed with
    | .ok .denied | .ok .notFound => true
    | _ => false
  | _ => false

theorem PollEvent.not_rejects_of_approved {r : PollEvent} {bundle : PkiBundle} (h : r.outcome = some (.ok bundle)) :
    r.rejects = false := by
  cases r with
  | sigint | sigterm | unreachable => rfl
  | response code body parsed =>
    have hstatus : pollStatus code body parsed = .ok (.approved bundle) := by
      simp only [outcome] at h
      split at h <;> simp_all
    have hcode : code ≠ 404 := by
      rintro rfl
      simp [pollStatus] at hstatus
    simp [rejects, hstatus, hcode]

/-- The polling ends well only on a round with an approval. -/
theorem pollLoop_ok {poll : Nat → PollEvent} {max : Nat} {interval : UInt64} {bundle : PkiBundle} (attempt left : Nat)
    (h : (pollLoop poll max interval attempt left).2 = .ok bundle) :
    ∃ r, (pollLoop poll max interval attempt left).1.getLast? = some r ∧ r.outcome = some (.ok bundle) := by
  induction left generalizing attempt with
  | zero => cases h
  | succ left ih =>
    simp only [pollLoop] at h ⊢
    cases ho : (poll attempt).outcome with
    | some r =>
      simp only [ho] at h
      exact ⟨poll attempt, rfl, by rw [ho, h]⟩
    | none =>
      simp only [ho] at h
      obtain ⟨r, hr, hb⟩ := ih (attempt + 1) h
      exact ⟨r, by simp [List.getLast?_cons, hr], hb⟩

/-- The polling ended on a rejection. -/
def PolledDead (x : EnrollmentAnswers) (config : AppConfig) : Prop :=
  ∃ r, (pollPhase x config).1.getLast? = some r ∧ r.rejects = true

theorem PolledDead.error {x : EnrollmentAnswers} {config : AppConfig} (h : PolledDead x config) :
    ∃ e, (pollPhase x config).2 = .error e := by
  obtain ⟨r, hlast, hrejects⟩ := h
  cases hp : (pollPhase x config).2 with
  | error e => exact ⟨e, rfl⟩
  | ok bundle =>
    unfold pollPhase at hlast hp
    split at hp
    · cases hp
    · next hsignals =>
      rw [hsignals] at hlast
      obtain ⟨r', hlast', hb⟩ := pollLoop_ok _ _ hp
      rw [Option.some.inj (hlast.symm.trans hlast'), PollEvent.not_rejects_of_approved hb] at hrejects
      cases hrejects

/-! ## The token in the file -/

section Token

variable {y : Yaml} {path : String} {x : EnrollmentAnswers} {config : AppConfig} {token : String}
  {env : HostSurroundings} {s : HostFiles}

@[simp] theorem pollingToken_migrateEmptyStrings (c : AppConfig) :
    c.migrateEmptyStrings.pollingToken = c.pollingToken := by
  rw [AppConfig.pollingToken, AppConfig.migrateEmptyStrings, Option.map_map]
  rfl

@[simp] theorem pollingToken_withToken (c : AppConfig) : (c.withToken token).pollingToken = token := rfl

/-- The file has no token for the next start. -/
def Tokenless (y : Yaml) (path : String) (s : HostFiles) : Prop :=
  ∀ config, AppConfig.load y s path = .ok config → config.pollingToken = ""

/-- The file is left as it is and has no token, or what is written into it has none. -/
def SavesNone (y : Yaml) (env : HostSurroundings) (config : AppConfig) (path token : String) : Prop :=
  match y.serialize (config.withToken token) with
  | .error _ => config.pollingToken = ""
  | .ok yaml => match env.outcome (.write path (.text yaml)) with
    | .done => token = ""
    | .failed _ none => config.pollingToken = ""
    | .failed _ (some residue) => ∀ text c, residue = .text text → y.parse text = .ok c → c.pollingToken = ""

theorem load_ok (h : AppConfig.load y s path = .ok config) :
    ∃ text c, s path = some (.text text) ∧ y.parse text = .ok c ∧ c.migrateEmptyStrings = config := by
  unfold AppConfig.load readString at h
  split at h
  · cases h
  · next content hread =>
    split at hread
    · next text htext =>
      cases hread
      split at h
      · cases h
      · next c hparse => exact ⟨_, c, htext, hparse, Except.ok.inj h⟩
    · cases hread

theorem tokenless_of_text {c : Content} (hs : s path = some c)
    (h : ∀ text config, c = .text text → y.parse text = .ok config → config.pollingToken = "") :
    Tokenless y path s := by
  intro config hload
  obtain ⟨text, parsed, htext, hparse, rfl⟩ := load_ok hload
  rw [pollingToken_migrateEmptyStrings]
  exact h text parsed (Option.some.inj (hs.symm.trans htext)) hparse

/-- A rejected run changes nothing but what its save changes. -/
theorem runEnrollment_rejected (htoken : obtainToken x config = .ok token) (h : PolledDead x (config.withToken token)) :
    ((runEnrollment y x config path).run env s).2 =
      (((config.withToken token).write y path "persistence").run env s).2 := by
  obtain ⟨e, he⟩ := h.error
  rw [runEnrollment, htoken]
  simp only [he]
  rfl

theorem write_tokenless (hy : y.RoundTrip) (hload : AppConfig.load y s path = .ok config)
    (h : SavesNone y env config path token) :
    Tokenless y path (((config.withToken token).write y path "persistence").run env s).2 := by
  have hkept : config.pollingToken = "" → Tokenless y path s := fun hempty config' hload' => by
    rwa [← Except.ok.inj (hload.symm.trans hload')]
  unfold SavesNone at h
  unfold AppConfig.write
  cases hyaml : y.serialize (config.withToken token) with
  | error e =>
    rw [hyaml] at h
    exact hkept h
  | ok yaml =>
    simp only [hyaml] at h
    simp only [context, io, Action.mapError_snd, Action.run_perform, Op.refusal]
    cases ho : env.outcome (.write path (.text yaml)) with
    | done =>
      rw [ho] at h
      refine tokenless_of_text (Function.update_self _ _ _) fun text c htext hparse => ?_
      rw [← Content.text.inj htext, hy _ _ hyaml] at hparse
      rw [← Except.ok.inj hparse, pollingToken_withToken]
      exact h
    | failed error residue =>
      rw [ho] at h
      cases residue with
      | none => exact hkept h
      | some c => exact tokenless_of_text (Function.update_self _ _ _) h

end Token

/-! ## Daemon starts -/

inductive Start
  /-- No enrollment: the certificates are valid, or the start fails before it. -/
  | other
  | enroll (x : EnrollmentAnswers) (env : HostSurroundings)

/-- The agent started again and again with the configuration file at the path. -/
def daemon (y : Yaml) (path : String) : Machine HostFiles Start where
  init := fun _ => True
  step s a := match a with
    | .other => some s
    | .enroll x env => match AppConfig.load y s path with
      | .error _ => none
      | .ok config => some ((runEnrollment y x config path).run env s).2

/-- The start enrolled, with this configuration and this token to poll with. -/
structure Enrolls (y : Yaml) (path : String) (f : Fired HostFiles Start) (x : EnrollmentAnswers)
    (env : HostSurroundings)
    (config : AppConfig) (token : String) : Prop where
  act : f.act = .enroll x env
  load : AppConfig.load y f.pre path = .ok config
  token : obtainToken x config = .ok token

/-- No token comes into the file by the start. -/
def Unsaved (y : Yaml) (path : String) (f : Fired HostFiles Start) : Prop :=
  ∀ x env config token, Enrolls y path f x env config token → SavesNone y env config path token

/-- The enrollment ended because the manager rejected the token. -/
def Rejected (y : Yaml) (path : String) (f : Fired HostFiles Start) : Prop :=
  ∃ x env config token, Enrolls y path f x env config token ∧ PolledDead x (config.withToken token)

/-- The start enrolls, and registers for it. -/
def Registers (y : Yaml) (path : String) (f : Fired HostFiles Start) : Prop :=
  ∃ x env config, f.act = .enroll x env ∧ AppConfig.load y f.pre path = .ok config ∧ config.pollingToken = ""

/-- After a rejection the next enrollment registers again. -/
def TokensDropped (y : Yaml) (path : String) (tr : List (Fired HostFiles Start)) : Prop :=
  ∀ pre f mid g post, tr = pre ++ f :: (mid ++ g :: post) → Rejected y path f → (∀ m ∈ mid, m.act = .other) →
    (∃ x env, g.act = .enroll x env) → Registers y path g

section Run

variable {y : Yaml} {path : String} {s s' : HostFiles} {tr : List (Fired HostFiles Start)}

theorem run_other (h : Run (daemon y path) s tr s') (hother : ∀ f ∈ tr, f.act = .other) : s' = s := by
  induction h with
  | nil => rfl
  | @snoc tr t t' a _ hs ih =>
    have ha : a = .other := hother ⟨t, a, t'⟩ (by simp)
    subst ha
    rw [← Option.some.inj hs]
    exact ih fun f hf => hother f (by simp [hf])

theorem enroll_step {f : Fired HostFiles Start} (hf : IsStep (daemon y path) f)
    {x : EnrollmentAnswers} {env : HostSurroundings}
    (ha : f.act = .enroll x env) : ∃ config, AppConfig.load y f.pre path = .ok config ∧
      ((runEnrollment y x config path).run env f.pre).2 = f.post := by
  simp only [IsStep, daemon, ha] at hf
  split at hf
  · cases hf
  · next config hload => exact ⟨config, hload, Option.some.inj hf⟩

/-- A rejected enrollment whose save leaves no token leaves none. -/
theorem rejected_tokenless (hy : y.RoundTrip) {f : Fired HostFiles Start} (hf : IsStep (daemon y path) f)
    (hr : Rejected y path f) (hc : Unsaved y path f) : Tokenless y path f.post := by
  obtain ⟨x, env, config, token, he, hdead⟩ := hr
  obtain ⟨config', hload, hpost⟩ := enroll_step hf he.act
  obtain rfl := Except.ok.inj (hload.symm.trans he.load)
  rw [← hpost, runEnrollment_rejected he.token hdead]
  exact write_tokenless hy he.load (hc x env config' token he)

end Run

/-- When no rejected enrollment has saved its token, the next enrollment after each registers again. -/
theorem tokens_dropped {y : Yaml} {path : String} (hy : y.RoundTrip) {s s' : HostFiles}
    {tr : List (Fired HostFiles Start)}
    (h : Run (daemon y path) s tr s') (hc : ∀ f ∈ tr, Rejected y path f → Unsaved y path f) :
    TokensDropped y path tr := by
  rintro pre f mid g post rfl hr hmid ⟨x, env, hg⟩
  obtain ⟨_, hafter⟩ := h.split rfl
  obtain ⟨hbetween, _⟩ := hafter.split rfl
  have hf : IsStep (daemon y path) f := h.step_of_mem f (by simp)
  obtain ⟨config, hload, _⟩ := enroll_step (h.step_of_mem g (by simp)) hg
  refine ⟨x, env, config, hg, hload, ?_⟩
  rw [run_other hbetween hmid] at hload
  exact rejected_tokenless hy hf hr (hc f (by simp) hr) config hload

/-! ## A denied host -/

/-- A configuration with the token. -/
def tokenConfig (token : String) : AppConfig where
  tls := none
  whitelist := none
  enrollment := some { EnrollmentConfig.default with managerUrl := some "https://manager", pollingToken := token }

/-- Its text; the token is one word or empty. -/
def tokenText (token : String) : String :=
  "enrollment:\n  manager_url: https://manager\n  polling_token: " ++ (if token = "" then "''" else token) ++
    "\n  polling_interval_seconds: 60\n  max_poll_attempts: 1440\n  report_interface: null\n  report_ip: null\n" ++
    "  cert_renewal_threshold_days: 7\n"

/-- A YAML library for the two configurations of the host. -/
def tokenYaml : Yaml where
  serialize c := match ["", "tok"].find? fun token => c = tokenConfig token with
    | some token => .ok (tokenText token)
    | none => .error "unsupported"
  parse text := match ["", "tok"].find? fun token => text = tokenText token with
    | some token => .ok (tokenConfig token)
    | none => .error "unsupported"

theorem tokenYaml_roundTrip : tokenYaml.RoundTrip := by
  intro c text h
  simp only [tokenYaml] at h
  split at h
  · next token hfind =>
    have hmem : token = "" ∨ token = "tok" := by simpa using List.mem_of_find?_eq_some hfind
    have hc : c = tokenConfig token := by simpa using List.find?_some hfind
    cases h
    rcases hmem with rfl | rfl
    · rw [hc]
      decide +kernel
    · rw [hc]
      decide +kernel
  · cases h

def configPath : String := "/etc/linux_patch_api/config.yaml"

def configFile (token : String) : HostFiles := fun p => if p = configPath then some (.text (tokenText token)) else none

/-- The manager hands out the token and denies the request. -/
def denying : EnrollmentAnswers where
  register := .ok "tok"
  signals := .ok ()
  poll := fun _ => .response 200 (.ok "\x7b\"status\":\"denied\"\x7d") (.ok .denied)
  fetchRepoConfig := .error (anyhow "unreachable")
  managerIp := .ok "192.0.2.1"
  gpg := fun _ => .notInstalled
  appendManagerToWhitelist := fun _ _ => pure ()

theorem denying_polledDead (token : String) : PolledDead denying (tokenConfig token) := ⟨denying.poll 1, rfl, rfl⟩

/-- A file system that cannot be written. -/
def readOnly : HostSurroundings where
  dirExists := fun _ => true
  outcome := fun _ => .failed "Read-only file system (os error 30)" none

theorem load_configFile {token : String} (h : token = "" ∨ token = "tok") :
    AppConfig.load tokenYaml (configFile token) configPath = .ok (tokenConfig token) := by
  rcases h with rfl | rfl
  · decide +kernel
  · decide +kernel

/-- The first enrollment of the host, whatever becomes of its writes. -/
theorem first_enrollment (env : HostSurroundings) :
    (daemon tokenYaml configPath).step (configFile "") (.enroll denying env) =
    some ((runEnrollment tokenYaml denying (tokenConfig "") configPath).run env (configFile "")).2 := by
  simp only [daemon, load_configFile (.inl rfl)]

theorem first_rejected (env : HostSurroundings) (t : HostFiles) :
    Rejected tokenYaml configPath ⟨configFile "", .enroll denying env, t⟩ :=
  ⟨denying, env, tokenConfig "", "tok", ⟨rfl, load_configFile (.inl rfl), rfl⟩, denying_polledDead "tok"⟩

/-- Both enrollments of a host that cannot save its token register. -/
theorem tokens_dropped_readOnly : ∃ f g s', Run (daemon tokenYaml configPath) (configFile "") [f, g] s' ∧
    Rejected tokenYaml configPath f ∧ Rejected tokenYaml configPath g ∧ TokensDropped tokenYaml configPath [f, g] := by
  have hstep : (daemon tokenYaml configPath).step (configFile "") (.enroll denying readOnly) = some (configFile "") :=
    first_enrollment readOnly
  have hrun : Run (daemon tokenYaml configPath) (configFile "")
    [⟨configFile "", .enroll denying readOnly, configFile ""⟩,
      ⟨configFile "", .enroll denying readOnly, configFile ""⟩] (configFile "") := .snoc (.snoc .nil hstep) hstep
  refine ⟨_, _, _, hrun, first_rejected _ _, first_rejected _ _, tokens_dropped tokenYaml_roundTrip hrun ?_⟩
  intro f hf _ x env config token he
  obtain rfl : f = ⟨configFile "", .enroll denying readOnly, configFile ""⟩ := by simpa using hf
  cases he.act
  obtain rfl := Except.ok.inj (he.load.symm.trans (load_configFile (.inl rfl)))
  unfold SavesNone
  split
  · rfl
  · rfl

theorem saved_token : ((runEnrollment tokenYaml denying (tokenConfig "") configPath).run .sound (configFile "")).2 =
    configFile "tok" := by
  have hsave : ((runEnrollment tokenYaml denying (tokenConfig "") configPath).run .sound (configFile "")).2 =
      Function.update (configFile "") configPath (some (.text (tokenText "tok"))) := rfl
  rw [hsave]
  funext p
  by_cases hp : p = configPath
  · rw [hp, Function.update_self, configFile, if_pos rfl]
  · rw [Function.update_of_ne hp, configFile, configFile, if_neg hp, if_neg hp]

/-- The second enrollment of a denied host polls with the denied token. -/
theorem dead_token_reused : ∃ (y : Yaml) (path : String) (s s' : HostFiles) (tr : List (Fired HostFiles Start)),
    y.RoundTrip ∧ Run (daemon y path) s tr s' ∧ ¬ TokensDropped y path tr := by
  have hfirst : (daemon tokenYaml configPath).step (configFile "") (.enroll denying .sound) =
      some (configFile "tok") := by
    rw [first_enrollment, saved_token]
  have hload := load_configFile (.inr rfl)
  have hsecond : (daemon tokenYaml configPath).step (configFile "tok") (.enroll denying .sound) =
      some ((runEnrollment tokenYaml denying (tokenConfig "tok") configPath).run .sound (configFile "tok")).2 := by
    simp only [daemon, hload]
  refine ⟨_, _, _, _, _, tokenYaml_roundTrip, .snoc (.snoc .nil hfirst) hsecond, fun hdropped => ?_⟩
  obtain ⟨x, env, config, _, hconfig, hempty⟩ :=
    hdropped [] _ [] _ [] rfl (first_rejected _ _) (by simp) ⟨denying, .sound, rfl⟩
  rw [← Except.ok.inj (hload.symm.trans hconfig)] at hempty
  exact absurd hempty (by decide)

end LinuxPatchApi.Enroll
