/-
The registration of a host with its manager: the request of `register` in `src/enroll/client.rs`, and what is known of
every request that is sent, whatever the host answers.
-/
import LinuxPatchApi.Enroll.Addresses

namespace LinuxPatchApi.Enroll

open LinuxPatchApi.Packages Text Interaction

/-! ## The request -/

/-- `EnrollmentRequest`. -/
structure EnrollmentRequest where
  machineId : String
  fqdn : String
  ipAddress : String
  osDetails : FinMap String String
  hostname : Option String

/-- `.context(text)`. -/
def withContext {α : Type} (op : HostOp α) (text : String) : HostOp α := do
  match ← Fallible.attempt op with
  | .ok a => return a
  | .error e => throw (e.context text)

def machineIdContext : String := "Failed to read machine-id — host cannot enroll without identity"

def addressContext : String := "Failed to determine reportable IP address — check network configuration or set " ++
  "report_interface/report_ip in config"

/-- What `register` finds out before it sends anything; `routeTarget` is the address of the manager. -/
def enrollmentRequest (reportInterface reportIp routeTarget : Option String) : HostOp EnrollmentRequest := do
  let machineId ← withContext getMachineId machineIdContext
  let fqdn ← withContext getFqdn "Failed to determine FQDN — check hostname configuration"
  let ipAddress ← withContext (getPrimaryIp reportInterface reportIp routeTarget) addressContext
  let osDetails ← withContext getOsDetails "Failed to collect OS details — /etc/os-release may be missing"
  let hostname ← Fallible.attempt getHostname
  return { machineId, fqdn, ipAddress, osDetails, hostname := hostname.toOption }

/-! ## Names -/

/-- A text with something in it and no white space around it. -/
def Trimmed (s : String) : Prop := s ≠ "" ∧ trim s = s

instance (s : String) : Decidable (Trimmed s) := inferInstanceAs (Decidable (_ ∧ _))

section Ways

variable {α : Type} {Q : α → Prop}

theorem returns_firstOf {ways : List (HostOp (Option α))} (h : ∀ way ∈ ways, Returns (fun r => ∀ a ∈ r, Q a) way) :
    Returns (fun r => ∀ a ∈ r, Q a) (firstOf ways) := by
  induction ways with
  | nil => exact Returns.pure (by simp)
  | cons way ways ih =>
    unfold firstOf
    refine Returns.bind (h way List.mem_cons_self) fun r hr => ?_
    cases r with
    | none => exact ih fun w hw => h w (List.mem_cons_of_mem _ hw)
    | some a => exact Returns.pure hr

/-- With a value for the case that no way gives any. -/
theorem returns_firstOf_getD {ways : List (HostOp (Option α))} {last : α}
    (h : ∀ way ∈ ways, Returns (fun r => ∀ a ∈ r, Q a) way) (hlast : Q last) :
    Returns Q (do let r ← firstOf ways; return r.getD last) := by
  refine Returns.bind (returns_firstOf h) fun r hr => Returns.pure ?_
  cases r with
  | none => exact hlast
  | some a => exact hr a rfl

theorem returns_withContext {op : HostOp α} {text : String} (h : Returns Q op) : Returns Q (withContext op text) := by
  unfold withContext
  refine Returns.bind (Returns.attempt h) fun r hr => ?_
  cases r with
  | ok a => exact Returns.pure (hr a rfl)
  | error e => exact Returns.throw _

end Ways

theorem trimmed_trim {s : String} (h : ¬ (trim s).isEmpty = true) : Trimmed (trim s) :=
  ⟨fun he => h (by rw [he]; rfl), trim_trim s⟩

theorem trimmed_stdoutOf {output : Except String Finished} {name : String} (h : stdoutOf output = some name)
    (hne : ¬ name.isEmpty = true) : Trimmed name := by
  unfold stdoutOf at h
  split at h
  · split at h
    · obtain rfl := Option.some.inj h
      exact trimmed_trim hne
    · cases h
  · cases h

theorem trimmed_domain {short domain : String} (hs : Trimmed short) (hd : Trimmed domain) :
    Trimmed (short ++ "." ++ domain) := by
  have hshort : short.toList ≠ [] := by simpa using hs.1
  have hdomain : domain.toList ≠ [] := by simpa using hd.1
  have htext : (short ++ "." ++ domain).toList = short.toList ++ '.' :: domain.toList := by simp
  refine ⟨fun he => ?_, trim_eq_self ?_ ?_⟩
  · rw [he] at htext
    simp at htext
  · rw [htext, List.head?_append_of_ne_nil _ hshort, ← hs.2]
    exact head_trim
  · rw [htext, List.getLast?_append_cons, List.getLast?_cons_of_ne_nil hdomain, ← hd.2]
    exact last_trim

theorem returns_getMachineId : Returns Trimmed getMachineId := by
  unfold getMachineId
  refine Returns.andThen fun primary => ?_
  split
  · next content hcontent =>
    exact Returns.pure (trimmed_trim (by simpa using (Option.filter_eq_some_iff.1 hcontent).2))
  · refine Returns.andThen fun fallback => ?_
    split
    · exact Returns.throw _
    · split
      · exact Returns.throw _
      · next hne => exact Returns.pure (trimmed_trim hne)

theorem returns_qualifiedName : Returns (fun r => ∀ name ∈ r, Trimmed name) qualifiedName := by
  refine Returns.andThen fun output => Returns.pure fun name hname => ?_
  obtain ⟨hsome, hname⟩ := Option.filter_eq_some_iff.1 hname
  simp only [Bool.and_eq_true, Bool.not_eq_true'] at hname
  exact trimmed_stdoutOf hsome (by simp [hname.1.1])

theorem returns_nameWithDomain : Returns (fun r => ∀ name ∈ r, Trimmed name) nameWithDomain := by
  refine Returns.andThen fun output => ?_
  split
  · exact Returns.pure (by simp)
  · next short hshort =>
    obtain ⟨hsome, hne⟩ := Option.filter_eq_some_iff.1 hshort
    simp only [Bool.and_eq_true, Bool.not_eq_true'] at hne
    refine Returns.andThen fun output' => Returns.pure fun name hname => ?_
    obtain ⟨domain, hdomain, rfl⟩ := Option.map_eq_some_iff.1 hname
    obtain ⟨hsome', hne'⟩ := Option.filter_eq_some_iff.1 hdomain
    exact trimmed_domain (trimmed_stdoutOf hsome (by simp [hne.1])) (trimmed_stdoutOf hsome' (by simpa using hne'))

theorem returns_hostnameFile : Returns (fun r => ∀ name ∈ r, Trimmed name) hostnameFile := by
  refine Returns.andThen fun content => Returns.pure fun name hname => ?_
  obtain ⟨hsome, hne⟩ := Option.filter_eq_some_iff.1 hname
  obtain ⟨text, _, rfl⟩ := Option.map_eq_some_iff.1 hsome
  simp only [Bool.and_eq_true, Bool.not_eq_true'] at hne
  exact trimmed_trim (by simp [hne.1])

theorem returns_hostnameCommand : Returns (fun r => ∀ name ∈ r, Trimmed name) hostnameCommand := by
  refine Returns.andThen fun output => Returns.pure fun name hname => ?_
  obtain ⟨hsome, hne⟩ := Option.filter_eq_some_iff.1 hname
  exact trimmed_stdoutOf hsome (by simpa using hne)

theorem returns_getFqdn : Returns Trimmed getFqdn := by
  refine returns_firstOf_getD ?_ (by decide)
  simp only [List.forall_mem_cons]
  exact ⟨returns_qualifiedName, returns_nameWithDomain, returns_hostnameFile, returns_hostnameCommand, by simp⟩

/-- A name without a domain. -/
def IsLabel (name : String) : Prop := '.' ∉ name.toList

theorem isLabel_firstLabel (name : String) : IsLabel (firstLabel name) := by
  obtain ⟨ps, hps⟩ := splitChars_head '.' name.toList
  have hmem : name.toList.takeWhile (· ≠ '.') ∈ splitChars '.' name.toList := by simp [hps]
  rw [IsLabel, firstLabel, split, hps, List.map_cons, List.headD_cons, String.toList_ofList]
  exact not_mem_of_mem_splitChars hmem

theorem returns_getHostname : Returns IsLabel getHostname := by
  have hlabel : ∀ name : Option String, ∀ label ∈ name.map firstLabel, IsLabel label := fun name label h => by
    obtain ⟨full, _, rfl⟩ := Option.map_eq_some_iff.1 h
    exact isLabel_firstLabel full
  refine returns_firstOf_getD ?_ (show '.' ∉ "localhost".toList by decide)
  simp only [List.forall_mem_cons]
  refine ⟨Returns.andThen fun name => Returns.pure (hlabel name),
    Returns.andThen fun name => Returns.pure (hlabel name), ?_, by simp⟩
  refine Returns.andThen fun fqdn => Returns.pure fun label h => ?_
  split at h
  · rw [← Option.some.inj h]
    exact isLabel_firstLabel fqdn
  · cases h

/-! ## Every request -/

/-- The text of an address, of a bridge or a link only if the configuration asks for the address or its interface. -/
def AddressText (reportInterface reportIp : Option String) (s : String) : Prop :=
  ∃ ip, s = Ipv4Addr.text ip ∧ ip.isLoopback = false ∧
    (Routable ip ∨ reportIp = some s ∨ reportInterface ≠ none)

section Request

variable {reportInterface reportIp routeTarget : Option String}

theorem returns_orFail {α : Type} {Q : α → Prop} {found : Option α} {e : AnyhowError} (h : ∀ a ∈ found, Q a) :
    Returns Q (orFail found e) := by
  cases found with
  | none => exact Returns.throw e
  | some a => exact Returns.pure (h a rfl)

theorem returns_tryLookup {Q : String → Prop} {lookup : Option (HostOp String)}
    (h : ∀ op ∈ lookup, Returns Q op) : Returns (fun r => ∀ s ∈ r, Q s) (tryLookup lookup) := by
  cases lookup with
  | none => exact Returns.pure (by simp)
  | some op =>
    refine Returns.bind (Returns.attempt (h op rfl)) fun r hr => Returns.pure fun s hs => ?_
    cases r with
    | ok a => exact hr s (congrArg Except.ok (Option.some.inj hs))
    | error e => cases hs

theorem returns_detectedIp : Returns (AddressText reportInterface reportIp) detectedIp := by
  refine Returns.bind (Q := fun addrs => ∀ s ∈ addrs.head?, AddressText reportInterface reportIp s) ?_
    fun addrs haddrs => returns_orFail haddrs
  unfold getIpAddresses
  refine Returns.andThen fun ifaces => ?_
  cases ifaces with
  | error e => exact Returns.throw _
  | ok ifaces =>
    refine Returns.pure fun s hs => ?_
    obtain ⟨ip, rfl, hleast⟩ := head_detected.1 hs
    obtain ⟨_, _, other, _, hroutable, htext⟩ := hleast.1
    exact ⟨other, htext, hroutable.notLoopback, .inl hroutable⟩

theorem returns_getPrimaryIp :
    Returns (AddressText reportInterface reportIp) (getPrimaryIp reportInterface reportIp routeTarget) := by
  refine Returns.bind (returns_firstOf (Q := AddressText reportInterface reportIp) ?_) fun r hr => ?_
  · simp only [List.forall_mem_cons]
    refine ⟨Returns.pure fun s hs => ?_, returns_tryLookup fun op hop => ?_, returns_tryLookup fun op hop => ?_, by simp⟩
    · obtain ⟨ip, rfl, hconfigured, hloop⟩ := configuredIp_eq_some.1 hs
      exact ⟨ip, rfl, hloop, .inr (.inl hconfigured)⟩
    · obtain ⟨name, hname, rfl⟩ := Option.map_eq_some_iff.1 hop
      refine Returns.andThen fun ifaces => ?_
      cases ifaces with
      | error e => exact Returns.throw _
      | ok ifaces =>
        refine returns_orFail fun s hs => ?_
        obtain ⟨ip, rfl, _, _, _, _, ⟨_, _, hloop⟩, _⟩ := findSome_addressOn.1 hs
        exact ⟨ip, rfl, hloop, .inr (.inr (by simp [hname]))⟩
    · obtain ⟨target, _, rfl⟩ := Option.map_eq_some_iff.1 hop
      refine Returns.andThen fun output => ?_
      cases output with
      | error e => exact Returns.throw _
      | ok out =>
        dsimp only
        split
        · exact Returns.throw _
        · refine returns_orFail fun s hs => ?_
          obtain ⟨ip, rfl, _, _, _, _, hroutable⟩ := routeSource_eq_some.1 hs
          exact ⟨ip, rfl, hroutable.notLoopback, .inl hroutable⟩
  · cases r with
    | none => exact returns_detectedIp
    | some s => exact Returns.pure (hr s rfl)

theorem total_firstOf {α : Type} {ways : List (HostOp (Option α))} (h : ∀ way ∈ ways, Total way) :
    Total (firstOf ways) := by
  induction ways with
  | nil => exact .pure _
  | cons way ways ih =>
    refine .bind (h way List.mem_cons_self) fun r => ?_
    cases r with
    | none => exact ih fun w hw => h w (List.mem_cons_of_mem _ hw)
    | some a => exact .pure _

theorem total_hostnameFile : Total hostnameFile := .bind (.performE _) fun _ => .pure _

theorem total_hostnameCommand : Total hostnameCommand := .bind (.performE _) fun _ => .pure _

theorem total_nameWithDomain : Total nameWithDomain := by
  refine .bind (.performE _) fun output => ?_
  split
  · exact .pure _
  · exact .bind (.performE _) fun _ => .pure _

/-- There is always a name to fall back on. -/
theorem total_getFqdn : Total getFqdn := by
  refine .bind (total_firstOf ?_) fun _ => .pure _
  simp only [List.forall_mem_cons]
  exact ⟨.bind (.performE _) fun _ => .pure _, total_nameWithDomain, total_hostnameFile, total_hostnameCommand, by simp⟩

theorem total_getHostname : Total getHostname := by
  refine .bind (total_firstOf ?_) fun _ => .pure _
  simp only [List.forall_mem_cons]
  exact ⟨.bind total_hostnameFile fun _ => .pure _, .bind total_hostnameCommand fun _ => .pure _,
    .bind total_getFqdn fun _ => .pure _, by simp⟩

theorem total_getOsDetails : Total getOsDetails := .bind (.performE _) fun _ => .bind (.performE _) fun _ => .pure _

theorem runs_withContext {α : Type} {op : HostOp α} {text : String} {t : List (Event HostQuery.Answer)}
    {r : Except AnyhowError α} (h : Runs (withContext op text).run t r) :
    (∃ a, r = .ok a ∧ Runs op.run t (.ok a)) ∨ ∃ e, r = .error (e.context text) ∧ Runs op.run t (.error e) := by
  unfold withContext at h
  rcases runs_bindE.1 h with ⟨e, he, _⟩ | ⟨t₁, t₂, s, rfl, hs, hrest⟩
  · obtain ⟨s, hs, _⟩ := runs_attempt.1 he
    cases hs
  · obtain ⟨s', hs', hop⟩ := runs_attempt.1 hs
    obtain rfl := Except.ok.inj hs'
    cases s with
    | ok a =>
      obtain ⟨rfl, rfl⟩ := runs_pure.1 hrest
      exact .inl ⟨a, rfl, by simpa using hop⟩
    | error e =>
      obtain ⟨rfl, rfl⟩ := runs_pure.1 hrest
      exact .inr ⟨e, rfl, by simpa using hop⟩

/-- What the manager may rely on in a request. -/
structure EnrollmentRequest.WellFormed (q : EnrollmentRequest) (reportInterface reportIp : Option String) : Prop where
  machineId : Trimmed q.machineId
  fqdn : Trimmed q.fqdn
  ipAddress : AddressText reportInterface reportIp q.ipAddress
  hostname : ∃ name, q.hostname = some name ∧ IsLabel name

theorem total_withContext {α : Type} {op : HostOp α} {text : String} (h : Total op) : Total (withContext op text) := by
  intro t r hr
  rcases runs_withContext hr with ⟨a, rfl, _⟩ | ⟨e, _, he⟩
  · exact ⟨a, rfl⟩
  · obtain ⟨a, ha⟩ := h t _ he
    cases ha

/-- A request is well-formed, and is given up only if there is no machine id or no address. -/
theorem request_outcome {t : List (Event HostQuery.Answer)} {r : Except AnyhowError EnrollmentRequest}
    (h : Runs (enrollmentRequest reportInterface reportIp routeTarget).run t r) :
    (∃ q, r = .ok q ∧ q.WellFormed reportInterface reportIp) ∨
      ∃ e, r = .error e ∧ (e.display = machineIdContext ∨ e.display = addressContext) := by
  unfold enrollmentRequest at h
  rcases runs_bindE.1 h with ⟨e, he, rfl⟩ | ⟨_, _, machineId, -, hid, h⟩
  · rcases runs_withContext he with ⟨a, hok, _⟩ | ⟨e', he', _⟩
    · cases hok
    · obtain rfl := Except.error.inj he'
      exact .inr ⟨_, rfl, .inl rfl⟩
  rcases runs_bindE.1 h with ⟨e, he, rfl⟩ | ⟨_, _, fqdn, -, hfqdn, h⟩
  · obtain ⟨_, hok⟩ := total_withContext total_getFqdn _ _ he
    cases hok
  rcases runs_bindE.1 h with ⟨e, he, rfl⟩ | ⟨_, _, ipAddress, -, hip, h⟩
  · rcases runs_withContext he with ⟨a, hok, _⟩ | ⟨e', he', _⟩
    · cases hok
    · obtain rfl := Except.error.inj he'
      exact .inr ⟨_, rfl, .inr rfl⟩
  rcases runs_bindE.1 h with ⟨e, he, rfl⟩ | ⟨_, _, osDetails, -, -, h⟩
  · obtain ⟨_, hok⟩ := total_withContext total_getOsDetails _ _ he
    cases hok
  rcases runs_bindE.1 h with ⟨e, he, rfl⟩ | ⟨_, _, name, -, hname, h⟩
  · obtain ⟨_, hok, _⟩ := runs_attempt.1 he
    cases hok
  obtain ⟨-, rfl⟩ := runs_pure.1 h
  obtain ⟨s, hs, hname⟩ := runs_attempt.1 hname
  obtain rfl := Except.ok.inj hs
  obtain ⟨label, rfl⟩ := total_getHostname _ _ hname
  exact .inl ⟨_, rfl, returns_withContext returns_getMachineId _ _ hid _ rfl,
    returns_withContext returns_getFqdn _ _ hfqdn _ rfl, returns_withContext returns_getPrimaryIp _ _ hip _ rfl,
    label, rfl, returns_getHostname _ _ hname _ rfl⟩

end Request

def printed (text : String) : Except String Finished := .ok ⟨true, text.toList.map fun c => .ofNat c.toNat, []⟩

/-- A host with a bridge of its own, whose manager is reached over the other interface. -/
def labHost : (q : HostQuery) → q.Answer
  | .readToString path =>
    if path = "/etc/machine-id" then .ok "5f0c27\n"
    else if path = "/etc/hostname" then .ok "web1\n"
    else .error "No such file or directory"
  | .output program args =>
    if program = "ip" then printed "10.0.0.1 dev eth0 src 10.0.0.7 uid 0\n"
    else if program = "uname" then printed "6.8.0\n"
    else if args = ["-f"] then printed "web1.lab.example\n"
    else if args = ["-d"] then printed "lab.example\n"
    else printed "web1\n"
  | .getIfAddrs => .ok [⟨"docker0", .v4 (.ofOctets 172 17 0 1)⟩, ⟨"eth0", .v4 (.ofOctets 10 0 0 7)⟩]

theorem labHost_request : ((exec labHost (enrollmentRequest none none (some "10.0.0.1")).run).2.toOption.map
      fun q => (q.machineId, q.fqdn, q.ipAddress, q.hostname)) =
        some ("5f0c27", "web1.lab.example", "10.0.0.7", some "web1") ∧
    ((∃ q, (exec labHost (enrollmentRequest none none (some "10.0.0.1")).run).2 = .ok q ∧ q.WellFormed none none) ∨
      ∃ e, (exec labHost (enrollmentRequest none none (some "10.0.0.1")).run).2 = .error e ∧
        (e.display = machineIdContext ∨ e.display = addressContext)) :=
  ⟨by decide +kernel, request_outcome (runs_exec labHost _)⟩

/-! ## Names that agree -/

section Names

variable {o : (q : HostQuery) → q.Answer}

/-- In fixed surroundings the first way that gives anything is the one that counts. -/
theorem outcome_firstOf {α : Type} {ways : List (HostOp (Option α))} {found : List (Option α)}
    (h : List.Forall₂ (fun way r => outcome o way.run = .ok r) ways found) :
    outcome o (firstOf ways).run = .ok (found.findSome? id) := by
  induction h with
  | nil => rfl
  | @cons way r ways found hway _ ih =>
    unfold firstOf
    rw [outcome_bindE o hway]
    cases r with
    | none => exact ih
    | some a => rfl

/-- A name that the host gives for itself. -/
def GivesName (o : (q : HostQuery) → q.Answer) (name : String) : Prop :=
  ∃ way ∈ [hostnameFile, hostnameCommand, qualifiedName], outcome o way.run = .ok (some name)

theorem firstLabel_eq (name : String) :
    firstLabel name = String.ofList (name.toList.takeWhile fun c => decide (c ≠ '.')) := by
  obtain ⟨ps, hps⟩ := splitChars_head '.' name.toList
  rw [firstLabel, split, hps, List.map_cons, List.headD_cons]

/-- A domain does not change the first label. -/
theorem firstLabel_domain (short domain : String) : firstLabel (short ++ "." ++ domain) = firstLabel short := by
  have htext : (short ++ "." ++ domain).toList = short.toList ++ '.' :: domain.toList := by simp
  rw [firstLabel_eq, firstLabel_eq, htext]
  congr 1
  induction short.toList with
  | nil => simp
  | cons c cs ih => rw [List.cons_append, List.takeWhile_cons, List.takeWhile_cons, ih]

theorem nameWithDomain_ok {name : String} (h : outcome o nameWithDomain.run = .ok (some name)) :
    ∃ short domain, name = short ++ "." ++ domain ∧ outcome o hostnameCommand.run = .ok (some short) := by
  have hcall : outcome o (commandOutput "hostname" []).run = .ok (o (.output "hostname" [])) := outcome_performE o _
  have hcall' : outcome o (commandOutput "hostname" ["-d"]).run = .ok (o (.output "hostname" ["-d"])) :=
    outcome_performE o _
  unfold nameWithDomain at h
  rw [outcome_bindE o hcall] at h
  split at h
  · cases Except.ok.inj h
  · next short hshort =>
    rw [outcome_bindE o hcall'] at h
    obtain ⟨domain, _, rfl⟩ := Option.map_eq_some_iff.1 (Except.ok.inj h)
    obtain ⟨hsome, hne⟩ := Option.filter_eq_some_iff.1 hshort
    simp only [Bool.and_eq_true] at hne
    refine ⟨short, domain, rfl, ?_⟩
    unfold hostnameCommand
    rw [outcome_bindE o hcall, hsome]
    show Except.ok (Option.filter _ (some short)) = _
    rw [Option.filter_some, if_pos hne.1]

/-- The label of the full name, which is asked for last. -/
theorem outcome_labelOfFqdn {fqdn : String} (h : outcome o getFqdn.run = .ok fqdn) : outcome o labelOfFqdn.run =
    .ok (if fqdn != "localhost" && contains fqdn "." then some (firstLabel fqdn) else none) := by
  unfold labelOfFqdn
  rw [outcome_bindE o h]
  rfl

theorem qualifiedName_ok {name : String} (h : outcome o qualifiedName.run = .ok (some name)) :
    contains name "." = true := by
  have hcall : outcome o (commandOutput "hostname" ["-f"]).run = .ok (o (.output "hostname" ["-f"])) :=
    outcome_performE o _
  unfold qualifiedName at h
  rw [outcome_bindE o hcall] at h
  have hname := (Option.filter_eq_some_iff.1 (Except.ok.inj h)).2
  simp only [Bool.and_eq_true] at hname
  exact hname.1.2

/-- Where all names of the host have one first label, the short name is that of the full one. -/
theorem hostname_of_fqdn {label : String} (h : ∀ name, GivesName o name → firstLabel name = label) :
    ∃ fqdn, outcome o getFqdn.run = .ok fqdn ∧ outcome o getHostname.run = .ok (firstLabel fqdn) := by
  have hqualified : Total qualifiedName := .bind (.performE _) fun _ => .pure _
  obtain ⟨q, hq⟩ := hqualified.outcome o
  obtain ⟨d, hd⟩ := total_nameWithDomain.outcome o
  obtain ⟨f, hf⟩ := total_hostnameFile.outcome o
  obtain ⟨c, hc⟩ := total_hostnameCommand.outcome o
  have hfqdn : outcome o getFqdn.run = .ok (([q, d, f, c].findSome? id).getD "localhost") := by
    unfold getFqdn
    rw [outcome_bindE o (outcome_firstOf (.cons hq (.cons hd (.cons hf (.cons hc .nil)))))]
    rfl
  have hlabel {op : HostOp (Option String)} {r : Option String} (hop : outcome o op.run = .ok r) :
      outcome o (do return (← op).map firstLabel : HostOp (Option String)).run = .ok (r.map firstLabel) := by
    rw [outcome_bindE o hop]
    rfl
  refine ⟨_, hfqdn, ?_⟩
  unfold getHostname
  rw [outcome_bindE o (outcome_firstOf (.cons (hlabel hf) (.cons (hlabel hc) (.cons (outcome_labelOfFqdn hfqdn) .nil))))]
  show Except.ok _ = Except.ok _
  congr 1
  have hgiven {way : HostOp (Option String)} {name : String}
      (hway : way ∈ [hostnameFile, hostnameCommand, qualifiedName]) (hop : outcome o way.run = .ok (some name)) :
      firstLabel name = label := h name ⟨way, hway, hop⟩
  have hdomain : ∀ name, d = some name → ∃ short, c = some short ∧ firstLabel name = firstLabel short := by
    rintro name rfl
    obtain ⟨short, domain, rfl, hshort⟩ := nameWithDomain_ok hd
    exact ⟨short, Except.ok.inj (hc.symm.trans hshort), firstLabel_domain short domain⟩
  have hall : ∀ name, [q, d, f, c].findSome? id = some name → firstLabel name = label := by
    intro name hname
    obtain ⟨r, hr, rfl⟩ := List.exists_of_findSome?_eq_some hname
    simp only [List.mem_cons, List.not_mem_nil, or_false] at hr
    rcases hr with rfl | rfl | rfl | rfl
    · exact hgiven (by simp) hq
    · obtain ⟨short, rfl, hshort⟩ := hdomain name rfl
      rw [hshort]
      exact hgiven (by simp) hc
    · exact hgiven (by simp) hf
    · exact hgiven (by simp) hc
  by_cases hnone : f = none ∧ c = none
  · obtain ⟨rfl, rfl⟩ := hnone
    have hd : d = none := Option.eq_none_iff_forall_ne_some.2 fun name hname => by
      obtain ⟨_, hshort, _⟩ := hdomain name hname
      cases hshort
    subst hd
    cases q with
    | none => decide
    | some name =>
      have hdot := qualifiedName_ok hq
      have hne : name ≠ "localhost" := by
        rintro rfl
        revert hdot
        decide
      simp [hdot, hne]
  · obtain ⟨name, hname, hfirst⟩ : ∃ name, firstLabel name = label ∧ (f.or c) = some name := by
      cases f with
      | some name => exact ⟨name, hgiven (by simp) hf, rfl⟩
      | none =>
        cases c with
        | some name => exact ⟨name, hgiven (by simp) hc, rfl⟩
        | none => exact absurd ⟨rfl, rfl⟩ hnone
    obtain ⟨full, hfull⟩ : ∃ full, [q, d, f, c].findSome? id = some full := by
      refine Option.isSome_iff_exists.1 (List.findSome?_isSome_iff.2 ?_)
      cases f with
      | some given => exact ⟨some given, by simp, rfl⟩
      | none => exact ⟨c, by simp, by rw [id, show c = some name from hfirst]; rfl⟩
    rw [hfull, Option.getD_some, hall full hfull, ← hname]
    cases f with
    | some given =>
      obtain rfl : given = name := Option.some.inj hfirst
      rfl
    | none =>
      obtain rfl : c = some name := hfirst
      rfl

end Names

theorem labHost_names : ∃ fqdn, outcome labHost getFqdn.run = .ok fqdn ∧
    outcome labHost getHostname.run = .ok (firstLabel fqdn) := by
  refine @hostname_of_fqdn labHost "web1" fun name h => ?_
  obtain ⟨way, hway, hname⟩ := h
  have hgives : outcome labHost hostnameFile.run = .ok (some "web1") ∧
      outcome labHost hostnameCommand.run = .ok (some "web1") ∧
      outcome labHost qualifiedName.run = .ok (some "web1.lab.example") := by decide +kernel
  simp only [List.mem_cons, List.not_mem_nil, or_false] at hway
  rcases hway with rfl | rfl | rfl
  · rw [Option.some.inj (Except.ok.inj (hname.symm.trans hgives.1))]
    decide
  · rw [Option.some.inj (Except.ok.inj (hname.symm.trans hgives.2.1))]
    decide
  · rw [Option.some.inj (Except.ok.inj (hname.symm.trans hgives.2.2))]
    decide

end LinuxPatchApi.Enroll
