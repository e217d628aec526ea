/-
The status of an OpenRC service: what `rc-service` and `rc-update` say of it, and when the status that is built from
their answers says the same. A stopped, crashed or missing service makes `rc-service` exit with an error, which the
runner hands over as one.
-/
import LinuxPatchApi.Lib.Search
import LinuxPatchApi.Packages.PendingReboot

namespace LinuxPatchApi.Packages

open Text Interaction

/-! ## What the commands say -/

section Answers

variable (answer : Except AnyhowError CommandOutput)

/-- `rc-service` says that there is no such service. -/
def SaysMissing : Prop :=
  contains (stdoutOf answer) "does not exist" = true ∨ contains (stderrOf answer) "does not exist" = true

/-- The word is printed, in any letter case. -/
def Says (word : String) : Prop := shows (stdoutOf answer) word = true ∨ shows (stderrOf answer) word = true

/-- The service is there and runs. -/
def SaysUp : Prop := ¬ SaysMissing answer ∧ Says answer "started" ∧ ¬ Says answer "stopped" ∧ ¬ Says answer "crashed"

/-- The service is there and does not run. -/
def SaysDown : Prop :=
  ¬ SaysMissing answer ∧ (Says answer "stopped" ∨ Says answer "crashed") ∧ ¬ Says answer "started"

/-- Nothing of this is said: `rc-service` failed in another way. -/
def SaysNothing : Prop :=
  ¬ SaysMissing answer ∧ ¬ Says answer "started" ∧ ¬ Says answer "stopped" ∧ ¬ Says answer "crashed"

/-- The service that a line of `rc-update show` names, before the bar. -/
def serviceOf (line : String) : String := trim (String.ofList (line.toList.takeWhile (· ≠ '|')))

/-- A line of `rc-update show default` names exactly the service. -/
def NamesService (name : String) : Prop := ∃ line ∈ lines (stdoutOf answer), serviceOf line = name

/-- A line begins with the name. -/
def BeginsWithName (name : String) : Prop := ∃ line ∈ lines (stdoutOf answer), startsWith (trim line) name = true

/-- The first line shows a word for a running service. -/
def FirstLineRuns : Prop :=
  shows ((lines (stdoutOf answer)).headD "") "started" = true ∨
    shows ((lines (stdoutOf answer)).headD "") "running" = true

instance : Decidable (SaysMissing answer) := inferInstanceAs (Decidable (_ ∨ _))

instance (word : String) : Decidable (Says answer word) := inferInstanceAs (Decidable (_ ∨ _))

instance : Decidable (SaysDown answer) := inferInstanceAs (Decidable (_ ∧ _ ∧ _))

instance (name : String) : Decidable (NamesService answer name) := inferInstanceAs (Decidable (∃ line ∈ _, _))

instance : Decidable (FirstLineRuns answer) := inferInstanceAs (Decidable (_ ∨ _))

variable {answer} {name : String}

/-- The line that names the service begins with its name. -/
theorem BeginsWithName.of_names (h : NamesService answer name) : BeginsWithName answer name := by
  obtain ⟨line, hline, rfl⟩ := h
  refine ⟨line, hline, ?_⟩
  rw [startsWith, List.isPrefixOf_iff_prefix]
  refine trim_isPrefix ?_
  rw [String.toList_ofList]
  exact List.takeWhile_prefix _

end Answers

/-! ## The status -/

section Status

variable (o : (e : Effect) → Response e) (name : String)

/-- The answer to `rc-service <name> status`. -/
def serviceAnswer : Except AnyhowError CommandOutput := quickAnswer o "rc-service" [.request name, "status"]

/-- The answer to `rc-update show default`. -/
def runlevelAnswer : Except AnyhowError CommandOutput := quickAnswer o "rc-update" ["show", "default"]

/-- The status that is read from an output of `rc-service`. -/
def openrcStatus (stdout : String) (enabled : Option CommandOutput) : ServiceStatus where
  name := name
  displayName := name
  activeState := (openrcState stdout).1
  subState := (openrcState stdout).2.1
  loadState := "loaded"
  enabledState := openrcEnabled name enabled
  mainPid := none
  healthy := (openrcState stdout).2.2

variable {name} in
theorem openrcStatus_healthy (stdout : String) (enabled : Option CommandOutput) :
    (openrcStatus name stdout enabled).healthy = (openrcState stdout).2.2 := by
  unfold openrcStatus
  dsimp only

variable {name} in
theorem openrcStatus_enabledState (stdout : String) (enabled : Option CommandOutput) :
    (openrcStatus name stdout enabled).enabledState = openrcEnabled name enabled := by
  unfold openrcStatus
  dsimp only

/-- The status says what the two commands say. -/
structure FaithfulStatus (result : Except AnyhowError (Option ServiceStatus)) : Prop where
  missing : result = .ok none ↔ SaysMissing (serviceAnswer o name)
  down : SaysDown (serviceAnswer o name) → ∃ status, result = .ok (some status) ∧ status.healthy = false
  up : SaysUp (serviceAnswer o name) → ∃ status, result = .ok (some status) ∧ status.healthy = true
  failed : ∀ e, result = .error e → SaysNothing (serviceAnswer o name)
  enabled : ∀ status, result = .ok (some status) →
    (status.enabledState = "enabled" ↔ NamesService (runlevelAnswer o) name)

/-- The lines of `rc-update` are read as meant: those that begin with the name are not only others' lines. -/
def RunlevelRead : Prop :=
  match runlevelAnswer o with
  | .ok _ => BeginsWithName (runlevelAnswer o) name → NamesService (runlevelAnswer o) name
  | .error _ => ¬ NamesService (runlevelAnswer o) name

/-- The answers are read as meant: `rc-service` fails only without saying anything of the service, and when it succeeds
its first line shows whether the service runs. -/
def ReadAsMeant : Prop :=
  match serviceAnswer o name with
  | .error _ => SaysNothing (serviceAnswer o name)
  | .ok _ => ¬ SaysMissing (serviceAnswer o name) ∧
      (SaysUp (serviceAnswer o name) → FirstLineRuns (serviceAnswer o name)) ∧
      (SaysDown (serviceAnswer o name) → ¬ FirstLineRuns (serviceAnswer o name)) ∧ RunlevelRead o name

variable {o name}

theorem outcome_getOpenrcServiceStatus (hrunner : RunnerContract o) :
    outcome o (getOpenrcServiceStatus name).run = (serviceAnswer o name).map fun output =>
      some (openrcStatus name output.stdout (runlevelAnswer o).toOption) := by
  have hrun : outcome o (runWithTimeout "rc-service" [.request name, "status"] (some quickOpTimeout)).run =
      serviceAnswer o name := rfl
  have hkept : KeepsContract (serviceAnswer o name) := hrunner _ _ _
  unfold getOpenrcServiceStatus
  cases hanswer : serviceAnswer o name with
  | error e =>
    rw [hanswer] at hrun
    exact outcome_bindE_error o hrun _
  | ok output =>
    rw [hanswer] at hrun hkept
    have hsuccess : output.success = true := hkept
    rw [outcome_bindE o hrun, if_pos hsuccess, outcome_bindE o (outcome_tryRun o "rc-update" ["show", "default"])]
    rfl

theorem openrcState_healthy (output : CommandOutput) :
    (openrcState output.stdout).2.2 = true ↔ FirstLineRuns (.ok output) := by
  unfold openrcState FirstLineRuns shows
  rw [← Bool.or_eq_true]
  dsimp only [stdoutOf]
  generalize toLowercase ((lines output.stdout).headD "") = line
  split
  · next h => exact iff_of_true rfl h
  · next h =>
    refine iff_of_false ?_ h
    split
    · exact Bool.false_ne_true
    split <;> exact Bool.false_ne_true

theorem openrcEnabled_iff : openrcEnabled name (runlevelAnswer o).toOption = "enabled" ↔
    (runlevelAnswer o).isOk = true ∧ BeginsWithName (runlevelAnswer o) name := by
  unfold openrcEnabled BeginsWithName
  cases runlevelAnswer o with
  | error e => simp [Except.toOption, Except.isOk, Except.toBool]
  | ok output =>
    rw [← List.any_eq_true]
    dsimp only [Except.toOption, stdoutOf]
    split
    · next h => simp [h, Except.isOk, Except.toBool]
    · next h => simp [h]

/-- The service is reported as enabled exactly when a line names it. -/
theorem runlevelRead_iff : RunlevelRead o name ↔
    (openrcEnabled name (runlevelAnswer o).toOption = "enabled" ↔ NamesService (runlevelAnswer o) name) := by
  rw [openrcEnabled_iff]
  unfold RunlevelRead
  cases runlevelAnswer o with
  | error e => simp [Except.isOk, Except.toBool]
  | ok output =>
    have hok : (Except.ok output : Except AnyhowError CommandOutput).isOk = true := rfl
    rw [hok]
    constructor
    · intro h
      exact ⟨fun hbegins => h hbegins.2, fun hnames => ⟨rfl, .of_names hnames⟩⟩
    · intro h hbegins
      exact h.1 ⟨rfl, hbegins⟩

/-- A status that comes out is faithful if and only if the service is not said to be missing and the words are read as
meant. -/
theorem faithful_some_iff {status : ServiceStatus}
    (hhealthy : status.healthy = true ↔ FirstLineRuns (serviceAnswer o name))
    (henabled : (status.enabledState = "enabled" ↔ NamesService (runlevelAnswer o) name) ↔ RunlevelRead o name) :
    FaithfulStatus o name (.ok (some status)) ↔ ¬ SaysMissing (serviceAnswer o name) ∧
      (SaysUp (serviceAnswer o name) → FirstLineRuns (serviceAnswer o name)) ∧
      (SaysDown (serviceAnswer o name) → ¬ FirstLineRuns (serviceAnswer o name)) ∧ RunlevelRead o name := by
  constructor
  · intro h
    refine ⟨fun hmissing => ?_, fun hup => ?_, fun hdown => ?_, henabled.1 (h.enabled status rfl)⟩
    · cases h.missing.2 hmissing
    · obtain ⟨_, ⟨⟩, hruns⟩ := h.up hup
      exact hhealthy.1 hruns
    · obtain ⟨_, ⟨⟩, hruns⟩ := h.down hdown
      rwa [← hhealthy, Bool.not_eq_true]
  · rintro ⟨hmissing, hup, hdown, hrunlevel⟩
    constructor
    · exact iff_of_false (fun heq => by cases heq) hmissing
    · intro hd
      exact ⟨status, rfl, Bool.eq_false_iff.2 fun hruns => hdown hd (hhealthy.1 hruns)⟩
    · intro hu
      exact ⟨status, rfl, hhealthy.2 (hup hu)⟩
    · rintro e ⟨⟩
    · rintro _ ⟨⟩
      exact henabled.2 hrunlevel

/-- An error is faithful if and only if nothing is said of the service. -/
theorem faithful_error_iff {e : AnyhowError} :
    FaithfulStatus o name (.error e) ↔ SaysNothing (serviceAnswer o name) := by
  constructor
  · intro h
    exact h.failed e rfl
  · rintro ⟨hmissing, hstarted, hstopped, hcrashed⟩
    constructor
    · exact iff_of_false (fun heq => by cases heq) hmissing
    · rintro ⟨_, hdown, _⟩
      exact absurd hdown (not_or.2 ⟨hstopped, hcrashed⟩)
    · rintro ⟨_, hup, _⟩
      exact absurd hup hstarted
    · rintro _ ⟨⟩
      exact ⟨hmissing, hstarted, hstopped, hcrashed⟩
    · rintro status ⟨⟩

/-- The status of an OpenRC service is faithful if and only if the two answers are read as meant. -/
theorem status_faithful_iff (hrunner : RunnerContract o) (name : String) :
    FaithfulStatus o name (outcome o (getOpenrcServiceStatus name).run) ↔ ReadAsMeant o name := by
  rw [outcome_getOpenrcServiceStatus hrunner]
  unfold ReadAsMeant
  cases hanswer : serviceAnswer o name with
  | error e =>
    have hfaithful : FaithfulStatus o name (.error e) ↔ SaysNothing (serviceAnswer o name) := faithful_error_iff
    rwa [hanswer] at hfaithful
  | ok output =>
    have hhealthy : (openrcStatus name output.stdout (runlevelAnswer o).toOption).healthy = true ↔
        FirstLineRuns (serviceAnswer o name) := by
      rw [openrcStatus_healthy, hanswer]
      exact openrcState_healthy output
    have henabled : ((openrcStatus name output.stdout (runlevelAnswer o).toOption).enabledState = "enabled" ↔
        NamesService (runlevelAnswer o) name) ↔ RunlevelRead o name := by
      rw [openrcStatus_enabledState]
      exact runlevelRead_iff.symm
    have hfaithful := faithful_some_iff hhealthy henabled
    rwa [hanswer] at hfaithful

end Status

/-- A host whose `rc-service` exits and prints as given, and whose default runlevel is listed as given. -/
def openrcHost (exitCode : Int) (status runlevel : String) : (e : Effect) → Response e
  | .run program args _ =>
    if program == "rc-service" then exitedRun program (args.map Arg.text) exitCode status
    else exitedRun program (args.map Arg.text) 0 runlevel
  | e => Host.empty.answer e

theorem openrcHost_runner {exitCode : Int} {status runlevel : String} :
    RunnerContract (openrcHost exitCode status runlevel) := by
  intro program args timeout
  show KeepsContract (if program == "rc-service" then _ else _)
  split <;> exact keepsContract_exitedRun

/-- A running service whose name begins that of another one. -/
theorem running_service_faithful :
    FaithfulStatus (openrcHost 0 " * status: started\n" " ssh | default\n sshd | default\n") "ssh"
      (outcome (openrcHost 0 " * status: started\n" " ssh | default\n sshd | default\n")
        (getOpenrcServiceStatus "ssh").run) := by
  have hnames : NamesService (runlevelAnswer (openrcHost 0 " * status: started\n" " ssh | default\n sshd | default\n"))
      "ssh" := by decide
  exact (status_faithful_iff openrcHost_runner "ssh").2
    ⟨by decide, fun _ => by decide, fun hdown => absurd hdown (by decide), fun _ => hnames⟩

/-- A stopped service: `rc-service` prints so and exits with 3, and the query fails. -/
theorem stopped_service_fails : ∃ (o : (e : Effect) → Response e) (name : String),
    RunnerContract o ∧ SaysDown (serviceAnswer o name) ∧ exitCodeOf (serviceAnswer o name) = some 3 ∧
      (outcome o (getOpenrcServiceStatus name).run).isOk = false ∧
      ¬ FaithfulStatus o name (outcome o (getOpenrcServiceStatus name).run) := by
  have hdown : SaysDown (serviceAnswer (openrcHost 3 " * status: stopped\n" "") "sshd") := by decide
  refine ⟨openrcHost 3 " * status: stopped\n" "", "sshd", openrcHost_runner, hdown, rfl, rfl, fun h => ?_⟩
  obtain ⟨status, hstatus, _⟩ := h.down hdown
  cases hstatus

end LinuxPatchApi.Packages
