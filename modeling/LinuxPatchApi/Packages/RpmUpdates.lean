/-
The two questions that DNF and YUM answer about updates: whether `list_patches` and `get_package` say the same of a
package. A runner reports the exit code 100 of `check-update` as an error, which only `list_patches` looks into.
-/
import LinuxPatchApi.Packages.PendingReboot

namespace LinuxPatchApi.Packages

open Text Interaction

/-- The tool of the two backends for RPM systems. -/
def BackendKind.rpmTool : BackendKind → Option String
  | .dnf => some "dnf"
  | .yum => some "yum"
  | .apt | .apk | .pacman => none

namespace Rpm

section Queries

variable (o : (e : Effect) → Response e)

/-! ## What list_patches returns -/

/-- The version that `rpm -q` shows, empty if it shows none. -/
def shownVersion (name : String) : String :=
  ((quickAnswer o "rpm" ["-q", "--qf", "%\x7bVERSION\x7d-%\x7bRELEASE\x7d", .own name]).map (·.stdout)).toOption.getD ""

/-- The patch of a line, in fixed surroundings. -/
def patchIn (line : String) : Option Patch :=
  match splitWhitespace (trim line) with
  | fullName :: availableVersion :: repo :: _ =>
    some (Patch.of (beforeLastDot fullName) (trim (shownVersion o (beforeLastDot fullName))) availableVersion
      ("Package update available from " ++ repo))
  | _ => none

theorem outcome_patchOfLine (line : String) : outcome o (patchOfLine line).run = .ok (patchIn o line) := by
  unfold patchOfLine patchIn
  rcases splitWhitespace (trim line) with _ | ⟨fullName, _ | ⟨availableVersion, _ | ⟨repo, rest⟩⟩⟩
  · rfl
  · rfl
  · rfl
  · refine (outcome_bindE o (outcome_unwrapOr o _ _) _).trans ?_
    rw [runRpm, outcome_runCommandTimed]
    rfl

theorem outcome_patchesOfLines : ∀ ls : List String,
    outcome o (patchesOfLines ls).run = .ok (ls.filterMap (patchIn o))
  | [] => rfl
  | line :: rest => by
    refine (outcome_bindE o (outcome_patchOfLine o line) _).trans ?_
    refine (outcome_bindE o (outcome_patchesOfLines rest) _).trans ?_
    rw [List.filterMap_cons]
    cases patchIn o line <;> rfl

/-- The runner's answer to `check-update` without a name. -/
def updatesAnswer (tool : String) : Except AnyhowError CommandOutput := o (.run tool ["check-update", "-q"] none)

/-- The command ran to one of the two codes that count as success. -/
def ExitAccepted (answer : Except AnyhowError CommandOutput) : Prop :=
  exitCodeOf answer = some 0 ∨ exitCodeOf answer = some 100

theorem acceptExit_eq {answer : Except AnyhowError CommandOutput} (h : KeepsContract answer) {text : String} :
    acceptExit [0, 100] answer = .ok text ↔ ExitAccepted answer ∧ stdoutOf answer = text := by
  unfold acceptExit ExitAccepted exitCodeOf stdoutOf extractExitCode extractStdout
  cases answer with
  | ok output =>
    have hzero : output.statusCode = some 0 := by simpa [KeepsContract, CommandOutput.success] using h
    simp [hzero]
  | error e =>
    cases hce : extractCommandOutput e with
    | none => simp [hce]
    | some ce =>
      cases hcode : ce.exitCode with
      | none => simp [hce, hcode]
      | some code =>
        by_cases hin : code = 0 ∨ code = 100
        · simp [hce, hcode, hin]
        · simp [hce, hcode, hin]

theorem outcome_listPatches (tool : String) : outcome o (listPatches tool).run =
    (acceptExit [0, 100] (updatesAnswer o tool)).map fun text => (lines text).filterMap (patchIn o) := by
  have hrun : outcome o (runCommandWithAcceptableExit tool ["check-update", "-q"] [0, 100] none).run =
      acceptExit [0, 100] (updatesAnswer o tool) :=
    outcome_bindE o (outcome_attempt o _) _
  unfold listPatches
  cases haccept : acceptExit [0, 100] (updatesAnswer o tool) with
  | ok text =>
    rw [haccept] at hrun
    exact (outcome_bindE o hrun _).trans (outcome_patchesOfLines o _)
  | error e =>
    rw [haccept] at hrun
    exact outcome_bindE_error o hrun _

/-! ## What get_package returns -/

/-- What `check-update` about a package says, in fixed surroundings. -/
def updateIn (tool name fullVersion : String) : Bool × Option String :=
  match (quickAnswer o tool ["check-update", "-q", .request name]).toOption with
  | some output =>
    if output.statusCode == some 100 then (true, (lines output.stdout).findSome? (candidateInLine name))
    else (false, some fullVersion)
  | none => (false, some fullVersion)

/-- The dependencies that `rpm -qR` lists. -/
def dependenciesIn (name : String) : List String :=
  match (quickAnswer o "rpm" ["-qR", .request name]).toOption with
  | some output => (lines output.stdout).filterMap dependencyOfLine
  | none => []

/-- What is read from the output of `rpm -qi`. -/
def infoOf (output : String) : InfoState := (lines output).foldl infoLine {}

/-- The package that comes out of the output of `rpm -qi`. -/
def packageIn (tool output name : String) : Package where
  name := name
  version := (infoOf output).fullVersion
  status := .installed
  upgradable := (updateIn o tool name (infoOf output).fullVersion).1
  latestVersion := (updateIn o tool name (infoOf output).fullVersion).2
  description := (infoOf output).description
  dependencies := dependenciesIn o name
  installDate := (infoOf output).installDate
  sizeInstalled := (infoOf output).sizeInstalled

theorem outcome_checkUpdate (tool name fullVersion : String) :
    outcome o (checkUpdate tool name fullVersion).run = .ok (updateIn o tool name fullVersion) := by
  unfold checkUpdate updateIn
  refine (outcome_bindE o (outcome_tryRun o tool _) _).trans ?_
  cases (quickAnswer o tool ["check-update", "-q", .request name]).toOption with
  | none => rfl
  | some output =>
    show outcome o (if output.statusCode == some 100 then _ else _ : Op (Bool × Option String)).run =
      .ok (if output.statusCode == some 100 then _ else _)
    split <;> rfl

theorem outcome_dependencies (name : String) :
    outcome o (unwrapOr [] do
      let depsOutput ← runRpm ["-qR", .request name]
      return (lines depsOutput).filterMap dependencyOfLine).run = .ok (dependenciesIn o name) := by
  rw [outcome_unwrapOr, outcome_handOn, runRpm, outcome_runCommandTimed]
  unfold dependenciesIn
  cases quickAnswer o "rpm" ["-qR", .request name] <;> rfl

theorem outcome_parseRpmInfo (tool output name : String) :
    outcome o (parseRpmInfo tool output name).run = .ok (some (packageIn o tool output name)) := by
  unfold parseRpmInfo packageIn
  refine (outcome_bindE o (outcome_checkUpdate o tool name (infoOf output).fullVersion) _).trans ?_
  refine (outcome_bindE o (outcome_dependencies o name) _).trans ?_
  rfl

variable {o}

/-- An answer of the exit code 100 is an error, which the query takes for no update. -/
theorem updateIn_eq (h : RunnerContract o) (tool name fullVersion : String) :
    updateIn o tool name fullVersion = (false, some fullVersion) := by
  unfold updateIn
  have hkept : KeepsContract (quickAnswer o tool ["check-update", "-q", .request name]) := h _ _ _
  cases hanswer : quickAnswer o tool ["check-update", "-q", .request name] with
  | error e => rfl
  | ok output =>
    rw [hanswer] at hkept
    have hzero : output.statusCode = some 0 := by simpa [KeepsContract, CommandOutput.success] using hkept
    simp [Except.toOption, hzero]

theorem availablePackage_not_upgradable {tool name : String} {pkg : Package}
    (h : outcome o (availablePackage tool name).run = .ok (some pkg)) : pkg.upgradable = false := by
  unfold availablePackage at h
  rw [outcome_bindE o (outcome_tryRun o tool _)] at h
  cases hanswer : (quickAnswer o tool ["info", "-q", .request name]).toOption with
  | none =>
    rw [hanswer] at h
    cases h
  | some output =>
    rw [hanswer] at h
    change outcome o (if output.success then _ else _ : Op (Option Package)).run = _ at h
    split at h
    · cases h
      rfl
    · cases h

/-- No package is ever reported as upgradable. -/
theorem getPackage_not_upgradable (hrunner : RunnerContract o) {tool name : String} {pkg : Package}
    (h : outcome o (getPackage tool name).run = .ok (some pkg)) : pkg.upgradable = false := by
  unfold getPackage checkedName at h
  split at h
  · cases h
  unfold lookUpPackage at h
  rw [outcome_bindE o (outcome_attempt o _), runRpm, outcome_runCommandTimed] at h
  cases hinstalled : quickAnswer o "rpm" ["-q", .request name] with
  | error e =>
    rw [hinstalled] at h
    exact availablePackage_not_upgradable h
  | ok output =>
    rw [hinstalled] at h
    change outcome o (runRpm ["-qi", .request name] >>= _).run = _ at h
    have hinfo : outcome o (runRpm ["-qi", .request name]).run = _ := outcome_runCommandTimed o "rpm" _
    cases hanswer : quickAnswer o "rpm" ["-qi", .request name] with
    | error e =>
      rw [hanswer] at hinfo
      rw [outcome_bindE_error o hinfo] at h
      cases h
    | ok info =>
      rw [hanswer] at hinfo
      rw [outcome_bindE o hinfo, outcome_parseRpmInfo] at h
      cases h
      show (updateIn o tool name _).1 = false
      rw [updateIn_eq hrunner]

/-! ## Whether they agree -/

/-- A line of `check-update`: a package, its new version and a repository. -/
def UpdateLine (line name version : String) : Prop :=
  ∃ full repo rest, splitWhitespace (trim line) = full :: version :: repo :: rest ∧ beforeLastDot full = name

/-- The command exits with 100 exactly when it prints update lines. -/
def ExitsForUpdates (answer : Except AnyhowError CommandOutput) : Prop :=
  exitCodeOf answer = some 100 ↔ ∃ line ∈ lines (stdoutOf answer), ∃ name version, UpdateLine line name version

/-- `check-update` does, with and without a name. -/
structure UpdateContract (o : (e : Effect) → Response e) (tool : String) : Prop where
  all : ExitsForUpdates (updatesAnswer o tool)
  named : ∀ name, ExitsForUpdates (quickAnswer o tool ["check-update", "-q", .request name])

theorem patchIn_eq_some {line name version : String} :
    (∃ p, patchIn o line = some p ∧ p.name = name ∧ p.availableVersion = version) ↔ UpdateLine line name version := by
  unfold patchIn UpdateLine
  constructor
  · rintro ⟨p, hp, rfl, rfl⟩
    split at hp
    · next full available repo rest hwords =>
      cases hp
      exact ⟨full, repo, rest, hwords, rfl⟩
    · cases hp
  · rintro ⟨full, repo, rest, hwords, rfl⟩
    rw [hwords]
    exact ⟨_, rfl, rfl, rfl⟩

end Queries

end Rpm

open Rpm

section Agreement

variable (o : (e : Effect) → Response e) (backend : PackageManagerBackend) (name version : String)

/-- `list_patches` contains a patch to the version. -/
def ListsUpdate : Prop :=
  ∃ patches, outcome o backend.listPatches.run = .ok patches ∧
    ∃ p ∈ patches, p.name = name ∧ p.availableVersion = version

/-- `get_package` says that the package can be upgraded to the version. -/
def ReportsUpdate : Prop :=
  ∃ pkg, outcome o (backend.getPackage name).run = .ok (some pkg) ∧ pkg.upgradable = true ∧
    pkg.latestVersion = some version

def QueriesAgree : Prop := ∀ version, ListsUpdate o backend name version ↔ ReportsUpdate o backend name version

variable {o name version} {kind : BackendKind} {tool : String}

theorem listPatches_eq (hkind : kind.rpmTool = some tool) : kind.backend.listPatches = listPatches tool := by
  cases kind <;> cases hkind <;> rfl

theorem getPackage_eq (hkind : kind.rpmTool = some tool) : kind.backend.getPackage = getPackage tool := by
  cases kind <;> cases hkind <;> rfl

theorem listsUpdate_iff (hkind : kind.rpmTool = some tool) (hrunner : RunnerContract o)
    (hupdates : UpdateContract o tool) : ListsUpdate o kind.backend name version ↔
      ∃ line ∈ lines (stdoutOf (updatesAnswer o tool)), UpdateLine line name version := by
  unfold ListsUpdate
  rw [listPatches_eq hkind, outcome_listPatches]
  have haccept : ∀ {text}, acceptExit [0, 100] (updatesAnswer o tool) = .ok text ↔
      ExitAccepted (updatesAnswer o tool) ∧ stdoutOf (updatesAnswer o tool) = text := acceptExit_eq (hrunner _ _ _)
  constructor
  · rintro ⟨patches, hpatches, p, hp, hname, hversion⟩
    cases htext : acceptExit [0, 100] (updatesAnswer o tool) with
    | error e =>
      rw [htext] at hpatches
      cases hpatches
    | ok text =>
      rw [htext] at hpatches
      cases hpatches
      obtain ⟨line, hline, hpatch⟩ := List.mem_filterMap.1 hp
      rw [(haccept.1 htext).2]
      exact ⟨line, hline, patchIn_eq_some.1 ⟨p, hpatch, hname, hversion⟩⟩
  · rintro ⟨line, hline, hupdate⟩
    -- a printed update line means the exit code 100
    have hcode : exitCodeOf (updatesAnswer o tool) = some 100 := hupdates.all.2 ⟨line, hline, name, version, hupdate⟩
    obtain ⟨p, hpatch, hname, hversion⟩ := (patchIn_eq_some (o := o)).2 hupdate
    rw [haccept.2 ⟨.inr hcode, rfl⟩]
    exact ⟨_, rfl, p, List.mem_filterMap.2 ⟨line, hline, hpatch⟩, hname, hversion⟩

/-- The two queries agree on a package if and only if `check-update` prints no update of it. -/
theorem queries_agree_iff (hkind : kind.rpmTool = some tool) (hrunner : RunnerContract o)
    (hupdates : UpdateContract o tool) (name : String) : QueriesAgree o kind.backend name ↔
      ∀ line ∈ lines (stdoutOf (updatesAnswer o tool)), ∀ version, ¬ UpdateLine line name version := by
  have hreports : ∀ version, ¬ ReportsUpdate o kind.backend name version := by
    rintro version ⟨pkg, hpkg, hup, _⟩
    rw [getPackage_eq hkind] at hpkg
    rw [getPackage_not_upgradable hrunner hpkg] at hup
    cases hup
  constructor
  · intro hagree line hline version hupdate
    exact hreports version ((hagree version).1 ((listsUpdate_iff hkind hrunner hupdates).2 ⟨line, hline, hupdate⟩))
  · intro hnone version
    constructor
    · intro hlists
      obtain ⟨line, hline, hupdate⟩ := (listsUpdate_iff hkind hrunner hupdates).1 hlists
      exact absurd hupdate (hnone line hline version)
    · intro hreport
      exact absurd hreport (hreports version)

end Agreement

/-- A host with bash installed. -/
def bashHost (exitCode : Int) (updates : String) : (e : Effect) → Response e
  | .run program args _ =>
    if (args.map Arg.text).contains "check-update" then exitedRun program (args.map Arg.text) exitCode updates
    else (.ok ⟨some 0, "Version     : 5.2.15\nRelease     : 1.fc43\n", "", false⟩ : Except AnyhowError CommandOutput)
  | e => Host.empty.answer e

section BashHost

variable {exitCode : Int} {updates : String}

theorem exitCodeOf_exitedRun {program : String} {args : List String} :
    exitCodeOf (exitedRun program args exitCode updates) = some exitCode := by
  unfold exitedRun
  split
  · next hzero =>
    rw [hzero]
    rfl
  · rfl

theorem bashHost_runner : RunnerContract (bashHost exitCode updates) := by
  intro program args timeout
  show KeepsContract (if (args.map Arg.text).contains "check-update" then _ else _)
  split
  · exact keepsContract_exitedRun
  · rfl

theorem bashHost_updates (h : exitCode = 100 ↔ ∃ line ∈ lines updates, ∃ name version, UpdateLine line name version) :
    UpdateContract (bashHost exitCode updates) "dnf" := by
  have hrun : ∀ program args, ExitsForUpdates (exitedRun program args exitCode updates) := fun program args => by
    unfold ExitsForUpdates
    rw [exitCodeOf_exitedRun, stdoutOf_exitedRun, Option.some.injEq]
    exact h
  exact ⟨hrun _ _, fun name => hrun _ _⟩

end BashHost

/-- What `check-update` prints when there is a new curl. -/
def curlUpdate : String := "\ncurl.x86_64                8.15.0-4.fc43                updates\n"

/-- What `check-update` with the arguments does there. -/
def curlReply (program : String) (args : List String) : Except AnyhowError CommandOutput :=
  if args = ["check-update", "-q"] ∨ args = ["check-update", "-q", "curl"] then exitedRun program args 100 curlUpdate
  else exitedRun program args 0 ""

/-- A host with bash installed, and with an update of curl only. -/
def curlHost : (e : Effect) → Response e
  | .run program args timeout =>
    if (args.map Arg.text).contains "check-update" then curlReply program (args.map Arg.text)
    else bashHost 0 "" (.run program args timeout)
  | e => Host.empty.answer e

theorem curlUpdate_lines : lines curlUpdate = ["", "curl.x86_64                8.15.0-4.fc43                updates"] := by
  decide

theorem curlHost_runner : RunnerContract curlHost := by
  intro program args timeout
  have hreply : KeepsContract (curlReply program (args.map Arg.text)) := by
    unfold curlReply
    split <;> exact keepsContract_exitedRun
  by_cases hcheck : (args.map Arg.text).contains "check-update" = true
  · have hrun : curlHost (.run program args timeout) = curlReply program (args.map Arg.text) := if_pos hcheck
    rw [hrun]
    exact hreply
  · have hrun : curlHost (.run program args timeout) = bashHost 0 "" (.run program args timeout) := if_neg hcheck
    rw [hrun]
    exact bashHost_runner program args timeout

theorem curlReply_exits (program : String) (args : List String) : ExitsForUpdates (curlReply program args) := by
  unfold ExitsForUpdates curlReply
  split
  · rw [exitCodeOf_exitedRun, stdoutOf_exitedRun, curlUpdate_lines]
    refine iff_of_true rfl ⟨_, List.mem_cons_of_mem _ (List.mem_singleton_self _), "curl", "8.15.0-4.fc43", ?_⟩
    exact ⟨"curl.x86_64", "updates", [], by decide, by decide⟩
  · rw [exitCodeOf_exitedRun, stdoutOf_exitedRun]
    exact iff_of_false (by decide) (by simp [lines, splitChars, lineChars])

theorem curlHost_updates : UpdateContract curlHost "dnf" where
  all := curlReply_exits "dnf" ["check-update", "-q"]
  named name := curlReply_exits "dnf" ["check-update", "-q", name]

/-- There is an update of another package, and both queries say that there is none of bash. -/
theorem queries_agree_bash : QueriesAgree curlHost DnfBackend.backend "bash" := by
  have hkind : BackendKind.dnf.rpmTool = some "dnf" := rfl
  refine (queries_agree_iff hkind curlHost_runner curlHost_updates "bash").2 ?_
  rintro line hline version ⟨full, repo, rest, hwords, hname⟩
  have hlines : lines (stdoutOf (updatesAnswer curlHost "dnf")) = lines curlUpdate := by
    show lines (stdoutOf (exitedRun _ _ 100 curlUpdate)) = _
    rw [stdoutOf_exitedRun]
  rw [hlines, curlUpdate_lines, List.mem_cons, List.mem_singleton] at hline
  rcases hline with rfl | rfl
  · have hnone : splitWhitespace (trim "") = [] := by decide
    rw [hnone] at hwords
    cases hwords
  · have hsome : splitWhitespace (trim "curl.x86_64                8.15.0-4.fc43                updates") =
        ["curl.x86_64", "8.15.0-4.fc43", "updates"] := by decide
    rw [hsome] at hwords
    cases hwords
    exact absurd hname (by decide)

/-- What `check-update` prints when there is a new bash. -/
def bashUpdate : String := "\nbash.x86_64                5.2.21-2.fc43                updates\n"

theorem bashUpdate_line : ∃ line ∈ lines bashUpdate, UpdateLine line "bash" "5.2.21-2.fc43" :=
  ⟨"bash.x86_64                5.2.21-2.fc43                updates", by decide, "bash.x86_64", "updates", [],
    by decide, by decide⟩

/-- `check-update` prints the update and exits with 100: `list_patches` lists it, and `get_package` says that there is
none. -/
theorem update_missed : ∃ (o : (e : Effect) → Response e) (name : String),
    RunnerContract o ∧ UpdateContract o "dnf" ∧ (quickAnswer o "rpm" ["-q", .request name]).isOk = true ∧
      ListsUpdate o DnfBackend.backend name "5.2.21-2.fc43" ∧ ¬ QueriesAgree o DnfBackend.backend name := by
  obtain ⟨line, hline, hupdate⟩ := bashUpdate_line
  have hupdates : UpdateContract (bashHost 100 bashUpdate) "dnf" :=
    bashHost_updates ⟨fun _ => ⟨line, hline, _, _, hupdate⟩, fun _ => rfl⟩
  have hkind : BackendKind.dnf.rpmTool = some "dnf" := rfl
  have hlists : ListsUpdate (bashHost 100 bashUpdate) DnfBackend.backend "bash" "5.2.21-2.fc43" :=
    (listsUpdate_iff hkind bashHost_runner hupdates).2 ⟨line, hline, hupdate⟩
  refine ⟨bashHost 100 bashUpdate, "bash", bashHost_runner, hupdates, rfl, hlists, fun hagree => ?_⟩
  obtain ⟨pkg, hpkg, hup, _⟩ := (hagree _).1 hlists
  change outcome _ (getPackage "dnf" "bash").run = _ at hpkg
  rw [getPackage_not_upgradable bashHost_runner hpkg] at hup
  cases hup

end LinuxPatchApi.Packages
