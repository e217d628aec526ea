/-
The probe for the installed kernel: what it finds as a function of the host's answers, and when that is the newest
kernel that dpkg and rpm list, with versions compared component by component.
-/
import LinuxPatchApi.Packages.CommandRuns

namespace LinuxPatchApi.Packages

open Text Interaction

/-! ## Versions -/

/-- A component of a version, between the characters that are neither letters nor digits. -/
inductive Component where
  | text (s : String)
  | number (n : Nat)
  deriving DecidableEq, Repr

/-- Numbers by their value, texts in the order of the code points, and texts before numbers. -/
def Component.before : Component → Component → Bool
  | .text _, .number _ => true
  | .number _, .text _ => false
  | .text s, .text s' => decide (s < s')
  | .number n, .number n' => decide (n < n')

instance : LT Component := ⟨fun a b => a.before b = true⟩

instance : DecidableLT Component := fun a b => inferInstanceAs (Decidable (a.before b = true))

def component (cs : List Char) : Component :=
  match digitsValue 0 cs with
  | some n => .number n
  | none => .text (String.ofList cs)

def components (version : String) : List Component :=
  ((version.toList.splitOnP fun c => !isAsciiAlphanumeric c).filter fun cs => !cs.isEmpty).map component

/-- The numeric comparison of versions: by the first component in which they differ. -/
def Older (v w : String) : Prop := components v < components w

instance (v w : String) : Decidable (Older v w) := inferInstanceAs (Decidable (components v < components w))

example : Older "6.9.0-1-amd64" "6.10.3-2-amd64" := by decide

/-! ## The greatest text -/

/-- One step of the search for the greatest. -/
def keepGreater (best : Option String) (v : String) : Option String :=
  if best.all fun b => decide (b < v) then some v else best

theorem foldl_keepGreater : ∀ (versions : List String) (best : Option String) {v : String},
    versions.foldl keepGreater best = some v →
      (v ∈ versions ∨ best = some v) ∧ (∀ w ∈ versions, w ≤ v) ∧ ∀ b, best = some b → b ≤ v
  | [], best, v, h => ⟨.inr h, by simp, fun b hb => by simp_all⟩
  | w :: versions, best, v, h => by
    obtain ⟨hmem, hall, hbest⟩ := foldl_keepGreater versions (keepGreater best w) h
    unfold keepGreater at hmem hbest
    split at hmem
    next hless =>
      rw [if_pos hless] at hbest
      have hw : w ≤ v := hbest w rfl
      refine ⟨.inl (hmem.elim (List.mem_cons_of_mem w) fun h => by simp_all), by simpa using ⟨hw, hall⟩, ?_⟩
      rintro b rfl
      have hless : b < w := of_decide_eq_true hless
      have hbw : b ≤ w := (String.le_total b w).resolve_right (String.not_le.2 hless)
      exact String.le_trans hbw hw
    next hless =>
      rw [if_neg hless] at hbest
      refine ⟨hmem.imp_left (List.mem_cons_of_mem w), ?_, hbest⟩
      obtain ⟨b, hb, hwb⟩ : ∃ b, best = some b ∧ w ≤ b := by
        cases best with
        | none => simp at hless
        | some b => exact ⟨b, rfl, String.not_lt.1 fun hlt => hless (decide_eq_true hlt)⟩
      simpa using ⟨String.le_trans hwb (hbest b hb), hall⟩

theorem foldl_keepGreater_some : ∀ (versions : List String) (b : String),
    ∃ v, versions.foldl keepGreater (some b) = some v
  | [], b => ⟨b, rfl⟩
  | w :: versions, b => by
    rw [List.foldl_cons, keepGreater]
    split
    · exact foldl_keepGreater_some versions w
    · exact foldl_keepGreater_some versions b

theorem greatest_spec {versions : List String} {v : String} (h : greatest versions = some v) :
    v ∈ versions ∧ ∀ w ∈ versions, w ≤ v := by
  obtain ⟨hmem, hall, _⟩ := foldl_keepGreater versions none h
  exact ⟨hmem.resolve_right (by simp), hall⟩

theorem greatest_eq_none {versions : List String} : greatest versions = none ↔ versions = [] := by
  constructor
  · intro h
    cases versions with
    | nil => rfl
    | cons v versions =>
      obtain ⟨w, hw⟩ := foldl_keepGreater_some versions v
      have : greatest (v :: versions) = some w := hw
      rw [h] at this
      cases this
  · rintro rfl
    rfl

/-- The greatest text is the member that no other exceeds. -/
theorem greatest_eq_some {versions : List String} {v : String} :
    greatest versions = some v ↔ v ∈ versions ∧ ∀ w ∈ versions, w ≤ v := by
  refine ⟨greatest_spec, fun ⟨hmem, hall⟩ => ?_⟩
  cases h : greatest versions with
  | none =>
    rw [greatest_eq_none.1 h] at hmem
    cases hmem
  | some w =>
    obtain ⟨hwmem, hwall⟩ := greatest_spec h
    rw [String.le_antisymm (hall w hwmem) (hwall v hmem)]

/-! ## The probe -/

section Probe

variable (o : (e : Effect) → Response e)

/-- What a tool answers, when it is there. -/
def listing (tool : String) (args : List Arg) : Option CommandOutput :=
  if Available o tool then (quickAnswer o tool args).toOption else none

/-- The lines of `dpkg -l`. -/
def dpkgLines : List String := (listing o "dpkg" ["-l"]).elim [] fun output => lines output.stdout

/-- The lines of `rpm -q kernel`. -/
def rpmLines : List String :=
  (listing o "rpm" ["-q", "kernel", "--qf", "%\x7bVERSION\x7d-%\x7bRELEASE\x7d.%\x7bARCH\x7d\n"]).elim []
    fun output => lines output.stdout

def apkFound : Option String :=
  ["linux-virt", "linux-lts", "linux-hardened", "linux-rpi"].findSome? fun pkg =>
    (listing o "apk" ["info", "-e", (pkg : String)]).bind fun output => apkKernel pkg output.stdout

def pacmanFound : Option String :=
  (listing o "pacman" ["-Q", "linux"]).bind fun output => pacmanKernel output.stdout

/-- The entries that the probe chooses from: those of the first tool of which it keeps any. -/
def candidates : List String :=
  let dpkgKept := (dpkgLines o).filterMap dpkgKernel
  let rpmKept := (rpmLines o).filterMap rpmKernel
  if dpkgKept ≠ [] then dpkgKept else if rpmKept ≠ [] then rpmKept else ((apkFound o).or (pacmanFound o)).toList

theorem outcome_kernelFrom (tool : String) (args : List Arg) (parse : String → Option String) :
    outcome o (kernelFrom tool args parse).run =
      .ok ((quickAnswer o tool args).toOption.bind fun output => parse output.stdout) :=
  outcome_bindE o (outcome_tryRun o tool args) _

theorem outcome_whenAvailable {tool : String} {query : Op (Option String)} {found : Option String}
    (h : outcome o query.run = .ok found) :
    outcome o (whenAvailable tool query).run = .ok (if Available o tool then found else none) := by
  refine (outcome_bindE o (outcome_commandAvailable o tool) _).trans ?_
  split
  · exact h
  · rfl

theorem outcome_firstFound_cons {query : Op (Option String)} {queries : List (Op (Option String))}
    {found rest : Option String} (h : outcome o query.run = .ok found)
    (hrest : outcome o (firstFound queries).run = .ok rest) :
    outcome o (firstFound (query :: queries)).run = .ok (found.or rest) := by
  refine (outcome_bindE o h _).trans ?_
  cases found with
  | none => exact hrest
  | some version => rfl

theorem outcome_firstFound_map {α : Type} {query : α → Op (Option String)} {found : α → Option String}
    (h : ∀ x, outcome o (query x).run = .ok (found x)) : ∀ xs : List α,
      outcome o (firstFound (xs.map query)).run = .ok (xs.findSome? found)
  | [] => rfl
  | x :: xs => by
    refine (outcome_firstFound_cons o (h x) (outcome_firstFound_map h xs)).trans ?_
    rw [List.findSome?_cons]
    cases found x <;> rfl

/-- A query of a tool that is there. -/
theorem outcome_whenListed (tool : String) (args : List Arg) (parse : String → Option String) :
    outcome o (whenAvailable tool (kernelFrom tool args parse)).run =
      .ok ((listing o tool args).bind fun output => parse output.stdout) := by
  rw [outcome_whenAvailable o (outcome_kernelFrom o tool args parse), listing]
  split <;> rfl

theorem greatest_listed (l : Option CommandOutput) (entry : String → Option String) :
    (l.bind fun output => greatest ((lines output.stdout).filterMap entry)) =
      greatest ((l.elim [] fun output => lines output.stdout).filterMap entry) := by
  cases l <;> rfl

theorem outcome_apkProbe :
    outcome o (whenAvailable "apk"
      (firstFound (["linux-virt", "linux-lts", "linux-hardened", "linux-rpi"].map fun (pkg : String) =>
        kernelFrom "apk" ["info", "-e", pkg] (apkKernel pkg)))).run = .ok (apkFound o) := by
  rw [outcome_whenAvailable o (outcome_firstFound_map o (fun pkg : String =>
    outcome_kernelFrom o "apk" ["info", "-e", pkg] (apkKernel pkg)) _), apkFound]
  unfold listing
  split <;> rfl

/-- The first of the greatest texts is the greatest of the candidates. -/
theorem greatest_candidates :
    (greatest ((dpkgLines o).filterMap dpkgKernel)).or
      ((greatest ((rpmLines o).filterMap rpmKernel)).or ((apkFound o).or (pacmanFound o))) =
        greatest (candidates o) := by
  have hfirst : ∀ l : List String, ∀ rest : Option String, l ≠ [] → (greatest l).or rest = greatest l := by
    intro l rest hl
    cases h : greatest l with
    | none => exact absurd (greatest_eq_none.1 h) hl
    | some v => rfl
  unfold candidates
  by_cases hdpkg : (dpkgLines o).filterMap dpkgKernel = []
  · by_cases hrpm : (rpmLines o).filterMap rpmKernel = []
    · simp only [hdpkg, hrpm, ne_eq, not_true_eq_false, if_false]
      cases (apkFound o).or (pacmanFound o) <;> rfl
    · simp only [hdpkg, hrpm, ne_eq, not_true_eq_false, if_false, not_false_eq_true, if_true]
      exact hfirst _ _ hrpm
  · simp only [hdpkg, ne_eq, not_false_eq_true, if_true]
    exact hfirst _ _ hdpkg

/-- The probe does not fail, and finds the greatest text among its candidates. -/
theorem outcome_getInstalledKernelVersion :
    outcome o getInstalledKernelVersion.run = .ok (greatest (candidates o)) := by
  have hdpkg := outcome_whenListed o "dpkg" ["-l"] fun out => greatest ((lines out).filterMap dpkgKernel)
  have hrpm := outcome_whenListed o "rpm"
    ["-q", "kernel", "--qf", "%\x7bVERSION\x7d-%\x7bRELEASE\x7d.%\x7bARCH\x7d\n"]
    fun out => greatest ((lines out).filterMap rpmKernel)
  have hpacman := outcome_whenListed o "pacman" ["-Q", "linux"] pacmanKernel
  rw [greatest_listed] at hdpkg hrpm
  refine (outcome_firstFound_cons o hdpkg (outcome_firstFound_cons o hrpm
    (outcome_firstFound_cons o (outcome_apkProbe o) (outcome_firstFound_cons o hpacman rfl)))).trans ?_
  rw [Option.or_none, ← greatest_candidates o]
  rfl

/-! ## The comparison with the running kernel -/

/-- One of the signs of a container. -/
def inContainer : Bool :=
  (fileText o "/proc/1/environ").any (contains · "container=lxc") ||
    ((fileText o "/proc/1/cgroup").any (contains · "lxc") ||
      (fileThere o "/.dockerenv" || fileThere o "/run/.containerenv"))

/-- What `uname -r` prints. -/
def runningKernel : Option String := trimmedOutput (o (.output "uname" ["-r"]))

/-- An alternative that is asked for only when the first question is denied. -/
theorem outcome_orElse {first second : Op Bool} {a b : Bool} (h : outcome o first.run = .ok a)
    (hsecond : outcome o second.run = .ok b) :
    outcome o (do if ← first then return true else second : Op Bool).run = .ok (a || b) := by
  refine (outcome_bindE o h _).trans ?_
  cases a with
  | true => rfl
  | false => exact hsecond

theorem outcome_isLxcContainer : outcome o isLxcContainer.run = .ok (inContainer o) := by
  have hpaths := outcome_orElse o (outcome_pathExists o "/.dockerenv") (outcome_pathExists o "/run/.containerenv")
  unfold isLxcContainer inContainer
  rw [outcome_bindE o (outcome_readFile o _)]
  split
  next henviron => rw [henviron, Bool.true_or]; rfl
  next henviron =>
  rw [outcome_bindE o (outcome_readFile o _), Bool.eq_false_iff.2 henviron, Bool.false_or]
  split
  next hcgroup => rw [hcgroup, Bool.true_or]; rfl
  next hcgroup => rw [Bool.eq_false_iff.2 hcgroup, Bool.false_or]; exact hpaths

theorem outcome_getRunningKernelVersion : outcome o getRunningKernelVersion.run = .ok (runningKernel o) := rfl

theorem outcome_kernelDiffers :
    outcome o kernelDiffers.run = .ok (!inContainer o && (greatest (candidates o)).any fun installed =>
      (runningKernel o).any fun running => installed != running) := by
  unfold kernelDiffers
  rw [outcome_bindE o (outcome_isLxcContainer o)]
  split
  next hcontainer => rw [hcontainer]; rfl
  next hcontainer =>
  rw [outcome_bindE o (outcome_getInstalledKernelVersion o), Bool.eq_false_iff.2 hcontainer, Bool.not_false,
    Bool.true_and]
  cases greatest (candidates o) with
  | none => rfl
  | some installed => exact outcome_bindE o (outcome_getRunningKernelVersion o) _

/-! ## The kernels that are installed -/

/-- A kernel image, by the version that its name ends with; a meta package has none. -/
def versioned (text : String) : Bool := text.toList.head?.any isAsciiDigit

/-- The version of the kernel image that a line of `dpkg -l` tells to be installed, whether or not it is held. -/
def imageOfLine (line : String) : Option String :=
  match splitWhitespace line with
  | status :: name :: _ =>
    if (status.toList.drop 1).head? = some 'i' then (stripPrefix name "linux-image-").filter versioned else none
  | _ => none

/-- The versions of the installed kernel images, as dpkg and rpm list them. -/
def installedKernels : List String :=
  (dpkgLines o).filterMap imageOfLine ++ ((rpmLines o).map trim).filter versioned

/-- An installed kernel than which no other is newer. -/
def Newest (v : String) : Prop := v ∈ installedKernels o ∧ ∀ k ∈ installedKernels o, ¬ Older v k

/-- The probe finds a newest kernel when there is one, and a host that runs the newest is not told to reboot. -/
def ProbeExact : Prop :=
  (installedKernels o ≠ [] → ∃ v, outcome o getInstalledKernelVersion.run = .ok (some v) ∧ Newest o v) ∧
  ∀ running, runningKernel o = some running → running ∈ installedKernels o →
    (∀ k ∈ installedKernels o, k ≠ running → Older k running) → outcome o kernelDiffers.run = .ok false

end Probe

/-- A host whose dpkg lists packages, and that runs a kernel. -/
def dpkgHost (stdout running : String) : (e : Effect) → Response e
  | .run program _ _ =>
    (.ok ⟨some 0, if program == "dpkg" then stdout else "", "", false⟩ : Except AnyhowError CommandOutput)
  | .output program args =>
    some {
      success := args == ["dpkg"]
      stdout := if program == "uname" then running.toByteArray.data.toList else [] }
  | e => Host.empty.answer e

theorem runningKernel_dpkgHost (stdout : String) {running : String} (h : (trim running).isEmpty = false) :
    runningKernel (dpkgHost stdout running) = some (trim running) := by
  have hdecode : String.fromUTF8? ⟨running.toByteArray.data.toList.toArray⟩ = some running := by
    unfold String.fromUTF8?
    rw [dif_pos running.isValidUTF8]
    rfl
  show Option.filter _ ((String.fromUTF8? ⟨running.toByteArray.data.toList.toArray⟩).map trim) = _
  rw [hdecode, Option.map_some, Option.filter_some, h]
  rfl

/-- The packages of a host with two kernels, the newer one with a two-digit component, and a meta package. -/
def twoKernels : String :=
  "ii  linux-image-6.9-amd64\nii  linux-image-6.10-amd64\nii  linux-image-amd64\n"

set_option maxRecDepth 4000 in
theorem installedKernels_twoKernels :
    installedKernels (dpkgHost twoKernels "6.10-amd64") = ["6.9-amd64", "6.10-amd64"] := by decide

set_option maxRecDepth 4000 in
theorem greatest_twoKernels : greatest (candidates (dpkgHost twoKernels "6.10-amd64")) = some "amd64" := by decide

end LinuxPatchApi.Packages
