/-
The detection of a pending reboot: what its three tiers find as a function of the host's answers, and that the exit code
of `dnf needs-restarting`, which the runner reports as an error, does not get through.
-/
import LinuxPatchApi.Packages.Kernels

namespace LinuxPatchApi.Packages

open Text Interaction

section Detection

variable (o : (e : Effect) → Response e)

/-! ## What the host shows -/

/-- A reboot-required marker exists. -/
def markerPresent : Bool := fileThere o "/var/run/reboot-required" || fileThere o "/boot/.reboot-required"

/-- The exit code of a command, which its output or its error carries. -/
def exitCodeOf : Except AnyhowError CommandOutput → Option Int
  | .ok output => output.statusCode
  | .error e => extractExitCode e

/-- `dnf` is available and `dnf needs-restarting -r` exits with code 1. -/
def dnfDemandsReboot : Bool :=
  Available o "dnf" && exitCodeOf (quickAnswer o "dnf" ["needs-restarting", "-r"]) == some 1

/-- The host is no container, and an installed kernel is found that differs from the running one. -/
def KernelOutdated : Prop :=
  inContainer o = false ∧ ∃ installed running, outcome o getInstalledKernelVersion.run = .ok (some installed) ∧
    runningKernel o = some running ∧ installed ≠ running

/-- The detection says yes exactly when there is one of the three reasons. -/
def DetectionExact : Prop :=
  outcome o checkPendingReboot.run = .ok true ↔
    markerPresent o = true ∨ dnfDemandsReboot o = true ∨ KernelOutdated o

/-! ## The tiers -/

theorem outcome_kernelDiffers_iff : outcome o kernelDiffers.run = .ok true ↔ KernelOutdated o := by
  rw [outcome_kernelDiffers]
  unfold KernelOutdated
  rw [outcome_getInstalledKernelVersion]
  cases greatest (candidates o) with
  | none => simp
  | some installed => cases runningKernel o <;> simp

variable {o}

/-- An answer of the exit code 1 is an error, which the check takes for no answer. -/
theorem outcome_dnfNeedsRestarting (h : RunnerContract o) : outcome o dnfNeedsRestarting.run = .ok false := by
  unfold dnfNeedsRestarting
  rw [outcome_bindE o (outcome_commandAvailable o "dnf")]
  split
  swap
  · rfl
  rw [outcome_bindE o (outcome_tryRun o "dnf" ["needs-restarting", "-r"])]
  have hkept : KeepsContract (quickAnswer o "dnf" ["needs-restarting", "-r"]) := h _ _ _
  cases hanswer : quickAnswer o "dnf" ["needs-restarting", "-r"] with
  | error e => rfl
  | ok output =>
    rw [hanswer] at hkept
    have hzero : output.statusCode = some 0 := by simpa [KeepsContract, CommandOutput.success] using hkept
    simp only [Except.toOption, Option.any_some, hzero]
    rfl

theorem outcome_checkPendingReboot (h : RunnerContract o) :
    outcome o checkPendingReboot.run = .ok true ↔ markerPresent o = true ∨ KernelOutdated o := by
  have hkernel := outcome_kernelDiffers o
  have hdnf := outcome_orElse o (outcome_dnfNeedsRestarting h) hkernel
  have hboot := outcome_orElse o (outcome_pathExists o "/boot/.reboot-required") hdnf
  have hall := outcome_orElse o (outcome_pathExists o "/var/run/reboot-required") hboot
  have hcheck : outcome o checkPendingReboot.run = _ := hall
  rw [hcheck, ← outcome_kernelDiffers_iff, hkernel]
  simp [markerPresent, or_assoc]

/-- The detection is exact if and only if the exit code of dnf is not the only reason for a reboot. -/
theorem detection_exact_iff (h : RunnerContract o) :
    DetectionExact o ↔ (dnfDemandsReboot o = true → markerPresent o = true ∨ KernelOutdated o) := by
  unfold DetectionExact
  rw [outcome_checkPendingReboot h]
  tauto

end Detection

/-- A host on which only dnf demands a reboot. -/
def dnfHost : (e : Effect) → Response e
  | .run program args _ =>
    (.error (.ofCommand {
      program, args := args.map Arg.text, exitCode := some 1, stdout := "Reboot is required.\n", stderr := ""
      spawnError := none, timedOut := false }) : Except AnyhowError CommandOutput)
  | .output program args =>
    if program == "which" && args == ["dnf"] then some ⟨true, []⟩ else (none : Option ProcessOutput)
  | e => Host.empty.answer e

/-- The same host with a marker. -/
def markedHost : (e : Effect) → Response e
  | .pathExists path => path == "/var/run/reboot-required"
  | e => dnfHost e

/-- Where dnf demands a reboot and there is a marker, the marker is found. -/
theorem marked_host_detection_exact : dnfDemandsReboot markedHost = true ∧ DetectionExact markedHost :=
  ⟨by decide, (detection_exact_iff (o := markedHost) fun _ _ _ => rfl).2 fun _ => .inl rfl⟩

/-- `dnf needs-restarting -r` exits with 1, and no pending reboot is reported. -/
theorem dnf_demand_missed :
    RunnerContract dnfHost ∧ dnfDemandsReboot dnfHost = true ∧ outcome dnfHost checkPendingReboot.run = .ok false ∧
      ¬ DetectionExact dnfHost := by
  have hmissed : outcome dnfHost checkPendingReboot.run = .ok false := by rfl
  refine ⟨fun _ _ _ => rfl, by decide, hmissed, fun h => ?_⟩
  have hyes := h.2 (.inr (.inl (by decide)))
  rw [hmissed] at hyes
  cases hyes

end LinuxPatchApi.Packages
