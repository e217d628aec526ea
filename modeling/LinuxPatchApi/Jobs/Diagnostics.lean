/-
How much of a command's output a failed job carries: the lines that are appended to its log are cut at the limit, the
two fields are not.
-/
import LinuxPatchApi.Lib.Lines
import LinuxPatchApi.Jobs.Manager

namespace LinuxPatchApi.Jobs

open LinuxPatchApi.Packages Text

/-! ## The lines of the log -/

/-- The header that `output_log_lines` puts before the output. -/
def logHeader (ce : CommandError) : String :=
  match ce.exitCode with
  | some code => "Command failed (exit " ++ toString code ++ "): " ++ formatCommand ce.program ce.args
  | none => "Command failed (signal): " ++ formatCommand ce.program ce.args

/-- All lines of both streams. -/
def streamLines (ce : CommandError) : List String :=
  appendStreamLines "stderr" ce.stderr ++ appendStreamLines "stdout" ce.stdout

theorem outputLogLines_spawnError {ce : CommandError} {err : String} (h : ce.spawnError = some err) :
    ce.outputLogLines = [logHeader ce, "Spawn error: " ++ err] := by
  unfold CommandError.outputLogLines
  rw [h]
  rfl

theorem outputLogLines_streams {ce : CommandError} (h : ce.spawnError = none) : ce.outputLogLines =
    if (logHeader ce :: streamLines ce).length > maxOutputLines then
      (logHeader ce :: streamLines ce).take maxOutputLines ++
        ["... output truncated at " ++ toString maxOutputLines ++ " lines"]
    else logHeader ce :: streamLines ce := by
  unfold CommandError.outputLogLines
  rw [h]
  rfl

/-- Lines of a log about a command: bounded, the header first, and of the streams a beginning of the error output and
only after all of it the output. -/
structure ListsOutput (ce : CommandError) (out : List String) : Prop where
  bounded : out.length ≤ maxOutputLines + 1
  header : out.head? = some (logHeader ce)
  streams : ce.spawnError = none → ∃ body, body <+: streamLines ce ∧ (out = logHeader ce :: body ∨
    out = logHeader ce :: body ++ ["... output truncated at " ++ toString maxOutputLines ++ " lines"])

theorem outputLogLines_lists (ce : CommandError) : ListsOutput ce ce.outputLogLines := by
  cases hspawn : ce.spawnError with
  | some err =>
    rw [outputLogLines_spawnError hspawn]
    refine ⟨by simp [maxOutputLines], rfl, fun h => ?_⟩
    rw [hspawn] at h
    cases h
  | none =>
    rw [outputLogLines_streams hspawn]
    split
    · have htake : (logHeader ce :: streamLines ce).take maxOutputLines =
          logHeader ce :: (streamLines ce).take (maxOutputLines - 1) := rfl
      rw [htake]
      refine ⟨?_, rfl, fun _ => ⟨_, List.take_prefix _ _, .inr rfl⟩⟩
      have hle := List.length_take_le (maxOutputLines - 1) (streamLines ce)
      simp only [List.length_append, List.length_cons, List.length_nil, maxOutputLines] at hle ⊢
      omega
    · next hle => exact ⟨by omega, rfl, fun _ => ⟨_, List.prefix_rfl, .inl rfl⟩⟩

/-! ## The job -/

section Job

variable {env : Env}

theorem foldl_addLog_fields (env : Env) : ∀ (ls : List String) (j : Job),
    (ls.foldl (Job.addLog env) j).logs = j.logs ++ ls ∧ (ls.foldl (Job.addLog env) j).commandStdout = j.commandStdout ∧
      (ls.foldl (Job.addLog env) j).commandStderr = j.commandStderr
  | [], j => ⟨(List.append_nil _).symm, rfl, rfl⟩
  | l :: ls, j => by
    obtain ⟨hlogs, hout, herr⟩ := foldl_addLog_fields env ls (j.addLog env l)
    refine ⟨?_, hout, herr⟩
    rw [List.foldl_cons, hlogs]
    show j.logs ++ [l] ++ ls = _
    rw [List.append_assoc, List.singleton_append]

theorem failWithDiagnostics_commandStdout (j : Job) (e : AnyhowError) :
    (j.failWithDiagnostics env e).commandStdout = extractStdout e := (foldl_addLog_fields env _ _).2.1

theorem failWithDiagnostics_commandStderr (j : Job) (e : AnyhowError) :
    (j.failWithDiagnostics env e).commandStderr = extractStderr e := (foldl_addLog_fields env _ _).2.2

theorem failWithDiagnostics_logs (j : Job) (e : AnyhowError) :
    (j.failWithDiagnostics env e).logs = j.logs ++ ["Job failed: " ++ formatErrorChain e] ++ diagnosticLogLines e :=
  (foldl_addLog_fields env _ _).1

/-- What precedes the output of a command in the lines that are appended to the log. -/
def chainLines (e : AnyhowError) : List String :=
  ["Job failed: " ++ formatErrorChain e, "Error chain:"] ++ lines (formatErrorChain e) ++ ["", "Command output:"]

/-- The output that a failed job carries is bounded wherever it is kept. -/
structure BoundedDiagnostics (j j' : Job) (e : AnyhowError) : Prop where
  stdout : ∀ text, j'.commandStdout = some text → (lines text).length ≤ maxOutputLines
  stderr : ∀ text, j'.commandStderr = some text → (lines text).length ≤ maxOutputLines
  logged : ∀ ce, extractCommandOutput e = some ce → ∃ out, j'.logs = j.logs ++ chainLines e ++ out ∧ ListsOutput ce out

/-- The log is bounded in any case, and the fields exactly when the command has printed no more than the limit. -/
theorem bounded_diagnostics_iff (env : Env) (j : Job) (e : AnyhowError) :
    BoundedDiagnostics j (j.failWithDiagnostics env e) e ↔ ∀ ce, extractCommandOutput e = some ce →
      (lines ce.stdout).length ≤ maxOutputLines ∧ (lines ce.stderr).length ≤ maxOutputLines := by
  constructor
  · rintro ⟨hout, herr, _⟩ ce hce
    refine ⟨hout _ ?_, herr _ ?_⟩
    · rw [failWithDiagnostics_commandStdout, extractStdout, hce]
      rfl
    · rw [failWithDiagnostics_commandStderr, extractStderr, hce]
      rfl
  · intro h
    refine ⟨fun text htext => ?_, fun text htext => ?_, fun ce hce => ⟨ce.outputLogLines, ?_, outputLogLines_lists ce⟩⟩
    · rw [failWithDiagnostics_commandStdout] at htext
      obtain ⟨ce, hce, rfl⟩ := Option.map_eq_some_iff.1 htext
      exact (h ce hce).1
    · rw [failWithDiagnostics_commandStderr] at htext
      obtain ⟨ce, hce, rfl⟩ := Option.map_eq_some_iff.1 htext
      exact (h ce hce).2
    · rw [failWithDiagnostics_logs, diagnosticLogLines, hce, chainLines]
      simp only [List.append_assoc, List.cons_append, List.nil_append]

/-- An upgrade that has printed one line more than the limit. -/
def verboseUpgrade : AnyhowError := .ofCommand {
  program := "apt-get", args := ["upgrade", "-y"], exitCode := some 100
  stdout := String.ofList (List.replicate 201 ['x', '\n']).flatten
  stderr := "E: Sub-process returned an error code", spawnError := none, timedOut := false }

theorem lines_replicate (n : Nat) :
    lines (String.ofList (List.replicate n ['x', '\n']).flatten) = List.replicate n "x" := by
  have htext : String.ofList (List.replicate n ['x', '\n']).flatten = unlines (List.replicate n "x") := by
    simp [unlines, List.flatMap, List.map_replicate]
  rw [htext]
  refine lines_unlines fun l hl => ?_
  obtain rfl := List.eq_of_mem_replicate hl
  exact ⟨by decide, by decide⟩

theorem verboseUpgrade_unbounded : ¬ BoundedDiagnostics (Job.new ⟨0, none⟩ 1 .patchApply [])
    ((Job.new ⟨0, none⟩ 1 .patchApply []).failWithDiagnostics ⟨1, none⟩ verboseUpgrade) verboseUpgrade := by
  intro h
  have hle := h.stdout _ (failWithDiagnostics_commandStdout _ _)
  rw [lines_replicate, List.length_replicate] at hle
  exact absurd hle (by decide)

end Job

end LinuxPatchApi.Jobs
