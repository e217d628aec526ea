/-
What `classify_error` sees of a wrapped command error: the texts of the agent around it (contexts, program, exit status)
and of the command's output the first line that is not blank.
-/
import LinuxPatchApi.Packages.ErrorUtils
import LinuxPatchApi.Lib.Search

namespace LinuxPatchApi.Packages

open Text

/-! ## The signature tests -/

/-- The signature tests in their order, on the signatures that are seen. -/
def signatureTests (seen : String → Bool) : Option String :=
  if seen "gpg" || seen "signature" || seen "untrusted" then some ErrorCode.gpgError
  else if seen "404" || seen "not found" || seen "failed to fetch" || seen "unable to fetch"
      || seen "could not resolve" || seen "connection refused" || seen "network is unreachable" then
    if seen "unable to locate package" || seen "no package available" || seen "package foo"
        || seen "no such package" then some ErrorCode.pkgNotFound
    else some ErrorCode.networkError
  else if seen "unable to locate package" || seen "no package available" then
    some ErrorCode.pkgNotFound
  else if seen "dependency" || seen "dependencies" || seen "conflict" || seen "broken count"
      || seen "held broken package" then some ErrorCode.dependencyConflict
  else if seen "permission denied" || seen "lock file" then some ErrorCode.permissionDenied
  else if seen "reboot" || seen "shutdown" then some ErrorCode.rebootError
  else if seen "cache refresh" || seen "check-update" then some ErrorCode.cacheRefreshError
  else none

def signatures : List String := [
  "gpg", "signature", "untrusted", "404", "not found", "failed to fetch", "unable to fetch", "could not resolve",
  "connection refused", "network is unreachable", "unable to locate package", "no package available", "package foo",
  "no such package", "dependency", "dependencies", "conflict", "broken count", "held broken package",
  "permission denied", "lock file", "reboot", "shutdown", "cache refresh", "check-update"]

theorem classifySignature_eq (lower : String) : classifySignature lower = signatureTests (contains lower) := rfl

theorem signatureTests_congr {seen seen' : String → Bool} (h : ∀ sig ∈ signatures, seen sig = seen' sig) :
    signatureTests seen = signatureTests seen' := by
  simp only [signatures, List.forall_mem_cons] at h
  simp only [signatureTests, h]

/-- No signature has the characters between the pieces of a rendered error. -/
theorem signatures_phrase {sig : String} (h : sig ∈ signatures) : IsPhrase ['|', ':'] sig := by
  have hall : ∀ sig ∈ signatures, sig.toList ≠ [] ∧ sig.toList.head? ≠ some ' ' ∧ sig.toList.getLast? ≠ some ' ' ∧
      '|' ∉ sig.toList ∧ ':' ∉ sig.toList := by decide +kernel
  obtain ⟨hne, hhead, hlast, hbar, hcolon⟩ := hall sig h
  exact ⟨hne, hhead, hlast, by simp [hbar, hcolon]⟩

/-! ## What is seen of an error -/

/-- The part of the summary that the agent writes: the program and its exit status. -/
def CommandError.status (ce : CommandError) : String :=
  match ce.exitCode with
  | some code => ce.program ++ " failed (exit " ++ toString code ++ ")"
  | none => ce.program ++ " failed (signal)"

/-- The line of the output that the summary keeps. -/
def CommandError.keptLine (ce : CommandError) : String :=
  ((firstNonemptyLine ce.stderr).or (firstNonemptyLine ce.stdout)).getD ""

/-- The signature is in a text of the agent. -/
def agentShows (contexts : List String) (ce : CommandError) (sig : String) : Bool :=
  contexts.any (shows · sig) || shows ce.status sig

/-- The signature is somewhere in the complete output. -/
def outputShows (ce : CommandError) (sig : String) : Bool := shows ce.stdout sig || shows ce.stderr sig

theorem summary_eq {ce : CommandError} (htimely : ce.timedOut = false) (hspawned : ce.spawnError = none) :
    ce.summary = ce.status ++ String.ofList [':', ' '] ++ ce.keptLine := by
  unfold CommandError.summary CommandError.status CommandError.keptLine
  rw [hspawned, htimely]
  cases ce.exitCode <;> simp [String.append_assoc]

theorem firstNonemptyLine_isInfix {s l : String} (h : firstNonemptyLine s = some l) : l.toList <:+: s.toList := by
  obtain ⟨line, hline, rfl⟩ := List.mem_map.1 (List.mem_of_find?_eq_some h)
  exact (trim_isInfix line).trans (lines_isInfix hline)

/-- The kept line is a part of the output. -/
theorem outputShows_of_keptLine {ce : CommandError} {sig : String} (hsig : sig ∈ signatures)
    (h : shows ce.keptLine sig = true) : outputShows ce sig = true := by
  unfold CommandError.keptLine at h
  unfold outputShows
  rw [Bool.or_eq_true]
  cases hstderr : firstNonemptyLine ce.stderr with
  | some l =>
    rw [hstderr] at h
    exact .inr (shows_of_isInfix (firstNonemptyLine_isInfix hstderr) h)
  | none =>
    cases hstdout : firstNonemptyLine ce.stdout with
    | some l =>
      rw [hstderr, hstdout] at h
      exact .inl (shows_of_isInfix (firstNonemptyLine_isInfix hstdout) h)
    | none =>
      rw [hstderr, hstdout] at h
      rw [show ((none : Option String).or none).getD "" = "" from rfl, shows_empty (signatures_phrase hsig)] at h
      cases h

/-- A signature is seen in a text of the agent or in the kept line. -/
theorem contains_loweredChain (contexts : List String) {ce : CommandError} (htimely : ce.timedOut = false)
    (hspawned : ce.spawnError = none) {sig : String} (hsig : sig ∈ signatures) :
    contains (loweredChain ⟨contexts, .command ce⟩) sig = (agentShows contexts ce sig || shows ce.keptLine sig) := by
  have hphrase := signatures_phrase hsig
  have hjoin := shows_join hphrase (by simp)
    ((AnyhowError.chain ⟨contexts, .command ce⟩).filter fun s => !s.isEmpty)
  have hfilter : ∀ pieces : List String,
      (pieces.filter fun s => !s.isEmpty).any (shows · sig) = pieces.any (shows · sig) := by
    intro pieces
    induction pieces with
    | nil => rfl
    | cons s pieces ih =>
      rw [List.filter_cons]
      split
      next => rw [List.any_cons, List.any_cons, ih]
      next hempty =>
        have hs : s = "" := by simpa using hempty
        rw [List.any_cons, ih, hs, shows_empty hphrase, Bool.false_or]
  rw [hfilter] at hjoin
  refine hjoin.trans ?_
  rw [AnyhowError.chain, List.any_append, agentShows, Bool.or_assoc]
  simp only [RootCause.display, List.any_cons, List.any_nil, Bool.or_false]
  rw [summary_eq htimely hspawned, shows_before hphrase (by simp) rfl]

/-! ## The classification of a wrapped error -/

/-- The signatures that are seen are those of the agent's texts, and of the output none that is not in it; when the kept
line shows all that the output shows, the tests are made on the agent's texts and the complete output. -/
theorem classify_wrapped (contexts : List String) (ce : CommandError) (htimely : ce.timedOut = false)
    (hspawned : ce.spawnError = none) :
    (∃ seen : String → Bool,
      classifyError ⟨contexts, .command ce⟩ = (signatureTests seen).getD ErrorCode.pkgManagerError ∧
      ∀ sig ∈ signatures, (agentShows contexts ce sig = true → seen sig = true) ∧
        (seen sig = true → agentShows contexts ce sig = true ∨ outputShows ce sig = true)) ∧
    ((∀ sig ∈ signatures, outputShows ce sig = true → shows ce.keptLine sig = true) →
      classifyError ⟨contexts, .command ce⟩ =
        (signatureTests fun sig => agentShows contexts ce sig || outputShows ce sig).getD
          ErrorCode.pkgManagerError) := by
  have hclassify : classifyError ⟨contexts, .command ce⟩ =
      (signatureTests (contains (loweredChain ⟨contexts, .command ce⟩))).getD ErrorCode.pkgManagerError := by
    simp only [classifyError, extractCommandOutput, htimely, hspawned, Option.isSome_none, Bool.false_eq_true, if_false,
      classifySignature_eq]
  have hseen {sig : String} (hsig : sig ∈ signatures) := contains_loweredChain contexts htimely hspawned hsig
  refine ⟨⟨contains (loweredChain ⟨contexts, .command ce⟩), hclassify, fun sig hsig => ⟨fun h => ?_, fun h => ?_⟩⟩, ?_⟩
  · rw [hseen hsig, h, Bool.true_or]
  · rw [hseen hsig, Bool.or_eq_true] at h
    exact h.imp_right (outputShows_of_keptLine hsig)
  · intro hkept
    rw [hclassify]
    refine congrArg (Option.getD · ErrorCode.pkgManagerError) (signatureTests_congr fun sig hsig => ?_)
    have hkeeps : shows ce.keptLine sig = outputShows ce sig :=
      Bool.eq_iff_iff.2 ⟨outputShows_of_keptLine hsig, hkept sig hsig⟩
    rw [hseen hsig, hkeeps]

/-- The error of an `apt-get` that failed for a reason without a signature. -/
def plainFailure : CommandError where
  program := "apt-get"
  args := ["dist-upgrade", "-y"]
  exitCode := some 100
  stdout := ""
  stderr := "E: failed"
  spawnError := none
  timedOut := false

theorem plain_failure_classified :
    (∃ seen : String → Bool,
      classifyError ⟨[], .command plainFailure⟩ = (signatureTests seen).getD ErrorCode.pkgManagerError ∧
      ∀ sig ∈ signatures, (agentShows [] plainFailure sig = true → seen sig = true) ∧
        (seen sig = true → agentShows [] plainFailure sig = true ∨ outputShows plainFailure sig = true)) ∧
    ((∀ sig ∈ signatures, outputShows plainFailure sig = true → shows plainFailure.keptLine sig = true) →
      classifyError ⟨[], .command plainFailure⟩ =
        (signatureTests fun sig => agentShows [] plainFailure sig || outputShows plainFailure sig).getD
          ErrorCode.pkgManagerError) :=
  classify_wrapped [] plainFailure rfl rfl

/-- What `apt-get -f install` of a patch run failed with, for a reason without a signature. -/
def fixBrokenFailure : CommandError where
  program := "apt-get"
  args := ["-f", "install", "-y"]
  exitCode := some 100
  stdout := ""
  stderr := "E: Sub-process /usr/bin/dpkg returned an error code (1)"
  spawnError := none
  timedOut := false

/-- A context of the agent decides the class of an error whose output shows no signature. -/
theorem context_classified : ¬ ∀ (contexts : List String) (ce : CommandError),
    ce.timedOut = false → ce.spawnError = none → classifyError ⟨contexts, .command ce⟩ =
      (classifySignature (toLowercase (ce.stdout ++ "\n" ++ ce.stderr))).getD ErrorCode.pkgManagerError := by
  intro h
  have hclass := h ["fix-broken failed on retry — dependency issues remain unresolved"] fixBrokenFailure rfl rfl
  have hdecided : classifyError
      ⟨["fix-broken failed on retry — dependency issues remain unresolved"], .command fixBrokenFailure⟩ =
        ErrorCode.dependencyConflict := by decide +kernel
  have hplain :
      classifySignature (toLowercase (fixBrokenFailure.stdout ++ "\n" ++ fixBrokenFailure.stderr)) = none := by
    decide +kernel
  rw [hdecided, hplain] at hclass
  exact absurd hclass (by decide)

end LinuxPatchApi.Packages
