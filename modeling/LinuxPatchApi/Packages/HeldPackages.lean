/-
The held-package protocol of `apply_patches`: which calls of `run_apt_safe` a run is made of, with their outcomes, in
which order they come, and what decides the result.
-/
import LinuxPatchApi.Packages.AptSteps

namespace LinuxPatchApi.Packages.AptBackend

open Text Interaction

/-! ## Captured output -/

/-- The error carries a failed command whose captured stderr has the signature in any letter case. -/
def Captured (e : AnyhowError) (signature : String) : Prop :=
  ∃ ce, extractCommandOutput e = some ce ∧ contains (toLowercase ce.stderr) signature = true

def HeldBlock (e : AnyhowError) : Prop :=
  Captured e "held packages were changed" ∧ Captured e "--allow-change-held-packages"

def DependencySignature (e : AnyhowError) : Prop :=
  Captured e "unmet dependencies" ∨ Captured e "broken" ∨ Captured e "dependency"

theorem contains_loweredStderr_iff {e : AnyhowError} {signature : String} (hne : contains "" signature = false) :
    contains (loweredStderr e) signature = true ↔ Captured e signature := by
  unfold loweredStderr extractStderr Captured
  cases extractCommandOutput e with
  | none =>
    have hempty : toLowercase "" = "" := rfl
    simp [hempty, hne]
  | some ce => simp

theorem blockedByHeld_iff {e : AnyhowError} : blockedByHeld (loweredStderr e) = true ↔ HeldBlock e := by
  unfold blockedByHeld HeldBlock
  rw [Bool.and_eq_true, contains_loweredStderr_iff (by decide), contains_loweredStderr_iff (by decide)]

theorem dependencyIssue_iff {e : AnyhowError} : dependencyIssue (loweredStderr e) = true ↔ DependencySignature e := by
  unfold dependencyIssue DependencySignature
  rw [Bool.or_eq_true, Bool.or_eq_true, contains_loweredStderr_iff (by decide),
    contains_loweredStderr_iff (by decide), contains_loweredStderr_iff (by decide), or_assoc]

/-! ## Calls -/

def fixArgs : List Arg := ["-f", "install", "-y"]

def distUpgradeArgs : List Arg := ["dist-upgrade", "-y"]

def upgradeArgs : List Arg := ["upgrade", "-y"]

def AptStep.Succeeded (s : AptStep) : Prop := ∃ text, s.result = .ok text

def AptStep.FailedWith (P : AnyhowError → Prop) (s : AptStep) : Prop := ∃ e, s.result = .error e ∧ P e

theorem AptStep.FailedWith.not_succeeded {P : AnyhowError → Prop} {s : AptStep} (h : s.FailedWith P) :
    ¬ s.Succeeded := by
  rintro ⟨text, htext⟩
  obtain ⟨e, he, _⟩ := h
  rw [htext] at he
  cases he

theorem AptStep.FailedWith.absurd {P Q : AnyhowError → Prop} {s : AptStep} (h : s.FailedWith P)
    (hPQ : ∀ e, P e → ¬ Q e) : ¬ s.FailedWith Q := by
  rintro ⟨e', he', hQ⟩
  obtain ⟨e, he, hP⟩ := h
  rw [he'] at he
  cases he
  exact hPQ _ hP hQ

def Part.step? : Part → Option AptStep
  | step s => some s
  | other _ _ => none

/-- The calls of `run_apt_safe` in a run. -/
def steps (parts : List Part) : List AptStep := parts.filterMap Part.step?

/-- The calls with `dist-upgrade`. -/
def attempts (ss : List AptStep) : List AptStep := ss.filter fun s => s.args = distUpgradeArgs

/-! ## The order of the calls -/

/-- What comes after the last attempt, and the result: nothing, unless held packages block. -/
inductive Ending (d : AptStep) : List AptStep → Except AnyhowError Unit → Prop
  | upgraded (hd : d.Succeeded) : Ending d [] (.ok ())
  | failed (e : AnyhowError) (hd : d.FailedWith (¬ HeldBlock ·)) : Ending d [] (.error e)
  | held (u : AptStep) (e : AnyhowError) (hd : d.FailedWith HeldBlock) (hu : u.args = upgradeArgs) :
      Ending d [u] (.error e)

/-- The calls of `apply_patches` for all packages, and its result. -/
inductive PatchRun : List AptStep → Except AnyhowError Unit → Prop
  | unfixed (f : AptStep) (e : AnyhowError) (hf : f.args = fixArgs) (hfailed : ¬ f.Succeeded) : PatchRun [f] (.error e)
  | once (f d : AptStep) {tail : List AptStep} {r : Except AnyhowError Unit} (hf : f.args = fixArgs)
      (hfixed : f.Succeeded) (hd : d.args = distUpgradeArgs) (hend : Ending d tail r) : PatchRun (f :: d :: tail) r
  | unfixedAgain (f d f' : AptStep) (e : AnyhowError) (hf : f.args = fixArgs) (hfixed : f.Succeeded)
      (hd : d.args = distUpgradeArgs) (hfailed : d.FailedWith fun e => DependencySignature e ∧ ¬ HeldBlock e)
      (hf' : f'.args = fixArgs) (hfailed' : ¬ f'.Succeeded) : PatchRun [f, d, f'] (.error e)
  | twice (f d f' d' : AptStep) {tail : List AptStep} {r : Except AnyhowError Unit} (hf : f.args = fixArgs)
      (hfixed : f.Succeeded) (hd : d.args = distUpgradeArgs)
      (hfailed : d.FailedWith fun e => DependencySignature e ∧ ¬ HeldBlock e) (hf' : f'.args = fixArgs)
      (hfixed' : f'.Succeeded) (hd' : d'.args = distUpgradeArgs) (hend : Ending d' tail r) :
      PatchRun (f :: d :: f' :: d' :: tail) r

theorem runs_fixBroken {failure : String} {t : List (Event Response)} {r : Except AnyhowError Unit}
    (h : Runs (fixBroken failure).run t r) :
    ∃ f : AptStep, f.args = fixArgs ∧ t = f.trace ∧ (f.Succeeded ∧ r = .ok () ∨ ¬ f.Succeeded ∧ ∃ e, r = .error e) := by
  obtain ⟨t₁, t₂, s, rfl, h₁, h₂⟩ := runs_attempt_bind.1 h
  refine ⟨⟨_, t₁, s, h₁⟩, rfl, ?_⟩
  cases s with
  | ok text =>
    obtain ⟨rfl, rfl⟩ := runs_pure.1 h₂
    exact ⟨by simp, .inl ⟨⟨text, rfl⟩, rfl⟩⟩
  | error e =>
    obtain ⟨rfl, rfl⟩ := runs_pure.1 h₂
    refine ⟨by simp, .inr ⟨?_, _, rfl⟩⟩
    rintro ⟨_, ht⟩
    cases ht

/-- The fallback asks for the held packages, upgrades, and fails in any case. -/
theorem runs_heldFallback {failure : String} {t : List (Event Response)} {r : Except AnyhowError Unit}
    (h : Runs (heldFallback failure).run t r) :
    ∃ (e : Event Response) (he : e.1.ofAptStep = false) (u : AptStep), u.args = upgradeArgs ∧
      t = (Part.other e he).trace ++ u.trace ∧ ∃ e, r = .error e := by
  obtain ⟨t₁, t₂, s, rfl, h₁, h₂⟩ := runs_attempt_bind.1 h
  have hfails : t₂ = [] ∧ ∃ e, r = .error e := by
    cases s with
    | ok held => exact ⟨(runs_pure.1 h₂).1, _, (runs_pure.1 h₂).2⟩
    | error e => exact ⟨(runs_pure.1 h₂).1, _, (runs_pure.1 h₂).2⟩
  obtain ⟨rfl, hr⟩ := hfails
  rcases runs_bindE.1 h₁ with ⟨e, h₃, _⟩ | ⟨t₃, t₄, held, rfl, h₃, h₄⟩
  · obtain ⟨s', hs', _⟩ := runs_unwrapOr.1 h₃
    cases hs'
  obtain ⟨_, _, h₃⟩ := runs_unwrapOr.1 h₃
  obtain ⟨s', _, rfl⟩ := runs_runCommandTimed.1 h₃
  obtain ⟨s'', _, h₄⟩ := runs_handOn.1 h₄
  let holds : Event Response := ⟨.run "apt-mark" ["showhold"] (some quickOpTimeout), s'⟩
  exact ⟨holds, rfl, ⟨_, t₄, s'', h₄⟩, rfl, by simp [holds, Part.trace], hr⟩

/-- The parts of a trace with what they say about the calls and the result. -/
def MadeOf (P : List AptStep → Except AnyhowError Unit → Prop) (t : List (Event Response))
    (r : Except AnyhowError Unit) : Prop :=
  ∃ parts : List Part, t = parts.flatMap Part.trace ∧ P (steps parts) r

theorem madeOf_nil {P : List AptStep → Except AnyhowError Unit → Prop} {r : Except AnyhowError Unit} (h : P [] r) :
    MadeOf P [] r := ⟨[], rfl, h⟩

theorem madeOf_heldFallback {d : AptStep} (hd : d.FailedWith HeldBlock) {failure : String}
    {t : List (Event Response)} {r : Except AnyhowError Unit} (h : Runs (heldFallback failure).run t r) :
    MadeOf (Ending d) t r := by
  obtain ⟨e, he, u, hu, rfl, e', rfl⟩ := runs_heldFallback h
  exact ⟨[.other e he, .step u], by simp [Part.trace], .held u e' hd hu⟩

theorem runs_retryPatches {t : List (Event Response)} {r : Except AnyhowError Unit}
    (h : Runs (retryPatches none distUpgradeArgs).run t r) :
    MadeOf (fun ss r => (∃ f e, ss = [f] ∧ r = .error e ∧ f.args = fixArgs ∧ ¬ f.Succeeded) ∨
      ∃ f d tail, ss = f :: d :: tail ∧ f.args = fixArgs ∧ f.Succeeded ∧ d.args = distUpgradeArgs ∧
        Ending d tail r) t r := by
  rcases runs_bindE.1 h with ⟨e, h₁, rfl⟩ | ⟨t₁, t₂, _, rfl, h₁, h₂⟩
  · obtain ⟨f, hf, rfl, ⟨_, hr⟩ | ⟨hfailed, e', hr⟩⟩ := runs_fixBroken h₁
    · cases hr
    · exact ⟨[.step f], by simp [Part.trace], .inl ⟨f, e, rfl, rfl, hf, hfailed⟩⟩
  obtain ⟨f, hf, rfl, ⟨hfixed, _⟩ | ⟨_, e', hr⟩⟩ := runs_fixBroken h₁
  swap
  · cases hr
  obtain ⟨t₃, t₄, s, rfl, h₃, h₄⟩ := runs_attempt_bind.1 h₂
  have hd : MadeOf (Ending ⟨distUpgradeArgs, t₃, s, h₃⟩) t₄ r := by
    cases s with
    | ok text =>
      obtain ⟨rfl, rfl⟩ := runs_pure.1 h₄
      exact madeOf_nil (.upgraded ⟨text, rfl⟩)
    | error e =>
      simp only at h₄
      split at h₄
      next hheld => exact madeOf_heldFallback ⟨e, rfl, blockedByHeld_iff.1 (by simpa using hheld)⟩ h₄
      next hheld =>
        obtain ⟨rfl, rfl⟩ := runs_pure.1 h₄
        exact madeOf_nil (.failed _ ⟨e, rfl, fun h => hheld (by simp [blockedByHeld_iff.2 h])⟩)
  obtain ⟨parts, rfl, hend⟩ := hd
  exact ⟨.step f :: .step ⟨distUpgradeArgs, t₃, s, h₃⟩ :: parts, rfl,
    .inr ⟨f, _, steps parts, rfl, hf, hfixed, rfl, hend⟩⟩

theorem runs_applyPatches_none {t : List (Event Response)} {r : Except AnyhowError Unit}
    (h : Runs (applyPatches none).run t r) : MadeOf PatchRun t r := by
  rcases runs_bindE.1 h with ⟨e, h₁, rfl⟩ | ⟨t₁, t₂, _, rfl, h₁, h₂⟩
  · obtain ⟨f, hf, rfl, ⟨_, hr⟩ | ⟨hfailed, e', hr⟩⟩ := runs_fixBroken h₁
    · cases hr
    · exact ⟨[.step f], by simp [Part.trace], .unfixed f e hf hfailed⟩
  obtain ⟨f, hf, rfl, ⟨hfixed, _⟩ | ⟨_, e', hr⟩⟩ := runs_fixBroken h₁
  swap
  · cases hr
  obtain ⟨t₃, t₄, s, rfl, h₃, h₄⟩ := runs_attempt_bind.1 h₂
  have hshort (hd : MadeOf (Ending ⟨distUpgradeArgs, t₃, s, h₃⟩) t₄ r) : MadeOf PatchRun (f.trace ++ (t₃ ++ t₄)) r := by
    obtain ⟨parts, rfl, hend⟩ := hd
    exact ⟨.step f :: .step ⟨distUpgradeArgs, t₃, s, h₃⟩ :: parts, rfl, .once f _ hf hfixed rfl hend⟩
  cases s with
  | ok text =>
    obtain ⟨rfl, rfl⟩ := runs_pure.1 h₄
    exact hshort (madeOf_nil (.upgraded ⟨text, rfl⟩))
  | error e =>
    simp only at h₄
    split at h₄
    next hheld => exact hshort (madeOf_heldFallback ⟨e, rfl, blockedByHeld_iff.1 (by simpa using hheld)⟩ h₄)
    next hheld =>
    have hblock : ¬ HeldBlock e := fun h => hheld (by simp [blockedByHeld_iff.2 h])
    split at h₄
    next hdependency =>
      have hfailed : AptStep.FailedWith (fun e => DependencySignature e ∧ ¬ HeldBlock e)
          ⟨distUpgradeArgs, t₃, .error e, h₃⟩ := ⟨e, rfl, dependencyIssue_iff.1 hdependency, hblock⟩
      obtain ⟨parts, rfl, hretry⟩ := runs_retryPatches h₄
      refine ⟨.step f :: .step ⟨distUpgradeArgs, t₃, .error e, h₃⟩ :: parts, rfl, ?_⟩
      rcases hretry with ⟨f', e', hss, rfl, hf', hunfixed⟩ | ⟨f', d', tail, hss, hf', hfixed', hd', hend⟩
      · show PatchRun (f :: _ :: steps parts) _
        rw [hss]
        exact .unfixedAgain f _ f' e' hf hfixed rfl hfailed hf' hunfixed
      · show PatchRun (f :: _ :: steps parts) _
        rw [hss]
        exact .twice f _ f' d' hf hfixed rfl hfailed hf' hfixed' hd' hend
    next =>
      obtain ⟨rfl, rfl⟩ := runs_pure.1 h₄
      exact hshort (madeOf_nil (.failed _ ⟨e, rfl, hblock⟩))

/-! ## The protocol -/

/-- What the calls of a run and its result have to do with each other. -/
structure FollowsProtocol (ss : List AptStep) (r : Except AnyhowError Unit) : Prop where
  /-- An attempt comes only after a fix that succeeded. -/
  fixFirst : ∀ {pre s post}, ss = pre ++ s :: post → s.args = distUpgradeArgs →
    ∃ f ∈ pre, f.args = fixArgs ∧ f.Succeeded
  atMostTwice : (attempts ss).length ≤ 2
  /-- A second attempt comes only after a first that failed for dependencies, and another fix. -/
  retry : ∀ {pre s mid s' post}, ss = pre ++ s :: (mid ++ s' :: post) → s.args = distUpgradeArgs →
    s'.args = distUpgradeArgs → s.FailedWith DependencySignature ∧ ∃ f ∈ mid, f.args = fixArgs ∧ f.Succeeded
  fallback : (∃ u ∈ ss, u.args = upgradeArgs) ↔ ∃ s, (attempts ss).getLast? = some s ∧ s.FailedWith HeldBlock
  outcome : r = .ok () ↔ ∃ s, (attempts ss).getLast? = some s ∧ s.Succeeded

namespace Ending

variable {d : AptStep} {tail : List AptStep} {r : Except AnyhowError Unit}

theorem not_attempt (h : Ending d tail r) : ∀ s ∈ tail, s.args ≠ distUpgradeArgs := by
  cases h with
  | held u e hd hu =>
    intro s hs
    rw [List.mem_singleton.1 hs, hu]
    decide
  | _ => simp

theorem attempts_eq (h : Ending d tail r) : attempts tail = [] := by
  simpa [attempts] using h.not_attempt

theorem upgrade_iff (h : Ending d tail r) : (∃ u ∈ tail, u.args = upgradeArgs) ↔ d.FailedWith HeldBlock := by
  cases h with
  | upgraded hd => simpa using fun hheld : d.FailedWith HeldBlock => hheld.not_succeeded hd
  | failed e hd => simpa using hd.absurd fun _ h => h
  | held u e hd hu => simp [hd, hu]

theorem ok_iff (h : Ending d tail r) : r = .ok () ↔ d.Succeeded := by
  cases h with
  | upgraded hd => simpa using hd
  | failed e hd => simpa using hd.not_succeeded
  | held u e hd hu => simpa using hd.not_succeeded

end Ending

theorem fixArgs_ne : fixArgs ≠ distUpgradeArgs := by decide

/-- What comes before a call with other arguments than the first begins with the first. -/
theorem front_eq {ss pre post : List AptStep} {f s : AptStep} (h : f :: ss = pre ++ s :: post)
    (hne : f.args ≠ s.args) : ∃ front, pre = f :: front ∧ ss = front ++ s :: post := by
  rcases List.cons_eq_append_iff.1 h with ⟨_, h⟩ | h
  · obtain ⟨rfl, _⟩ := List.cons.inj h
    exact absurd rfl hne
  · exact h

theorem attempts_nil : attempts [] = [] := rfl

theorem attempts_cons_fix {f : AptStep} {ss : List AptStep} (hf : f.args = fixArgs) :
    attempts (f :: ss) = attempts ss := by
  simp [attempts, hf, fixArgs_ne]

theorem attempts_cons {d : AptStep} {ss : List AptStep} (hd : d.args = distUpgradeArgs) :
    attempts (d :: ss) = d :: attempts ss := by
  simp [attempts, hd]

/-- Two attempts among the calls are two elements of the list of attempts. -/
theorem two_le_attempts {pre mid post : List AptStep} {s s' : AptStep} (hs : s.args = distUpgradeArgs)
    (hs' : s'.args = distUpgradeArgs) : 2 ≤ (attempts (pre ++ s :: (mid ++ s' :: post))).length := by
  have hsplit : attempts (pre ++ s :: (mid ++ s' :: post)) =
      attempts pre ++ s :: (attempts mid ++ s' :: attempts post) := by
    simp [attempts, hs, hs']
  rw [hsplit]
  simp only [List.length_append, List.length_cons]
  omega

theorem PatchRun.fixFirst {ss : List AptStep} {r : Except AnyhowError Unit} (h : PatchRun ss r)
    {pre post : List AptStep} {s : AptStep} (heq : ss = pre ++ s :: post) (hs : s.args = distUpgradeArgs) :
    ∃ f ∈ pre, f.args = fixArgs ∧ f.Succeeded := by
  have hfront {f : AptStep} {rest : List AptStep} (heq : f :: rest = pre ++ s :: post) (hf : f.args = fixArgs) :
      ∃ front, pre = f :: front ∧ rest = front ++ s :: post :=
    front_eq heq (by rw [hf, hs]; exact fixArgs_ne)
  cases h with
  | unfixed f e hf hfailed =>
    obtain ⟨front, _, hnil⟩ := hfront heq hf
    simp at hnil
  | once f d hf hfixed | unfixedAgain f d f' e hf hfixed | twice f d f' d' hf hfixed =>
    obtain ⟨front, rfl, _⟩ := hfront heq hf
    exact ⟨f, List.mem_cons_self, hf, hfixed⟩

theorem PatchRun.retry {ss : List AptStep} {r : Except AnyhowError Unit} (h : PatchRun ss r)
    {pre mid post : List AptStep} {s s' : AptStep} (heq : ss = pre ++ s :: (mid ++ s' :: post))
    (hs : s.args = distUpgradeArgs) (hs' : s'.args = distUpgradeArgs) :
    s.FailedWith DependencySignature ∧ ∃ f ∈ mid, f.args = fixArgs ∧ f.Succeeded := by
  have htwo {front : List AptStep} : 2 ≤ (attempts (front ++ s :: (mid ++ s' :: post))).length :=
    two_le_attempts hs hs'
  have hcount : 2 ≤ (attempts ss).length := heq ▸ htwo
  cases h with
  | unfixed f e hf => simp [attempts_cons_fix hf, attempts_nil] at hcount
  | once f d hf hfixed hd hend => simp [attempts_cons_fix hf, attempts_cons hd, hend.attempts_eq] at hcount
  | unfixedAgain f d f' e hf hfixed hd hfailed hf' =>
    simp [attempts_cons_fix hf, attempts_cons hd, attempts_cons_fix hf', attempts_nil] at hcount
  | twice f d f' d' hf hfixed hd hfailed hf' hfixed' hd' hend =>
    -- the first attempt is at the second place, or there would not be two of them
    obtain ⟨front, rfl, hrest⟩ := front_eq heq (by rw [hf, hs]; exact fixArgs_ne)
    rcases List.cons_eq_append_iff.1 hrest with ⟨rfl, hstart⟩ | ⟨later, rfl, htail⟩
    · obtain ⟨rfl, hmid⟩ := List.cons.inj hstart
      obtain ⟨rest, rfl, _⟩ := front_eq hmid.symm (by rw [hf', hs']; exact fixArgs_ne)
      obtain ⟨e, he, hdependency, _⟩ := hfailed
      exact ⟨⟨e, he, hdependency⟩, f', List.mem_cons_self, hf', hfixed'⟩
    · have hlater := @htwo later
      rw [← htail, attempts_cons_fix hf', attempts_cons hd', hend.attempts_eq] at hlater
      simp at hlater

theorem PatchRun.followsProtocol {ss : List AptStep} {r : Except AnyhowError Unit} (h : PatchRun ss r) :
    FollowsProtocol ss r := by
  have hfix {f : AptStep} (hf : f.args = fixArgs) : f.args ≠ upgradeArgs := by
    rw [hf]
    decide
  have hdist {d : AptStep} (hd : d.args = distUpgradeArgs) : d.args ≠ upgradeArgs := by
    rw [hd]
    decide
  refine ⟨h.fixFirst, ?_, h.retry, ?_, ?_⟩
  · cases h with
    | unfixed f e hf => simp [attempts_cons_fix hf, attempts_nil]
    | once f d hf hfixed hd hend => simp [attempts_cons_fix hf, attempts_cons hd, hend.attempts_eq]
    | unfixedAgain f d f' e hf hfixed hd hfailed hf' =>
      simp [attempts_cons_fix hf, attempts_cons hd, attempts_cons_fix hf', attempts_nil]
    | twice f d f' d' hf hfixed hd hfailed hf' hfixed' hd' hend =>
      simp [attempts_cons_fix hf, attempts_cons hd, attempts_cons_fix hf', attempts_cons hd', hend.attempts_eq]
  · cases h with
    | unfixed f e hf => simp [attempts_cons_fix hf, attempts_nil, hfix hf]
    | once f d hf hfixed hd hend =>
      simp [attempts_cons_fix hf, attempts_cons hd, hend.attempts_eq, hfix hf, hdist hd, hend.upgrade_iff]
    | unfixedAgain f d f' e hf hfixed hd hfailed hf' =>
      have hheld := hfailed.absurd (Q := HeldBlock) fun _ h => h.2
      simp [attempts_cons_fix hf, attempts_cons hd, attempts_cons_fix hf', attempts_nil, hfix hf, hfix hf', hdist hd,
        hheld]
    | twice f d f' d' hf hfixed hd hfailed hf' hfixed' hd' hend =>
      simp [attempts_cons_fix hf, attempts_cons hd, attempts_cons_fix hf', attempts_cons hd', hend.attempts_eq,
        hfix hf, hfix hf', hdist hd, hdist hd', hend.upgrade_iff]
  · cases h with
    | unfixed f e hf => simp [attempts_cons_fix hf, attempts_nil]
    | once f d hf hfixed hd hend =>
      simp [attempts_cons_fix hf, attempts_cons hd, hend.attempts_eq, hend.ok_iff]
    | unfixedAgain f d f' e hf hfixed hd hfailed hf' =>
      simp [attempts_cons_fix hf, attempts_cons hd, attempts_cons_fix hf', attempts_nil, hfailed.not_succeeded]
    | twice f d f' d' hf hfixed hd hfailed hf' hfixed' hd' hend =>
      simp [attempts_cons_fix hf, attempts_cons hd, attempts_cons_fix hf', attempts_cons hd', hend.attempts_eq,
        hend.ok_iff]

/-! ## The command lines -/

/-- No argument overrides the holds. -/
def respectsHolds : Effect → Bool
  | .run _ args _ => args.all fun a => !contains a.text "--allow-change-held-packages"
  | _ => true

/-- The held packages are asked for, or the hold-respecting upgrade is started. -/
def isFallback : Effect → Bool
  | .run program args _ => program == "apt-mark" || (program == "apt-get" && args == upgradeArgs)
  | _ => false

section

variable {S : Event Response → Prop}

theorem traced_fixBroken_events (hS : DpkgEvents S) (hfix : ∀ answer, S ⟨aptGet fixArgs, answer⟩) (failure : String) :
    Traced (fun t => ∀ e ∈ t, S e) (fixBroken failure).run := by
  have hcomposes := Composes.forall_mem S
  refine .bindE hcomposes (.attempt hcomposes (hS.runApt hfix)) fun r => ?_
  cases r <;> exact .pure hcomposes _

theorem traced_heldFallback_events (hS : DpkgEvents S)
    (hmark : ∀ answer, S ⟨.run "apt-mark" ["showhold"] (some quickOpTimeout), answer⟩)
    (hupgrade : ∀ answer, S ⟨aptGet upgradeArgs, answer⟩) (failure : String) :
    Traced (fun t => ∀ e ∈ t, S e) (heldFallback failure).run := by
  intro t r h
  obtain ⟨t₁, t₂, s, rfl, h₁, h₂⟩ := runs_attempt_bind.1 h
  have hcomposes := Composes.forall_mem S
  have hheld : Traced (fun t => ∀ e ∈ t, S e)
      (unwrapOr "" (runCommandTimed "apt-mark" ["showhold"] quickOpTimeout)).run := by
    intro t r h
    obtain ⟨s, _, h⟩ := runs_unwrapOr.1 h
    exact traced_command hmark _ _ h
  have hfallback : Traced (fun t => ∀ e ∈ t, S e) fallbackToHoldRespectingUpgrade.run :=
    .bindE hcomposes hheld fun _ => .bindE hcomposes (hS.runApt hupgrade) fun _ => .pure hcomposes _
  refine hcomposes.append (hfallback _ _ h₁) ?_
  cases s <;> rw [(runs_pure.1 h₂).1] <;> exact hcomposes.nil

/-- The events of `apply_patches`: those of the fallback only if it is for all packages. -/
theorem traced_applyPatches_events (hS : DpkgEvents S) {packages : Option (List String)}
    (hpatch : ∀ answer, S ⟨aptGet (patchArgs packages), answer⟩) (hfix : ∀ answer, S ⟨aptGet fixArgs, answer⟩)
    (hfallback : packages = none →
      (∀ answer, S ⟨.run "apt-mark" ["showhold"] (some quickOpTimeout), answer⟩) ∧
        ∀ answer, S ⟨aptGet upgradeArgs, answer⟩) :
    Traced (fun t => ∀ e ∈ t, S e) (applyPatches packages).run := by
  have hcomposes := Composes.forall_mem S
  have hheld {e : AnyhowError} {failure : String}
      (h : (packages.isNone && blockedByHeld (loweredStderr e)) = true) :
      Traced (fun t => ∀ e ∈ t, S e) (heldFallback failure).run := by
    obtain ⟨hmark, hupgrade⟩ := hfallback (Option.isNone_iff_eq_none.1 (Bool.and_eq_true _ _ ▸ h).1)
    exact traced_heldFallback_events hS hmark hupgrade failure
  have hretry : Traced (fun t => ∀ e ∈ t, S e) (retryPatches packages (patchArgs packages)).run := by
    refine .bindE hcomposes (traced_fixBroken_events hS hfix _) fun _ => ?_
    refine .bindE hcomposes (.attempt hcomposes (hS.runApt hpatch)) fun r => ?_
    cases r with
    | ok _ => exact .pure hcomposes _
    | error e =>
      simp only
      split
      next h => exact hheld h
      next => exact .pure hcomposes _
  have hattempt : Traced (fun t => ∀ e ∈ t, S e) (attemptPatches packages (patchArgs packages)).run := by
    refine .bindE hcomposes (.attempt hcomposes (hS.runApt hpatch)) fun r => ?_
    cases r with
    | ok _ => exact .pure hcomposes _
    | error e =>
      simp only
      split
      next h => exact hheld h
      split
      · exact hretry
      · exact .pure hcomposes _
  refine .bindE hcomposes ?_ fun _ => hattempt
  cases packages with
  | none => exact traced_fixBroken_events hS hfix _
  | some _ => exact .pure hcomposes _

end

theorem applyPatches_respectsHolds {t : List (Event Response)} {r : Except AnyhowError Unit}
    (h : Runs (applyPatches none).run t r) : ∀ e ∈ t, respectsHolds e.1 = true := by
  have hS : DpkgEvents fun e => respectsHolds e.1 = true := by
    refine ⟨fun ⟨e, r⟩ he => ?_, fun _ => ?_, fun _ => ?_⟩
    · cases e with
      | run => cases he
      | _ => rfl
    · exact (by decide : respectsHolds configure = true)
    · exact (by decide : respectsHolds audit = true)
  refine traced_applyPatches_events hS (fun _ => ?_) (fun _ => ?_) (fun _ => ⟨fun _ => ?_, fun _ => ?_⟩) _ _ h
  · exact (by decide : respectsHolds (aptGet distUpgradeArgs) = true)
  · exact (by decide : respectsHolds (aptGet fixArgs) = true)
  · exact (by decide : respectsHolds (.run "apt-mark" ["showhold"] (some quickOpTimeout)) = true)
  · exact (by decide : respectsHolds (aptGet upgradeArgs) = true)

theorem applyPatches_noFallback {pkgs : List String} {t : List (Event Response)} {r : Except AnyhowError Unit}
    (h : Runs (applyPatches (some pkgs)).run t r) : ∀ e ∈ t, isFallback e.1 = false := by
  have hS : DpkgEvents fun e => isFallback e.1 = false := by
    refine ⟨fun ⟨e, r⟩ he => ?_, fun _ => ?_, fun _ => ?_⟩
    · cases e with
      | run => cases he
      | _ => rfl
    · exact (by decide : isFallback configure = false)
    · exact (by decide : isFallback audit = false)
  have hpatch : isFallback (aptGet (patchArgs (some pkgs))) = false := rfl
  refine traced_applyPatches_events hS (fun _ => hpatch) (fun _ => ?_) (fun hnone => ?_) _ _ h
  · exact (by decide : isFallback (aptGet fixArgs) = false)
  · cases hnone

/-- `apply_patches` for all packages follows the held-package protocol and does not override holds, and for given
packages it does not enter the fallback. -/
theorem applyPatches_protocol (packages : Option (List String)) {t : List (Event Response)}
    {r : Except AnyhowError Unit} (h : Runs (applyPatches packages).run t r) :
    match packages with
    | none => (∀ e ∈ t, respectsHolds e.1 = true) ∧
        ∃ parts : List Part, t = parts.flatMap Part.trace ∧ FollowsProtocol (steps parts) r
    | some _ => ∀ e ∈ t, isFallback e.1 = false := by
  cases packages with
  | none =>
    obtain ⟨parts, ht, hrun⟩ := runs_applyPatches_none h
    exact ⟨applyPatches_respectsHolds h, parts, ht, hrun.followsProtocol⟩
  | some pkgs => exact applyPatches_noFallback h

/-- The replies of commands when only `dist-upgrade` fails, because of held packages. -/
def heldReply (program : String) (args : List String) : Except AnyhowError CommandOutput :=
  if args = ["dist-upgrade", "-y"] then
    .error (AnyhowError.ofCommand {
      program, args, exitCode := some 100, stdout := "", spawnError := none, timedOut := false
      stderr := "E: Held packages were changed and -y was used without --allow-change-held-packages." })
  else .ok ⟨some 0, "", "", false⟩

theorem held_host_protocol :
    (∀ e ∈ (exec (Host.empty.replying heldReply) (applyPatches none).run).1, respectsHolds e.1 = true) ∧
      ∃ parts : List Part, (exec (Host.empty.replying heldReply) (applyPatches none).run).1 = parts.flatMap Part.trace ∧
        FollowsProtocol (steps parts) (exec (Host.empty.replying heldReply) (applyPatches none).run).2 :=
  applyPatches_protocol none (runs_exec (Host.empty.replying heldReply) _)

end LinuxPatchApi.Packages.AptBackend
