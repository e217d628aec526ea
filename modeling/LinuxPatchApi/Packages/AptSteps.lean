/-
`run_apt_safe` step by step: what one call of it does, for every answer of the runner, and that the operations of the
backend that change packages are made of such calls, so that each `apt-get` stands between its clean-ups.
-/
import LinuxPatchApi.Packages.CommandRuns

namespace LinuxPatchApi.Packages

open Text Interaction

/-- No command that goes through the runner, and no outcome that is recorded. -/
def Effect.isQuestion : Effect → Bool
  | .run _ _ _ | .updateSuccess | .updateFailure _ => false
  | _ => true

def Effect.isAptGet : Effect → Bool
  | .run program _ _ => program == "apt-get"
  | _ => false

/-- Only a call of `run_apt_safe` asks for it: each locks the mutex once, and may run `apt-get`. -/
def Effect.ofAptStep : Effect → Bool
  | .lockAptMutex => true
  | e => e.isAptGet

/-- Nothing but questions. -/
def Quiet (t : List (Event Response)) : Prop := ∀ e ∈ t, e.1.isQuestion = true

def NoAptGet (t : List (Event Response)) : Prop := ∀ e ∈ t, e.1.isAptGet = false

theorem composes_noAptGet : Composes NoAptGet := .forall_mem _

theorem Quiet.noAptGet {t : List (Event Response)} (h : Quiet t) : NoAptGet t := by
  intro ⟨e, r⟩ he
  have he := h _ he
  cases e with
  | run => cases he
  | _ => rfl

theorem NoAptGet.not_mem {t : List (Event Response)} (h : NoAptGet t) {pre post : List (Event Response)}
    {args : List Arg} {timeout : Option Nat} {answer : Except AnyhowError CommandOutput} :
    t ≠ pre ++ ⟨.run "apt-get" args timeout, answer⟩ :: post := by
  rintro rfl
  have := h ⟨.run "apt-get" args timeout, answer⟩ (by simp)
  simp [Effect.isAptGet] at this

/-! ## Nothing but questions -/

section Silent

variable {α β : Type}

/-- The operation succeeds, and only asks questions. -/
def Silent (op : Op α) : Prop := ∀ t r, Runs op.run t r → (∃ a, r = .ok a) ∧ Quiet t

theorem Silent.pure (a : α) : Silent (pure a : Op α) := by
  intro t r h
  obtain ⟨rfl, rfl⟩ := runs_pure.1 h
  exact ⟨⟨a, rfl⟩, by simp [Quiet]⟩

theorem Silent.ask {e : Effect} (he : e.isQuestion = true) : Silent (ask e) := by
  intro t r h
  obtain ⟨s, rfl, rfl⟩ := runs_ask.1 h
  exact ⟨⟨s, rfl⟩, by simp [Quiet, he]⟩

theorem Silent.bind {op : Op α} {f : α → Op β} (h : Silent op) (hf : ∀ a, Silent (f a)) : Silent (op >>= f) := by
  intro t r ht
  rcases runs_bindE.1 ht with ⟨e, h₁, _⟩ | ⟨t₁, t₂, a, rfl, h₁, h₂⟩
  · obtain ⟨⟨a, ha⟩, _⟩ := h _ _ h₁
    cases ha
  · obtain ⟨_, hq₁⟩ := h _ _ h₁
    obtain ⟨hr, hq₂⟩ := hf a _ _ h₂
    exact ⟨hr, fun e he => (List.mem_append.1 he).elim (hq₁ e) (hq₂ e)⟩

theorem Silent.relay {e : Effect} {f : Response e → α} (he : e.isQuestion = true) :
    Silent (do let s ← Packages.ask e; return f s : Op α) := .bind (.ask he) fun _ => .pure _

end Silent

namespace AptBackend

theorem silent_lockIsStale (path : String) : Silent (lockIsStale path) := by
  refine .bind (.relay rfl) fun content => ?_
  cases content with
  | none => exact .pure _
  | some text =>
    simp only
    split
    · refine .bind (.relay rfl) fun alive => ?_
      split
      · exact .bind (.relay rfl) fun _ => .pure _
      · exact .pure _
    · exact .relay rfl

theorem silent_cleanupLock (path : String) : Silent (cleanupLock path) := by
  refine .bind (.relay rfl) fun there => ?_
  split
  · refine .bind (silent_lockIsStale path) fun stale => ?_
    split
    · exact .bind (.ask rfl) fun _ => .pure _
    · exact .pure _
  · exact .pure _

theorem silent_cleanupLocks : ∀ paths : List String, Silent (cleanupLocks paths)
  | [] => .pure _
  | path :: paths => .bind (silent_cleanupLock path) fun _ => silent_cleanupLocks paths

/-! ## dpkg -/

/-- `dpkg --configure -a`. -/
abbrev configure : Effect := .run "dpkg" ["--configure", "-a"] (some quickOpTimeout)

/-- `dpkg --audit`. -/
abbrev audit : Effect := .run "dpkg" ["--audit"] (some quickOpTimeout)

abbrev aptGet (args : List Arg) : Effect := .run "apt-get" args (some (timeoutFor ["update"] args))

/-- Only white space. -/
def Blank (s : String) : Prop := ∀ c ∈ s.toList, isWhitespace c = true

theorem blank_of_trim {s : String} (h : (trim s).isEmpty = true) : Blank s := by
  have hnil : (s.toList.dropWhile isWhitespace).rdropWhile isWhitespace = [] := by
    simpa [trim, String.isEmpty_iff] using h
  have hdrop : s.toList.dropWhile isWhitespace = [] := by
    by_contra hne
    have hhead := List.head_dropWhile_not isWhitespace hne
    have hall := List.rdropWhile_eq_nil_iff.1 hnil _ (List.head_mem hne)
    rw [hall] at hhead
    cases hhead
  exact List.dropWhile_eq_nil_iff.1 hdrop

/-- The clean-up ends with `dpkg --configure -a`, whose answer decides. -/
theorem runs_ensureDpkgClean {t : List (Event Response)} {r : Except AnyhowError Unit}
    (h : Runs ensureDpkgClean.run t r) :
    ∃ asks s, t = asks ++ [⟨configure, s⟩] ∧ Quiet asks ∧ r.isOk = Except.isOk s := by
  rcases runs_bindE.1 h with ⟨e, h₁, _⟩ | ⟨asks, t₂, _, rfl, h₁, h₂⟩
  · obtain ⟨⟨_, he⟩, _⟩ := silent_cleanupLocks _ _ _ h₁
    cases he
  · obtain ⟨_, hquiet⟩ := silent_cleanupLocks _ _ _ h₁
    obtain ⟨t₃, t₄, s, rfl, h₃, h₄⟩ := runs_attempt_bind.1 h₂
    obtain ⟨s, rfl, rfl⟩ := runs_runCommandTimed.1 h₃
    cases s <;> obtain ⟨rfl, rfl⟩ := runs_pure.1 h₄ <;> exact ⟨asks, _, rfl, hquiet, rfl⟩

/-- What holds of every question, and of every answer of dpkg. -/
structure DpkgEvents (S : Event Response → Prop) : Prop where
  quiet : ∀ e : Event Response, e.1.isQuestion = true → S e
  configure : ∀ answer, S ⟨configure, answer⟩
  audit : ∀ answer, S ⟨audit, answer⟩

section DpkgEvents

variable {S : Event Response → Prop}

theorem DpkgEvents.ensureDpkgClean (hS : DpkgEvents S) :
    Traced (fun t => ∀ e ∈ t, S e) AptBackend.ensureDpkgClean.run := by
  intro t r h
  obtain ⟨asks, s, rfl, hquiet, _⟩ := runs_ensureDpkgClean h
  exact (Composes.forall_mem S).append (fun e he => hS.quiet e (hquiet e he)) (by simpa using hS.configure s)

theorem DpkgEvents.verifyDpkgClean (hS : DpkgEvents S) :
    Traced (fun t => ∀ e ∈ t, S e) AptBackend.verifyDpkgClean.run := by
  have hcomposes := Composes.forall_mem S
  have hrecheck : Traced (fun t => ∀ e ∈ t, S e) recheckDpkg.run := by
    refine .bindE hcomposes (traced_command hS.audit) fun output => ?_
    split
    · exact .pure hcomposes _
    · exact .pure hcomposes _
  refine .bindE hcomposes (traced_command hS.audit) fun output => ?_
  split
  · exact .pure hcomposes _
  · exact .bindE hcomposes hS.ensureDpkgClean fun _ => hrecheck

/-- A call of `run_apt_safe` runs nothing but `apt-get` with its arguments and dpkg. -/
theorem DpkgEvents.runApt (hS : DpkgEvents S) {args : List Arg} (h : ∀ answer, S ⟨aptGet args, answer⟩) :
    Traced (fun t => ∀ e ∈ t, S e) (AptBackend.runApt args).run := by
  have hcomposes := Composes.forall_mem S
  have hafter : ∀ answer, Traced (fun t => ∀ e ∈ t, S e) (afterAptGet args answer).run := by
    intro answer
    have hfailed {e : AnyhowError} : Traced (fun t => ∀ e ∈ t, S e)
        (do let _ ← Fallible.attempt AptBackend.ensureDpkgClean; throw e : Op String).run :=
      .bindE hcomposes (.attempt hcomposes hS.ensureDpkgClean) fun _ => .pure hcomposes _
    cases answer with
    | error e => exact hfailed
    | ok output =>
      unfold afterAptGet
      simp only
      split
      · exact .bindE hcomposes hS.verifyDpkgClean fun _ => .pure hcomposes _
      · exact hfailed
  have hlock : Traced (fun t => ∀ e ∈ t, S e) (ask .lockAptMutex).run :=
    .performE hcomposes fun r => by simpa using hS.quiet ⟨.lockAptMutex, r⟩ rfl
  have haptGet : Traced (fun t => ∀ e ∈ t, S e)
      (runWithTimeout "apt-get" args (some (timeoutFor ["update"] args))).run := by
    intro t r ht
    rw [runs_runWithTimeout.1 ht]
    simpa using h r
  refine .bindE hcomposes hlock fun locked => ?_
  split
  · exact .bindE hcomposes hS.ensureDpkgClean fun _ => .bindE hcomposes (.attempt hcomposes haptGet) hafter
  · exact .pure hcomposes _

end DpkgEvents

theorem dpkgEvents_noAptGet : DpkgEvents fun e => e.1.isAptGet = false where
  quiet := by
    intro ⟨e, r⟩ he
    exact Quiet.noAptGet (t := [⟨e, r⟩]) (by simpa [Quiet] using he) ⟨e, r⟩ (by simp)
  configure _ := by simp [Effect.isAptGet]
  audit _ := by simp [Effect.isAptGet]

/-- The last thing in the trace is an audit that printed nothing but white space. -/
def EndsAudited (t : List (Event Response)) : Prop :=
  ∃ front, ∃ output : CommandOutput, t = front ++ [⟨audit, .ok output⟩] ∧ Blank output.stdout

theorem EndsAudited.prepend {t : List (Event Response)} (g : List (Event Response)) (h : EndsAudited t) :
    EndsAudited (g ++ t) := by
  obtain ⟨front, output, rfl, hblank⟩ := h
  exact ⟨g ++ front, output, by rw [List.append_assoc], hblank⟩

theorem endsAudited_runDpkg {t : List (Event Response)} {text : String} (hblank : (trim text).isEmpty = true)
    (h : Runs (runDpkg ["--audit"]).run t (.ok text)) : EndsAudited t := by
  obtain ⟨s, hs, rfl⟩ := runs_runCommandTimed.1 h
  cases s with
  | error e => cases hs
  | ok output =>
    cases hs
    exact ⟨[], output, rfl, blank_of_trim hblank⟩

theorem endsAudited_recheckDpkg {t : List (Event Response)} (h : Runs recheckDpkg.run t (.ok ())) : EndsAudited t := by
  rcases runs_bindE.1 h with ⟨_, _, he⟩ | ⟨t₁, t₂, text, rfl, h₁, h₂⟩
  · cases he
  split at h₂
  next hblank =>
    obtain ⟨rfl, _⟩ := runs_pure.1 h₂
    rw [List.append_nil]
    exact endsAudited_runDpkg hblank h₁
  next =>
    obtain ⟨_, he⟩ := runs_pure.1 h₂
    cases he

/-- The check succeeds only right after an audit that found nothing. -/
theorem endsAudited_verifyDpkgClean {t : List (Event Response)} (h : Runs verifyDpkgClean.run t (.ok ())) :
    EndsAudited t := by
  rcases runs_bindE.1 h with ⟨_, _, he⟩ | ⟨t₁, t₂, text, rfl, h₁, h₂⟩
  · cases he
  split at h₂
  next hblank =>
    obtain ⟨rfl, _⟩ := runs_pure.1 h₂
    rw [List.append_nil]
    exact endsAudited_runDpkg hblank h₁
  next =>
    rcases runs_bindE.1 h₂ with ⟨_, _, he⟩ | ⟨t₃, t₄, _, rfl, _, h₄⟩
    · cases he
    exact ((endsAudited_recheckDpkg h₄).prepend t₃).prepend t₁

/-! ## One call -/

/-- The answer to an `apt-get` that failed. -/
def Failed (answer : Except AnyhowError CommandOutput) : Prop := ∀ output, answer = .ok output → output.success = false

/-- What a call of `run_apt_safe` does: `apt-get` is not started; or it fails and dpkg is cleaned up; or it succeeds
and dpkg is checked, with the check's outcome. -/
inductive AptRun (args : List Arg) : List (Event Response) → Except AnyhowError String → Prop
  | unstarted {t : List (Event Response)} (e : AnyhowError) (hno : NoAptGet t) : AptRun args t (.error e)
  | failed {pre asks : List (Event Response)} (configured : CommandOutput)
      (answer cleaned : Except AnyhowError CommandOutput) (e : AnyhowError) (hpre : NoAptGet pre) (hasks : Quiet asks)
      (hfailed : Failed answer) :
      AptRun args (pre ++ ⟨configure, .ok configured⟩ :: ⟨aptGet args, answer⟩ :: (asks ++ [⟨configure, cleaned⟩]))
        (.error e)
  | checked {pre post : List (Event Response)} (configured output : CommandOutput) {r : Except AnyhowError Unit}
      (hpre : NoAptGet pre) (hsuccess : output.success = true) (hcheck : Runs verifyDpkgClean.run post r) :
      AptRun args (pre ++ ⟨configure, .ok configured⟩ :: ⟨aptGet args, .ok output⟩ :: post)
        (r.map fun _ => output.stdout)

theorem runs_afterAptGet {args : List Arg} {answer : Except AnyhowError CommandOutput} {t : List (Event Response)}
    {r : Except AnyhowError String} (h : Runs (afterAptGet args answer).run t r) :
    (Failed answer ∧ (∃ e, r = .error e) ∧ ∃ asks s, t = asks ++ [⟨configure, s⟩] ∧ Quiet asks) ∨
      ∃ output s, answer = .ok output ∧ output.success = true ∧ Runs verifyDpkgClean.run t s ∧
        r = s.map fun _ => output.stdout := by
  have hcleaned {e : AnyhowError} {r : Except AnyhowError String}
      (h : Runs (do let _ ← Fallible.attempt ensureDpkgClean; throw e : Op String).run t r) :
      (∃ e, r = .error e) ∧ ∃ asks s, t = asks ++ [⟨configure, s⟩] ∧ Quiet asks := by
    obtain ⟨t₁, t₂, s, rfl, h₁, h₂⟩ := runs_attempt_bind.1 h
    obtain ⟨rfl, rfl⟩ := runs_pure.1 h₂
    obtain ⟨asks, s, rfl, hquiet, _⟩ := runs_ensureDpkgClean h₁
    exact ⟨⟨e, rfl⟩, asks, s, by simp, hquiet⟩
  cases answer with
  | error e =>
    refine .inl ⟨fun _ he => ?_, hcleaned h⟩
    cases he
  | ok output =>
    unfold afterAptGet at h
    simp only at h
    split at h
    next hsuccess =>
      obtain ⟨s, rfl, hcheck⟩ := runs_handOn.1 h
      exact .inr ⟨output, s, rfl, hsuccess, hcheck, rfl⟩
    next hsuccess =>
      refine .inl ⟨fun _ he => ?_, hcleaned h⟩
      cases he
      simpa using hsuccess

theorem runs_runApt {args : List Arg} {t : List (Event Response)} {r : Except AnyhowError String}
    (h : Runs (runApt args).run t r) : AptRun args t r := by
  rcases runs_bindE.1 h with ⟨_, h₁, _⟩ | ⟨t₁, t₂, locked, rfl, h₁, h₂⟩
  · obtain ⟨_, he, _⟩ := runs_ask.1 h₁
    cases he
  obtain ⟨s, _, rfl⟩ := runs_ask.1 h₁
  have hlock : NoAptGet [⟨.lockAptMutex, s⟩] := by simp [NoAptGet, Effect.isAptGet]
  cases locked with
  | false =>
    rw [if_neg Bool.false_ne_true] at h₂
    obtain ⟨rfl, rfl⟩ := runs_pure.1 h₂
    exact .unstarted _ hlock
  | true =>
    rcases runs_bindE.1 h₂ with ⟨e, h₃, rfl⟩ | ⟨t₃, t₄, _, rfl, h₃, h₄⟩
    · exact .unstarted e (composes_noAptGet.append hlock (dpkgEvents_noAptGet.ensureDpkgClean _ _ h₃))
    obtain ⟨asks, configured, rfl, hquiet, hok⟩ := runs_ensureDpkgClean h₃
    obtain ⟨t₅, t₆, answer, rfl, h₅, h₆⟩ := runs_attempt_bind.1 h₄
    rw [runs_runWithTimeout.1 h₅]
    have hpre := composes_noAptGet.append hlock hquiet.noAptGet
    cases configured with
    | error e => cases hok
    | ok configured =>
      rcases runs_afterAptGet h₆ with ⟨hfailed, ⟨e, rfl⟩, asks', cleaned, rfl, hasks⟩ |
        ⟨output, s', rfl, hsuccess, hcheck, rfl⟩
      · have : AptRun args _ _ := .failed configured answer cleaned e hpre hasks hfailed
        simpa using this
      · have : AptRun args _ _ := .checked configured output hpre hsuccess hcheck
        simpa using this

/-! ## Brackets -/

/-- Every `apt-get` comes right after a `dpkg --configure -a` that succeeded, and after one that failed the next command
is `dpkg --configure -a`. -/
structure Bracketed (t : List (Event Response)) : Prop where
  before : ∀ {pre args timeout answer post}, t = pre ++ ⟨.run "apt-get" args timeout, answer⟩ :: post →
    ∃ front configured, pre = front ++ [⟨configure, .ok configured⟩]
  after : ∀ {pre args timeout answer post}, t = pre ++ ⟨.run "apt-get" args timeout, answer⟩ :: post → Failed answer →
    ∃ asks cleaned rest, post = asks ++ ⟨configure, cleaned⟩ :: rest ∧ Quiet asks

theorem append_eq_cons_cases {α : Type} {t t' pre post : List α} {e : α} (h : t ++ t' = pre ++ e :: post) :
    (∃ m, t = pre ++ e :: m ∧ post = m ++ t') ∨ ∃ m, pre = t ++ m ∧ t' = m ++ e :: post := by
  rcases List.append_eq_append_iff.1 h with ⟨m, hpre, ht'⟩ | ⟨m, ht, hpost⟩
  · exact .inr ⟨m, hpre, ht'⟩
  · cases m with
    | nil => exact .inr ⟨[], by simpa using ht.symm, hpost.symm⟩
    | cons x m =>
      cases hpost
      exact .inl ⟨m, ht, rfl⟩

theorem composes_bracketed : Composes Bracketed where
  nil := ⟨fun h => by simp at h, fun h => by simp at h⟩
  append := by
    intro t t' h h'
    constructor
    · intro pre args timeout answer post heq
      rcases append_eq_cons_cases heq with ⟨m, ht, _⟩ | ⟨m, rfl, ht'⟩
      · exact h.before ht
      · obtain ⟨front, configured, rfl⟩ := h'.before ht'
        exact ⟨t ++ front, configured, by rw [List.append_assoc]⟩
    · intro pre args timeout answer post heq hfailed
      rcases append_eq_cons_cases heq with ⟨m, ht, rfl⟩ | ⟨m, _, ht'⟩
      · obtain ⟨asks, cleaned, rest, rfl, hquiet⟩ := h.after ht hfailed
        exact ⟨asks, cleaned, rest ++ t', by simp, hquiet⟩
      · exact h'.after ht' hfailed

theorem bracketed_of_noAptGet {t : List (Event Response)} (h : NoAptGet t) : Bracketed t :=
  ⟨fun heq => absurd heq h.not_mem, fun heq => absurd heq h.not_mem⟩

/-- The only `apt-get` of a call. -/
theorem aptGet_unique {args args' : List Arg} {timeout : Option Nat} {pre pre' post post' : List (Event Response)}
    {configured answer answer' : Except AnyhowError CommandOutput} (hpre : NoAptGet pre) (hpost : NoAptGet post)
    (h : pre ++ ⟨configure, configured⟩ :: ⟨aptGet args, answer⟩ :: post =
      pre' ++ ⟨.run "apt-get" args' timeout, answer'⟩ :: post') :
    pre' = pre ++ [⟨configure, configured⟩] ∧ answer = answer' ∧ post = post' := by
  rcases append_eq_cons_cases h with ⟨m, hm, _⟩ | ⟨m, rfl, hm⟩
  · exact absurd hm hpre.not_mem
  match m with
  | [] =>
    have hprogram := congrArg Sigma.fst (List.cons.inj hm).1
    simp at hprogram
  | [x] =>
    cases hm
    exact ⟨rfl, rfl, rfl⟩
  | x :: y :: m =>
    cases hm
    exact absurd rfl hpost.not_mem

theorem AptRun.bracketed {args : List Arg} {t : List (Event Response)} {r : Except AnyhowError String}
    (h : AptRun args t r) : Bracketed t := by
  cases h with
  | unstarted e hno => exact bracketed_of_noAptGet hno
  | @failed pre asks configured answer cleaned e hpre hasks hfailed =>
    have hpost : NoAptGet (asks ++ [⟨configure, cleaned⟩]) :=
      composes_noAptGet.append hasks.noAptGet (by simp [NoAptGet, Effect.isAptGet])
    constructor
    · intro pre' args' timeout answer' post' heq
      obtain ⟨rfl, _, _⟩ := aptGet_unique hpre hpost heq
      exact ⟨pre, configured, rfl⟩
    · intro pre' args' timeout answer' post' heq _
      obtain ⟨_, _, rfl⟩ := aptGet_unique hpre hpost heq
      exact ⟨asks, cleaned, [], rfl, hasks⟩
  | @checked pre post configured output r hpre hsuccess hcheck =>
    have hpost : NoAptGet post := dpkgEvents_noAptGet.verifyDpkgClean _ _ hcheck
    constructor
    · intro pre' args' timeout answer' post' heq
      obtain ⟨rfl, _, _⟩ := aptGet_unique hpre hpost heq
      exact ⟨pre, configured, rfl⟩
    · intro pre' args' timeout answer' post' heq hfailed
      obtain ⟨_, rfl, _⟩ := aptGet_unique hpre hpost heq
      rw [hfailed output rfl] at hsuccess
      cases hsuccess

/-- `apt-get` exited with 0, and the step ends with an audit that printed nothing but white space. -/
def Verified (args : List Arg) (t : List (Event Response)) : Prop :=
  ∃ pre, ∃ output : CommandOutput, ∃ post, t = pre ++ ⟨aptGet args, .ok output⟩ :: post ∧
    output.statusCode = some 0 ∧ EndsAudited post

theorem AptRun.verified {args : List Arg} {t : List (Event Response)} {text : String} (h : AptRun args t (.ok text)) :
    Verified args t := by
  generalize hr : (.ok text : Except AnyhowError String) = r at h
  cases h with
  | unstarted => cases hr
  | failed => cases hr
  | @checked pre post configured output r hpre hsuccess hcheck =>
    cases r with
    | error e => cases hr
    | ok =>
      refine ⟨pre ++ [⟨configure, .ok configured⟩], output, post, by simp, ?_, endsAudited_verifyDpkgClean hcheck⟩
      simpa [CommandOutput.success] using hsuccess

/-! ## Operations made of calls -/

/-- A call of `run_apt_safe` in a run of an operation. -/
structure AptStep where
  args : List Arg
  trace : List (Event Response)
  result : Except AnyhowError String
  run : Runs (runApt args).run trace result

inductive Part
  | step (s : AptStep)
  | other (e : Event Response) (h : e.1.ofAptStep = false)

def Part.trace : Part → List (Event Response)
  | step s => s.trace
  | other e _ => [e]

theorem Part.bracketed : ∀ p : Part, Bracketed p.trace
  | step s => (runs_runApt s.run).bracketed
  | other e h => by
    refine bracketed_of_noAptGet ?_
    simp only [NoAptGet, trace, List.mem_singleton, forall_eq]
    unfold Effect.ofAptStep at h
    split at h
    · cases h
    · exact h

/-- Only calls of `run_apt_safe` lock the mutex and run `apt-get`. -/
def MadeOfSteps (t : List (Event Response)) : Prop := ∃ parts : List Part, t = parts.flatMap Part.trace

theorem composes_madeOfSteps : Composes MadeOfSteps where
  nil := ⟨[], rfl⟩
  append := by
    rintro t t' ⟨parts, rfl⟩ ⟨parts', rfl⟩
    exact ⟨parts ++ parts', by rw [List.flatMap_append]⟩

theorem traced_runApt (args : List Arg) : Traced MadeOfSteps (runApt args).run :=
  fun t r h => ⟨[.step ⟨args, t, r, h⟩], by simp [Part.trace]⟩

theorem madeOfSteps_singleton {e : Event Response} (h : e.1.ofAptStep = false) : MadeOfSteps [e] :=
  ⟨[.other e h], rfl⟩

theorem traced_ask {e : Effect} (h : e.ofAptStep = false) : Traced MadeOfSteps (ask e).run :=
  .performE composes_madeOfSteps fun _ => madeOfSteps_singleton h

theorem traced_fixBroken (failure : String) : Traced MadeOfSteps (fixBroken failure).run := by
  refine .bindE composes_madeOfSteps (.attempt composes_madeOfSteps (traced_runApt _)) fun r => ?_
  cases r <;> exact .pure composes_madeOfSteps _

theorem traced_heldFallback (failure : String) : Traced MadeOfSteps (heldFallback failure).run := by
  have hheld : Traced MadeOfSteps (unwrapOr "" (runCommandTimed "apt-mark" ["showhold"] quickOpTimeout)).run := by
    intro t r h
    obtain ⟨s, _, h⟩ := runs_unwrapOr.1 h
    obtain ⟨_, _, rfl⟩ := runs_runCommandTimed.1 h
    exact madeOfSteps_singleton rfl
  have hfallback : Traced MadeOfSteps fallbackToHoldRespectingUpgrade.run := by
    refine .bindE composes_madeOfSteps hheld fun _ => ?_
    exact .bindE composes_madeOfSteps (traced_runApt _) fun _ => .pure composes_madeOfSteps _
  refine .bindE composes_madeOfSteps (.attempt composes_madeOfSteps hfallback) fun r => ?_
  cases r <;> exact .pure composes_madeOfSteps _

theorem traced_retryPatches (packages : Option (List String)) (args : List Arg) :
    Traced MadeOfSteps (retryPatches packages args).run := by
  refine .bindE composes_madeOfSteps (traced_fixBroken _) fun _ => ?_
  refine .bindE composes_madeOfSteps (.attempt composes_madeOfSteps (traced_runApt _)) fun r => ?_
  cases r with
  | ok _ => exact .pure composes_madeOfSteps _
  | error e =>
    simp only
    split
    · exact traced_heldFallback _
    · exact .pure composes_madeOfSteps _

theorem traced_attemptPatches (packages : Option (List String)) (args : List Arg) :
    Traced MadeOfSteps (attemptPatches packages args).run := by
  refine .bindE composes_madeOfSteps (.attempt composes_madeOfSteps (traced_runApt _)) fun r => ?_
  cases r with
  | ok _ => exact .pure composes_madeOfSteps _
  | error e =>
    simp only
    split
    · exact traced_heldFallback _
    split
    · exact traced_retryPatches _ _
    · exact .pure composes_madeOfSteps _

theorem traced_applyPatches (packages : Option (List String)) : Traced MadeOfSteps (applyPatches packages).run := by
  refine .bindE composes_madeOfSteps ?_ fun _ => traced_attemptPatches _ _
  cases packages with
  | none => exact traced_fixBroken _
  | some _ => exact .pure composes_madeOfSteps _

theorem traced_refreshPackageCache : Traced MadeOfSteps refreshPackageCache.run := by
  refine .bindE composes_madeOfSteps (.attempt composes_madeOfSteps (traced_runApt _)) fun r => ?_
  cases r with
  | ok _ => exact .bindE composes_madeOfSteps (traced_ask rfl) fun _ => .pure composes_madeOfSteps _
  | error e => exact .bindE composes_madeOfSteps (traced_ask rfl) fun _ => .pure composes_madeOfSteps _

/-- The operations that change the installed packages or the package lists. -/
inductive Mutation
  | install (packages : List PackageSpec) (options : InstallOptions)
  | update (name : String)
  | remove (name : String) (purge : Bool)
  | patch (packages : Option (List String))
  | refresh

def Mutation.op : Mutation → Op Unit
  | install packages options => installPackages packages options
  | update name => updatePackage name
  | remove name purge => removePackage name purge
  | patch packages => applyPatches packages
  | refresh => refreshPackageCache

theorem Mutation.madeOfSteps : ∀ m : Mutation, Traced MadeOfSteps m.op.run
  | install _ _ => .bindE composes_madeOfSteps (traced_runApt _) fun _ => .pure composes_madeOfSteps _
  | update _ => .bindE composes_madeOfSteps (traced_runApt _) fun _ => .pure composes_madeOfSteps _
  | remove _ _ => .bindE composes_madeOfSteps (traced_runApt _) fun _ => .pure composes_madeOfSteps _
  | patch packages => traced_applyPatches packages
  | refresh => traced_refreshPackageCache

/-- In every run of a mutating operation each `apt-get` is bracketed, and a step that succeeds is verified. -/
theorem mutation_bracketed (m : Mutation) {t : List (Event Response)} {r : Except AnyhowError Unit}
    (h : Runs m.op.run t r) :
    Bracketed t ∧ ∃ parts : List Part, t = parts.flatMap Part.trace ∧
      ∀ s, Part.step s ∈ parts → ∀ text, s.result = .ok text → Verified s.args s.trace := by
  obtain ⟨parts, rfl⟩ := m.madeOfSteps _ _ h
  refine ⟨?_, parts, rfl, fun s _ text hs => ?_⟩
  · clear h
    induction parts with
    | nil => exact composes_bracketed.nil
    | cons p parts ih => exact composes_bracketed.append p.bracketed ih
  · exact (hs ▸ runs_runApt s.run).verified

/-- The removal of a package on a host where everything succeeds. -/
theorem removal_bracketed :
    Bracketed (exec Host.empty.answer (Mutation.remove "curl" false).op.run).1 ∧
      ∃ parts : List Part, (exec Host.empty.answer (Mutation.remove "curl" false).op.run).1 = parts.flatMap Part.trace ∧
        ∀ s, Part.step s ∈ parts → ∀ text, s.result = .ok text → Verified s.args s.trace :=
  mutation_bracketed (.remove "curl" false) (runs_exec Host.empty.answer _)

end AptBackend

end LinuxPatchApi.Packages
