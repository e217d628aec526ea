/-
The delay of a reboot request on its way through the handler: the instant in the answer, which is computed by a
conversion and two checked steps of the date library after the reservation is committed and the task spawned, and the
minutes that `shutdown` is given.
-/
import LinuxPatchApi.Api.Handlers
import LinuxPatchApi.Packages.CommandRuns
import LinuxPatchApi.Packages.Pacman

namespace LinuxPatchApi.Api.RebootDelays

open LinuxPatchApi.Packages LinuxPatchApi.Jobs Interaction

/-! ## Instants -/

/-- The seconds of `DateTime::<Utc>::MIN_UTC` and `MAX_UTC`. -/
def minUtc : Int := -8334601228800

def maxUtc : Int := 8210266876799

/-- A `DateTime<Utc>` in seconds; whole seconds are added to it, which leave its fraction alone. -/
structure DateTime where
  secs : Int
  inRange : minUtc ≤ secs ∧ secs ≤ maxUtc

/-- `delay as i64`. -/
def asI64 (n : UInt64) : Int := if n.toNat < 2 ^ 63 then n.toNat else (n.toNat : Int) - 2 ^ 64

/-- `Duration::seconds`, which panics beyond `i64::MAX` milliseconds. -/
def durationSeconds (secs : Int) : Option Int := if secs.natAbs ≤ 9223372036854775 then some secs else none

/-- `DateTime + Duration`, which panics where the sum is no instant. -/
def DateTime.add (t : DateTime) (secs : Int) : Option DateTime :=
  if h : minUtc ≤ t.secs + secs ∧ t.secs + secs ≤ maxUtc then some ⟨t.secs + secs, h⟩ else none

/-- `scheduled_at`, or none where its computation panics. -/
def scheduledAt (now : DateTime) (delaySeconds : UInt64) : Option DateTime :=
  if delaySeconds.toNat > 0 then (durationSeconds (asI64 delaySeconds)).bind now.add else some now

/-- The scheduled instant is the delay after now exactly when there is such an instant. -/
theorem scheduledAt_iff {now : DateTime} {delaySeconds : UInt64} :
    (∃ t, scheduledAt now delaySeconds = some t ∧ t.secs = now.secs + delaySeconds.toNat) ↔
      now.secs + delaySeconds.toNat ≤ maxUtc := by
  constructor
  · rintro ⟨t, _, ht⟩
    have := t.inRange.2
    omega
  · intro hle
    have hnow := now.inRange
    unfold scheduledAt
    split
    · have hsmall : asI64 delaySeconds = delaySeconds.toNat := by
        unfold asI64
        rw [if_pos]
        unfold minUtc maxUtc at *
        omega
      have hduration : durationSeconds (asI64 delaySeconds) = some (delaySeconds.toNat : Int) := by
        rw [hsmall, durationSeconds, if_pos]
        unfold minUtc maxUtc at *
        omega
      have hrange : minUtc ≤ now.secs + (delaySeconds.toNat : Int) ∧
          now.secs + (delaySeconds.toNat : Int) ≤ maxUtc := by
        omega
      rw [hduration, Option.bind_some, DateTime.add, dif_pos hrange]
      exact ⟨_, rfl, rfl⟩
    · next hzero => exact ⟨now, rfl, by omega⟩

/-! ## The handler -/

/-- The body of the answer 202. -/
structure RebootScheduled where
  jobId : Uuid
  status : String
  operation : String
  scheduledAt : DateTime
  delaySeconds : UInt64
  force : Bool

inductive RebootReply
  | accepted (body : RebootScheduled)
  | rejected (error : RebootAdmissionError)
  | panicked
  /-- The handler's future is gone. -/
  | dropped

def rebootReply (now : DateTime) (dropped : Bool) (delaySeconds : UInt64) (force : Bool) :
    Except RebootAdmissionError Uuid → RebootReply
  | .error e => .rejected e
  | .ok id =>
    if dropped then .dropped
    else match scheduledAt now delaySeconds with
      | none => .panicked
      | some t => .accepted ⟨id, "pending", "reboot", t, delaySeconds, force⟩

/-- The handler, which may be dropped while `reserve_reboot` persists the jobs; the clock is at `now` when it
answers. -/
def rebootSystemHandler (w : World) (newId : Uuid) (now : DateTime) (dropped : Bool) (delaySeconds : UInt64)
    (force ackCorruptionRisk : Bool) : Option (Handled × RebootReply) :=
  (Handlers.rebootSystem w newId dropped delaySeconds.toNat force ackCorruptionRisk).map fun handled =>
    (handled,
      rebootReply now dropped delaySeconds force (w.sched.reserveReboot w.env newId force ackCorruptionRisk).2)

/-! ## Minutes -/

/-- The arguments of `shutdown` for a reboot after that many minutes. -/
def shutdownArgs (minutes : Nat) : List Arg := ["-r", .own ("+" ++ toString minutes)]

/-- A command line of `shutdown` has the least number of minutes, and at least one, that is not shorter than the
delay. -/
def ShutdownDelayed (delaySeconds : Nat) (e : Event Response) : Prop :=
  ∀ args timeout, e.1 = .run "shutdown" args timeout →
    ∃ m, args = shutdownArgs m ∧ IsLeast {m : Nat | 1 ≤ m ∧ delaySeconds ≤ 60 * m} m

theorem delayMinutes_least (delaySeconds : Nat) :
    IsLeast {m : Nat | 1 ≤ m ∧ delaySeconds ≤ 60 * m} (delayMinutes delaySeconds) := by
  constructor
  · show 1 ≤ max 1 ((delaySeconds + 59) / 60) ∧ delaySeconds ≤ 60 * max 1 ((delaySeconds + 59) / 60)
    omega
  · rintro m ⟨hone, hlong⟩
    show max 1 ((delaySeconds + 59) / 60) ≤ m
    omega

theorem shutdownDelayed_command {delaySeconds : Nat} {program : String} {args : List Arg}
    (h : program = "shutdown" → args = shutdownArgs (delayMinutes delaySeconds))
    (answer : Except AnyhowError CommandOutput) :
    ShutdownDelayed delaySeconds ⟨.run program args (some quickOpTimeout), answer⟩ := by
  intro args' timeout heq
  cases heq
  exact ⟨_, h rfl, delayMinutes_least delaySeconds⟩

theorem traced_rebootSystem (delaySeconds : Nat) :
    Traced (fun t => ∀ e ∈ t, ShutdownDelayed delaySeconds e) (rebootSystem delaySeconds).run := by
  unfold rebootSystem
  split
  · exact .bindE (.forall_mem _) (traced_command (shutdownDelayed_command fun _ => rfl)) fun _ =>
      .pure (.forall_mem _) _
  · exact .bindE (.forall_mem _) (traced_command (shutdownDelayed_command fun h => absurd h (by decide)))
      fun _ => .pure (.forall_mem _) _

theorem traced_rebootNow (delaySeconds : Nat) :
    Traced (fun t => ∀ e ∈ t, ShutdownDelayed delaySeconds e) ApkBackend.rebootNow.run :=
  .bindE (.forall_mem _) (traced_command (shutdownDelayed_command fun h => absurd h (by decide)))
    fun _ => .pure (.forall_mem _) _

/-- Whatever the backend, `shutdown` is given the delay in minutes, rounded up. -/
theorem traced_backend (kind : BackendKind) (delaySeconds : Nat) :
    Traced (fun t => ∀ e ∈ t, ShutdownDelayed delaySeconds e) (kind.backend.rebootSystem delaySeconds).run := by
  cases kind with
  | apt | dnf | yum | pacman => exact traced_rebootSystem delaySeconds
  | apk =>
    show Traced _ (ApkBackend.rebootSystem delaySeconds).run
    unfold ApkBackend.rebootSystem
    split
    · refine .bindE (.forall_mem _) ?_ fun available => ?_
      · refine .bindE (.forall_mem _) (.performE (.forall_mem _) fun r e he => ?_) fun _ => .pure (.forall_mem _) _
        rw [List.mem_singleton.1 he]
        intro args timeout h
        cases h
      · split
        · exact traced_rebootSystem delaySeconds
        · exact traced_rebootNow delaySeconds
    · exact traced_rebootNow delaySeconds

/-! ## Requests -/

/-- What a request for a reboot promises of its delay. -/
structure DelayHonored (w : World) (now : DateTime) (delaySeconds : UInt64) (handled : Handled) (reply : RebootReply) :
    Prop where
  answered : reply ≠ .panicked
  scheduled : ∀ body, reply = .accepted body → body.scheduledAt.secs = now.secs + delaySeconds.toNat
  withdrawn : (∀ body, reply ≠ .accepted body) → handled.1.sched = w.sched ∧ handled.2 = []
  minutes : ∀ kind : BackendKind, Traced (fun t => ∀ e ∈ t, ShutdownDelayed delaySeconds.toNat e)
    (kind.backend.rebootSystem delaySeconds.toNat).run

section Requests

variable {w : World} {newId : Uuid} {now : DateTime} {dropped : Bool} {delaySeconds : UInt64} {force ack : Bool}
  {handled : Handled} {reply : RebootReply}

/-- A request is rejected with the scheduler as it was, or the reservation is taken whatever becomes of the answer. -/
theorem rebootSystemHandler_cases
    (h : rebootSystemHandler w newId now dropped delaySeconds force ack = some (handled, reply)) :
    (¬ w.sched.RebootAdmitted force ack ∧ (∃ e, reply = .rejected e) ∧ handled.1.sched = w.sched ∧ handled.2 = []) ∨
      w.sched.RebootAdmitted force ack ∧ w.sched.rebootPending = none ∧
        reply = rebootReply now dropped delaySeconds force (.ok newId) ∧
        handled.1.sched.rebootPending = some newId := by
  obtain ⟨handled', hhandled, hpair⟩ := Option.map_eq_some_iff.1 h
  cases hpair
  obtain ⟨w', hstep, hmatch⟩ := Option.map_eq_some_iff.1 hhandled
  have hsched : w'.sched = (w.sched.reserveReboot w.env newId force ack).1 := by
    cases World.step_cases hstep with
    | op o _ => rfl
  rcases w.sched.reserveReboot_spec w.env newId force ack with ⟨hnot, e, he⟩ | ⟨hadmitted, hok, hframe, _⟩
  · rw [he] at hmatch hsched
    cases hmatch
    rw [he]
    exact .inl ⟨hnot, ⟨e, rfl⟩, hsched, rfl⟩
  · rw [hok] at hmatch
    cases hmatch
    rw [hok]
    refine .inr ⟨hadmitted, hadmitted.unreserved, rfl, ?_⟩
    rw [hsched]
    exact hframe.rebootPending

end Requests

/-! ### Delays -/

/-- The evening of 1 January 2026. -/
def newYear : DateTime := ⟨1767290400, by decide⟩

end LinuxPatchApi.Api.RebootDelays
