/-
From the scheduler to the WebSocket clients: the broadcast channel of `Scheduler::new`, the listener task of
`start_broadcast_listener` with the mailbox of its actor, and the actor. What a client has been sent about
jobs is compared with the events of the scheduler and with its job map, for any number of clients and any
order of steps. The channel and the mailbox are those of the libraries; a mailbox refuses nothing unless it is full.
-/
import LinuxPatchApi.Lib.Broadcast
import LinuxPatchApi.Lib.Entries
import LinuxPatchApi.Jobs.Events
import LinuxPatchApi.Jobs.WebSocket

namespace LinuxPatchApi.Jobs

open Transition

/-! ## Connections -/

/-- The capacity that `Scheduler::new` gives the broadcast channel. -/
def eventCapacity : ℕ := 256

/-- What a connection runs in: the JSON library and the room in an actor's mailbox. -/
structure WsSetting where
  json : WsJson
  mailboxRoom : ℕ

/-- One client: its receiver, from which event on and up to which (where the listener has ended: where it
ended) and how many the listener was told it had missed; the messages on their way to the actor; the actor;
the events it has handled, and what it has sent for them and in answer to the client. -/
structure Connection where
  start : ℕ
  next : ℕ
  missed : ℕ
  listening : Bool
  mailbox : List JobStatusEvent
  actor : WsJobActor
  handled : List JobStatusEvent
  forwarded : List Outgoing
  replies : List Outgoing

inductive ConnectionAct
  /-- A turn of the listener's loop, and whether `try_send` takes the event if there is one. -/
  | recv (taken : Bool)
  /-- The actor takes a `BroadcastEvent` from its mailbox. -/
  | handle
  | frame (msg : Except String WsMessage)
  | heartbeat

namespace Connection

/-- `websocket_handler`: subscribed first, then `started`. -/
def connect (cfg : WsSetting) (events : List JobStatusEvent) (wsId : Uuid) (now : ℕ) : Connection where
  start := events.length
  next := events.length
  missed := 0
  listening := true
  mailbox := []
  actor := .new wsId now
  handled := []
  forwarded := []
  replies := (WsJobActor.new wsId now).started cfg.json now

/-- Everything but a broadcast event that reaches the actor. -/
def react (cfg : WsSetting) (c : Connection) (act : WsAct) : Option Connection :=
  if c.actor.running then
    some { c with
      actor := (c.actor.handle cfg.json act).1
      replies := c.replies ++ (c.actor.handle cfg.json act).2 }
  else none

/-- `try_send` takes the event. -/
def take (c : Connection) (event : JobStatusEvent) : Connection :=
  { c with next := c.next + 1, mailbox := c.mailbox ++ [event] }

/-- The loop of `start_broadcast_listener`: any refused event ends it. -/
def recv (cfg : WsSetting) (events : List JobStatusEvent) (c : Connection) (taken : Bool) : Option Connection :=
  if c.listening then
    match Broadcast.recv eventCapacity events c.next with
    | none => none
    | some (.lagged missed, next) => some { c with next := next, missed := c.missed + missed }
    | some (.value event, _) =>
      if taken then
        if c.actor.running then some (c.take event) else none
      else if c.actor.running = false ∨ cfg.mailboxRoom ≤ c.mailbox.length then some { c with listening := false }
      else none
  else none

def step (cfg : WsSetting) (events : List JobStatusEvent) (now : ℕ) (c : Connection) : ConnectionAct → Option Connection
  | .recv taken => c.recv cfg events taken
  | .handle =>
    match c.mailbox with
    | [] => none
    | event :: rest =>
      if c.actor.running then
        some { c with
          mailbox := rest
          actor := (c.actor.handle cfg.json (.broadcast event)).1
          handled := c.handled ++ [event]
          forwarded := c.forwarded ++ (c.actor.handle cfg.json (.broadcast event)).2 }
      else none
  | .frame msg => c.react cfg (.frame msg now)
  | .heartbeat => c.react cfg (.heartbeat now)

end Connection

/-! ## The service -/

/-- The agent and its WebSocket clients. -/
structure Service where
  world : World
  connections : List Connection

inductive ServiceAct
  | agent (act : Act)
  | connect (wsId : Uuid)
  | connection (n : ℕ) (act : ConnectionAct)

def Service.step (cfg : WsSetting) (s : Service) : ServiceAct → Option Service
  | .agent act => (s.world.step act).map fun w => { s with world := w }
  | .connect wsId =>
    some { s with connections := s.connections ++ [.connect cfg s.world.sched.events wsId s.world.clock] }
  | .connection n act =>
    match s.connections[n]? with
    | none => none
    | some c => (c.step cfg s.world.sched.events s.world.clock act).map fun c' =>
        { s with connections := s.connections.set n c' }

/-- From the agent's start on. -/
def service (cfg : WsSetting) : Machine Service ServiceAct where
  init s := s.world.Startup ∧ s.connections = []
  step := Service.step cfg

/-! ## What a step can do -/

section Steps

variable {cfg : WsSetting} {events : List JobStatusEvent} {now : ℕ} {c c' : Connection}

/-- What one step of a connection can do; none of them but the client's frames and heartbeats touches the actor. -/
inductive ConnectionStep (cfg : WsSetting) (events : List JobStatusEvent) (c : Connection) :
    ConnectionAct → Connection → Prop
  | lagged (taken : Bool) (missed : ℕ) : c.listening = true → c.next + missed + eventCapacity = events.length →
      ConnectionStep cfg events c (.recv taken) { c with next := c.next + missed, missed := c.missed + missed }
  | taken (event : JobStatusEvent) : c.listening = true → events[c.next]? = some event →
      ConnectionStep cfg events c (.recv true) (c.take event)
  | refused : c.listening = true → c.actor.running = false ∨ cfg.mailboxRoom ≤ c.mailbox.length →
      ConnectionStep cfg events c (.recv false) { c with listening := false }
  | handled (event : JobStatusEvent) (rest : List JobStatusEvent) : c.mailbox = event :: rest →
      ConnectionStep cfg events c .handle { c with
        mailbox := rest
        actor := (c.actor.handle cfg.json (.broadcast event)).1
        handled := c.handled ++ [event]
        forwarded := c.forwarded ++ (c.actor.handle cfg.json (.broadcast event)).2 }
  | reacted (a : ConnectionAct) (act : WsAct) : ConnectionStep cfg events c a { c with
        actor := (c.actor.handle cfg.json act).1
        replies := c.replies ++ (c.actor.handle cfg.json act).2 }

theorem Connection.react_cases {a : ConnectionAct} {act : WsAct} (h : c.react cfg act = some c') :
    ConnectionStep cfg events c a c' := by
  unfold Connection.react at h
  split at h
  · cases h
    exact .reacted a act
  · cases h

theorem Connection.recv_cases {taken : Bool} (h : c.recv cfg events taken = some c') :
    ConnectionStep cfg events c (.recv taken) c' := by
  unfold Connection.recv at h
  split at h
  next hlistening =>
    split at h
    next => cases h
    next missed next hrecv =>
      cases h
      obtain ⟨rfl, hnext⟩ := Broadcast.recv_lagged hrecv
      exact .lagged taken missed hlistening hnext
    next event next hrecv =>
      obtain ⟨hevent, _⟩ := Broadcast.recv_value hrecv
      cases taken with
      | true =>
        rw [if_pos rfl] at h
        split at h
        all_goals cases h
        exact .taken event hlistening hevent
      | false =>
        rw [if_neg Bool.false_ne_true] at h
        split at h
        all_goals cases h
        next hfull => exact .refused hlistening hfull
  next => cases h

theorem Connection.step_cases {act : ConnectionAct} (h : c.step cfg events now act = some c') :
    ConnectionStep cfg events c act c' := by
  cases act with
  | recv taken => exact Connection.recv_cases h
  | handle =>
    simp only [Connection.step] at h
    repeat' split at h
    all_goals cases h
    next event rest hmailbox _ => exact .handled event rest hmailbox
  | frame msg => exact Connection.react_cases h
  | heartbeat => exact Connection.react_cases h

/-- What one step of the service can do. -/
inductive ServiceStep (cfg : WsSetting) (s : Service) : ServiceAct → Service → Prop
  | agent (act : Act) (w : World) : s.world.step act = some w → ServiceStep cfg s (.agent act) { s with world := w }
  | connect (wsId : Uuid) : ServiceStep cfg s (.connect wsId)
      { s with connections := s.connections ++ [.connect cfg s.world.sched.events wsId s.world.clock] }
  | connection (n : ℕ) (act : ConnectionAct) (c c' : Connection) : s.connections[n]? = some c →
      c.step cfg s.world.sched.events s.world.clock act = some c' →
      ServiceStep cfg s (.connection n act) { s with connections := s.connections.set n c' }

theorem service_step {f : Fired Service ServiceAct} (hf : IsStep (service cfg) f) :
    ServiceStep cfg f.pre f.act f.post := by
  obtain ⟨s, a, s'⟩ := f
  have hs : s.step cfg a = some s' := hf
  cases a with
  | agent act =>
    obtain ⟨w, hw, rfl⟩ := Option.map_eq_some_iff.1 hs
    exact .agent act w hw
  | connect wsId =>
    cases hs
    exact .connect wsId
  | connection n act =>
    simp only [Service.step] at hs
    split at hs
    next => cases hs
    next c hc =>
      obtain ⟨c', hc', rfl⟩ := Option.map_eq_some_iff.1 hs
      exact .connection n act c c' hc hc'

end Steps

/-! ## The events only grow -/

section Growth

open SchedulerState

/-- Nothing that was sent is taken back. -/
abbrev Extends (s s' : SchedulerState) : Prop := s.events <+: s'.events

variable {env : Env} {s s' : SchedulerState}

theorem Extends.of_eq (h : s'.events = s.events) : Extends s s' := by
  rw [Extends, h]

theorem mutateJob_extends (id : Uuid) (f : Job → Job) : Extends s (s.mutateJob env id f) := by
  unfold mutateJob
  split
  · exact List.prefix_refl _
  · exact List.prefix_append _ _

theorem insertNewJob_extends (id : Uuid) (op : JobOperation) (ps : List String) :
    Extends s (s.insertNewJob env id op ps) := List.prefix_append _ _

theorem cancelAll_extends : ∀ (ids : List Uuid) (s : SchedulerState), Extends s (s.cancelAll env ids)
  | [], _ => List.prefix_refl _
  | _ :: ids, _ => (mutateJob_extends _ _).trans (cancelAll_extends ids _)

theorem admitJobInner_extends (id : Uuid) (op : JobOperation) (ps : List String) :
    Extends s (s.admitJobInner env id op ps).1 := by
  unfold admitJobInner
  repeat' split
  all_goals try exact List.prefix_refl _
  exact insertNewJob_extends id op ps

theorem rollbackSelfUpdate_events (id : Uuid) : (s.rollbackSelfUpdate id).events = s.events := by
  cases hu : s.selfUpdate with
  | none => simp [rollbackSelfUpdate, notifyOne, hu]
  | some u => by_cases hid : u.jobId = id <;> simp [rollbackSelfUpdate, notifyOne, hu, hid]

theorem apply_extends (o : SchedOp) : Extends s (o.apply env s) := by
  cases o with
  | admitJob id op ps =>
    have hinner := @admitJobInner_extends env s id op ps
    simp only [SchedOp.apply, admitJob]
    split
    all_goals next he => rw [he] at hinner; exact hinner
  | createRollbackJob id orig =>
    simp only [SchedOp.apply, createRollbackJob]
    split
    · exact List.prefix_refl _
    next j _ =>
    have hinner := @admitJobInner_extends env s id .rollback j.packages
    split
    · split
      all_goals next he => rw [he] at hinner; exact hinner
    · exact List.prefix_refl _
  | tryReserveSelfUpdate id ps v w =>
    simp only [SchedOp.apply, tryReserveSelfUpdate]
    repeat' split
    all_goals try exact List.prefix_refl _
    exact List.prefix_append _ _
  | releaseSelfUpdate id =>
    simp only [SchedOp.apply, releaseSelfUpdate]
    repeat' split
    all_goals exact List.prefix_refl _
  | rollbackSelfUpdate id => exact .of_eq (rollbackSelfUpdate_events id)
  | reserveReboot id force ack =>
    simp only [SchedOp.apply, reserveReboot]
    repeat' split
    all_goals try exact List.prefix_refl _
    exact (@insertNewJob_extends env { s with rebootPending := some id } id .reboot []).trans (cancelAll_extends _ _)
  | rollbackReboot id error =>
    simp only [SchedOp.apply, rollbackReboot]
    split
    · exact List.prefix_refl _
    · exact @mutateJob_extends env { s with rebootPending := none } id (rollbackJobState env error)
  | beginRebootExecution id =>
    simp only [SchedOp.apply, beginRebootExecution]
    repeat' split
    all_goals try exact List.prefix_refl _
    exact mutateJob_extends id _
  | setJobRebooting id m =>
    simp only [SchedOp.apply, setJobRebooting]
    repeat' split
    all_goals try exact List.prefix_refl _
    exact mutateJob_extends id _
  | updateJob id st p m =>
    simp only [SchedOp.apply, updateJob]
    split
    · exact List.prefix_refl _
    · exact mutateJob_extends id _
  | addJobLog id m => exact List.prefix_refl _
  | completeJob id => exact mutateJob_extends id _
  | failJob id e => exact mutateJob_extends id _
  | failJobWithDiagnostics id e =>
    cases hj : s.jobs.get? id with
    | none => exact .of_eq (by simp [SchedOp.apply, failJobWithDiagnostics, notifyOne, hj])
    | some j => exact ⟨_, by simp [SchedOp.apply, failJobWithDiagnostics, emitEventDetailed, notifyOne, hj]; rfl⟩
  | deleteJob id =>
    rcases s.deleteJob_spec id with he | ⟨_, _, _, he⟩
    all_goals
      simp only [SchedOp.apply, he]
      exact List.prefix_refl _
  | freezeAdmission => exact List.prefix_refl _
  | notifyWaiters => exact List.prefix_refl _

theorem dispatchCheck_extends (id : Uuid) : Extends s (s.dispatchCheck env id).1 := by
  unfold dispatchCheck
  split
  · exact List.prefix_refl _
  simp only
  repeat' split
  all_goals try exact List.prefix_refl _
  exact @mutateJob_extends env { s with activeMutation := some id, mutationGeneration := s.mutationGeneration + 1 } id _

theorem finalizeMutation_extends (id : Uuid) (g : UInt64) (r : MutationResult) (alive : Bool) :
    Extends s (s.finalizeMutation env id g r alive) := by
  have hres : ∀ t : SchedulerState, Extends t (t.resolveAbandoned env id r) := by
    intro t
    unfold resolveAbandoned
    repeat' split
    all_goals try exact List.prefix_refl _
    exact mutateJob_extends id _
  unfold finalizeMutation
  cases s.stillOwns id g <;> cases alive
  · exact List.prefix_refl _
  · exact List.prefix_refl _
  · exact hres { s with activeMutation := none }
  · exact List.prefix_refl _

theorem callStep_extends {c : Nat} {call call' : Call} {a : CallAct} (h : callStep env c s call a = some (s', call')) :
    Extends s s' := by
  cases a with
  | check =>
    have hc := @dispatchCheck_extends env s call.jobId
    simp only [callStep] at h
    split at h
    · split at h
      all_goals next he => rw [he] at hc; cases h; exact hc
    · cases h
  | finalize =>
    simp only [callStep] at h
    split at h
    · cases h
      exact finalizeMutation_extends _ _ _ _
    · cases h
  | register | wake | spawnWatchdog | startWatchdog | runClosure | exitClosure | join | elapse | receive | drop =>
    simp only [callStep] at h
    repeat' split at h
    all_goals try cases h
    all_goals exact List.prefix_refl _

theorem worldStep_extends {w w' : World} {act : Act} (h : w.step act = some w') : Extends w.sched w'.sched := by
  cases act with
  | op o =>
    simp only [World.step] at h
    split at h
    · cases h
      exact apply_extends o
    · cases h
  | dispatch | tick =>
    cases h
    exact List.prefix_refl _
  | call c a =>
    simp only [World.step] at h
    split at h
    · cases h
    · obtain ⟨⟨s', call'⟩, hcs, rfl⟩ := Option.map_eq_some_iff.1 h
      exact callStep_extends hcs

end Growth

/-! ## What a connection has got -/

section Delivered

variable {cfg : WsSetting}

/-- The texts that events are sent as. -/
def textsOf (json : WsJson) (events : List JobStatusEvent) : List Outgoing :=
  events.flatMap fun e => json.send (.fromJobStatusEvent e)

/-- Every event since the subscription is sent, on its way to the actor, reported missed or not yet received, and
those that are sent or on their way are in order and none of them twice. -/
structure Delivered (cfg : WsSetting) (events : List JobStatusEvent) (c : Connection) : Prop where
  got : Broadcast.Got eventCapacity events c.start c.next c.missed (c.handled ++ c.mailbox)
  next_le : c.next ≤ events.length
  sent : c.forwarded = textsOf cfg.json c.handled
  all : c.actor.subscribedAll = true

theorem Delivered.extend {events later : List JobStatusEvent} {c : Connection} (h : Delivered cfg events c)
    (hlater : events <+: later) : Delivered cfg later c :=
  ⟨h.got.extend hlater, h.next_le.trans hlater.length_le, h.sent, h.all⟩

theorem connect_delivered (events : List JobStatusEvent) (wsId : Uuid) (now : ℕ) :
    Delivered cfg events (.connect cfg events wsId now) :=
  ⟨Broadcast.got_nil, le_refl _, rfl, rfl⟩

theorem ConnectionStep.delivered {events : List JobStatusEvent} {c c' : Connection} {act : ConnectionAct}
    (hs : ConnectionStep cfg events c act c') (h : Delivered cfg events c) : Delivered cfg events c' := by
  cases hs with
  | lagged _ missed _ hlag =>
    exact ⟨h.got.lagged (by omega), by show c.next + missed ≤ _; omega, h.sent, h.all⟩
  | taken event _ hevent =>
    refine ⟨?_, (List.getElem?_eq_some_iff.1 hevent).1, h.sent, h.all⟩
    show Broadcast.Got _ _ _ _ _ (c.handled ++ (c.mailbox ++ [event]))
    rw [← List.append_assoc]
    exact h.got.value hevent
  | refused => exact ⟨h.got, h.next_le, h.sent, h.all⟩
  | handled event rest hmailbox =>
    refine ⟨?_, h.next_le, ?_, handle_subscribedAll _ h.all⟩
    · have hgot := h.got
      rw [hmailbox] at hgot
      simpa using hgot
    · -- with the flag for all events set, the actor forwards whatever comes
      show c.forwarded ++ c.actor.onBroadcast cfg.json event = textsOf cfg.json (c.handled ++ [event])
      rw [h.sent, textsOf, textsOf, List.flatMap_append, WsJobActor.onBroadcast, h.all]
      simp
  | reacted _ act => exact ⟨h.got, h.next_le, h.sent, handle_subscribedAll _ h.all⟩

theorem step_delivered {f : Fired Service ServiceAct} (hf : IsStep (service cfg) f)
    (h : ∀ c ∈ f.pre.connections, Delivered cfg f.pre.world.sched.events c) :
    ∀ c ∈ f.post.connections, Delivered cfg f.post.world.sched.events c := by
  obtain ⟨s, a, s'⟩ := f
  have hs : ServiceStep cfg s a s' := service_step hf
  intro c hc
  cases hs with
  | agent act w hw => exact (h c hc).extend (worldStep_extends hw)
  | connect wsId =>
    rcases List.mem_append.1 hc with hc | hc
    · exact h c hc
    · rw [List.mem_singleton.1 hc]
      exact connect_delivered _ _ _
  | connection n act d d' hd hstep =>
    rcases List.mem_or_eq_of_mem_set hc with hc | rfl
    · exact h c hc
    · exact (Connection.step_cases hstep).delivered (h d (List.mem_of_getElem? hd))

theorem run_delivered {s s' : Service} {tr : List (Fired Service ServiceAct)} (h : Run (service cfg) s tr s')
    (hinit : (service cfg).init s) : ∀ c ∈ s'.connections, Delivered cfg s'.world.sched.events c := by
  refine h.always (I := fun s => ∀ c ∈ s.connections, Delivered cfg s.world.sched.events c)
    (fun f hf => step_delivered hf) ?_
  rw [hinit.2]
  simp

/-- Whatever the scheduler, the listeners, the actors and the clients do, each client has been sent the text of the
events that its actor has handled, and all events since its subscription are accounted for. -/
theorem events_delivered {s s' : Service} {tr : List (Fired Service ServiceAct)} (h : Run (service cfg) s tr s')
    (hinit : (service cfg).init s) : ∀ c ∈ s'.connections, Delivered cfg s'.world.sched.events c :=
  run_delivered h hinit

/-! ## Listeners that end -/

section Ended

variable {events : List JobStatusEvent} {c c' : Connection} {act : ConnectionAct}

/-- Once a listener has ended, nothing more gets on its way to the actor. -/
theorem ConnectionStep.ended (hs : ConnectionStep cfg events c act c') (hended : c.listening = false) :
    c'.listening = false ∧ c'.handled ++ c'.mailbox = c.handled ++ c.mailbox := by
  cases hs with
  | lagged _ _ hlistening | taken event hlistening | refused hlistening =>
    rw [hended] at hlistening
    cases hlistening
  | handled event rest hmailbox => exact ⟨hended, by simp [hmailbox]⟩
  | reacted _ act => exact ⟨hended, rfl⟩

/-- A listener ends where `try_send` refuses an event. -/
theorem ConnectionStep.ends (hs : ConnectionStep cfg events c act c') (hlistening : c.listening = true)
    (hended : c'.listening = false) :
    act = .recv false ∧ (c.actor.running = false ∨ cfg.mailboxRoom ≤ c.mailbox.length) ∧
      c'.handled ++ c'.mailbox = c.handled ++ c.mailbox := by
  cases hs with
  | lagged | taken | handled | reacted =>
    have hboth : c.listening = false := hended
    rw [hlistening] at hboth
    cases hboth
  | refused _ hfull => exact ⟨rfl, hfull, rfl⟩

end Ended

/-- The step is the refused `try_send` at which the listener of connection `n` ended, and what its client gets from
then on is nothing but what was on its way. -/
structure EndedAt (cfg : WsSetting) (n : ℕ) (f : Fired Service ServiceAct) (c' : Connection) : Prop where
  refused : f.act = .connection n (.recv false)
  before : ∃ c, f.pre.connections[n]? = some c ∧ c.listening = true ∧
    (c.actor.running = false ∨ cfg.mailboxRoom ≤ c.mailbox.length) ∧ c'.handled ++ c'.mailbox = c.handled ++ c.mailbox
  after : ∃ c, f.post.connections[n]? = some c ∧ c.listening = false

theorem EndedAt.congr {n : ℕ} {f : Fired Service ServiceAct} {c c' : Connection} (h : EndedAt cfg n f c)
    (hsame : c'.handled ++ c'.mailbox = c.handled ++ c.mailbox) : EndedAt cfg n f c' := by
  obtain ⟨d, hd, hl, hfull, hgot⟩ := h.before
  exact ⟨h.refused, ⟨d, hd, hl, hfull, hsame.trans hgot⟩, h.after⟩

/-- A listener ends only at a `try_send` that is refused, where its actor has stopped or the mailbox is full; after
that the client is sent nothing about any later event. -/
theorem listener_ended {s s' : Service} {tr : List (Fired Service ServiceAct)} (h : Run (service cfg) s tr s')
    (hinit : (service cfg).init s) {n : ℕ} {c' : Connection} (hc : s'.connections[n]? = some c')
    (hended : c'.listening = false) : ∃ f ∈ tr, EndedAt cfg n f c' := by
  induction h generalizing c' with
  | nil =>
    rw [hinit.2] at hc
    cases hc
  | @snoc tr t t' a hr hstep ih =>
    have hkept : ∀ c, t.connections[n]? = some c → c.listening = false →
        c'.handled ++ c'.mailbox = c.handled ++ c.mailbox → ∃ f ∈ tr ++ [⟨t, a, t'⟩], EndedAt cfg n f c' := by
      intro c hc hl hsame
      obtain ⟨f, hf, hat⟩ := ih hc hl
      exact ⟨f, List.mem_append_left _ hf, hat.congr hsame⟩
    have hs : ServiceStep cfg t a t' := service_step (f := ⟨t, a, t'⟩) hstep
    cases hs with
    | agent act w hw => exact hkept c' hc hended rfl
    | connect wsId =>
      rcases Entries.append_cases hc with hc | ⟨_, rfl⟩
      · exact hkept c' hc hended rfl
      · cases hended
    | connection m act d d' hd hdstep =>
      have hpost := hc
      have hcs := Connection.step_cases hdstep
      rcases Entries.set_cases hc with ⟨rfl, rfl⟩ | ⟨_, hc⟩
      · cases hl : d.listening with
        | false => exact hkept d hd hl (hcs.ended hl).2
        | true =>
          obtain ⟨rfl, hfull, hsame⟩ := hcs.ends hl hended
          exact ⟨_, List.mem_append_right _ List.mem_cons_self, rfl, ⟨d, hd, hl, hfull, hsame⟩, c', hpost, hended⟩
      · exact hkept c' hc hended rfl

/-! ## Clients that are up to date -/

/-- The agent's part in a step. -/
def ServiceAct.agentAct : ServiceAct → Option Act
  | .agent act => some act
  | _ => none

/-- What the agent does in a run of the service. -/
def agentRun (tr : List (Fired Service ServiceAct)) : List (Fired World Act) :=
  project Service.world ServiceAct.agentAct tr

theorem run_agentRun {s s' : Service} {tr : List (Fired Service ServiceAct)} (h : Run (service cfg) s tr s') :
    Run agent s.world (agentRun tr) s'.world := by
  refine h.project (fun f act hf hact => ?_) fun f hf hact => ?_
  · obtain ⟨t, a, t'⟩ := f
    have hs : ServiceStep cfg t a t' := service_step hf
    cases hs with
    | agent act' w hw =>
      cases hact
      exact hw
    | connect | connection => cases hact
  · obtain ⟨t, a, t'⟩ := f
    have hs : ServiceStep cfg t a t' := service_step hf
    cases hs with
    | agent => cases hact
    | connect | connection => rfl

/-- The last event about a job shows it as it is. -/
theorem last_announced {w w' : World} {tr : List (Fired World Act)} (hw : w.Startup) (h : Run agent w tr w') {k : Uuid}
    {j : Job} (hcreated : CreatedIn tr k) (hj : w'.sched.jobs.get? k = some j) :
    ∃ e, (eventsOf k w'.sched).getLast? = some e ∧ e.view = j.view := by
  have hempty : announced k w.sched = [] := by
    obtain ⟨_, _, _, hs, _, _⟩ := hw
    rw [hs]
    rfl
  have hobs : present k w.sched = none := by simp only [present, created_absent hw h hcreated, Option.map_none]
  have hstep : ∀ f ∈ tr, Logged (fun v : World => announced k v.sched) (fun v => present k v.sched) f.pre f.post :=
    fun f hf => (step_announced (h.step_of_mem f hf) k).comap World.sched
  have hlast := (h.logged hstep hempty hobs).1 j.view (by simp only [present, hj, Option.map_some])
  rw [announced, List.getLast?_map] at hlast
  exact Option.map_eq_some_iff.1 hlast

/-- Nothing is on its way to the client any more. -/
structure CaughtUp (events : List JobStatusEvent) (c : Connection) : Prop where
  received : c.next = events.length
  handled : c.mailbox = []

/-- There is an event about the job that the client was there for and the channel still keeps. -/
def ChangedLately (events : List JobStatusEvent) (c : Connection) (k : Uuid) : Prop :=
  ∃ i e, c.start ≤ i ∧ events.length ≤ i + eventCapacity ∧ events[i]? = some e ∧ e.jobId = k

/-- The last thing that the client was sent about the job is how the job is. -/
def ShowsJob (cfg : WsSetting) (c : Connection) (k : Uuid) (j : Job) : Prop :=
  c.forwarded = textsOf cfg.json c.handled ∧ ∃ e, (c.handled.filter fun e => e.jobId == k).getLast? = some e ∧
    e.status = j.status.asStr ∧ e.progress = j.progress ∧ e.message = j.message

/-- A client with nothing on its way has seen each job as it is, of those that have changed since it came and not
before the last events that the channel keeps. -/
theorem client_up_to_date {s s' : Service} {tr : List (Fired Service ServiceAct)} (h : Run (service cfg) s tr s')
    (hinit : (service cfg).init s) {c : Connection} (hc : c ∈ s'.connections)
    (hup : CaughtUp s'.world.sched.events c) {k : Uuid} {j : Job} (hcreated : CreatedIn (agentRun tr) k)
    (hj : s'.world.sched.jobs.get? k = some j) (hlately : ChangedLately s'.world.sched.events c k) :
    ShowsJob cfg c k j := by
  have hdelivered := run_delivered h hinit c hc
  obtain ⟨e, hlast, hview⟩ := last_announced hinit.1 (run_agentRun h) hcreated hj
  obtain ⟨i, a, hstart, hkept, ha, hak⟩ := hlately
  have hgot := hdelivered.got
  rw [hup.received, hup.handled, List.append_nil] at hgot
  -- the last event about the job among all of them is the last one that the client has got
  have hp : (a.jobId == k) = true := by simp [hak]
  rcases Overwrite.exists_last (fun e : JobStatusEvent => (e.jobId == k) = true) s'.world.sched.events with
    hnone | ⟨e', he'⟩
  · exact absurd hp (hnone a (List.mem_of_getElem? ha))
  · have hee : e' = e := Option.some.inj (he'.getLast?.symm.trans hlast)
    rw [hee] at he'
    exact ⟨hdelivered.sent, e, (hgot.last hstart hkept ha hp he').getLast?, congrArg JobView.status hview,
      congrArg JobView.progress hview, congrArg JobView.message hview⟩

end Delivered

/-! ## A client that watches a job -/

/-- A client comes, a job is admitted and completed, and its events reach the client. -/
def watchedService : List ServiceAct :=
  [.connect 7, .agent (.op (.admitJob 1 .install ["vim"])), .connection 0 (.recv true), .agent (.op (.completeJob 1)),
    .connection 0 .handle, .connection 0 (.recv true), .connection 0 .heartbeat, .connection 0 .handle]

/-- The JSON library of the examples, and the usual room in a mailbox. -/
def wsSetting : WsSetting := ⟨wsJson, 16⟩

def freshService : Service := ⟨freshAgent 2 10, []⟩

theorem freshService_init : (service wsSetting).init freshService := ⟨freshAgent_startup 2 10, rfl⟩

def watchedTrace : List (Fired Service ServiceAct) := (trace (service wsSetting) freshService watchedService).getD []

theorem watchedService_run : Run (service wsSetting) freshService watchedTrace (endState freshService watchedTrace) :=
  run_trace (service wsSetting) freshService watchedService (by decide)

theorem events_delivered_watched : Delivered wsSetting (endState freshService watchedTrace).world.sched.events
    ((endState freshService watchedTrace).connections.head (by decide)) :=
  events_delivered watchedService_run freshService_init _ (List.head_mem _)

theorem client_up_to_date_watched : ∃ c ∈ (endState freshService watchedTrace).connections,
    ∃ j, (endState freshService watchedTrace).world.sched.jobs.get? 1 = some j ∧ j.status = .completed ∧
      ShowsJob wsSetting c 1 j := by
  have hc := List.head_mem (l := (endState freshService watchedTrace).connections) (by decide)
  have hj := Option.some_get (x := (endState freshService watchedTrace).world.sched.jobs.get? 1) (by decide)
  refine ⟨_, hc, _, hj.symm, by decide, client_up_to_date watchedService_run freshService_init hc
    ⟨by decide, by decide⟩ ⟨_, List.mem_cons_self, _, rfl, rfl⟩ hj.symm ⟨1, _, by decide, by decide, rfl, rfl⟩⟩

/-- A client closes its connection before anything happens. -/
def closedService : List ServiceAct :=
  [.connect 7, .connection 0 (.frame (.ok (.close none))), .agent (.op (.admitJob 1 .install ["vim"])),
    .connection 0 (.recv false)]

def closedTrace : List (Fired Service ServiceAct) := (trace (service wsSetting) freshService closedService).getD []

theorem listener_ended_closed : ∃ c', (endState freshService closedTrace).connections[0]? = some c' ∧
    ∃ f ∈ closedTrace, EndedAt wsSetting 0 f c' := by
  have hc := Option.some_get (x := (endState freshService closedTrace).connections[0]?) (by decide)
  exact ⟨_, hc.symm, listener_ended (run_trace (service wsSetting) freshService closedService (by decide))
    freshService_init hc.symm (by decide)⟩

end LinuxPatchApi.Jobs
