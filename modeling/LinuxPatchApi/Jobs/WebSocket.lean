/-
`src/jobs/websocket.rs`: the actor of one WebSocket client, which answers the client's messages and forwards job
events, and how what it forwards compares with what the client has asked for. The JSON library is given.
-/
import LinuxPatchApi.Jobs.Manager
import LinuxPatchApi.Lib.Transition

namespace LinuxPatchApi.Jobs

open Transition

/-! ## Messages -/

inductive WsClientMessage
  | subscribe (jobId : Option String)
  | unsubscribe (jobId : String)
  deriving DecidableEq, Repr

/-- Lower-case hexadecimal digits of the number, `count` of them, from the position `low` up. -/
def hexGroup (n low count : ℕ) : List Char :=
  (List.range count).map fun i => Nat.digitChar (n / 16 ^ (low + count - 1 - i) % 16)

/-- `Uuid::to_string`: 32 digits in five groups. -/
def uuidText (id : Uuid) : String :=
  String.ofList (hexGroup id 24 8 ++ '-' :: hexGroup id 20 4 ++ '-' :: hexGroup id 16 4 ++ '-' :: hexGroup id 12 4 ++
    '-' :: hexGroup id 0 12)

example : uuidText 0x6ba7b8109dad11d180b400c04fd430c8 = "6ba7b810-9dad-11d1-80b4-00c04fd430c8" := by decide

/-- `WsServerMessage`, with the instant that its timestamp renders. -/
structure WsServerMessage where
  event : String
  jobId : String
  status : String
  progress : UInt8
  message : String
  timestamp : ℕ
  error : Option String := none
  errorCode : Option String := none
  deriving DecidableEq, Repr

namespace WsServerMessage

def fromJobStatusEvent (event : JobStatusEvent) : WsServerMessage where
  event := event.event
  jobId := uuidText event.jobId
  status := event.status
  progress := event.progress
  message := event.message
  timestamp := event.timestamp
  error := event.error
  errorCode := event.errorCode

def connected (wsId : Uuid) (now : ℕ) : WsServerMessage where
  event := "connected"
  jobId := ""
  status := "connected"
  progress := 0
  message := "WebSocket connected: " ++ uuidText wsId
  timestamp := now

def subscribed (jobId : Option String) (now : ℕ) : WsServerMessage where
  event := "subscribed"
  jobId := jobId.getD "all"
  status := "subscribed"
  progress := 0
  message := match jobId with
    | some id => "Subscribed to job: " ++ id
    | none => "Subscribed to all job events"
  timestamp := now

def unsubscribed (jobId : String) (now : ℕ) : WsServerMessage where
  event := "unsubscribed"
  jobId := jobId
  status := "unsubscribed"
  progress := 0
  message := "Unsubscribed from job: " ++ jobId
  timestamp := now

def failure (code message : String) (now : ℕ) : WsServerMessage where
  event := "error"
  jobId := ""
  status := code
  progress := 0
  message := message
  timestamp := now

end WsServerMessage

/-- The JSON library on the two types of messages. -/
structure WsJson where
  parse : String → Except String WsClientMessage
  serialize : WsServerMessage → Except String String

/-- Every server message has a JSON text. -/
def WsJson.Serializes (json : WsJson) : Prop := ∀ m, ∃ text, json.serialize m = .ok text

/-! ## The actor -/

/-- What the actor sends to the client. -/
inductive Outgoing
  | text (json : String)
  | ping (payload : List UInt8)
  | pong (payload : List UInt8)
  | close (reason : Option String)
  deriving DecidableEq

/-- A message that is sent unless it has no JSON text. -/
def WsJson.send (json : WsJson) (m : WsServerMessage) : List Outgoing :=
  match json.serialize m with
  | .ok text => [.text text]
  | .error _ => []

/-- `ws::Message`. -/
inductive WsMessage
  | ping (payload : List UInt8)
  | pong (payload : List UInt8)
  | text (text : String)
  | binary (payload : List UInt8)
  | close (reason : Option String)
  | continuation
  | nop
  deriving DecidableEq

/-- `WsJobActor`; `running` until it is stopped. -/
structure WsJobActor where
  wsId : Uuid
  subscribedJobs : Finset String
  subscribedAll : Bool
  lastHeartbeat : ℕ
  running : Bool

/-- `CLIENT_TIMEOUT`, in seconds. -/
def clientTimeout : ℕ := 10

/-- What reaches the actor, with the time when it does. -/
inductive WsAct
  | broadcast (event : JobStatusEvent)
  | frame (msg : Except String WsMessage) (now : ℕ)
  /-- The interval of `start_heartbeat`. -/
  | heartbeat (now : ℕ)

namespace WsJobActor

/-- All events by default. -/
def new (wsId : Uuid) (now : ℕ) : WsJobActor := ⟨wsId, ∅, true, now, true⟩

/-- `started`. -/
def started (json : WsJson) (a : WsJobActor) (now : ℕ) : List Outgoing := json.send (.connected a.wsId now)

def stop (a : WsJobActor) : WsJobActor := { a with running := false }

/-- `Handler<BroadcastEvent>`. -/
def onBroadcast (json : WsJson) (a : WsJobActor) (event : JobStatusEvent) : List Outgoing :=
  if a.subscribedAll || decide (uuidText event.jobId ∈ a.subscribedJobs) then
    json.send (.fromJobStatusEvent event)
  else []

def onClientMessage (a : WsJobActor) (now : ℕ) : WsClientMessage → WsJobActor × WsServerMessage
  | .subscribe (some id) => ({ a with subscribedJobs := insert id a.subscribedJobs }, .subscribed (some id) now)
  | .subscribe none => ({ a with subscribedAll := true }, .subscribed none now)
  | .unsubscribe id => ({ a with subscribedJobs := a.subscribedJobs.erase id }, .unsubscribed id now)

/-- A text from the client. -/
def onText (json : WsJson) (a : WsJobActor) (now : ℕ) (text : String) : WsJobActor × List Outgoing :=
  match json.parse text with
  | .ok m => ((a.onClientMessage now m).1, json.send (a.onClientMessage now m).2)
  | .error e => (a, json.send (.failure "invalid_message" ("Invalid message: " ++ e) now))

/-- `StreamHandler`. -/
def onMessage (json : WsJson) (a : WsJobActor) (now : ℕ) : WsMessage → WsJobActor × List Outgoing
  | .ping payload => ({ a with lastHeartbeat := now }, [.pong payload])
  | .pong _ => ({ a with lastHeartbeat := now }, [])
  | .text text => a.onText json now text
  | .binary _ => (a, [])
  | .close reason => (a.stop, [.close reason])
  | .continuation => (a.stop, [])
  | .nop => (a, [])

def handle (json : WsJson) (a : WsJobActor) : WsAct → WsJobActor × List Outgoing
  | .broadcast event => (a, a.onBroadcast json event)
  | .frame (.ok msg) now => a.onMessage json now msg
  | .frame (.error _) _ => (a.stop, [])
  | .heartbeat now => if now - a.lastHeartbeat > clientTimeout then (a.stop, []) else (a, [.ping []])

end WsJobActor

/-- The actor of one connection, from its start until it stops. -/
def wsActor (json : WsJson) : Machine WsJobActor WsAct where
  init a := ∃ wsId now, a = .new wsId now
  step a act := if a.running then some (a.handle json act).1 else none

/-! ## What the client has asked for -/

/-- Which jobs' events the client wants, and whether it still has the initial default. -/
structure Interest where
  default : Bool
  wants : String → Bool

/-- The first subscription to a specific job replaces the default; later ones, and those after a subscription to
all events, add to what is wanted. -/
def Interest.after (i : Interest) : WsClientMessage → Interest
  | .subscribe none => ⟨false, fun _ => true⟩
  | .subscribe (some id) => ⟨false, fun j => j == id || (!i.default && i.wants j)⟩
  | .unsubscribe id => { i with wants := fun j => j != id && i.wants j }

/-- What is wanted after the messages: everything at first. -/
def interest (ms : List WsClientMessage) : Interest := ms.foldl Interest.after ⟨true, fun _ => true⟩

def WsClientMessage.isSubscribe : WsClientMessage → Bool
  | .subscribe _ => true
  | .unsubscribe _ => false

/-- The message is about the events of the job. -/
def WsClientMessage.concerns (j : String) : WsClientMessage → Bool
  | .subscribe none => true
  | .subscribe (some id) | .unsubscribe id => id == j

/-- The last message about the job subscribes to it, or there is none, nor a subscription to other jobs. -/
def StillCovered (ms : List WsClientMessage) (j : String) : Prop :=
  match (ms.filter (·.concerns j)).getLast? with
  | some m => m.isSubscribe = true
  | none => ∀ m ∈ ms, m.isSubscribe = false

theorem interest_concat (ms : List WsClientMessage) (m : WsClientMessage) :
    interest (ms ++ [m]) = (interest ms).after m := by
  simp [interest]

theorem interest_default (ms : List WsClientMessage) :
    (interest ms).default = true ↔ ∀ m ∈ ms, m.isSubscribe = false := by
  induction ms using List.reverseRecOn with
  | nil => simp [interest]
  | append_singleton ms m ih =>
    rw [interest_concat]
    cases m with
    | subscribe id => cases id <;> simp [Interest.after, WsClientMessage.isSubscribe]
    | unsubscribe id => simpa [Interest.after, WsClientMessage.isSubscribe, or_imp, forall_and] using ih

theorem stillCovered_of_concerns {ms : List WsClientMessage} {m : WsClientMessage} {j : String}
    (h : m.concerns j = true) : StillCovered (ms ++ [m]) j ↔ m.isSubscribe = true := by
  unfold StillCovered
  rw [List.filter_append, List.filter_singleton, h]
  simp

theorem stillCovered_of_not_concerns {ms : List WsClientMessage} {m : WsClientMessage} {j : String}
    (h : m.concerns j = false) :
    StillCovered (ms ++ [m]) j ↔ StillCovered ms j ∧ ((interest ms).default = true → m.isSubscribe = false) := by
  unfold StillCovered
  rw [List.filter_append, List.filter_singleton, h, cond_false, List.append_nil, interest_default]
  cases hlast : (ms.filter (·.concerns j)).getLast? with
  | none =>
    simp only [List.forall_mem_append, List.forall_mem_singleton]
    exact and_congr_right fun hall => ⟨fun hm _ => hm, fun hm => hm hall⟩
  | some last =>
    simp only [iff_self_and]
    intro hsub hnone
    have hmem : last ∈ ms := (List.mem_filter.1 (List.mem_of_getLast? hlast)).1
    rw [hnone last hmem] at hsub
    cases hsub

/-- What the client wants, read off its last message about the job. -/
theorem wants_iff (ms : List WsClientMessage) (j : String) : (interest ms).wants j = true ↔ StillCovered ms j := by
  induction ms using List.reverseRecOn with
  | nil => simp [interest, StillCovered]
  | append_singleton ms m ih =>
    rw [interest_concat]
    cases hc : m.concerns j with
    | true =>
      rw [stillCovered_of_concerns hc]
      rcases m with (_ | id) | id <;> simp_all [Interest.after, WsClientMessage.concerns, WsClientMessage.isSubscribe]
    | false =>
      rw [stillCovered_of_not_concerns hc, ← ih]
      rcases m with (_ | id) | id
      · simp [WsClientMessage.concerns] at hc
      · have hne : j ≠ id := fun h => by simp [WsClientMessage.concerns, h] at hc
        simp [Interest.after, WsClientMessage.isSubscribe, hne, and_comm]
      · have hne : j ≠ id := fun h => by simp [WsClientMessage.concerns, h] at hc
        simp [Interest.after, WsClientMessage.isSubscribe, hne]

/-! ## What is forwarded -/

section Run

variable {json : WsJson} {s s' : WsJobActor} {tr : List (Fired WsJobActor WsAct)}

/-- The client's messages among the steps. -/
def clientMessages (json : WsJson) (tr : List (Fired WsJobActor WsAct)) : List WsClientMessage :=
  tr.filterMap fun f => match f.act with
    | .frame (.ok (.text text)) _ => (json.parse text).toOption
    | _ => none

/-- The step sends the event to the client. -/
def Forwarded (json : WsJson) (f : Fired WsJobActor WsAct) (event : JobStatusEvent) : Prop :=
  ∃ text, json.serialize (.fromJobStatusEvent event) = .ok text ∧ .text text ∈ (f.pre.handle json f.act).2

/-- Exactly the events are forwarded that the client wants when they come. -/
def FilterFollows (json : WsJson) (tr : List (Fired WsJobActor WsAct)) : Prop :=
  ∀ pre f post event, tr = pre ++ f :: post → f.act = .broadcast event →
    (Forwarded json f event ↔ (interest (clientMessages json pre)).wants (uuidText event.jobId) = true)

/-- No message of the client ever clears the flag for all events. -/
theorem handle_subscribedAll {a : WsJobActor} (act : WsAct) (h : a.subscribedAll = true) :
    (a.handle json act).1.subscribedAll = true := by
  rcases act with event | ⟨e | msg, now⟩ | now
  · exact h
  · exact h
  · cases msg with
    | text text =>
      show (a.onText json now text).1.subscribedAll = true
      unfold WsJobActor.onText
      cases json.parse text with
      | error e => exact h
      | ok m => rcases m with (_ | id) | id <;> first | rfl | exact h
    | ping | pong | binary | close | continuation | nop => exact h
  · show (if _ then _ else _ : WsJobActor × List Outgoing).1.subscribedAll = true
    split <;> exact h

theorem subscribedAll_run (h : Run (wsActor json) s tr s') (hinit : (wsActor json).init s) :
    ∀ f ∈ tr, f.pre.subscribedAll = true := by
  have hstart : s.subscribedAll = true := by
    obtain ⟨_, _, rfl⟩ := hinit
    rfl
  refine fun f hf => (h.always_at (I := fun a => a.subscribedAll = true) (fun g hg hpre => ?_) hstart f hf).1
  unfold IsStep wsActor at hg
  dsimp only at hg
  split at hg
  · rw [← Option.some.inj hg]
    exact handle_subscribedAll g.act hpre
  · cases hg

/-- With the flag set every event is forwarded. -/
theorem forwarded_all (hjson : json.Serializes) {f : Fired WsJobActor WsAct} {event : JobStatusEvent}
    (hact : f.act = .broadcast event) (hall : f.pre.subscribedAll = true) : Forwarded json f event := by
  obtain ⟨text, ht⟩ := hjson (.fromJobStatusEvent event)
  refine ⟨text, ht, ?_⟩
  simp [hact, WsJobActor.handle, WsJobActor.onBroadcast, hall, WsJson.send, ht]

end Run

/-- What is forwarded follows the subscriptions in exactly the runs in which every event comes while its job is
covered. -/
theorem filter_follows_iff {json : WsJson} (hjson : json.Serializes) {s s' : WsJobActor}
    {tr : List (Fired WsJobActor WsAct)} (h : Run (wsActor json) s tr s') (hinit : (wsActor json).init s) :
    FilterFollows json tr ↔ ∀ pre f post event, tr = pre ++ f :: post → f.act = .broadcast event →
      StillCovered (clientMessages json pre) (uuidText event.jobId) := by
  have hforwarded : ∀ pre f post event, tr = pre ++ f :: post → f.act = .broadcast event → Forwarded json f event :=
    fun pre f post event htr hact =>
      forwarded_all hjson hact (subscribedAll_run h hinit f (by rw [htr]; simp))
  constructor
  · intro hfollows pre f post event htr hact
    exact (wants_iff _ _).1 ((hfollows pre f post event htr hact).1 (hforwarded pre f post event htr hact))
  · intro hcovered pre f post event htr hact
    constructor
    · intro _
      exact (wants_iff _ _).2 (hcovered pre f post event htr hact)
    · intro _
      exact hforwarded pre f post event htr hact

/-! ## A subscription that does not narrow -/

/-- A small JSON library: it reads two messages, and every server message has a text. -/
def wsJson : WsJson where
  parse text :=
    if text = "subscribe a" then .ok (.subscribe (some "a"))
    else if text = "subscribe" then .ok (.subscribe none)
    else .error "expected value at line 1 column 1"
  serialize m := .ok (m.event ++ " " ++ m.jobId ++ " " ++ m.status)

theorem wsJson_serializes : wsJson.Serializes := fun _ => ⟨_, rfl⟩

/-- The job with id 1 has started. -/
def jobStarted : JobStatusEvent where
  event := "job_status"
  jobId := 1
  status := "running"
  progress := 0
  message := "Job started"
  timestamp := 0
  error := none
  errorCode := none

theorem onText_running (json : WsJson) (a : WsJobActor) (now : ℕ) (text : String) :
    (a.onText json now text).1.running = a.running := by
  unfold WsJobActor.onText
  cases json.parse text with
  | error e => rfl
  | ok m => rcases m with (_ | id) | id <;> rfl

/-- The actor after a first text. -/
def afterText (text : String) : WsJobActor := ((WsJobActor.new 7 0).onText wsJson 1 text).1

/-- The client sends a text, and then the event comes. -/
def textThenEvent (text : String) : List (Fired WsJobActor WsAct) :=
  [⟨.new 7 0, .frame (.ok (.text text)) 1, afterText text⟩, ⟨afterText text, .broadcast jobStarted, afterText text⟩]

theorem textThenEvent_run (text : String) : Run (wsActor wsJson) (.new 7 0) (textThenEvent text) (afterText text) := by
  have hevent : (wsActor wsJson).step (afterText text) (.broadcast jobStarted) = some (afterText text) := by
    show (if (afterText text).running then _ else none) = _
    rw [afterText, onText_running]
    rfl
  exact .cons rfl (.cons hevent .nil)

/-- A client that subscribes to all events gets the event. -/
theorem filter_follows_all : FilterFollows wsJson (textThenEvent "subscribe") := by
  refine (filter_follows_iff wsJson_serializes (textThenEvent_run _) ⟨7, 0, rfl⟩).2 fun pre f post event htr hact => ?_
  rcases pre with _ | ⟨g, _ | ⟨g', pre⟩⟩
  · obtain ⟨rfl, _⟩ := List.cons.inj htr
    cases hact
  · obtain ⟨rfl, _⟩ := List.cons.inj htr
    show StillCovered [.subscribe none] _
    simp [StillCovered, WsClientMessage.concerns, WsClientMessage.isSubscribe]
  · have hlength := congrArg List.length htr
    simp [textThenEvent] at hlength

/-- A client that subscribes to job "a" only is sent the event of another job. -/
theorem unwanted_event_forwarded : ∃ (json : WsJson) (s s' : WsJobActor) (tr : List (Fired WsJobActor WsAct)),
    json.Serializes ∧ Run (wsActor json) s tr s' ∧ (wsActor json).init s ∧ ¬ FilterFollows json tr := by
  refine ⟨wsJson, _, _, _, wsJson_serializes, textThenEvent_run "subscribe a", ⟨7, 0, rfl⟩, fun hfollows => ?_⟩
  have hwants := (hfollows [_] _ [] jobStarted rfl rfl).1 ⟨_, rfl, by decide⟩
  revert hwants
  decide

end LinuxPatchApi.Jobs
