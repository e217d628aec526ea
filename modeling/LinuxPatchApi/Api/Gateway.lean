/-
What stands before the handlers: the middleware stack that `main` builds, `src/auth/security_headers.rs` and the
middleware of `src/auth/whitelist.rs`. The middleware that is wrapped last sees a request first, so that a request
goes through the rate limiter, the check of its headers and the whitelist, in this order. Which requests are
handled, and that clients do not get in each other's way.
-/
import LinuxPatchApi.Api.RateLimit
import LinuxPatchApi.Auth.Whitelist
import LinuxPatchApi.Lib.Overwrite
import LinuxPatchApi.Lib.Unwinding

namespace LinuxPatchApi.Api.Gateway

open RateLimit Auth Unwinding

/-! ## Headers -/

/-- `CRITICAL_HEADERS`. -/
def criticalHeaders : List String := ["content-type", "authorization", "host"]

/-- `eq_ignore_ascii_case`. -/
def eqIgnoreAsciiCase (s t : String) : Bool := s.toList.map Char.toLower == t.toList.map Char.toLower

/-- The inner loop: it ends when the header comes a second time. -/
def seenTwice (headerName : String) : ℕ → List String → Bool
  | _, [] => false
  | count, name :: names =>
    if eqIgnoreAsciiCase name headerName then
      if count + 1 > 1 then true else seenTwice headerName (count + 1) names
    else seenTwice headerName count names

/-- Of the header map only the names matter, each as often as it has values. -/
def hasDuplicateCriticalHeaders (headers : List String) : Bool := criticalHeaders.any fun h => seenTwice h 0 headers

theorem seenTwice_iff (headerName : String) (names : List String) (count : ℕ) (hcount : count ≤ 1) :
    seenTwice headerName count names = true ↔
      1 < count + names.countP (eqIgnoreAsciiCase · headerName) := by
  induction names generalizing count with
  | nil =>
    simp only [seenTwice, List.countP_nil]
    simp
    omega
  | cons name names ih =>
    rw [seenTwice]
    by_cases hname : eqIgnoreAsciiCase name headerName = true
    · rw [if_pos hname, List.countP_cons_of_pos (by simpa using hname)]
      by_cases hone : count + 1 > 1
      · rw [if_pos hone]
        simp
        omega
      · rw [if_neg hone, ih (count + 1) (by omega)]
        omega
    · rw [if_neg hname, List.countP_cons_of_neg (by simpa using hname)]
      exact ih count hcount

/-- Some critical header, in whatever case it is written, has more than one value. -/
def Ambiguous (headers : List String) : Prop :=
  ∃ h ∈ criticalHeaders, 1 < headers.countP (eqIgnoreAsciiCase · h)

theorem hasDuplicateCriticalHeaders_iff (headers : List String) :
    hasDuplicateCriticalHeaders headers = true ↔ Ambiguous headers := by
  simp only [hasDuplicateCriticalHeaders, List.any_eq_true, Ambiguous]
  refine exists_congr fun h => and_congr_right fun _ => ?_
  rw [seenTwice_iff h headers 0 (by omega), zero_add]

/-! ## The stack -/

/-- A request at a worker, with the names of its headers. -/
structure Arrival (n : ℕ) extends Request n where
  headers : List String

inductive Answer
  | tooManyRequests (e : RateLimitError)
  | badRequest (text : String)
  | forbidden (text : String)
  /-- The router's answer. -/
  | handled
  deriving DecidableEq, Repr

/-- `WHITELIST_EXEMPT_PATHS`. -/
def whitelistExemptPaths : List String := ["/health", "/api/v1/system/info"]

/-- `WhitelistMiddlewareService::call`. -/
def whitelistCall {n : ℕ} (manager : WhitelistManager) (r : Arrival n) : Answer :=
  if whitelistExemptPaths.any (r.path == ·) then .handled
  else match r.peerIp with
    | some addr => if manager.isSocketAllowed addr then .handled else .forbidden "IP address not in whitelist"
    | none => .forbidden "IP address not available - denied by policy"

/-- `SecurityHeadersMiddlewareService::call`. -/
def securityHeadersCall {n : ℕ} (manager : WhitelistManager) (r : Arrival n) : Answer :=
  if hasDuplicateCriticalHeaders r.headers then .badRequest "Duplicate critical headers not allowed"
  else whitelistCall manager r

/-- The limiters of the workers and the whitelist that they share. -/
structure Stack (n : ℕ) where
  server : Server n
  manager : WhitelistManager

inductive Event (n : ℕ)
  | request (r : Arrival n)
  /-- The entries are read anew. -/
  | reload (entries : Finset WhitelistEntry)

/-- `RateLimitService::call`, outermost. -/
def Stack.call {n : ℕ} (g : Stack n) (r : Arrival n) : Answer × Stack n :=
  match g.server.call r.toRequest with
  | (.error e, server) => (.tooManyRequests e, { g with server := server })
  | (.ok (), server) => (securityHeadersCall g.manager r, { g with server := server })

/-- One event, with the answer if it is a request. -/
def Stack.step {n : ℕ} (g : Stack n) : Event n → Option Answer × Stack n
  | .request r => (some (g.call r).1, (g.call r).2)
  | .reload entries => (none, { g with manager := { g.manager with entries := entries } })

variable {n : ℕ} {g g' : Stack n} {r : Arrival n} {ip : IpAddr}

/-! ## Clients among themselves -/

/-- What decides on the requests of an address: its cells in the workers, and the whitelist. -/
structure View (n : ℕ) where
  enabled : Fin n → Bool
  cells : Fin n → RateLimiters.Tier → Gcra.Quota ℚ × Option ℚ
  manager : WhitelistManager

def Stack.view (g : Stack n) (ip : IpAddr) : View n where
  enabled w := (g.server w).enabled
  cells w tier := (g.server w).cell tier ip
  manager := g.manager

/-- The client at the address sees its own requests; the whitelist is everybody's. -/
def Event.concerns (ip : IpAddr) : Event n → Bool
  | .request r => r.peerIp == some ip
  | .reload _ => true

theorem Stack.call_snd : (g.call r).2 = { g with server := (g.server.call r.toRequest).2 } := by
  unfold Stack.call
  rcases g.server.call r.toRequest with ⟨e | u, server⟩ <;> rfl

theorem Stack.call_fst : (g.call r).1 = match (g.server.call r.toRequest).1 with
    | .error e => .tooManyRequests e
    | .ok () => securityHeadersCall g.manager r := by
  unfold Stack.call
  rcases g.server.call r.toRequest with ⟨e | u, server⟩ <;> rfl

theorem view_of_other (h : r.peerIp ≠ some ip) : (g.call r).2.view ip = g.view ip := by
  rw [Stack.call_snd]
  simp only [Stack.view, View.mk.injEq, and_true]
  constructor
  · funext w
    exact Server.enabled_call
  · funext w tier
    exact Server.cell_call_of_ne fun _ hcounts => h hcounts.1

theorem checkKey_congr {k k' : KeyedRateLimiter} (hquota : k.quota = k'.quota) (htat : k.tats ip = k'.tats ip)
    (now : ℚ) : (k.checkKey ip now).1 = (k'.checkKey ip now).1 ∧
      (k.checkKey ip now).2.tats ip = (k'.checkKey ip now).2.tats ip := by
  cases h : Gcra.check k.quota (k.tats ip) now with
  | error earliest =>
    have h' : Gcra.check k'.quota (k'.tats ip) now = .error earliest := by rw [← hquota, ← htat, h]
    rw [KeyedRateLimiter.checkKey_error h, KeyedRateLimiter.checkKey_error h']
    exact ⟨rfl, htat⟩
  | ok next =>
    have h' : Gcra.check k'.quota (k'.tats ip) now = .ok next := by rw [← hquota, ← htat, h]
    rw [KeyedRateLimiter.checkKey_ok h, KeyedRateLimiter.checkKey_ok h']
    simp only [Function.update_self, and_self]

theorem check_congr {l l' : RateLimiters} (henabled : l.enabled = l'.enabled)
    (hcell : ∀ tier, l.cell tier ip = l'.cell tier ip) (method : RateLimiters.Method) (path : String) (now : ℚ) :
    (l.check method path ip now).1 = (l'.check method path ip now).1 ∧
      ∀ tier, (l.check method path ip now).2.cell tier ip = (l'.check method path ip now).2.cell tier ip := by
  by_cases hp : path ∈ exemptPaths
  · rw [RateLimiters.check_exempt hp, RateLimiters.check_exempt hp]
    exact ⟨rfl, hcell⟩
  cases he : l.enabled with
  | false =>
    rw [RateLimiters.check_disabled he, RateLimiters.check_disabled (henabled.symm.trans he)]
    exact ⟨rfl, hcell⟩
  | true =>
    rw [RateLimiters.check_limited he hp, RateLimiters.check_limited (henabled.symm.trans he) hp]
    obtain ⟨hquota, htat⟩ := Prod.mk.inj (hcell method.tier)
    obtain ⟨hresult, hnext⟩ := checkKey_congr hquota htat now
    refine ⟨by rw [hresult], fun tier => ?_⟩
    simp only [RateLimiters.cell, RateLimiters.limiter_setLimiter]
    split
    · rw [KeyedRateLimiter.checkKey_quota, KeyedRateLimiter.checkKey_quota, hquota, hnext]
    · exact hcell tier

theorem call_congr (hview : g.view ip = g'.view ip) (hr : r.peerIp = some ip) :
    (g.call r).1 = (g'.call r).1 ∧ (g.call r).2.view ip = (g'.call r).2.view ip := by
  obtain ⟨henabled, hcells, hmanager⟩ := View.mk.inj hview
  have hcheck := check_congr (congrFun henabled r.worker) (congrFun (congrFun hcells r.worker)) r.method r.path r.time
  have hcall : ∀ s : Server n, s.call r.toRequest = (((s r.worker).check r.method r.path ip r.time).1,
      Function.update s r.worker ((s r.worker).check r.method r.path ip r.time).2) := by
    intro s
    simp only [Server.call, hr]
  constructor
  · rw [Stack.call_fst, Stack.call_fst, hcall, hcall, hmanager]
    simp only [hcheck.1]
  · rw [Stack.call_snd, Stack.call_snd, hcall, hcall]
    simp only [Stack.view, View.mk.injEq]
    refine ⟨funext fun w => ?_, funext fun w => funext fun tier => ?_, hmanager⟩
    · by_cases hw : w = r.worker
      · subst hw
        rw [Function.update_self, Function.update_self, RateLimiters.enabled_check, RateLimiters.enabled_check]
        exact congrFun henabled _
      · rw [Function.update_of_ne hw, Function.update_of_ne hw]
        exact congrFun henabled w
    · by_cases hw : w = r.worker
      · subst hw
        rw [Function.update_self, Function.update_self]
        exact hcheck.2 tier
      · rw [Function.update_of_ne hw, Function.update_of_ne hw]
        exact congrFun (congrFun hcells w) tier

theorem view_unwinds (n : ℕ) (ip : IpAddr) :
    Unwinds (Stack.step (n := n)) (fun g => g.view ip) (Event.concerns ip) where
  hidden g e he := by
    cases e with
    | request r =>
      refine view_of_other fun hr => ?_
      simp [Event.concerns, hr] at he
    | reload entries => cases he
  answer g g' e he hview := by
    cases e with
    | request r =>
      have hr : r.peerIp = some ip := by simpa [Event.concerns] using he
      exact congrArg some (call_congr hview hr).1
    | reload entries => rfl
  next g g' e he hview := by
    cases e with
    | request r =>
      have hr : r.peerIp = some ip := by simpa [Event.concerns] using he
      exact (call_congr hview hr).2
    | reload entries =>
      obtain ⟨henabled, hcells, hmanager⟩ := View.mk.inj hview
      simp only [Stack.step, Stack.view, View.mk.injEq, WhitelistManager.mk.injEq, true_and]
      exact ⟨henabled, hcells, congrArg WhitelistManager.configPath hmanager⟩

/-- Whatever other clients send, to whichever workers and in whichever order, a client is answered as if it were
alone: nobody can use up its budget or get it refused. -/
theorem clients_isolated (g : Stack n) (ip : IpAddr) (events : List (Event n)) :
    (answers Stack.step g events).filter (fun p => p.1.concerns ip) =
      answers Stack.step g (events.filter (Event.concerns ip)) := (view_unwinds n ip).purge g events

/-! ## Who is handled -/

/-- The entries in force after the events. -/
def entriesInForce (g : Stack n) (events : List (Event n)) : Finset WhitelistEntry :=
  Overwrite.run (fun e => match e with | .reload entries => some entries | .request _ => none) g.manager.entries events

/-- The limiters after the events: they count every request, also those that are refused behind them. -/
def limitersAfter (g : Stack n) (events : List (Event n)) : Server n :=
  events.foldl (fun s e => match e with | .request r => (s.call r.toRequest).2 | .reload _ => s) g.server

/-- The whitelist lets the request in. -/
def LetIn (entries : Finset WhitelistEntry) (r : Arrival n) : Prop :=
  r.path ∈ whitelistExemptPaths ∨ ∃ ip, r.peerIp = some (.v4 ip) ∧ ∃ e ∈ entries, e.allows ip = true

theorem after_manager (g : Stack n) (events : List (Event n)) :
    (after Stack.step g events).manager.entries = entriesInForce g events := by
  refine Overwrite.observe (v := fun g : Stack n => g.manager.entries) (fun g e => ?_) g events
  cases e with
  | request r =>
    show (g.call r).2.manager.entries = _
    rw [Stack.call_snd]
    rfl
  | reload entries => rfl

theorem after_server (g : Stack n) (events : List (Event n)) :
    (after Stack.step g events).server = limitersAfter g events := by
  unfold after limitersAfter
  induction events generalizing g with
  | nil => rfl
  | cons e events ih =>
    rw [List.foldl_cons, List.foldl_cons, ih]
    cases e with
    | request r =>
      show List.foldl _ (g.call r).2.server events = _
      rw [Stack.call_snd]
    | reload entries => rfl

theorem whitelistCall_handled {manager : WhitelistManager} :
    whitelistCall manager r = .handled ↔ LetIn manager.entries r := by
  unfold whitelistCall LetIn
  by_cases hpath : r.path ∈ whitelistExemptPaths
  · rw [if_pos (by simpa using hpath)]
    simp [hpath]
  · rw [if_neg (by simpa using hpath)]
    simp only [hpath, false_or]
    cases hpeer : r.peerIp with
    | none => simp
    | some addr =>
      cases addr with
      | v4 ip => simp [WhitelistManager.isSocketAllowed, WhitelistManager.isAllowed]
      | v6 bits => simp [WhitelistManager.isSocketAllowed]

theorem call_handled : (g.call r).1 = .handled ↔ (g.server.call r.toRequest).1 = .ok () ∧
    ¬ Ambiguous r.headers ∧ LetIn g.manager.entries r := by
  rw [Stack.call_fst]
  cases hlimit : (g.server.call r.toRequest).1 with
  | error e => simp
  | ok =>
    simp only [true_and]
    unfold securityHeadersCall
    rw [← hasDuplicateCriticalHeaders_iff]
    split
    · next hdup => simp [hdup]
    · next hdup => simpa [hdup] using whitelistCall_handled

/-- In every run a request is handled exactly if the limiter of its worker, which has counted all requests before it,
lets it pass, none of its critical headers comes twice, and the whitelist as it then is lets it in. -/
theorem handled_iff (g : Stack n) (pre post : List (Event n)) (r : Arrival n) :
    (answers Stack.step g (pre ++ .request r :: post))[pre.length]? = some (.request r, some .handled) ↔
      ((limitersAfter g pre).call r.toRequest).1 = .ok () ∧ ¬ Ambiguous r.headers ∧ LetIn (entriesInForce g pre) r := by
  rw [getElem?_answers, ← after_server, ← after_manager]
  simp only [Stack.step, Option.some.injEq, Prod.mk.injEq, true_and]
  exact call_handled

end LinuxPatchApi.Api.Gateway
