/-
`src/api/rate_limit.rs` and the workers of `main`: two tiers of limiters by address, in every worker its own. The
limit of a tier then holds for an address exactly when a single worker serves it.
-/
import LinuxPatchApi.Lib.Gcra
import LinuxPatchApi.Net

namespace LinuxPatchApi.Api.RateLimit

open Gcra

/-! ## Limiters -/

def exemptPaths : List String := ["/health", "/api/v1/system/info"]

structure RateLimitConfig where
  enabled : Bool
  destructivePerMinute : UInt32
  destructiveBurst : UInt32
  readPerMinute : UInt32
  readBurst : UInt32
  deriving DecidableEq, Repr

def RateLimitConfig.default : RateLimitConfig := ⟨true, 20, 10, 120, 30⟩

structure RateLimitError where
  retryAfterSecs : ℕ
  deriving DecidableEq, Repr

def RateLimitError.toString (e : RateLimitError) : String :=
  "Rate limit exceeded. Retry after " ++ ToString.toString e.retryAfterSecs ++ " seconds."

abbrev NonZeroU32 := {n : UInt32 // n ≠ 0}

def NonZeroU32.new (n : UInt32) : Option NonZeroU32 := if h : n ≠ 0 then some ⟨n, h⟩ else none

theorem NonZeroU32.pos (n : NonZeroU32) : 0 < n.1.toNat :=
  Nat.pos_of_ne_zero fun h => n.2 (UInt32.toNat_inj.1 h)

theorem NonZeroU32.new_eq_some {m : UInt32} {k : NonZeroU32} : NonZeroU32.new m = some k ↔ k.1 = m := by
  unfold NonZeroU32.new
  split
  · next h => exact ⟨fun he => by rw [← Option.some.inj he], fun he => congrArg some (Subtype.ext he.symm)⟩
  · next h =>
    refine ⟨fun he => (by cases he), fun he => ?_⟩
    exact (h (he ▸ k.2)).elim

/-- `Quota::per_minute(n).allow_burst(burst)`; times are in seconds. -/
def quota (perMinute burst : NonZeroU32) : Quota ℚ where
  burst := burst.1.toNat
  interval := 60 / perMinute.1.toNat
  burst_pos := burst.pos
  interval_pos := div_pos (by norm_num) (by exact_mod_cast perMinute.pos)

/-- A limiter by address. -/
structure KeyedRateLimiter where
  quota : Quota ℚ
  tats : IpAddr → Option ℚ

def KeyedRateLimiter.keyed (q : Quota ℚ) : KeyedRateLimiter := ⟨q, fun _ => none⟩

/-- The earliest time at which a cell that does not pass would have passed is the error. -/
def KeyedRateLimiter.checkKey (l : KeyedRateLimiter) (ip : IpAddr) (now : ℚ) : Except ℚ Unit × KeyedRateLimiter :=
  match check l.quota (l.tats ip) now with
  | .error earliest => (.error earliest, l)
  | .ok next => (.ok (), { l with tats := Function.update l.tats ip (some next) })

namespace KeyedRateLimiter

variable {l : KeyedRateLimiter} {ip ip' : IpAddr} {now earliest next : ℚ}

theorem checkKey_error (h : check l.quota (l.tats ip) now = .error earliest) :
    l.checkKey ip now = (.error earliest, l) := by
  rw [checkKey, h]

theorem checkKey_ok (h : check l.quota (l.tats ip) now = .ok next) :
    l.checkKey ip now = (.ok (), { l with tats := Function.update l.tats ip (some next) }) := by
  rw [checkKey, h]

theorem checkKey_quota : (l.checkKey ip now).2.quota = l.quota := by
  cases h : check l.quota (l.tats ip) now with
  | error _ => rw [checkKey_error h]
  | ok _ => rw [checkKey_ok h]

theorem checkKey_tats_of_ne (hne : ip' ≠ ip) : (l.checkKey ip now).2.tats ip' = l.tats ip' := by
  cases h : check l.quota (l.tats ip) now with
  | error _ => rw [checkKey_error h]
  | ok _ =>
    rw [checkKey_ok h]
    exact Function.update_of_ne hne _ _

end KeyedRateLimiter

structure RateLimiters where
  destructive : KeyedRateLimiter
  read : KeyedRateLimiter
  enabled : Bool

namespace RateLimiters

/-- A zero in the configuration makes it panic. -/
def new (config : RateLimitConfig) : Option RateLimiters := do
  let destructiveQuota := quota (← NonZeroU32.new config.destructivePerMinute)
    (← NonZeroU32.new config.destructiveBurst)
  let readQuota := quota (← NonZeroU32.new config.readPerMinute) (← NonZeroU32.new config.readBurst)
  return ⟨.keyed destructiveQuota, .keyed readQuota, config.enabled⟩

inductive Tier
  | destructive
  | read
  deriving DecidableEq, Repr

inductive Method
  | get
  | post
  | put
  | delete
  | other (name : String)
  deriving DecidableEq, Repr

def Method.tier : Method → Tier
  | .post | .put | .delete => .destructive
  | .get => .read
  | .other _ => .read

def limiter (l : RateLimiters) : Tier → KeyedRateLimiter
  | .destructive => l.destructive
  | .read => l.read

def setLimiter (l : RateLimiters) (k : KeyedRateLimiter) : Tier → RateLimiters
  | .destructive => { l with destructive := k }
  | .read => { l with read := k }

/-- `check`, at a time; the clock that the error is reckoned with stands still meanwhile. -/
def check (l : RateLimiters) (method : Method) (path : String) (peerIp : IpAddr) (now : ℚ) :
    Except RateLimitError Unit × RateLimiters :=
  if !l.enabled then (.ok (), l)
  else if exemptPaths.contains path then (.ok (), l)
  else match (l.limiter method.tier).checkKey peerIp now with
    | (.ok (), k) => (.ok (), l.setLimiter k method.tier)
    | (.error earliest, k) => (.error ⟨max ⌊earliest - now⌋₊ 1⟩, l.setLimiter k method.tier)

/-! ## What a check changes -/

variable {l : RateLimiters} {method : Method} {path : String} {peerIp ip : IpAddr} {now : ℚ} {tier : Tier}

theorem limiter_setLimiter (k : KeyedRateLimiter) (tier tier' : Tier) :
    (l.setLimiter k tier).limiter tier' = if tier' = tier then k else l.limiter tier' := by
  cases tier <;> cases tier' <;> rfl

theorem enabled_setLimiter (k : KeyedRateLimiter) (tier : Tier) : (l.setLimiter k tier).enabled = l.enabled := by
  cases tier <;> rfl

theorem check_exempt (h : path ∈ exemptPaths) : l.check method path peerIp now = (.ok (), l) := by
  simp only [check, List.contains_iff_mem, h, if_true, ite_self]

theorem check_disabled (h : l.enabled = false) : l.check method path peerIp now = (.ok (), l) := by
  simp only [check, h, Bool.not_false, if_true]

theorem check_limited (h : l.enabled = true) (hp : path ∉ exemptPaths) : l.check method path peerIp now =
    ((((l.limiter method.tier).checkKey peerIp now).1.mapError fun earliest => ⟨max ⌊earliest - now⌋₊ 1⟩),
      l.setLimiter ((l.limiter method.tier).checkKey peerIp now).2 method.tier) := by
  simp only [check, h, Bool.not_true, Bool.false_eq_true, if_false, List.contains_iff_mem, hp]
  rcases (l.limiter method.tier).checkKey peerIp now with ⟨e | u, k⟩ <;> rfl

theorem enabled_check : (l.check method path peerIp now).2.enabled = l.enabled := by
  by_cases hp : path ∈ exemptPaths
  · rw [check_exempt hp]
  cases h : l.enabled with
  | false => rw [check_disabled h, h]
  | true => rw [check_limited h hp, enabled_setLimiter, h]

/-- What decides on the requests of an address: the quota of the tier, and the theoretical arrival time. -/
def cell (l : RateLimiters) (tier : Tier) (ip : IpAddr) : Quota ℚ × Option ℚ :=
  ((l.limiter tier).quota, (l.limiter tier).tats ip)

theorem cell_check_of_ne (h : path ∉ exemptPaths → method.tier = tier → peerIp ≠ ip) :
    (l.check method path peerIp now).2.cell tier ip = l.cell tier ip := by
  by_cases hp : path ∈ exemptPaths
  · rw [check_exempt hp]
  cases he : l.enabled with
  | false => rw [check_disabled he]
  | true =>
    rw [check_limited he hp, cell, limiter_setLimiter, cell]
    split
    · next htier =>
      subst htier
      have hip := h hp rfl
      rw [KeyedRateLimiter.checkKey_quota, KeyedRateLimiter.checkKey_tats_of_ne hip.symm]
    · rfl

/-- A request that is limited passes as the algorithm says. -/
theorem check_cell (he : l.enabled = true) (hp : path ∉ exemptPaths) :
    match Gcra.check (l.cell method.tier peerIp).1 (l.cell method.tier peerIp).2 now with
    | .error _ => (∃ e, (l.check method path peerIp now).1 = .error e) ∧
        (l.check method path peerIp now).2.cell method.tier peerIp = l.cell method.tier peerIp
    | .ok next => (l.check method path peerIp now).1 = .ok () ∧
        (l.check method path peerIp now).2.cell method.tier peerIp = ((l.cell method.tier peerIp).1, some next) := by
  rw [check_limited he hp]
  simp only [cell, limiter_setLimiter, if_true]
  cases hc : Gcra.check (l.limiter method.tier).quota ((l.limiter method.tier).tats peerIp) now with
  | error earliest =>
    simp only [KeyedRateLimiter.checkKey_error hc]
    exact ⟨⟨_, rfl⟩, trivial⟩
  | ok next =>
    simp only [KeyedRateLimiter.checkKey_ok hc, Function.update_self]
    exact ⟨rfl, trivial⟩

end RateLimiters

/-! ## Workers -/

open RateLimiters

/-- A request, at the worker that serves it; the address of some peers is not known. -/
structure Request (n : ℕ) where
  worker : Fin n
  time : ℚ
  method : Method
  path : String
  peerIp : Option IpAddr
  deriving DecidableEq, Repr

/-- The limiters of each worker. -/
abbrev Server (n : ℕ) := Fin n → RateLimiters

/-- `new_transform`, which the factory of the server runs in every worker. -/
def newTransform (config : RateLimitConfig) : Option RateLimiters := RateLimiters.new config

namespace Server

variable {n : ℕ}

def start (config : RateLimitConfig) (n : ℕ) : Option (Server n) := (newTransform config).map fun limiters _ => limiters

/-- `RateLimitService::call` of the worker. -/
def call (s : Server n) (r : Request n) : Except RateLimitError Unit × Server n :=
  match r.peerIp with
  | none => (.ok (), s)
  | some ip =>
    let (result, limiters) := (s r.worker).check r.method r.path ip r.time
    (result, Function.update s r.worker limiters)

/-- The requests that pass, in the order of their checks. -/
def passed (s : Server n) : List (Request n) → List (Request n)
  | [] => []
  | r :: rs => match s.call r with
    | (.ok (), s) => r :: passed s rs
    | (.error _, s) => passed s rs

end Server

/-- A request of the address that the limit of the tier is for. -/
def Request.Counts {n : ℕ} (ip : IpAddr) (tier : Tier) (r : Request n) : Prop :=
  r.peerIp = some ip ∧ r.path ∉ exemptPaths ∧ r.method.tier = tier

instance {n : ℕ} (ip : IpAddr) (tier : Tier) (r : Request n) : Decidable (r.Counts ip tier) :=
  inferInstanceAs (Decidable (_ ∧ _ ∧ _))

namespace Server

variable {n : ℕ} {s : Server n} {r : Request n} {w : Fin n} {ip : IpAddr} {tier : Tier}

theorem enabled_call : ((s.call r).2 w).enabled = (s w).enabled := by
  unfold call
  split
  · rfl
  · dsimp only
    by_cases hw : w = r.worker
    · rw [hw, Function.update_self, enabled_check]
    · rw [Function.update_of_ne hw]

theorem cell_call_of_ne (h : r.worker = w → ¬ r.Counts ip tier) :
    ((s.call r).2 w).cell tier ip = (s w).cell tier ip := by
  unfold call
  split
  · rfl
  · next peerIp hpeer =>
    dsimp only
    by_cases hw : w = r.worker
    · subst hw
      rw [Function.update_self]
      refine cell_check_of_ne fun hpath htier hip => h rfl ⟨?_, hpath, htier⟩
      rw [hpeer, hip]
    · rw [Function.update_of_ne hw]

theorem call_cell (he : (s r.worker).enabled = true) (hr : r.Counts ip tier) :
    match Gcra.check ((s r.worker).cell tier ip).1 ((s r.worker).cell tier ip).2 r.time with
    | .error _ => (∃ e, (s.call r).1 = .error e) ∧ ((s.call r).2 r.worker).cell tier ip = (s r.worker).cell tier ip
    | .ok next => (s.call r).1 = .ok () ∧
        ((s.call r).2 r.worker).cell tier ip = (((s r.worker).cell tier ip).1, some next) := by
  obtain ⟨hpeer, hpath, rfl⟩ := hr
  simp only [call, hpeer, Function.update_self]
  exact check_cell he hpath

theorem passed_cons_ok {rs : List (Request n)} (h : (s.call r).1 = .ok ()) :
    s.passed (r :: rs) = r :: (s.call r).2.passed rs := by
  rw [passed]
  rcases hcall : s.call r with ⟨e | u, s'⟩
  · rw [hcall] at h
    cases h
  · rfl

theorem passed_cons_error {rs : List (Request n)} {e : RateLimitError} (h : (s.call r).1 = .error e) :
    s.passed (r :: rs) = (s.call r).2.passed rs := by
  rw [passed]
  rcases hcall : s.call r with ⟨e | u, s'⟩
  · rfl
  · rw [hcall] at h
    cases h

/-- In one worker the requests of an address in a tier pass as the algorithm lets their times pass. -/
theorem passed_worker (ip : IpAddr) (tier : Tier) (rs : List (Request n)) (s : Server n) (he : (s w).enabled = true) :
    ((s.passed rs).filter fun r => r.worker = w ∧ r.Counts ip tier).map (·.time) =
      accepted ((s w).cell tier ip).1 ((s w).cell tier ip).2
        ((rs.filter fun r => r.worker = w ∧ r.Counts ip tier).map (·.time)) := by
  induction rs generalizing s with
  | nil => rfl
  | cons r rs ih =>
    have hrest := ih (s.call r).2 (enabled_call.trans he)
    by_cases hr : r.worker = w ∧ r.Counts ip tier
    · obtain ⟨rfl, hcounts⟩ := hr
      have hstep := call_cell he hcounts
      rw [List.filter_cons_of_pos (by simpa using hcounts), List.map_cons, accepted]
      cases hc : Gcra.check ((s r.worker).cell tier ip).1 ((s r.worker).cell tier ip).2 r.time with
      | error earliest =>
        rw [hc] at hstep
        obtain ⟨⟨e, hresult⟩, hcell⟩ := hstep
        rw [hcell] at hrest
        rw [passed_cons_error hresult]
        exact hrest
      | ok next =>
        rw [hc] at hstep
        obtain ⟨hresult, hcell⟩ := hstep
        rw [hcell] at hrest
        rw [passed_cons_ok hresult, List.filter_cons_of_pos (by simpa using hcounts), List.map_cons, hrest]
    · have hframe := cell_call_of_ne (s := s) fun hw hcounts => hr ⟨hw, hcounts⟩
      rw [hframe] at hrest
      rw [List.filter_cons_of_neg (by simpa using hr), ← hrest]
      cases hresult : (s.call r).1 with
      | error e => rw [passed_cons_error hresult]
      | ok u => rw [passed_cons_ok hresult, List.filter_cons_of_neg (by simpa using hr)]

/-- What one worker lets pass of an address in a window of time. -/
theorem countP_worker (ip : IpAddr) (tier : Tier) (he : (s w).enabled = true) (rs : List (Request n)) (a t : ℚ) :
    (s.passed rs).countP (fun r => r.worker = w ∧ r.Counts ip tier ∧ a ≤ r.time ∧ r.time ≤ a + t) ≤
      ((s w).cell tier ip).1.burst + ⌊t / ((s w).cell tier ip).1.interval⌋₊ := by
  have hwindow := window_accepted ((s w).cell tier ip).1 ((s w).cell tier ip).2
    ((rs.filter fun r => r.worker = w ∧ r.Counts ip tier).map (·.time)) a (t := t)
  rw [← passed_worker ip tier rs s he, window, List.filter_map, List.length_map, List.filter_filter] at hwindow
  rw [List.countP_eq_length_filter]
  convert hwindow using 3
  simp only [Function.comp_apply, Bool.decide_and]
  ac_rfl

theorem passed_sublist (rs : List (Request n)) (s : Server n) : (s.passed rs).Sublist rs := by
  induction rs generalizing s with
  | nil => exact List.Sublist.refl _
  | cons r rs ih =>
    cases hresult : (s.call r).1 with
    | error e =>
      rw [passed_cons_error hresult]
      exact (ih _).cons r
    | ok u =>
      rw [passed_cons_ok hresult]
      exact (ih _).cons_cons r

theorem passed_disabled (rs : List (Request n)) (s : Server n) (h : ∀ w, (s w).enabled = false) : s.passed rs = rs := by
  induction rs generalizing s with
  | nil => rfl
  | cons r rs ih =>
    have hresult : (s.call r).1 = .ok () := by
      unfold call
      split
      · rfl
      · rw [check_disabled (h _)]
    rw [passed_cons_ok hresult, ih _ fun w => enabled_call.trans (h w)]

end Server

/-! ## The limit of the whole server -/

def RateLimitConfig.perMinute (config : RateLimitConfig) : Tier → UInt32
  | .destructive => config.destructivePerMinute
  | .read => config.readPerMinute

def RateLimitConfig.burst (config : RateLimitConfig) : Tier → UInt32
  | .destructive => config.destructiveBurst
  | .read => config.readBurst

/-- Cells per second. -/
def RateLimitConfig.rate (config : RateLimitConfig) (tier : Tier) : ℚ := (config.perMinute tier).toNat / 60

namespace Server

variable {n : ℕ} {s : Server n} {config : RateLimitConfig}

/-- The limiters of each worker start fresh. -/
theorem start_spec (h : start config n = some s) (w : Fin n) (tier : Tier) : (s w).enabled = config.enabled ∧
    ∃ q : Quota ℚ, q.burst = (config.burst tier).toNat ∧ q.interval = 60 / (config.perMinute tier).toNat ∧
      ∀ ip, (s w).cell tier ip = (q, none) := by
  simp only [start, newTransform, RateLimiters.new, Option.map_eq_some_iff, Option.bind_eq_bind,
    Option.bind_eq_some_iff,
    Option.pure_def, Option.some.injEq, NonZeroU32.new_eq_some] at h
  obtain ⟨_, ⟨dm, hdm, db, hdb, rm, hrm, rb, hrb, rfl⟩, rfl⟩ := h
  refine ⟨rfl, ?_⟩
  cases tier with
  | destructive =>
    exact ⟨quota dm db, by simp [quota, RateLimitConfig.burst, hdb],
      by simp [quota, RateLimitConfig.perMinute, hdm], fun _ => rfl⟩
  | read =>
    exact ⟨quota rm rb, by simp [quota, RateLimitConfig.burst, hrb],
      by simp [quota, RateLimitConfig.perMinute, hrm], fun _ => rfl⟩

/-- However the requests of the address arrive at these workers, in every window of time no more of them pass than
the burst and the rate of the tier allow. -/
def WithinLimit (config : RateLimitConfig) (s : Server n) (workers : Set (Fin n)) (ip : IpAddr) (tier : Tier) : Prop :=
  ∀ rs : List (Request n), (∀ r ∈ rs, r.Counts ip tier → r.worker ∈ workers) → ∀ a t : ℚ,
    (s.passed rs).countP (fun r => r.Counts ip tier ∧ a ≤ r.time ∧ r.time ≤ a + t) ≤
      (config.burst tier).toNat + ⌈config.rate tier * t⌉₊

section WithinLimit

variable {workers : Set (Fin n)} {ip : IpAddr} {tier : Tier}

/-- One worker keeps the limit. -/
theorem withinLimit_of_subsingleton (h : start config n = some s) (hw : workers.Subsingleton)
    (he : workers.Nonempty → config.enabled = true) : WithinLimit config s workers ip tier := by
  intro rs hrs a t
  by_cases hserved : ∃ w, w ∈ workers
  · obtain ⟨w, hmem⟩ := hserved
    obtain ⟨henabled, q, hburst, hinterval, hcell⟩ := start_spec h w tier
    have hbound := countP_worker ip tier (henabled.trans (he ⟨w, hmem⟩)) rs a t
    rw [hcell, hburst, hinterval] at hbound
    have hsame : (s.passed rs).countP (fun r => r.Counts ip tier ∧ a ≤ r.time ∧ r.time ≤ a + t) =
        (s.passed rs).countP (fun r => r.worker = w ∧ r.Counts ip tier ∧ a ≤ r.time ∧ r.time ≤ a + t) := by
      refine List.countP_congr fun r hr => ?_
      have hworker : r.Counts ip tier → r.worker = w := fun hc => hw (hrs r ((passed_sublist rs s).subset hr) hc) hmem
      simp only [decide_eq_true_eq]
      exact ⟨fun hc => ⟨hworker hc.1, hc⟩, fun hc => hc.2⟩
    have hrate : t / (60 / ((config.perMinute tier).toNat : ℚ)) = config.rate tier * t := by
      rw [RateLimitConfig.rate, div_div_eq_mul_div]
      ring
    rw [hsame, ← hrate]
    exact hbound.trans (Nat.add_le_add_left (Nat.floor_le_ceil _) _)
  · have hnone : (s.passed rs).countP (fun r => r.Counts ip tier ∧ a ≤ r.time ∧ r.time ≤ a + t) = 0 := by
      refine List.countP_eq_zero.2 fun r hr hc => ?_
      exact hserved ⟨_, hrs r ((passed_sublist rs s).subset hr) (by simpa using (of_decide_eq_true hc).1)⟩
    rw [hnone]
    exact Nat.zero_le _

/-- A request of the address in the tier, at time 0. -/
def requestAt (ip : IpAddr) (w : Fin n) : Tier → Request n
  | .destructive => ⟨w, 0, .post, "/api/v1/packages", some ip⟩
  | .read => ⟨w, 0, .get, "/api/v1/packages", some ip⟩

theorem requestAt_spec (ip : IpAddr) (w : Fin n) (tier : Tier) :
    (requestAt ip w tier).worker = w ∧ (requestAt ip w tier).time = 0 ∧
    (requestAt ip w tier).Counts ip tier := by
  cases tier <;> exact ⟨rfl, rfl, rfl, (by decide : "/api/v1/packages" ∉ exemptPaths), rfl⟩

/-- A burst that comes at once to each of two workers. -/
def bursts (m : ℕ) (ip : IpAddr) (tier : Tier) (v w : Fin n) : List (Request n) :=
  List.replicate m (requestAt ip v tier) ++ List.replicate m (requestAt ip w tier)

theorem bursts_worker {m : ℕ} {v w u : Fin n} (hne : v ≠ w) (hu : u = v ∨ u = w) :
    ((bursts m ip tier v w).filter fun r => r.worker = u ∧ r.Counts ip tier).map (·.time) = List.replicate m 0 := by
  obtain ⟨hv, hv0, hvc⟩ := requestAt_spec ip v tier
  obtain ⟨hw, hw0, hwc⟩ := requestAt_spec ip w tier
  rw [bursts, List.filter_append, List.filter_replicate, List.filter_replicate]
  rcases hu with rfl | rfl
  · simp [hv, hw, hvc, hv0, hne.symm]
  · simp [hv, hw, hwc, hw0, hne]

/-- A fresh worker lets its burst pass. -/
theorem passed_bursts (h : start config n = some s) (he : config.enabled = true) {v w u : Fin n} (hne : v ≠ w)
    (hu : u = v ∨ u = w) : (s.passed (bursts (config.burst tier).toNat ip tier v w)).countP
      (fun r => r.worker = u ∧ r.Counts ip tier) = (config.burst tier).toNat := by
  obtain ⟨henabled, q, hburst, _, hcell⟩ := start_spec h u tier
  have hpassed := passed_worker ip tier (bursts (config.burst tier).toNat ip tier v w) s (henabled.trans he)
  rw [bursts_worker hne hu, hcell, ← hburst, accepted_replicate] at hpassed
  rw [List.countP_eq_length_filter, ← List.length_map (·.time), ← hburst, hpassed, List.length_replicate]

/-- Two predicates that exclude each other. -/
theorem countP_add_le {α : Type} {p q r : α → Bool} {l : List α} (hp : ∀ x ∈ l, p x → r x) (hq : ∀ x ∈ l, q x → r x)
    (hpq : ∀ x ∈ l, p x → q x → False) : l.countP p + l.countP q ≤ l.countP r := by
  induction l with
  | nil => exact le_rfl
  | cons x l ih =>
    have hrest := ih (fun y hy => hp y (.tail x hy)) (fun y hy => hq y (.tail x hy)) fun y hy => hpq y (.tail x hy)
    have hpx := hp x (.head l)
    have hqx := hq x (.head l)
    have hpqx := hpq x (.head l)
    simp only [List.countP_cons]
    grind

/-- Two workers let a burst pass each. -/
theorem not_withinLimit_of_two (h : start config n = some s) (he : config.enabled = true)
    {v w : Fin n} (hv : v ∈ workers)
    (hw : w ∈ workers) (hne : v ≠ w) : ¬ WithinLimit config s workers ip tier := by
  intro hlimit
  have hspec : ∀ r ∈ bursts (config.burst tier).toNat ip tier v w, r.worker ∈ workers ∧ r.time = 0 := by
    intro r hr
    rcases List.mem_append.1 hr with hr | hr
    · rw [List.eq_of_mem_replicate hr, (requestAt_spec ip v tier).1, (requestAt_spec ip v tier).2.1]
      exact ⟨hv, rfl⟩
    · rw [List.eq_of_mem_replicate hr, (requestAt_spec ip w tier).1, (requestAt_spec ip w tier).2.1]
      exact ⟨hw, rfl⟩
  have hbound := hlimit _ (fun r hr _ => (hspec r hr).1) 0 0
  have hinto : ∀ u, ∀ r ∈ s.passed (bursts (config.burst tier).toNat ip tier v w),
      decide (r.worker = u ∧ r.Counts ip tier) = true →
        decide (r.Counts ip tier ∧ 0 ≤ r.time ∧ r.time ≤ 0 + 0) = true := by
    intro u r hr hc
    obtain ⟨_, hcounts⟩ := of_decide_eq_true hc
    rw [(hspec r ((passed_sublist _ s).subset hr)).2]
    simpa using hcounts
  have hsum := countP_add_le (hinto v) (hinto w) fun r _ hrv hrw =>
    hne ((of_decide_eq_true hrv).1.symm.trans (of_decide_eq_true hrw).1)
  rw [passed_bursts h he hne (.inl rfl), passed_bursts h he hne (.inr rfl)] at hsum
  obtain ⟨_, q, hburst, _⟩ := start_spec h v tier
  have hpos := q.burst_pos
  rw [mul_zero, Nat.ceil_zero] at hbound
  omega

/-- Without limiters everything passes. -/
theorem not_withinLimit_of_disabled (h : start config n = some s) (he : config.enabled = false) {w : Fin n}
    (hw : w ∈ workers) : ¬ WithinLimit config s workers ip tier := by
  intro hlimit
  have hpassed := passed_disabled (List.replicate ((config.burst tier).toNat + 1) (requestAt ip w tier)) s fun v =>
    (start_spec h v tier).1.trans he
  obtain ⟨hworker, htime, hcounts⟩ := requestAt_spec ip w tier
  have hbound := hlimit (List.replicate ((config.burst tier).toNat + 1) (requestAt ip w tier))
    (fun r hr _ => by rw [List.eq_of_mem_replicate hr, hworker]; exact hw) 0 0
  rw [hpassed, List.countP_replicate] at hbound
  simp [hcounts, htime] at hbound

end WithinLimit

/-- The limit of a tier holds for an address, whenever its requests come, exactly when one worker serves them all
and the limiters are enabled. -/
theorem withinLimit_iff (h : start config n = some s) (workers : Set (Fin n)) (ip : IpAddr) (tier : Tier) :
    WithinLimit config s workers ip tier ↔ workers.Subsingleton ∧ (workers.Nonempty → config.enabled = true) := by
  constructor
  · intro hlimit
    have henabled : workers.Nonempty → config.enabled = true := by
      rintro ⟨w, hw⟩
      by_contra he
      exact not_withinLimit_of_disabled h (by simpa using he) hw hlimit
    refine ⟨fun v hv w hw => ?_, henabled⟩
    by_contra hne
    exact not_withinLimit_of_two h (henabled ⟨v, hv⟩) hv hw hne hlimit
  · rintro ⟨hw, he⟩
    exact withinLimit_of_subsingleton h hw he

/-- The workers of `main` with the default limits. -/
theorem start_default : ∃ s : Server 4, start .default 4 = some s := ⟨_, rfl⟩

/-- A client that only the first worker serves. -/
theorem withinLimit_oneWorker : ∃ s : Server 4, start .default 4 = some s ∧
    WithinLimit .default s {0} (.v4 (.ofOctets 192 0 2 1)) .destructive := by
  obtain ⟨s, hs⟩ := start_default
  exact ⟨s, hs, (withinLimit_iff hs _ _ _).2 ⟨Set.subsingleton_singleton, fun _ => rfl⟩⟩

/-- A client that two of the workers serve. -/
theorem exceeds_limit_twoWorkers : ∃ s : Server 4, start .default 4 = some s ∧
    ¬ WithinLimit .default s Set.univ (.v4 (.ofOctets 192 0 2 1)) .destructive := by
  obtain ⟨s, hs⟩ := start_default
  exact ⟨s, hs, not_withinLimit_of_two hs rfl (v := 0) (w := 1) trivial trivial (by decide)⟩

end Server

end LinuxPatchApi.Api.RateLimit
