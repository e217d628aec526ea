/-
The approval poll: how many requests it sends, which answer ends it, and what it returns. Every error of `poll_status`
is retried, that of an unknown token too, so it keeps its promise exactly when the first answer that is neither
transient nor pending is one that the loop takes for an answer.
-/
import LinuxPatchApi.Enroll.Enrollment

namespace LinuxPatchApi.Enroll

open LinuxPatchApi.Packages

/-! ## Answers -/

/-- What a round of the polling brings. -/
inductive Answer
  /-- A network error, HTTP 429 or 5xx. -/
  | transient
  | pending
  | approved (bundle : PkiBundle)
  | denied
  | notFound
  /-- HTTP 404: the token is expired or invalid. -/
  | expired
  /-- Another code, or a body that does not parse. -/
  | malformed
  | interrupted
  deriving DecidableEq

def EnrollmentStatusResponse.answer : EnrollmentStatusResponse → Answer
  | .pending => .pending
  | .approved bundle => .approved bundle
  | .denied => .denied
  | .notFound => .notFound

def PollEvent.answer : PollEvent → Answer
  | .sigint | .sigterm => .interrupted
  | .unreachable _ => .transient
  | .response code body parsed =>
    if code = 200 then
      match body, parsed with
      -- the connection is lost before the end of the body
      | .error _, _ => .transient
      | .ok _, .error _ => .malformed
      | .ok _, .ok status => status.answer
    else if code = 404 then .expired
    else if code = 429 ∨ code ≥ 500 then .transient
    else .malformed

/-- The polling goes on after such an answer. -/
def Answer.Continues (a : Answer) : Prop := a = .transient ∨ a = .pending

/-- An answer that is definitive, but an error of `poll_status`. -/
def Answer.Mistaken (a : Answer) : Prop := a = .expired ∨ a = .malformed

section Answers

variable {r : PollEvent}

/-- The answers that `poll_status` takes for a status, and those that are errors to it. -/
theorem pollStatus_answer (code : Nat) (body : Except String String)
    (parsed : Except String EnrollmentStatusResponse) :
    (∃ status, pollStatus code body parsed = .ok status ∧
      (PollEvent.response code body parsed).answer = status.answer) ∨
    (∃ e, pollStatus code body parsed = .error e) ∧
      ((PollEvent.response code body parsed).answer = .transient ∨
        (PollEvent.response code body parsed).answer.Mistaken) := by
  unfold pollStatus PollEvent.answer Answer.Mistaken
  by_cases h200 : code = 200
  · cases body with
    | error e => exact .inr ⟨⟨_, by simp [h200]; rfl⟩, .inl (by simp [h200])⟩
    | ok text =>
      cases parsed with
      | error e => exact .inr ⟨⟨_, by simp [h200]; rfl⟩, .inr (.inr (by simp [h200]))⟩
      | ok status => exact .inl ⟨status, by simp [h200], by simp [h200]⟩
  right
  by_cases h404 : code = 404
  · exact ⟨⟨_, by simp [h404]; rfl⟩, .inr (.inl (by simp [h404]))⟩
  by_cases h429 : code = 429
  · exact ⟨⟨_, by simp [h429]; rfl⟩, .inl (by simp [h429])⟩
  by_cases h500 : code ≥ 500
  · exact ⟨⟨_, by simp only [h200, h404, h429, h500, if_true, if_false]; rfl⟩, .inl (by simp [h200, h404, h500])⟩
  · exact ⟨⟨_, by simp only [h200, h404, h429, h500, if_false]; rfl⟩,
      .inr (.inr (by simp [h200, h404, h429, not_le.1 h500]))⟩

/-- A round does not end the loop exactly when it goes on as it should, or is mistaken. -/
theorem outcome_eq_none : r.outcome = none ↔ r.answer.Continues ∨ r.answer.Mistaken := by
  cases r with
  | sigint | sigterm => simp [PollEvent.outcome, PollEvent.answer, Answer.Continues, Answer.Mistaken]
  | unreachable e => simp [PollEvent.outcome, PollEvent.answer, Answer.Continues]
  | response code body parsed =>
    simp only [PollEvent.outcome]
    rcases pollStatus_answer code body parsed with ⟨status, hstatus, h⟩ | ⟨⟨e, he⟩, h⟩
    · rw [hstatus, h]
      cases status <;> simp [EnrollmentStatusResponse.answer, Answer.Continues, Answer.Mistaken]
    · rw [he]
      exact iff_of_true rfl (h.imp_left .inl)

theorem outcome_eq_ok {bundle : PkiBundle} : r.outcome = some (.ok bundle) ↔ r.answer = .approved bundle := by
  cases r with
  | sigint | sigterm | unreachable => simp [PollEvent.outcome, PollEvent.answer]
  | response code body parsed =>
    simp only [PollEvent.outcome]
    rcases pollStatus_answer code body parsed with ⟨status, hstatus, h⟩ | ⟨⟨e, he⟩, h⟩
    · rw [hstatus, h]
      cases status <;> simp [EnrollmentStatusResponse.answer]
    · rw [he]
      rcases h with h | h | h <;> simp [h]

theorem Answer.Continues.not_mistaken {a : Answer} (h : a.Continues) : ¬ a.Mistaken := by
  rcases h with rfl | rfl <;> simp [Answer.Mistaken]

end Answers

/-! ## The loop -/

section Loop

variable {poll : Nat → PollEvent} {max : Nat} {interval : UInt64}

/-- The loop ends on the first round that ends it, or all its rounds go by. -/
theorem pollLoop_cases (attempt left : Nat) :
    (∃ k r, k < left ∧ (poll (attempt + k)).outcome = some r ∧ (∀ j < k, (poll (attempt + j)).outcome = none) ∧
      pollLoop poll max interval attempt left = ((List.range (k + 1)).map fun j => poll (attempt + j), r)) ∨
    ((∀ j < left, (poll (attempt + j)).outcome = none) ∧
      pollLoop poll max interval attempt left =
        ((List.range left).map fun j => poll (attempt + j), .error (timedOut max interval))) := by
  induction left generalizing attempt with
  | zero => exact .inr ⟨fun j hj => by omega, rfl⟩
  | succ left ih =>
    have hshift : ∀ j, attempt + 1 + j = attempt + (j + 1) := fun j => by omega
    have hrounds : ∀ n, (List.range (n + 1)).map (fun j => poll (attempt + j)) =
        poll attempt :: (List.range n).map fun j => poll (attempt + 1 + j) := fun n => by
      simp [List.range_succ_eq_map, hshift, Function.comp_def]
    rw [pollLoop]
    cases hfirst : (poll attempt).outcome with
    | some r => exact .inl ⟨0, r, by omega, hfirst, fun j hj => by omega, rfl⟩
    | none =>
      have hnone : ∀ {n}, (∀ j < n, (poll (attempt + 1 + j)).outcome = none) →
          ∀ j < n + 1, (poll (attempt + j)).outcome = none := by
        intro n h j hj
        cases j with
        | zero => exact hfirst
        | succ j =>
          rw [← hshift]
          exact h j (by omega)
      rcases ih (attempt + 1) with ⟨k, r, hk, hend, hbefore, heq⟩ | ⟨hall, heq⟩
      · rw [hshift] at hend
        refine .inl ⟨k + 1, r, by omega, hend, hnone hbefore, ?_⟩
        rw [hrounds, heq]
      · refine .inr ⟨hnone hall, ?_⟩
        rw [hrounds, heq]

end Loop

/-! ## The promise -/

section Promise

variable (poll : Nat → PollEvent) (intervalSeconds : UInt64) (maxAttempts : UInt32)

/-- The requests at most. -/
def pollLimit : Nat := min (if maxAttempts = 0 then 1440 else maxAttempts.toNat) 1440

/-- The rounds of the poll, and what it returns. -/
def polled : List PollEvent × Except AnyhowError PkiBundle := pollForApproval poll intervalSeconds maxAttempts

/-- What is promised of a poll. -/
structure PolledAsPromised : Prop where
  bounded : (polled poll intervalSeconds maxAttempts).1.length ≤ pollLimit maxAttempts
  ordered : (polled poll intervalSeconds maxAttempts).1 =
    (List.range (polled poll intervalSeconds maxAttempts).1.length).map fun k => poll (1 + k)
  /-- Any other answer is returned in its round, without a sleep or a further request. -/
  retried : ∀ before r after, (polled poll intervalSeconds maxAttempts).1 = before ++ r :: after →
    ¬ r.answer.Continues → after = [] ∧ r.outcome ≠ none
  exhausted : (∀ r ∈ (polled poll intervalSeconds maxAttempts).1, r.answer.Continues) →
    (polled poll intervalSeconds maxAttempts).1.length = pollLimit maxAttempts
  approved : ∀ bundle, (polled poll intervalSeconds maxAttempts).2 = .ok bundle ↔
    ∃ r, (polled poll intervalSeconds maxAttempts).1.getLast? = some r ∧ r.answer = .approved bundle
  /-- The total that is reckoned after the last attempt does not overflow. -/
  fits : (∀ r ∈ (polled poll intervalSeconds maxAttempts).1, r.answer.Continues) →
    effectiveMax maxAttempts * (effectiveInterval intervalSeconds).toNat < 2 ^ 64

/-- The first answer that is neither transient nor pending is not mistaken; and where there is none, the total
fits. -/
structure WellAnswered : Prop where
  answered : ∀ k < pollLimit maxAttempts, (∀ j < k, (poll (1 + j)).answer.Continues) → ¬ (poll (1 + k)).answer.Mistaken
  fits : (∀ k < pollLimit maxAttempts, (poll (1 + k)).answer.Continues) →
    pollLimit maxAttempts * (effectiveInterval intervalSeconds).toNat < 2 ^ 64

variable {poll intervalSeconds maxAttempts}

theorem effectiveMax_eq : effectiveMax maxAttempts = pollLimit maxAttempts := by
  unfold effectiveMax pollLimit
  by_cases hzero : maxAttempts = 0
  · simp [hzero]
  · by_cases hmany : maxAttempts > 1440
    · have hnat : 1440 < maxAttempts.toNat := UInt32.lt_iff_toNat_lt.1 hmany
      rw [if_pos (.inr hmany), if_neg hzero]
      omega
    · have hnat : ¬ 1440 < maxAttempts.toNat := fun h => hmany (UInt32.lt_iff_toNat_lt.2 h)
      rw [if_neg (not_or.2 ⟨hzero, hmany⟩), if_neg hzero]
      omega

/-- Rounds that do not end the loop go on as they should, if no answer is mistaken. -/
theorem WellAnswered.continues (h : WellAnswered poll intervalSeconds maxAttempts) {n : Nat}
    (hn : n ≤ pollLimit maxAttempts) (hnone : ∀ j < n, (poll (1 + j)).outcome = none) :
    ∀ j < n, (poll (1 + j)).answer.Continues := by
  intro j
  induction j using Nat.strong_induction_on with
  | _ j ih =>
    intro hj
    have hbefore : ∀ i < j, (poll (1 + i)).answer.Continues := fun i hi => ih i hi (by omega)
    exact (outcome_eq_none.1 (hnone j hj)).resolve_right (h.answered j (by omega) hbefore)

theorem polled_cases (poll : Nat → PollEvent) (intervalSeconds : UInt64) (maxAttempts : UInt32) :
    (∃ k r, k < pollLimit maxAttempts ∧ (poll (1 + k)).outcome = some r ∧ (∀ j < k, (poll (1 + j)).outcome = none) ∧
      polled poll intervalSeconds maxAttempts = ((List.range (k + 1)).map fun j => poll (1 + j), r)) ∨
    ((∀ j < pollLimit maxAttempts, (poll (1 + j)).outcome = none) ∧
      ∃ e, polled poll intervalSeconds maxAttempts =
        ((List.range (pollLimit maxAttempts)).map fun j => poll (1 + j), .error e)) := by
  unfold polled pollForApproval
  rw [effectiveMax_eq]
  exact (pollLoop_cases 1 (pollLimit maxAttempts)).imp_right fun ⟨hnone, heq⟩ => ⟨hnone, _, heq⟩

/-- A round of the first `n` ones: which it is, and what comes after it. -/
theorem rounds_split {n : Nat} {before after : List PollEvent} {r : PollEvent}
    (h : ((List.range n).map fun j => poll (1 + j)) = before ++ r :: after) :
    r = poll (1 + before.length) ∧ before.length + after.length + 1 = n := by
  have hlength : n = before.length + (after.length + 1) := by simpa using congrArg List.length h
  have hget := congrArg (fun l => l[before.length]?) h
  rw [List.getElem?_append_right (le_refl _), Nat.sub_self, List.getElem?_cons_zero, List.getElem?_map,
    List.getElem?_range (by omega)] at hget
  exact ⟨(Option.some.inj hget).symm, by omega⟩

/-- A poll that a round ends. -/
theorem promised_of_end {k : Nat} {r : Except AnyhowError PkiBundle} (hk : k < pollLimit maxAttempts)
    (hgoes : ∀ j < k, (poll (1 + j)).answer.Continues) (hend : (poll (1 + k)).outcome = some r)
    (heq : polled poll intervalSeconds maxAttempts = ((List.range (k + 1)).map fun j => poll (1 + j), r)) :
    PolledAsPromised poll intervalSeconds maxAttempts := by
  have hlast : ¬ (poll (1 + k)).answer.Continues := fun hgo => by
    rw [outcome_eq_none.2 (.inl hgo)] at hend
    cases hend
  have hmem : poll (1 + k) ∈ (List.range (k + 1)).map fun j => poll (1 + j) :=
    List.mem_map.2 ⟨k, List.mem_range.2 (by omega), rfl⟩
  constructor
  · rw [heq]
    simpa using hk
  · rw [heq]
    simp
  · rw [heq]
    intro before r' after hsplit hnot
    obtain ⟨rfl, hlength⟩ := rounds_split hsplit
    have hbefore : before.length = k := by
      by_contra hne
      exact hnot (hgoes _ (by omega))
    refine ⟨List.length_eq_zero_iff.1 (by omega), ?_⟩
    rw [hbefore, hend]
    exact Option.some_ne_none r
  · rw [heq]
    intro hall
    exact absurd (hall _ hmem) hlast
  · rw [heq]
    intro bundle
    rw [List.range_succ, List.map_append, List.map_singleton, List.getLast?_concat]
    simp only [Option.some.injEq, exists_eq_left']
    rw [← outcome_eq_ok, hend, Option.some.injEq]
  · rw [heq]
    intro hall
    exact absurd (hall _ hmem) hlast

/-- A poll whose rounds all go by. -/
theorem promised_of_all {e : AnyhowError} (hgoes : ∀ j < pollLimit maxAttempts, (poll (1 + j)).answer.Continues)
    (hfits : pollLimit maxAttempts * (effectiveInterval intervalSeconds).toNat < 2 ^ 64)
    (heq : polled poll intervalSeconds maxAttempts =
      ((List.range (pollLimit maxAttempts)).map fun j => poll (1 + j), .error e)) :
    PolledAsPromised poll intervalSeconds maxAttempts := by
  constructor
  · rw [heq]
    simp
  · rw [heq]
    simp
  · rw [heq]
    intro before r after hsplit hnot
    obtain ⟨rfl, hlength⟩ := rounds_split hsplit
    exact absurd (hgoes _ (by omega)) hnot
  · rw [heq]
    intro _
    simp
  · rw [heq]
    intro bundle
    constructor
    · intro hok
      cases hok
    · rintro ⟨r, hr, hanswer⟩
      obtain ⟨j, hj, rfl⟩ := List.mem_map.1 (List.mem_of_getLast? hr)
      rcases hgoes j (List.mem_range.1 hj) with hgo | hgo <;> rw [hanswer] at hgo <;> cases hgo
  · intro _
    rwa [effectiveMax_eq]

theorem WellAnswered.promised (h : WellAnswered poll intervalSeconds maxAttempts) :
    PolledAsPromised poll intervalSeconds maxAttempts := by
  rcases polled_cases poll intervalSeconds maxAttempts with ⟨k, r, hk, hend, hnone, heq⟩ | ⟨hnone, e, heq⟩
  · exact promised_of_end hk (h.continues (by omega) hnone) hend heq
  · have hgoes : ∀ j < pollLimit maxAttempts, (poll (1 + j)).answer.Continues := h.continues (le_refl _) hnone
    exact promised_of_all hgoes (h.fits hgoes) heq

theorem WellAnswered.of_promised (h : PolledAsPromised poll intervalSeconds maxAttempts) :
    WellAnswered poll intervalSeconds maxAttempts := by
  constructor
  · intro k hk hbefore hmistaken
    have hnone : (poll (1 + k)).outcome = none := outcome_eq_none.2 (.inr hmistaken)
    -- the round is reached, and it does not end the loop
    have hreached : poll (1 + k) ∈ (polled poll intervalSeconds maxAttempts).1 := by
      rcases polled_cases poll intervalSeconds maxAttempts with
        ⟨k', r, _, hend, _, heq⟩ | ⟨_, e, heq⟩
      · rw [heq]
        refine List.mem_map.2 ⟨k, List.mem_range.2 ?_, rfl⟩
        by_contra hle
        rcases Nat.lt_or_ge k' k with hlt | hge
        · rw [outcome_eq_none.2 (.inl (hbefore k' hlt))] at hend
          cases hend
        · omega
      · rw [heq]
        exact List.mem_map.2 ⟨k, List.mem_range.2 hk, rfl⟩
    obtain ⟨before, after, hsplit⟩ := List.append_of_mem hreached
    exact (h.retried before _ after hsplit fun hgo => hgo.not_mistaken hmistaken).2 hnone
  · intro hall
    rw [← effectiveMax_eq]
    refine h.fits fun r hr => ?_
    rw [h.ordered] at hr
    obtain ⟨j, hj, rfl⟩ := List.mem_map.1 hr
    have hlt := List.mem_range.1 hj
    have hbounded := h.bounded
    exact hall j (by omega)

/-- The poll keeps its promise if and only if it is well answered. -/
theorem polled_as_promised_iff (poll : Nat → PollEvent) (intervalSeconds : UInt64) (maxAttempts : UInt32) :
    PolledAsPromised poll intervalSeconds maxAttempts ↔ WellAnswered poll intervalSeconds maxAttempts :=
  ⟨.of_promised, WellAnswered.promised⟩

end Promise

/-- A bundle that the manager sends. -/
def sentBundle : PkiBundle := ⟨"ca", "chain", "crt", "key", "crl", none⟩

/-- The first answer is as given, then the request is approved. -/
def thenApproved (first : PollEvent) (attempt : Nat) : PollEvent :=
  if attempt = 1 then first else .response 200 (.ok "") (.ok (.approved sentBundle))

/-- A pending request, and then the approval. -/
theorem polled_pending : PolledAsPromised (thenApproved (.response 200 (.ok "") (.ok .pending))) 0 0 := by
  have hsecond : ¬ (thenApproved (.response 200 (.ok "") (.ok .pending)) (1 + 1)).answer.Continues := by
    simp [thenApproved, PollEvent.answer, EnrollmentStatusResponse.answer, Answer.Continues]
  refine (polled_as_promised_iff _ 0 0).2 ⟨fun k _ hbefore => ?_, fun hall => ?_⟩
  · rcases k with _ | _ | k
    · simp [thenApproved, PollEvent.answer, EnrollmentStatusResponse.answer, Answer.Mistaken]
    · simp [thenApproved, PollEvent.answer, EnrollmentStatusResponse.answer, Answer.Mistaken]
    · exact absurd (hbefore 1 (by omega)) hsecond
  · exact absurd (hall 1 (by decide)) hsecond

/-- The token is unknown at first; the loop asks again, and returns the bundle of the next answer. -/
theorem unknown_token_retried : ∃ (poll : Nat → PollEvent) (intervalSeconds : UInt64) (maxAttempts : UInt32),
    (poll 1).answer = .expired ∧ (pollForApproval poll intervalSeconds maxAttempts).2 = .ok sentBundle ∧
      (pollForApproval poll intervalSeconds maxAttempts).1.length = 2 ∧
      ¬ PolledAsPromised poll intervalSeconds maxAttempts := by
  refine ⟨thenApproved (.response 404 (.ok "") (.error "")), 60, 2, rfl, rfl, rfl, fun h => ?_⟩
  have hexpired : (thenApproved (.response 404 (.ok "") (.error "")) 1).answer = .expired := rfl
  have hfirst := h.retried [] (thenApproved (.response 404 (.ok "") (.error "")) 1) _ rfl
    (by simp [hexpired, Answer.Continues])
  cases hfirst.1

end LinuxPatchApi.Enroll
