/-
Broadcast channels of bounded capacity. The channel keeps the last `capacity` values sent; a receiver has
a position among all of them, and one that falls further behind is told so and moved to the oldest value
still kept. What a receiver has got is then a part of what was sent, in order and without repetitions, and
what it has missed was overtaken by more values than the channel keeps.
-/
import LinuxPatchApi.Lib.Overwrite

namespace Broadcast

variable {α : Type}

/-- What `recv` answers when it does not wait. -/
inductive Received (α : Type)
  | value (a : α)
  | lagged (missed : ℕ)
  deriving DecidableEq, Repr

/-- One `recv` of a receiver at position `next`, with its next position; `none` while there is nothing new. -/
def recv (capacity : ℕ) (sent : List α) (next : ℕ) : Option (Received α × ℕ) :=
  if next + capacity < sent.length then
    some (.lagged (sent.length - capacity - next), sent.length - capacity)
  else
    sent[next]?.map fun a => (.value a, next + 1)

/-- Got from the values sent from position `start` up to position `next`: some of them in order, all but the
`missed` ones, each of which was followed by more values than the channel keeps. -/
def Got (capacity : ℕ) (sent : List α) (start next missed : ℕ) (got : List α) : Prop :=
  ∃ places : List ℕ, places.Pairwise (· < ·) ∧ (∀ i ∈ places, start ≤ i ∧ i < next) ∧
    places.map (sent[·]?) = got.map some ∧ places.length + missed + start = next ∧
    ∀ i, start ≤ i → i < next → i ∈ places ∨ i + capacity < sent.length

/-! ## Receiving -/

section Receiving

variable {capacity start next next' missed n : ℕ} {sent later got : List α} {a : α}

theorem recv_value (h : recv capacity sent next = some (.value a, next')) :
    sent[next]? = some a ∧ next' = next + 1 := by
  unfold recv at h
  split at h
  · cases h
  · obtain ⟨b, hb, he⟩ := Option.map_eq_some_iff.1 h
    cases he
    exact ⟨hb, rfl⟩

theorem recv_lagged (h : recv capacity sent next = some (.lagged n, next')) :
    next' = next + n ∧ next' + capacity = sent.length := by
  unfold recv at h
  split at h
  · cases h
    omega
  · obtain ⟨b, _, he⟩ := Option.map_eq_some_iff.1 h
    cases he

theorem got_nil : Got capacity sent start start 0 [] :=
  ⟨[], .nil, by simp, rfl, by simp, fun i h h' => by omega⟩

theorem Got.places_lt {places : List ℕ} (h : places.map (sent[·]?) = got.map some) {i : ℕ} (hi : i ∈ places) :
    i < sent.length := by
  have hmem : sent[i]? ∈ got.map some := h ▸ List.mem_map_of_mem hi
  obtain ⟨b, _, hb⟩ := List.mem_map.1 hmem
  exact (List.getElem?_eq_some_iff.1 hb.symm).1

/-- Sending more takes nothing away from what was got. -/
theorem Got.extend (h : Got capacity sent start next missed got) (hlater : sent <+: later) :
    Got capacity later start next missed got := by
  obtain ⟨places, hsorted, hrange, hvalues, hcount, hgaps⟩ := h
  refine ⟨places, hsorted, hrange, ?_, hcount, fun i h h' => (hgaps i h h').imp_right fun hi => ?_⟩
  · rw [← hvalues]
    refine List.map_congr_left fun i hi => ?_
    have hlt := Got.places_lt hvalues hi
    obtain ⟨more, rfl⟩ := hlater
    rw [List.getElem?_append_left hlt]
  · have := hlater.length_le
    omega

theorem Got.value (h : Got capacity sent start next missed got) (ha : sent[next]? = some a) :
    Got capacity sent start (next + 1) missed (got ++ [a]) := by
  obtain ⟨places, hsorted, hrange, hvalues, hcount, hgaps⟩ := h
  refine ⟨places ++ [next], ?_, ?_, by simp [hvalues, ha], ?_, ?_⟩
  · refine List.pairwise_append.2 ⟨hsorted, List.pairwise_singleton _ _, fun i hi j hj => ?_⟩
    rw [List.mem_singleton.1 hj]
    exact (hrange i hi).2
  · intro i hi
    rcases List.mem_append.1 hi with hi | hi
    · have := hrange i hi
      omega
    · rw [List.mem_singleton.1 hi]
      omega
  · rw [List.length_append, List.length_singleton]
    omega
  · intro i hi hi'
    by_cases he : i = next
    · exact .inl (by simp [he])
    · exact (hgaps i hi (by omega)).imp_left fun hm => List.mem_append_left _ hm

theorem Got.lagged (h : Got capacity sent start next missed got) (hlag : next + n + capacity ≤ sent.length) :
    Got capacity sent start (next + n) (missed + n) got := by
  obtain ⟨places, hsorted, hrange, hvalues, hcount, hgaps⟩ := h
  refine ⟨places, hsorted, fun i hi => ?_, hvalues, by omega, fun i hi hi' => ?_⟩
  · have := hrange i hi
    omega
  · by_cases hlt : i < next
    · exact hgaps i hi hlt
    · exact .inr (by omega)

end Receiving

/-! ## What was got -/

section Consequences

variable {capacity start next missed : ℕ} {sent got : List α}

/-- The last value of a kind is got when it was sent since the start and is among the last the channel keeps. -/
theorem Got.last {p : α → Prop} {i : ℕ} {a e : α} (h : Got capacity sent start sent.length missed got)
    (hi : start ≤ i) (hrecent : sent.length ≤ i + capacity) (ha : sent[i]? = some a) (hp : p a)
    (hlast : Overwrite.Last p sent e) : Overwrite.Last p got e := by
  obtain ⟨places, hsorted, hrange, hvalues, hcount, hgaps⟩ := h
  obtain ⟨pre, post, rfl, he, hpost⟩ := hlast
  -- the value at place `i` is not after the last one
  have hle : i ≤ pre.length := by
    by_contra hlt
    rw [List.getElem?_append_right (by omega), List.getElem?_cons] at ha
    rw [if_neg (by omega)] at ha
    exact hpost a (List.mem_of_getElem? ha) hp
  have hmem : pre.length ∈ places := by
    rcases hgaps pre.length (by omega) (by simp) with hmem | hlost
    · exact hmem
    · omega
  obtain ⟨before, after, rfl⟩ := List.append_of_mem hmem
  rw [List.map_append, List.map_cons] at hvalues
  obtain ⟨got₁, got₂, rfl, hbefore, hrest⟩ := List.map_eq_append_iff.1 hvalues.symm
  obtain ⟨e', got₃, rfl, he', hafter⟩ := List.map_eq_cons_iff.1 hrest
  have hee : e' = e := by
    simpa using he'
  subst hee
  refine ⟨got₁, got₃, rfl, he, fun c hc => ?_⟩
  -- whatever was got after it stands behind it in what was sent
  have hc' : some c ∈ after.map ((pre ++ e' :: post)[·]?) := hafter ▸ List.mem_map_of_mem hc
  obtain ⟨j, hj, hcj⟩ := List.mem_map.1 hc'
  have hjgt : pre.length < j := by
    have hp2 := (List.pairwise_append.1 hsorted).2.1
    exact (List.pairwise_cons.1 hp2).1 j hj
  rw [List.getElem?_append_right (by omega), List.getElem?_cons, if_neg (by omega)] at hcj
  exact hpost c (List.mem_of_getElem? hcj)

end Consequences

end Broadcast
