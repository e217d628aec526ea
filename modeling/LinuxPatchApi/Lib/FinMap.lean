/-
Finite maps: association lists with distinct keys whose values all have one type, with the two
updates that a keyed table in memory needs besides insertion and removal (change the value under
one key, change every value), and the lookup after each of them.
-/
import LinuxPatchApi.Lib.Overwrite
import Mathlib.Data.List.AList
import Mathlib.Tactic

/-- A finite map from `κ` to `ν`. -/
abbrev FinMap (κ ν : Type) := AList (fun _ : κ => ν)

namespace FinMap

variable {κ ν : Type} [DecidableEq κ]

/-- The value under a key. -/
def get? (m : FinMap κ ν) (k : κ) : Option ν := m.lookup k

/-- The values, in the order of the entries. -/
def values (m : FinMap κ ν) : List ν := m.entries.map Sigma.snd

/-- Changes the value under `k`, if there is one. -/
def modify (m : FinMap κ ν) (k : κ) (f : ν → ν) : FinMap κ ν :=
  match m.get? k with
  | some v => m.insert k (f v)
  | none => m

/-- How many values satisfy `p`. -/
def count (m : FinMap κ ν) (p : ν → Bool) : Nat := m.values.countP p

/-! ## Lookup -/

@[simp] theorem get?_empty (k : κ) : get? (∅ : FinMap κ ν) k = none := AList.lookup_empty k

theorem get?_insert (m : FinMap κ ν) (k k' : κ) (v : ν) :
    get? (m.insert k v) k' = if k' = k then some v else m.get? k' := by
  unfold get?
  split
  · next h => subst h; exact AList.lookup_insert m
  · next h => exact AList.lookup_insert_ne h

theorem get?_erase (m : FinMap κ ν) (k k' : κ) :
    get? (m.erase k) k' = if k' = k then none else m.get? k' := by
  unfold get?
  split
  · next h => subst h; exact AList.lookup_erase k' m
  · next h => exact AList.lookup_erase_ne h

theorem get?_modify (m : FinMap κ ν) (k k' : κ) (f : ν → ν) :
    get? (m.modify k f) k' = if k' = k then (m.get? k).map f else m.get? k' := by
  unfold modify
  cases h : m.get? k with
  | none =>
    by_cases he : k' = k
    · subst he; simp [h]
    · simp [he]
  | some v => simpa using get?_insert m k k' (f v)

section Fill

variable {α : Type} {key : α → κ} {f : α → ν} {l : List α} {m : FinMap κ ν} {k : κ}

/-- A map that is filled from a list has the last entry with the key, or what it had before. -/
theorem get?_foldl_insert : get? (l.foldl (fun m a => m.insert (key a) (f a)) m) k =
    Overwrite.run (fun a => if k = key a then some (some (f a)) else none) (m.get? k) l := by
  refine Overwrite.observe (v := fun m => get? m k) (fun m a => ?_) m l
  rw [get?_insert]
  split <;> rfl

theorem get?_foldl_insert_of_ne (h : ∀ a ∈ l, k ≠ key a) :
    get? (l.foldl (fun m a => m.insert (key a) (f a)) m) k = m.get? k := by
  rw [get?_foldl_insert]
  exact Overwrite.run_unset fun a ha => if_neg (h a ha)

theorem get?_foldl_insert_last {a : α} (h : Overwrite.Last (fun a => k = key a) l a) :
    get? (l.foldl (fun m a => m.insert (key a) (f a)) m) k = some (f a) := by
  rw [get?_foldl_insert]
  exact Overwrite.run_last h (fun _ hc => if_neg hc) (if_pos h.prop)

end Fill

/-! ## Values -/

theorem mem_values {m : FinMap κ ν} {v : ν} : v ∈ m.values ↔ ∃ k, m.get? k = some v := by
  unfold values get?
  rw [List.mem_map]
  constructor
  · rintro ⟨⟨k, w⟩, h, rfl⟩
    exact ⟨k, AList.mem_lookup_iff.2 h⟩
  · rintro ⟨k, h⟩
    exact ⟨⟨k, v⟩, AList.mem_lookup_iff.1 h, rfl⟩

/-- Nothing is counted exactly when no value under any key satisfies the predicate. -/
theorem count_eq_zero {m : FinMap κ ν} {p : ν → Bool} :
    m.count p = 0 ↔ ∀ k v, m.get? k = some v → p v = false := by
  unfold count
  rw [List.countP_eq_zero]
  constructor
  · intro h k v hv
    simpa using h v (mem_values.2 ⟨k, hv⟩)
  · intro h v hv
    obtain ⟨k, hk⟩ := mem_values.1 hv
    simp [h k v hk]

/-! ## Counting by keys -/

/-- The keys whose values satisfy `p`. -/
def keysWith (m : FinMap κ ν) (p : ν → Bool) : Finset κ := (m.keys.filter fun k => (m.get? k).any p).toFinset

theorem mem_keysWith {m : FinMap κ ν} {p : ν → Bool} {k : κ} :
    k ∈ m.keysWith p ↔ ∃ v, m.get? k = some v ∧ p v = true := by
  unfold keysWith
  rw [List.mem_toFinset, List.mem_filter]
  constructor
  · rintro ⟨_, h⟩
    cases hv : m.get? k with
    | none => rw [hv] at h; cases h
    | some v => exact ⟨v, rfl, by rw [hv] at h; exact h⟩
  · rintro ⟨v, hv, hp⟩
    refine ⟨AList.lookup_isSome.1 ?_, by rw [hv]; exact hp⟩
    rw [show m.lookup k = some v from hv]
    rfl

theorem count_eq_card (m : FinMap κ ν) (p : ν → Bool) : m.count p = (m.keysWith p).card := by
  have hvals : ∀ e ∈ m.entries, m.get? e.1 = some e.2 := fun e he => AList.mem_lookup_iff.2 he
  unfold keysWith count values
  rw [List.toFinset_card_of_nodup (m.keys_nodup.filter _), ← List.countP_eq_length_filter]
  show _ = (m.entries.map Sigma.fst).countP _
  rw [List.countP_map, List.countP_map]
  refine List.countP_congr fun e he => ?_
  simp [hvals e he]

/-- The count does not grow when every value that satisfies `p` replaces one that did. -/
theorem count_le {m m' : FinMap κ ν} {p : ν → Bool}
    (h : ∀ k v', m'.get? k = some v' → p v' = true → ∃ v, m.get? k = some v ∧ p v = true) :
    m'.count p ≤ m.count p := by
  rw [count_eq_card, count_eq_card]
  refine Finset.card_le_card fun k hk => ?_
  obtain ⟨v', hv', hp⟩ := mem_keysWith.1 hk
  exact mem_keysWith.2 (h k v' hv' hp)

/-- The count grows at most by one when this is so under every key but one. -/
theorem count_le_succ {m m' : FinMap κ ν} {p : ν → Bool} (k₀ : κ)
    (h : ∀ k v', k ≠ k₀ → m'.get? k = some v' → p v' = true → ∃ v, m.get? k = some v ∧ p v = true) :
    m'.count p ≤ m.count p + 1 := by
  rw [count_eq_card, count_eq_card]
  refine (Finset.card_le_card fun k hk => ?_).trans (Finset.card_insert_le k₀ (m.keysWith p))
  obtain ⟨v', hv', hp⟩ := mem_keysWith.1 hk
  by_cases hk₀ : k = k₀
  · exact Finset.mem_insert.2 (.inl hk₀)
  · exact Finset.mem_insert_of_mem (mem_keysWith.2 (h k v' hk₀ hv' hp))

/-- The count grows when what satisfied the predicate still does, and one value more does. -/
theorem count_lt {m m' : FinMap κ ν} {p : ν → Bool} (k₀ : κ) {v₀ : ν}
    (h : ∀ k v, m.get? k = some v → p v = true → ∃ v', m'.get? k = some v' ∧ p v' = true)
    (hold : ∀ v, m.get? k₀ = some v → p v = false) (hnew : m'.get? k₀ = some v₀) (hp : p v₀ = true) :
    m.count p < m'.count p := by
  rw [count_eq_card, count_eq_card]
  refine Finset.card_lt_card (Finset.ssubset_iff_of_subset (fun k hk => ?_) |>.2
    ⟨k₀, mem_keysWith.2 ⟨v₀, hnew, hp⟩, ?_⟩)
  · obtain ⟨v, hv, hpv⟩ := mem_keysWith.1 hk
    exact mem_keysWith.2 (h k v hv hpv)
  · intro hk
    obtain ⟨v, hv, hpv⟩ := mem_keysWith.1 hk
    rw [hold v hv] at hpv
    cases hpv

end FinMap
