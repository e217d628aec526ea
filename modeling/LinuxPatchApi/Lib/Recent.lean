/-
The first entries of a list that is sorted by a key, greatest key first, with the entries of one key in the order of the
list: which entries are among the first `n` is told from the list itself, by how many are ahead of each.
-/
import Mathlib.Tactic
import Mathlib.Data.List.Sort

namespace Recent

variable {α κ : Type} [LinearOrder κ] (key : α → κ)

/-- The stable sort, greatest key first. -/
def sorted (l : List α) : List α := l.mergeSort fun a b => decide (key b ≤ key a)

variable {key} {l : List α} {x y : α}

theorem sorted_perm (key : α → κ) (l : List α) : (sorted key l).Perm l := List.mergeSort_perm l _

theorem mem_sorted : x ∈ sorted key l ↔ x ∈ l := (sorted_perm key l).mem_iff

theorem pairwise_sorted (key : α → κ) (l : List α) : (sorted key l).Pairwise fun a b => key b ≤ key a := by
  refine (List.pairwise_mergeSort ?_ ?_ l).imp fun {a b} h => of_decide_eq_true h
  · intro a b c hab hbc
    exact decide_eq_true (le_trans (of_decide_eq_true hbc) (of_decide_eq_true hab))
  · intro a b
    simpa using le_total (key b) (key a)

/-- Entries of one key keep their order. -/
theorem filter_sorted (key : α → κ) (l : List α) (k : κ) :
    (sorted key l).filter (fun a => decide (key a = k)) = l.filter fun a => decide (key a = k) := by
  symm
  have hsub : (l.filter fun a => decide (key a = k)).Sublist (sorted key l) := by
    refine List.sublist_mergeSort ?_ ?_ ?_ List.filter_sublist
    · intro a b c hab hbc
      exact decide_eq_true (le_trans (of_decide_eq_true hbc) (of_decide_eq_true hab))
    · intro a b
      simpa using le_total (key b) (key a)
    · refine List.pairwise_of_forall_mem_list fun a ha b hb => ?_
      have hka : key a = k := of_decide_eq_true (List.mem_filter.1 ha).2
      have hkb : key b = k := of_decide_eq_true (List.mem_filter.1 hb).2
      simp [hka, hkb]
  have hself := hsub.filter fun a => decide (key a = k)
  rw [List.filter_filter] at hself
  simp only [Bool.and_self] at hself
  exact hself.eq_of_length (((sorted_perm key l).filter _).length_eq).symm

/-- A list in which what has the property comes first falls into two parts. -/
theorem filter_append_filter_not {p : α → Bool} :
    ∀ {l : List α}, (l.Pairwise fun a b => p b = true → p a = true) → l.filter p ++ l.filter (fun a => !p a) = l
  | [], _ => rfl
  | a :: l, h => by
    obtain ⟨hfirst, hrest⟩ := List.pairwise_cons.1 h
    cases ha : p a with
    | true =>
      rw [List.filter_cons_of_pos ha, List.filter_cons_of_neg (by simp [ha]), List.cons_append,
        filter_append_filter_not hrest]
    | false =>
      have hnone : ∀ b ∈ l, ¬ p b = true := fun b hb hpb => by
        rw [hfirst b hb hpb] at ha
        cases ha
      rw [List.filter_cons_of_neg (by simp [ha]), List.filter_cons_of_pos (by simp [ha]),
        List.filter_eq_nil_iff.2 hnone, List.filter_eq_self.2 fun b hb => by simpa using hnone b hb, List.nil_append]

/-- What is left out is no greater than what is kept. -/
theorem key_le_of_left_out {n : Nat} (hx : x ∈ (sorted key l).take n) (hy : y ∈ l)
    (hout : y ∉ (sorted key l).take n) : key y ≤ key x := by
  have hsplit := pairwise_sorted key l
  rw [← List.take_append_drop n (sorted key l)] at hsplit
  have hy' : y ∈ sorted key l := mem_sorted.2 hy
  rw [← List.take_append_drop n (sorted key l), List.mem_append] at hy'
  exact (List.pairwise_append.1 hsplit).2.2 x hx y (hy'.resolve_left hout)

section Ahead

variable [DecidableEq α]

/-- How many entries come before the first `x`: all with a greater key, and those with the same key up to `x`. -/
def ahead (key : α → κ) (l : List α) (x : α) : Nat :=
  (l.filter fun a => decide (key x < key a)).length + (l.filter fun a => decide (key a = key x)).idxOf x

theorem idxOf_sorted (hx : x ∈ l) : (sorted key l).idxOf x = ahead key l x := by
  have hdesc := pairwise_sorted key l
  -- the entries with a greater key, then those of the key of `x`, then the rest
  have hgreater := filter_append_filter_not (p := fun a => decide (key x < key a)) (l := sorted key l)
    (hdesc.imp fun {a b} hab hb => decide_eq_true (lt_of_lt_of_le (of_decide_eq_true hb) hab))
  have hequal := filter_append_filter_not (p := fun a => decide (key a = key x))
    (l := (sorted key l).filter fun a => !decide (key x < key a)) ?_
  swap
  · refine (List.Pairwise.filter _ hdesc).imp_of_mem fun {a b} ha _ hab hb => ?_
    have hnot : ¬ key x < key a := by simpa using (List.mem_filter.1 ha).2
    exact decide_eq_true (le_antisymm (not_lt.1 hnot) (le_of_eq_of_le (of_decide_eq_true hb).symm hab))
  have hsame : ((sorted key l).filter fun a => !decide (key x < key a)).filter (fun a => decide (key a = key x)) =
      l.filter fun a => decide (key a = key x) := by
    rw [List.filter_filter, ← filter_sorted key l]
    refine List.filter_congr fun a _ => ?_
    by_cases ha : key a = key x
    · simp [ha]
    · simp [ha]
  rw [hsame] at hequal
  have hin : x ∈ l.filter fun a => decide (key a = key x) := List.mem_filter.2 ⟨hx, by simp⟩
  have hout : x ∉ (sorted key l).filter fun a => decide (key x < key a) := fun hmem => by
    simpa using (List.mem_filter.1 hmem).2
  rw [← hgreater, ← hequal, List.idxOf_append_of_notMem hout, List.idxOf_append_of_mem hin, ahead,
    ((sorted_perm key l).filter _).length_eq]

/-- What is among the first `n`. -/
theorem mem_take_sorted {n : Nat} : x ∈ (sorted key l).take n ↔ x ∈ l ∧ ahead key l x < n := by
  constructor
  · intro h
    have hx : x ∈ l := mem_sorted.1 (List.mem_of_mem_take h)
    refine ⟨hx, ?_⟩
    rw [← idxOf_sorted hx]
    exact (List.mem_take_iff_idxOf_lt (mem_sorted.2 hx)).1 h
  · rintro ⟨hx, hlt⟩
    rw [← idxOf_sorted hx] at hlt
    exact (List.mem_take_iff_idxOf_lt (mem_sorted.2 hx)).2 hlt

theorem ahead_lt_length (hx : x ∈ l) : ahead key l x < l.length := by
  rw [← idxOf_sorted hx, ← (sorted_perm key l).length_eq]
  exact List.idxOf_lt_length_of_mem (mem_sorted.2 hx)

end Ahead

end Recent
