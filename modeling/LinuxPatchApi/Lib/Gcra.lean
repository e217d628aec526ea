/-
The generic cell rate algorithm: a limiter keeps one theoretical arrival time, lets a cell pass unless it comes too
early before it, and moves it on by an emission interval for each cell that passes. In any window of time it lets
at most a burst pass and one cell more per interval; a fresh limiter lets a whole burst pass at once.
-/
import Mathlib.Tactic

namespace Gcra

variable {τ : Type} [Field τ] [LinearOrder τ]

/-- A burst of cells, and the time in which one more cell is due. -/
structure Quota (τ : Type) [Field τ] [LinearOrder τ] where
  burst : ℕ
  interval : τ
  burst_pos : 0 < burst
  interval_pos : 0 < interval

/-- How long before its theoretical arrival time a cell may come. -/
def Quota.tolerance (q : Quota τ) : τ := (q.burst - 1) * q.interval

/-- A cell at a time, given the theoretical arrival time of a limiter that has let one pass: the earliest time at
which it would pass, or the next theoretical arrival time. -/
def check (q : Quota τ) (tat : Option τ) (now : τ) : Except τ τ :=
  let due := tat.getD now
  if now < due - q.tolerance then .error (due - q.tolerance) else .ok (max due now + q.interval)

/-- The times of the cells that pass. -/
def accepted (q : Quota τ) (tat : Option τ) : List τ → List τ
  | [] => []
  | now :: times => match check q tat now with
    | .error _ => accepted q tat times
    | .ok next => now :: accepted q (some next) times

theorem check_ok {q : Quota τ} {tat : Option τ} {now next : τ} :
    check q tat now = .ok next ↔ tat.getD now - q.tolerance ≤ now ∧ next = max (tat.getD now) now + q.interval := by
  simp only [check]
  split
  · next h => simp [h]
  · next h => simp [not_lt.1 h, eq_comm]

variable [IsStrictOrderedRing τ]

theorem Quota.tolerance_nonneg (q : Quota τ) : 0 ≤ q.tolerance := by
  have hburst : (1 : τ) ≤ q.burst := by exact_mod_cast q.burst_pos
  exact mul_nonneg (by linarith) q.interval_pos.le

/-! ## A window of time -/

section Window

variable {q : Quota τ} {a t : τ}

/-- The times in the window. -/
def window (a t : τ) (times : List τ) : List τ := times.filter fun u => a ≤ u ∧ u ≤ a + t

/-- Each cell of the window moves the theoretical arrival time on, and the last one did not come too early for it. -/
theorem window_tolerance (times : List τ) (tat : Option τ) (n : ℕ)
    (hn : (window a t (accepted q tat times)).length = n + 1) :
    max (tat.getD a) a + n * q.interval ≤ a + t + q.tolerance := by
  induction times generalizing tat n with
  | nil => cases hn
  | cons now times ih =>
    rw [accepted] at hn
    cases hc : check q tat now with
    | error e =>
      rw [hc] at hn
      exact ih tat n hn
    | ok next =>
      simp only [hc] at hn
      obtain ⟨hearly, hnext⟩ := check_ok.1 hc
      have hpos := q.interval_pos
      have hdue : max (tat.getD a) a ≤ max (max (tat.getD now) now) a := by
        refine max_le ?_ (le_max_right _ a)
        cases tat with
        | none => exact le_max_right _ a
        | some due => exact (le_max_left due now).trans (le_max_left _ a)
      by_cases hwin : a ≤ now ∧ now ≤ a + t
      · rw [window, List.filter_cons_of_pos (by simpa using hwin), List.length_cons, Nat.add_right_cancel_iff] at hn
        rw [max_eq_left (hwin.1.trans (le_max_right _ now))] at hdue
        cases n with
        | zero =>
          have hlast : max (tat.getD now) now ≤ a + t + q.tolerance :=
            max_le (by linarith [hwin.2]) (by linarith [hwin.2, q.tolerance_nonneg])
          simpa using hdue.trans hlast
        | succ n =>
          have hrest := (le_max_left next a).trans' hnext.ge
          have hsum := ih (some next) n hn
          rw [Option.getD_some] at hsum
          push_cast
          linarith
      · rw [window, List.filter_cons_of_neg (by simpa using hwin)] at hn
        have hsum := ih (some next) n hn
        have hle : max (max (tat.getD now) now) a ≤ max next a := max_le_max_right a (by linarith)
        rw [Option.getD_some] at hsum
        linarith

end Window

/-- In a window of length `t` a limiter lets at most the burst pass, and one cell more for each whole interval. -/
theorem window_accepted [FloorSemiring τ] (q : Quota τ) (tat : Option τ) (times : List τ) (a : τ) {t : τ} :
    (window a t (accepted q tat times)).length ≤ q.burst + ⌊t / q.interval⌋₊ := by
  cases hn : (window a t (accepted q tat times)).length with
  | zero => exact Nat.zero_le _
  | succ n =>
    have htol := window_tolerance times tat n hn
    have hpos := q.interval_pos
    have hle : (n : τ) * q.interval ≤ t + (q.burst - 1) * q.interval := by
      have hmax := le_max_right (tat.getD a) a
      rw [Quota.tolerance] at htol
      linarith
    rcases le_total (n + 1) q.burst with hburst | hburst
    · omega
    · have hfloor : n + 1 - q.burst ≤ ⌊t / q.interval⌋₊ := by
        refine Nat.le_floor ((le_div_iff₀ hpos).2 ?_)
        push_cast [Nat.cast_sub hburst]
        linarith
      omega

/-! ## A fresh limiter -/

/-- Cells that come at once, to a limiter that has let `n` cells of them pass. -/
theorem accepted_replicate_after (q : Quota τ) (now : τ) (n m : ℕ) (h : n + m ≤ q.burst) :
    accepted q (some (now + n * q.interval)) (List.replicate m now) = List.replicate m now := by
  induction m generalizing n with
  | zero => rfl
  | succ m ih =>
    have hpos := q.interval_pos
    have hn : ((n : τ) + 1) ≤ q.burst := by exact_mod_cast (by omega : n + 1 ≤ q.burst)
    have hcheck : check q (some (now + n * q.interval)) now = .ok (now + (n + 1 : ℕ) * q.interval) := by
      refine check_ok.2 ⟨?_, ?_⟩
      · rw [Option.getD_some, Quota.tolerance]
        nlinarith
      · rw [Option.getD_some, max_eq_left (by nlinarith [(Nat.cast_nonneg n : (0 : τ) ≤ n)])]
        push_cast
        ring
    rw [List.replicate_succ, accepted, hcheck]
    exact congrArg (now :: ·) (ih (n + 1) (by omega))

/-- A fresh limiter lets a burst pass at once. -/
theorem accepted_replicate (q : Quota τ) (now : τ) :
    accepted q none (List.replicate q.burst now) = List.replicate q.burst now := by
  have hfresh : ∀ times,
      accepted q none (now :: times) = accepted q (some (now + (0 : ℕ) * q.interval)) (now :: times) :=
    fun times => by
      have hdue : ¬ now < now - q.tolerance := by linarith [q.tolerance_nonneg]
      simp [accepted, check, hdue]
  obtain ⟨m, hm⟩ := Nat.exists_eq_succ_of_ne_zero q.burst_pos.ne'
  rw [hm, List.replicate_succ, hfresh, ← List.replicate_succ]
  exact accepted_replicate_after q now 0 _ (by omega)

end Gcra
