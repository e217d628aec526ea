/-
A single-permit notification primitive with a queue of waiters. `notifyOne` wakes the waiter that
registered first, or stores at most one permit when nobody waits; a waiter that polls takes the
stored permit or registers; a waiter that goes away gives a wake-up it has not used to the next.
-/
import Mathlib.Tactic

/-- The state of the primitive; waiters are named by numbers. -/
structure Notify where
  permit : Bool
  waiters : List Nat
  /-- Waiters that were woken and have not run since. -/
  notified : List Nat
  deriving DecidableEq, Repr

namespace Notify

def new : Notify := ⟨false, [], []⟩

/-- `notify_one`. -/
def notifyOne (n : Notify) : Notify :=
  match n.waiters with
  | [] => { n with permit := true }
  | w :: ws => { n with waiters := ws, notified := n.notified ++ [w] }

/-- The first poll of `notified()`: whether it is ready at once, and the state after it. -/
def poll (n : Notify) (w : Nat) : Bool × Notify :=
  if n.permit then (true, { n with permit := false })
  else (false, { n with waiters := n.waiters ++ [w] })

/-- A woken waiter runs. -/
def take (n : Notify) (w : Nat) : Notify := { n with notified := n.notified.erase w }

/-- A waiter is dropped: out of the queue, or its unused wake-up goes to the next waiter. -/
def drop (n : Notify) (w : Nat) : Notify :=
  if w ∈ n.notified then notifyOne { n with notified := n.notified.erase w }
  else { n with waiters := n.waiters.erase w }

/-- The waiters that have not run since they registered. -/
def parked (n : Notify) : List Nat := n.waiters ++ n.notified

/-- A notification is kept as a permit or as a wake-up. -/
theorem notifyOne_heard (n : Notify) : n.notifyOne.permit = true ∨ n.notifyOne.notified ≠ [] := by
  unfold notifyOne
  split
  · exact .inl rfl
  · exact .inr (by simp)

theorem notifyOne_parked (n : Notify) : n.notifyOne.parked.Perm n.parked := by
  unfold notifyOne parked
  split
  · exact .refl _
  · next w ws hw =>
    rw [hw, ← List.append_assoc]
    exact List.perm_append_singleton w (ws ++ n.notified)

/-- A waiter that registers comes to the others. -/
theorem poll_parked (n : Notify) (w : Nat) : (n.poll w).1 = true ∧ (n.poll w).2.parked = n.parked ∧ n.permit = true ∨
    (n.poll w).1 = false ∧ (n.poll w).2.parked.Perm (w :: n.parked) ∧ (n.poll w).2.notified = n.notified ∧
      n.permit = false := by
  unfold poll parked
  split
  · next hp => exact .inl ⟨rfl, rfl, hp⟩
  · next hp =>
    refine .inr ⟨rfl, ?_, rfl, by simpa using hp⟩
    rw [List.append_assoc]
    exact List.perm_middle

theorem take_parked {n : Notify} {w : Nat} (h : w ∈ n.notified) : n.parked.Perm (w :: (n.take w).parked) := by
  have hsplit := (List.perm_cons_erase h).append_left n.waiters
  exact hsplit.trans List.perm_middle

end Notify
