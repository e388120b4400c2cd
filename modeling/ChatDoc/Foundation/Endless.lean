import ChatDoc.Foundation.Transition
import Mathlib.Logic.Function.Iterate
import Mathlib.Tactic.Choose

/-!
# Endless runs

A run that never stops, as the sequence of its states and the sequence of the actions
taken in them.
-/

namespace Foundation

variable {state action : Type} {act : state -> action -> Option state}

structure Endless (act : state -> action -> Option state) (start : state)
    (states : Nat -> state) (actions : Nat -> action) : Prop where
  starts : states 0 = start
  steps : forall n, act (states n) (actions n) = some (states (n + 1))

namespace Endless

variable {start : state} {states : Nat -> state} {actions : Nat -> action}

theorem exists_run (h : Endless act start states actions) (n : Nat) :
    exists trace, Run act start trace (states n) := by
  induction n with
  | zero => exact ⟨[], h.starts ▸ .nil⟩
  | succ n ih =>
      rcases ih with ⟨trace, hrun⟩
      exact ⟨_, .snoc hrun (h.steps n)⟩

/-- A step that does not bring the good event makes the measure larger, and the measure
is bounded, so the event comes. -/
theorem eventually {event : Nat -> Prop} {measure : state -> Nat} {bound : Nat}
    (hbound : forall n, measure (states n) <= bound)
    (hstep : forall n, event n ∨ measure (states n) < measure (states (n + 1))) :
    exists n, event n := by
  by_contra hnever
  have hgrows : forall n, n <= measure (states n) := by
    intro n
    induction n with
    | zero => exact Nat.zero_le _
    | succ n ih =>
        rcases hstep n with hevent | hlt
        · exact absurd ⟨n, hevent⟩ hnever
        · exact Nat.succ_le_of_lt (Nat.lt_of_le_of_lt ih hlt)
  exact absurd (Nat.le_trans (hgrows (bound + 1)) (hbound (bound + 1)))
    (Nat.not_succ_le_self bound)

end Endless

/-- From a set of states that can always be kept an endless run starts within it. -/
theorem exists_endless (inv : state -> Prop) {start : state} (hstart : inv start)
    (hstep : forall s, inv s -> exists a s', act s a = some s' ∧ inv s') :
    exists states actions, Endless act start states actions ∧
      forall n, inv (states n) := by
  rcases hstep start hstart with ⟨first, second, _⟩
  have hactions : Nonempty action := ⟨first⟩
  have hstates : Nonempty state := ⟨second⟩
  choose! next after hnext hafter using hstep
  have hinv : forall n, inv (after^[n] start) := by
    intro n
    induction n with
    | zero => exact hstart
    | succ n ih =>
        rw [Function.iterate_succ_apply']
        exact hafter _ ih
  refine ⟨fun n => after^[n] start, fun n => next (after^[n] start), ?_, hinv⟩
  constructor
  · rfl
  · intro n
    rw [Function.iterate_succ_apply']
    exact hnext _ (hinv n)

end Foundation
