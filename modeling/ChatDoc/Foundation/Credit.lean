import Mathlib.Algebra.Order.Field.Basic
import Mathlib.Tactic.Linarith
import Mathlib.Tactic.Positivity
import Mathlib.Tactic.Ring

/-!
# Capped credit

A store of credit grows at a rate up to a capacity, and every event takes one unit
of it.  Whatever the store held before a window of time, and whenever the cap threw
credit away, the events in the window are at most the capacity and what the window
itself has added.
-/

namespace Foundation

variable {amount : Type} [Field amount] [LinearOrder amount] [IsStrictOrderedRing amount]

/-- The account of a window from `opening` to `closing`, at a time `now` at which the
store holds `credit`: the events of the window so far are within its bound, and until
it closes they leave room for the credit that is still there. -/
structure Accounted (capacity rate opening closing : amount) (credit now : amount)
    (events : Nat) : Prop where
  bounded : (events : amount) <= capacity + rate * (closing - opening)
  room : now <= closing -> events = 0 ∨
    (opening <= now ∧ events + credit <= capacity + rate * (now - opening))

variable {capacity rate opening closing credit credit' now now' : amount} {events : Nat}

theorem accounted_start (hcapacity : 0 <= capacity) (hrate : 0 <= rate)
    (hwindow : opening <= closing) :
    Accounted capacity rate opening closing credit now 0 where
  bounded := by
    have hspan : 0 <= closing - opening := sub_nonneg.mpr hwindow
    rw [Nat.cast_zero]
    positivity
  room := fun _ => .inl rfl

theorem Accounted.grow (h : Accounted capacity rate opening closing credit now events)
    (hnow : now <= now') (hcredit : credit' <= credit + (now' - now) * rate) :
    Accounted capacity rate opening closing credit' now' events where
  bounded := h.bounded
  room := by
    intro hopen
    rcases h.room (le_trans hnow hopen) with hnone | ⟨hopening, hroom⟩
    · exact .inl hnone
    · right
      constructor
      · exact le_trans hopening hnow
      · calc (events : amount) + credit'
            <= (events + credit) + (now' - now) * rate := by linarith
          _ <= capacity + rate * (now - opening) + (now' - now) * rate := by linarith
          _ = capacity + rate * (now' - opening) := by ring

/-- An event within the window is paid from the credit. -/
theorem Accounted.spend (h : Accounted capacity rate opening closing credit now events)
    (hrate : 0 <= rate) (hcapacity : credit <= capacity) (hcredit : 1 <= credit)
    (hopening : opening <= now) (hclosing : now <= closing) :
    Accounted capacity rate opening closing (credit - 1) now (events + 1) := by
  have hspan : 0 <= rate * (now - opening) :=
    mul_nonneg hrate (sub_nonneg.mpr hopening)
  have hroom : ((events + 1 : Nat) : amount) + (credit - 1) <=
      capacity + rate * (now - opening) := by
    rw [Nat.cast_succ]
    rcases h.room hclosing with hnone | ⟨_, hroom⟩
    · rw [hnone, Nat.cast_zero]
      linarith
    · linarith
  constructor
  · have hclose : rate * (now - opening) <= rate * (closing - opening) :=
      mul_le_mul_of_nonneg_left (sub_le_sub_right hclosing opening) hrate
    linarith
  · intro _
    exact .inr ⟨hopening, hroom⟩

theorem Accounted.spend_outside
    (h : Accounted capacity rate opening closing credit now events) :
    Accounted capacity rate opening closing (credit - 1) now events where
  bounded := h.bounded
  room := by
    intro hopen
    rcases h.room hopen with hnone | ⟨hopening, hroom⟩
    · exact .inl hnone
    · right
      constructor
      · exact hopening
      · linarith

end Foundation
