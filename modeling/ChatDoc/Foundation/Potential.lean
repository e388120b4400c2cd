import ChatDoc.Foundation.SerialTable
import ChatDoc.Foundation.Transition
import Mathlib.Algebra.BigOperators.Group.Finset.Piecewise
import Mathlib.Algebra.BigOperators.Ring.Finset
import Mathlib.Algebra.Order.BigOperators.Group.Finset

/-!
# Costs paid out of a potential

A run whose every step pays its cost out of a potential costs no more than the
potential it starts with.  A potential of a table gives every row a weight and
adds the weights up, so it is enough to follow one row at a time.
-/

namespace Foundation

variable {state action : Type} {act : state -> action -> Option state}

def traceCost (cost : state -> action -> Nat)
    (trace : List (state × action)) : Nat :=
  (trace.map fun step => cost step.1 step.2).sum

@[simp] theorem traceCost_nil (cost : state -> action -> Nat) :
    traceCost cost [] = 0 := rfl

@[simp] theorem traceCost_snoc (cost : state -> action -> Nat)
    (trace : List (state × action)) (s : state) (a : action) :
    traceCost cost (trace ++ [(s, a)]) = traceCost cost trace + cost s a := by
  simp [traceCost]

theorem traceCost_toNat (p : state -> action -> Bool)
    (trace : List (state × action)) :
    traceCost (fun s a => (p s a).toNat) trace =
      trace.countP fun step => p step.1 step.2 := by
  unfold traceCost
  induction trace with
  | nil => rfl
  | cons step trace ih =>
      rw [List.map_cons, List.sum_cons, List.countP_cons, ih]
      cases hp : p step.1 step.2 <;> simp [hp, Nat.add_comm]

theorem traceCost_congr {cost cost' : state -> action -> Nat}
    {trace : List (state × action)}
    (h : EachStep (fun s a => cost s a = cost' s a) trace) :
    traceCost cost trace = traceCost cost' trace :=
  congrArg List.sum (List.map_congr_left h)

theorem traceCost_add (cost cost' : state -> action -> Nat)
    (trace : List (state × action)) :
    traceCost (fun s a => cost s a + cost' s a) trace =
      traceCost cost trace + traceCost cost' trace := by
  unfold traceCost
  rw [List.sum_map_add]

/-- While an invariant holds, a step that meets the condition pays its cost out
of the potential. -/
theorem Run.traceCost_add_le {start s : state} {trace : List (state × action)}
    (inv : state -> Prop) (cond : state -> action -> Prop)
    (cost : state -> action -> Nat) (potential : state -> Nat)
    (hstart : inv start)
    (hkept : forall s a s', inv s -> cond s a -> act s a = some s' -> inv s')
    (hpaid : forall s a s', inv s -> cond s a -> act s a = some s' ->
      cost s a + potential s' ≤ potential s)
    (hrun : Run act start trace s) (hcond : EachStep cond trace) :
    traceCost cost trace + potential s ≤ potential start := by
  induction hrun with
  | nil => simp
  | @snoc trace s s' a hprev hact ih =>
      rcases eachStep_snoc.mp hcond with ⟨hbefore, hlast⟩
      have hinv := hprev.invariant hstart hkept hbefore
      have hpays := hpaid s a s' hinv hlast hact
      have hspent := ih hbefore
      rw [traceCost_snoc]
      omega

/-!
# The weight of a table
-/

namespace SerialTable

variable {row : Type} {f g : Nat -> row -> Nat} {t t' : SerialTable row}

def weightAt (f : Nat -> row -> Nat) (t : SerialTable row) (id : Nat) : Nat :=
  ((t.lookup id).map (f id)).getD 0

def weight (f : Nat -> row -> Nat) (t : SerialTable row) : Nat :=
  ((List.range t.next).map (t.weightAt f)).sum

theorem weightAt_of_some {id : Nat} {r : row} (h : t.lookup id = some r) :
    t.weightAt f id = f id r := by
  simp [weightAt, h]

theorem weightAt_of_none {id : Nat} (h : t.lookup id = none) :
    t.weightAt f id = 0 := by
  simp [weightAt, h]

theorem lt_next_of_weightAt {id : Nat} (h : 0 < t.weightAt f id) :
    id < t.next := by
  cases hlookup : t.lookup id with
  | none =>
      rw [weightAt_of_none hlookup] at h
      exact absurd h (Nat.lt_irrefl 0)
  | some r => exact lt_next_of_lookup hlookup

theorem weight_eq_sum {bound : Nat} (h : t.next ≤ bound) :
    t.weight f = ∑ id ∈ Finset.range bound, t.weightAt f id := by
  have hsum : t.weight f = ∑ id ∈ Finset.range t.next, t.weightAt f id := rfl
  rw [hsum]
  apply Finset.sum_subset
  · exact Finset.range_subset_range.mpr h
  · intro id _ hid
    by_contra hpos
    exact hid (Finset.mem_range.mpr
      (lt_next_of_weightAt (Nat.pos_of_ne_zero hpos)))

theorem weight_le_mul {k : Nat}
    (h : forall id r, t.lookup id = some r -> f id r ≤ k * g id r) :
    t.weight f ≤ k * t.weight g := by
  rw [weight_eq_sum (Nat.le_refl _), weight_eq_sum (Nat.le_refl _),
    Finset.mul_sum]
  apply Finset.sum_le_sum
  intro id _
  cases hlookup : t.lookup id with
  | none => simp [weightAt_of_none hlookup]
  | some r =>
      rw [weightAt_of_some hlookup, weightAt_of_some hlookup]
      exact h id r hlookup

theorem weight_add_le {spent : Option Nat}
    (hnext : t.next ≤ t'.next)
    (h : forall id, (if spent = some id then 1 else 0) + t'.weightAt f id ≤
      t.weightAt f id) :
    spent.isSome.toNat + t'.weight f ≤ t.weight f := by
  rw [weight_eq_sum (Nat.le_refl t'.next), weight_eq_sum hnext]
  have hsum := Finset.sum_le_sum
    (fun id (_ : id ∈ Finset.range t'.next) => h id)
  rw [Finset.sum_add_distrib] at hsum
  refine Nat.le_trans (Nat.add_le_add_right ?_ _) hsum
  cases spent with
  | none => exact Nat.zero_le _
  | some id =>
      have hid : id < t.next := by
        apply lt_next_of_weightAt (f := f)
        have hpaid := h id
        rw [if_pos rfl] at hpaid
        omega
      have hmem : id ∈ Finset.range t'.next :=
        Finset.mem_range.mpr (Nat.lt_of_lt_of_le hid hnext)
      have hsingle := Finset.single_le_sum
        (f := fun id' => if some id = some id' then 1 else 0)
        (fun id' _ => Nat.zero_le _) hmem
      simpa using hsingle

end SerialTable
end Foundation
