import ChatDoc.Foundation.SerialTable
import Mathlib.Order.Lattice
import Mathlib.Data.List.Nodup

/-!
# Ordered selection

`SELECT ... WHERE ... ORDER BY ...` over a table.  Rows with equal sort keys
stand in an order of their primary keys, so that the result is a function of the
rows that are selected and not of the order in which the table keeps them.
-/

namespace Foundation

structure TieOrder where
  place : Nat -> Nat
  injective : Function.Injective place

namespace TieOrder

variable {row score : Type} [LinearOrder score] (tie : TieOrder) (key : row -> score)

def before (a b : Nat × row) : Bool :=
  key a.2 < key b.2 ∨ (key a.2 = key b.2 ∧ tie.place a.1 ≤ tie.place b.1)

theorem before_trans (a b c : Nat × row) (hab : tie.before key a b = true)
    (hbc : tie.before key b c = true) : tie.before key a c = true := by
  unfold before at *
  rw [decide_eq_true_eq] at *
  rcases hab with hlt | ⟨heq, hle⟩
  · rcases hbc with hlt' | ⟨heq', _⟩
    · exact .inl (lt_trans hlt hlt')
    · exact .inl (heq' ▸ hlt)
  · rcases hbc with hlt' | ⟨heq', hle'⟩
    · exact .inl (heq ▸ hlt')
    · exact .inr ⟨heq.trans heq', Nat.le_trans hle hle'⟩

theorem before_total (a b : Nat × row) :
    (tie.before key a b || tie.before key b a) = true := by
  unfold before
  rw [Bool.or_eq_true, decide_eq_true_eq, decide_eq_true_eq]
  rcases lt_trichotomy (key a.2) (key b.2) with hlt | heq | hgt
  · exact .inl (.inl hlt)
  · rcases Nat.le_total (tie.place a.1) (tie.place b.1) with hle | hge
    · exact .inl (.inr ⟨heq, hle⟩)
    · exact .inr (.inr ⟨heq.symm, hge⟩)
  · exact .inr (.inl hgt)

theorem key_eq_of_before {a b : Nat × row} (hab : tie.before key a b = true)
    (hba : tie.before key b a = true) : a.1 = b.1 := by
  unfold before at *
  rw [decide_eq_true_eq] at *
  rcases hab with hlt | ⟨heq, hle⟩
  · rcases hba with hlt' | ⟨heq', _⟩
    · exact absurd hlt' (lt_asymm hlt)
    · exact absurd heq' (ne_of_gt hlt)
  · rcases hba with hlt' | ⟨_, hle'⟩
    · exact absurd heq (ne_of_gt hlt')
    · exact tie.injective (Nat.le_antisymm hle hle')

end TieOrder

namespace SerialTable

variable {row score : Type} [LinearOrder score]

/-- The rows that satisfy a test, in ascending order of a sort key. -/
def orderBy (t : SerialTable row) (test : row -> Bool) (tie : TieOrder)
    (key : row -> score) : List (Nat × row) :=
  (t.rows.filter fun entry => test entry.2).mergeSort (tie.before key)

theorem mem_orderBy {t : SerialTable row} {test : row -> Bool} {tie : TieOrder}
    {key : row -> score} {entry : Nat × row} :
    entry ∈ t.orderBy test tie key <->
      t.lookup entry.1 = some entry.2 ∧ test entry.2 = true := by
  unfold orderBy
  rw [List.mem_mergeSort, List.mem_filter, lookup_eq_some_iff]

theorem nodup_rows (t : SerialTable row) : t.rows.Nodup :=
  List.Nodup.of_map Prod.fst t.nodup

theorem orderBy_congr {t t' : SerialTable row} {test : row -> Bool} (tie : TieOrder)
    (key : row -> score)
    (h : forall id r, test r = true -> (t.lookup id = some r <-> t'.lookup id = some r)) :
    t.orderBy test tie key = t'.orderBy test tie key := by
  have hsame (entry : Nat × row) :
      entry ∈ t.orderBy test tie key <-> entry ∈ t'.orderBy test tie key := by
    rw [mem_orderBy, mem_orderBy]
    exact and_congr_left (h entry.1 entry.2)
  have hnodup (t : SerialTable row) : (t.orderBy test tie key).Nodup :=
    (List.mergeSort_perm _ _).nodup_iff.mpr (t.nodup_rows.filter _)
  have hsorted (t : SerialTable row) :
      (t.orderBy test tie key).Pairwise fun a b => tie.before key a b = true :=
    List.pairwise_mergeSort (tie.before_trans key) (tie.before_total key) _
  have hperm := (List.perm_ext_iff_of_nodup (hnodup t) (hnodup t')).mpr hsame
  refine hperm.eq_of_pairwise ?_ (hsorted t) (hsorted t')
  intro a b ha hb hab hba
  have hid := tie.key_eq_of_before key hab hba
  have hrow := (mem_orderBy.mp ((hsame a).mp ha)).1
  rw [hid, (mem_orderBy.mp hb).1] at hrow
  exact Prod.ext hid (Option.some.inj hrow).symm

end SerialTable
end Foundation
