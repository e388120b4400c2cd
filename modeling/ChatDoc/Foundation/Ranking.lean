import Mathlib.Data.List.Dedup
import Mathlib.Data.List.Nodup
import Mathlib.Order.Lattice

/-!
# Rankings

A list is sorted by a comparison that is an order only among some values, and a
front part of it is kept.
-/

namespace Foundation

variable {α : Type} {le : α -> α -> Bool} {l : List α}

theorem map_mergeSort_attachWith {P : α -> Prop} (hmem : forall a, a ∈ l -> P a) :
    ((l.attachWith P hmem).mergeSort fun a b => le a b).map Subtype.val =
      l.mergeSort le := by
  rw [List.map_mergeSort (s := le), List.attachWith_map_subtype_val]
  intro a _ b _
  rfl

theorem pairwise_mergeSort_of_mem {P : α -> Prop} (hmem : forall a, a ∈ l -> P a)
    (htrans : forall a b c, P a -> P b -> P c -> le a b = true -> le b c = true ->
      le a c = true)
    (htotal : forall a b, P a -> P b -> (le a b || le b a) = true) :
    (l.mergeSort le).Pairwise fun a b => le a b = true := by
  rw [← map_mergeSort_attachWith hmem, List.pairwise_map]
  apply List.pairwise_mergeSort
  · intro a b c hab hbc
    exact htrans a b c a.2 b.2 c.2 hab hbc
  · intro a b
    exact htotal a b a.2 b.2

theorem pair_sublist_mergeSort_of_mem {P : α -> Prop} (hmem : forall a, a ∈ l -> P a)
    (htrans : forall a b c, P a -> P b -> P c -> le a b = true -> le b c = true ->
      le a c = true)
    (htotal : forall a b, P a -> P b -> (le a b || le b a) = true) {a b : α}
    (hab : le a b = true) (h : [a, b].Sublist l) : [a, b].Sublist (l.mergeSort le) := by
  rw [← List.attachWith_map_subtype_val hmem, List.sublist_map_iff] at h
  rcases h with ⟨pair, hpair, heq⟩
  rw [← map_mergeSort_attachWith hmem, heq]
  apply List.Sublist.map
  apply List.sublist_mergeSort
  · intro a b c hab hbc
    exact htrans a b c a.2 b.2 c.2 hab hbc
  · intro a b
    exact htotal a b a.2 b.2
  · have hpairwise : (pair.map Subtype.val).Pairwise fun a b => le a b = true := by
      rw [← heq]
      exact List.pairwise_pair.mpr hab
    exact List.pairwise_map.mp hpairwise
  · exact hpair

theorem rel_of_take {R : α -> α -> Prop} (h : l.Pairwise R) {k : Nat} {kept left : α}
    (hkept : kept ∈ l.take k) (hleft : left ∈ l) (hout : left ∉ l.take k) :
    R kept left := by
  rw [← List.take_append_drop k l, List.pairwise_append] at h
  rw [← List.take_append_drop k l] at hleft
  rcases List.mem_append.mp hleft with hin | hdrop
  · exact absurd hin hout
  · exact h.2.2 kept hkept left hdrop

theorem rel_of_head {R : α -> α -> Prop} (h : l.Pairwise R) {first a : α}
    (hfirst : l.head? = some first) (ha : a ∈ l) : a = first ∨ R first a := by
  cases l with
  | nil => cases hfirst
  | cons b rest =>
      cases hfirst
      rcases List.mem_cons.mp ha with heq | hrest
      · exact .inl heq
      · exact .inr (List.rel_of_pairwise_cons h hrest)

theorem length_eq_of_nodup {l' : List α} (h : l.Nodup) (h' : l'.Nodup)
    (hsame : forall a, a ∈ l <-> a ∈ l') : l.length = l'.length :=
  ((List.perm_ext_iff_of_nodup h h').mpr hsame).length_eq

theorem idxOf_lt_of_pairwise [DecidableEq α] {score : Type} [LinearOrder score]
    {scoreOf : α -> score} (h : l.Pairwise fun a b => scoreOf b <= scoreOf a) {a b : α}
    (ha : a ∈ l) (hlt : scoreOf b < scoreOf a) : l.idxOf a < l.idxOf b := by
  have hne : a ≠ b := by
    intro heq
    rw [heq] at hlt
    exact lt_irrefl _ hlt
  induction l with
  | nil => cases ha
  | cons first rest ih =>
      rw [List.pairwise_cons] at h
      rcases List.mem_cons.mp ha with rfl | hrest
      · rw [List.idxOf_cons_self, List.idxOf_cons_ne rest hne]
        exact Nat.succ_pos _
      · have hfirst : first ≠ b := by
          intro heq
          exact not_le_of_gt hlt (heq ▸ h.left a hrest)
        by_cases heq : first = a
        · rw [heq, List.idxOf_cons_self, List.idxOf_cons_ne rest hne]
          exact Nat.succ_pos _
        · rw [List.idxOf_cons_ne rest heq, List.idxOf_cons_ne rest hfirst]
          exact Nat.succ_lt_succ (ih h.right hrest)

end Foundation
