import ChatDoc.Foundation.Ranking
import Mathlib.Algebra.Order.Ring.Rat
import Mathlib.Data.List.Perm.Basic

/-!
# Comparators

A list is sorted by a function whose sign says which of two values comes first. What the
sort does is fixed only where the signs are consistent.
-/

namespace Foundation

variable {α : Type} {compare : α -> α -> Rat} {l : List α}

/-- The signs are those of a strict weak order on the values of the list. -/
structure Consistent (compare : α -> α -> Rat) (l : List α) : Prop where
  antisymm : forall a, a ∈ l -> forall b, b ∈ l -> (compare a b < 0 <-> 0 < compare b a)
  lt_trans : forall a, a ∈ l -> forall b, b ∈ l -> forall c, c ∈ l ->
    compare a b < 0 -> compare b c < 0 -> compare a c < 0
  tie_trans : forall a, a ∈ l -> forall b, b ∈ l -> forall c, c ∈ l ->
    compare a b = 0 -> compare b c = 0 -> compare a c = 0

namespace Consistent

theorem congr (h : Consistent compare l) {l' : List α} (hsub : l' ⊆ l) :
    Consistent compare l' where
  antisymm a ha b hb := h.antisymm a (hsub ha) b (hsub hb)
  lt_trans a ha b hb c hc := h.lt_trans a (hsub ha) b (hsub hb) c (hsub hc)
  tie_trans a ha b hb c hc := h.tie_trans a (hsub ha) b (hsub hb) c (hsub hc)

theorem perm_iff {l' : List α} (hperm : l'.Perm l) :
    Consistent compare l' <-> Consistent compare l :=
  ⟨fun h => h.congr hperm.symm.subset, fun h => h.congr hperm.subset⟩

theorem tie_comm (h : Consistent compare l) {a b : α} (ha : a ∈ l) (hb : b ∈ l)
    (htie : compare a b = 0) : compare b a = 0 := by
  have hlt := h.antisymm b hb a ha
  have hgt := h.antisymm a ha b hb
  rw [htie] at hlt hgt
  exact le_antisymm (not_lt.mp (mt hgt.mpr (lt_irrefl 0)))
    (not_lt.mp (mt hlt.mp (lt_irrefl 0)))

theorem le_total (h : Consistent compare l) {a b : α} (ha : a ∈ l) (hb : b ∈ l) :
    compare a b <= 0 ∨ compare b a <= 0 := by
  rcases le_or_gt (compare a b) 0 with hle | hgt
  · exact .inl hle
  · exact .inr (le_of_lt ((h.antisymm b hb a ha).mpr hgt))

theorem lt_of_lt_of_tie (h : Consistent compare l) {a b c : α} (ha : a ∈ l) (hb : b ∈ l)
    (hc : c ∈ l) (hab : compare a b < 0) (hbc : compare b c = 0) : compare a c < 0 := by
  rcases lt_trichotomy (compare a c) 0 with hlt | htie | hgt
  · exact hlt
  · have hcb := h.tie_comm hb hc hbc
    have habtie := h.tie_trans a ha c hc b hb htie hcb
    exact absurd habtie (ne_of_lt hab)
  · have hca := (h.antisymm c hc a ha).mpr hgt
    have hcb := h.lt_trans c hc a ha b hb hca hab
    exact absurd (h.tie_comm hb hc hbc) (ne_of_lt hcb)

theorem lt_of_tie_of_lt (h : Consistent compare l) {a b c : α} (ha : a ∈ l) (hb : b ∈ l)
    (hc : c ∈ l) (hab : compare a b = 0) (hbc : compare b c < 0) : compare a c < 0 := by
  rcases lt_trichotomy (compare a c) 0 with hlt | htie | hgt
  · exact hlt
  · have hba := h.tie_comm ha hb hab
    have hbctie := h.tie_trans b hb a ha c hc hba htie
    exact absurd hbctie (ne_of_lt hbc)
  · have hca := (h.antisymm c hc a ha).mpr hgt
    have hba := h.lt_trans b hb c hc a ha hbc hca
    exact absurd (h.tie_comm ha hb hab) (ne_of_lt hba)

theorem le_trans (h : Consistent compare l) {a b c : α} (ha : a ∈ l) (hb : b ∈ l)
    (hc : c ∈ l) (hab : compare a b <= 0) (hbc : compare b c <= 0) : compare a c <= 0 := by
  rcases lt_or_eq_of_le hab with hlt | htie
  · rcases lt_or_eq_of_le hbc with hlt' | htie'
    · exact le_of_lt (h.lt_trans a ha b hb c hc hlt hlt')
    · exact le_of_lt (h.lt_of_lt_of_tie ha hb hc hlt htie')
  · rcases lt_or_eq_of_le hbc with hlt' | htie'
    · exact le_of_lt (h.lt_of_tie_of_lt ha hb hc htie hlt')
    · exact le_of_eq (h.tie_trans a ha b hb c hc htie htie')

theorem decide_trans (h : Consistent compare l) (a b c : α) (ha : a ∈ l) (hb : b ∈ l)
    (hc : c ∈ l) (hab : decide (compare a b <= 0) = true)
    (hbc : decide (compare b c <= 0) = true) : decide (compare a c <= 0) = true :=
  decide_eq_true (h.le_trans ha hb hc (of_decide_eq_true hab) (of_decide_eq_true hbc))

theorem decide_total (h : Consistent compare l) (a b : α) (ha : a ∈ l) (hb : b ∈ l) :
    (decide (compare a b <= 0) || decide (compare b a <= 0)) = true := by
  rw [Bool.or_eq_true, decide_eq_true_eq, decide_eq_true_eq]
  exact h.le_total ha hb

end Consistent

/-- What a sort by a comparator may rely on and has to do: the result is a rearrangement,
and where the comparator is consistent it is in order and ties keep their places. Any
rearrangement is allowed otherwise. -/
structure SortEngine (compare : α -> α -> Rat) where
  sort : List α -> List α
  perm : forall l, (sort l).Perm l
  sorted : forall l, Consistent compare l ->
    (sort l).Pairwise fun a b => compare a b <= 0
  stable : forall l, Consistent compare l -> forall a b, compare a b = 0 ->
    [a, b].Sublist l -> [a, b].Sublist (sort l)

theorem pairwise_mergeSort_of_consistent (h : Consistent compare l) :
    (l.mergeSort fun a b => compare a b <= 0).Pairwise fun a b => compare a b <= 0 := by
  have hsorted := pairwise_mergeSort_of_mem (fun a ha => ha) h.decide_trans h.decide_total
  exact hsorted.imp fun hle => of_decide_eq_true hle

theorem pair_sublist_mergeSort_of_consistent (h : Consistent compare l) {a b : α}
    (htie : compare a b = 0) (hpair : [a, b].Sublist l) :
    [a, b].Sublist (l.mergeSort fun a b => compare a b <= 0) :=
  pair_sublist_mergeSort_of_mem (fun _ ha => ha) h.decide_trans h.decide_total
    (decide_eq_true (le_of_eq htie)) hpair

/-- A merge sort, on lists where the comparator is consistent, that leaves the other lists
as they are. -/
noncomputable def SortEngine.cautious (compare : α -> α -> Rat) : SortEngine compare := by
  classical
  exact
    { sort := fun l =>
        if Consistent compare l then l.mergeSort fun a b => compare a b <= 0 else l
      perm := by
        intro l
        split
        · exact List.mergeSort_perm l _
        · exact .refl l
      sorted := by
        intro l h
        rw [if_pos h]
        exact pairwise_mergeSort_of_consistent h
      stable := by
        intro l h a b htie hpair
        rw [if_pos h]
        exact pair_sublist_mergeSort_of_consistent h htie hpair }

theorem SortEngine.cautious_of_not (h : ¬ Consistent compare l) :
    (SortEngine.cautious compare).sort l = l :=
  if_neg h

/-- The order of a sort does not come from the order that the values were given in. -/
def SortsAlike (compare : α -> α -> Rat) (items : List α) : Prop :=
  forall engine : SortEngine compare, forall l l', l.Perm items -> l'.Perm items ->
    engine.sort l = engine.sort l'

theorem not_both_orders {a b : α} (hnodup : l.Nodup) (h : [a, b].Sublist l)
    (h' : [b, a].Sublist l) : False := by
  induction l with
  | nil => cases h
  | cons c rest ih =>
      rw [List.nodup_cons] at hnodup
      cases h with
      | cons _ h =>
          cases h' with
          | cons _ h' => exact ih hnodup.right h h'
          | cons_cons _ h' =>
              exact hnodup.left (h.subset (List.mem_cons_of_mem a List.mem_cons_self))
      | cons_cons _ h =>
          cases h' with
          | cons _ h' =>
              exact hnodup.left (h'.subset (List.mem_cons_of_mem b List.mem_cons_self))
          | cons_cons _ h' => exact hnodup.left (h.subset List.mem_cons_self)

theorem exists_perm_cons_cons [DecidableEq α] {items : List α} {a b : α} (ha : a ∈ items)
    (hb : b ∈ items) (hne : a ≠ b) : exists rest, (a :: b :: rest).Perm items := by
  have hb' : b ∈ items.erase a := (List.mem_erase_of_ne hne.symm).mpr hb
  refine ⟨(items.erase a).erase b, ?_⟩
  exact ((List.perm_cons_erase hb').symm.cons a).trans (List.perm_cons_erase ha).symm

theorem SortsAlike.not_tie [DecidableEq α] {items : List α}
    (halike : SortsAlike compare items) (h : Consistent compare items)
    (hnodup : items.Nodup) {a b : α} (ha : a ∈ items) (hb : b ∈ items)
    (htie : compare a b = 0) : a = b := by
  by_contra hne
  rcases exists_perm_cons_cons ha hb hne with ⟨rest, hperm⟩
  have hperm' : (b :: a :: rest).Perm items := (List.Perm.swap a b rest).trans hperm
  let engine := SortEngine.cautious compare
  have hfirst : [a, b].Sublist (engine.sort (a :: b :: rest)) :=
    engine.stable _ ((Consistent.perm_iff hperm).mpr h) a b htie
      (List.Sublist.cons_cons a (List.Sublist.cons_cons b (List.nil_sublist rest)))
  have hsecond : [b, a].Sublist (engine.sort (b :: a :: rest)) :=
    engine.stable _ ((Consistent.perm_iff hperm').mpr h) b a (h.tie_comm ha hb htie)
      (List.Sublist.cons_cons b (List.Sublist.cons_cons a (List.nil_sublist rest)))
  rw [← halike engine _ _ hperm hperm'] at hsecond
  have hsort : (engine.sort (a :: b :: rest)).Nodup :=
    ((engine.perm _).trans hperm).nodup_iff.mpr hnodup
  exact not_both_orders hsort hfirst hsecond

/-- A comparator that changes its sign with the order of its arguments is consistent on a
single value. -/
theorem consistent_of_length_le_one (hneg : forall a b, compare b a = -compare a b)
    (hlength : l.length <= 1) : Consistent compare l := by
  have hsame : forall a, a ∈ l -> forall b, b ∈ l -> a = b := by
    intro a ha b hb
    cases l with
    | nil => cases ha
    | cons c rest =>
        have hrest : rest = [] := List.length_eq_zero_iff.mp
          (Nat.le_zero.mp (Nat.le_of_succ_le_succ hlength))
        rw [hrest] at ha hb
        rw [List.mem_singleton.mp ha, List.mem_singleton.mp hb]
  constructor
  · intro a _ b _
    rw [hneg a b, Left.neg_pos_iff]
  · intro a ha b hb c hc hab hbc
    rw [← hsame b hb c hc]
    exact hab
  · intro a ha b hb c hc hab hbc
    rw [← hsame b hb c hc]
    exact hab

theorem SortsAlike.consistent {items : List α}
    (halike : SortsAlike compare items) (hnodup : items.Nodup)
    (hneg : forall a b, compare b a = -compare a b) : Consistent compare items := by
  by_contra h
  cases items with
  | nil => exact h (consistent_of_length_le_one hneg (Nat.zero_le 1))
  | cons a rest =>
      cases rest with
      | nil => exact h (consistent_of_length_le_one hneg (Nat.le_refl 1))
      | cons b rest =>
          have hperm : (b :: a :: rest).Perm (a :: b :: rest) := List.Perm.swap a b rest
          have heq := halike (SortEngine.cautious compare) _ _ (.refl _) hperm
          rw [SortEngine.cautious_of_not h,
            SortEngine.cautious_of_not (mt (Consistent.perm_iff hperm).mp h)] at heq
          injection heq with hab _
          rw [List.nodup_cons, hab] at hnodup
          exact hnodup.left List.mem_cons_self

/-- The order is the same for every order that the values are given in exactly where the
comparator is consistent and no two values tie. -/
theorem sortsAlike_iff [DecidableEq α] {items : List α} (hnodup : items.Nodup)
    (hneg : forall a b, compare b a = -compare a b) :
    SortsAlike compare items <-> Consistent compare items ∧
      forall a, a ∈ items -> forall b, b ∈ items -> compare a b = 0 -> a = b := by
  constructor
  · intro halike
    have h := halike.consistent hnodup hneg
    exact ⟨h, fun a ha b hb htie => halike.not_tie h hnodup ha hb htie⟩
  · rintro ⟨h, htie⟩ engine l l' hl hl'
    have hsort := (engine.perm l).trans hl
    have hsort' := (engine.perm l').trans hl'
    refine List.Perm.eq_of_pairwise ?_ (engine.sorted l ((Consistent.perm_iff hl).mpr h))
      (engine.sorted l' ((Consistent.perm_iff hl').mpr h)) (hsort.trans hsort'.symm)
    intro a b ha hb hab hba
    have hge : 0 <= compare a b := by
      rw [hneg a b] at hba
      exact neg_nonpos.mp hba
    exact htie a (hsort.mem_iff.mp ha) b (hsort'.mem_iff.mp hb) (le_antisymm hab hge)

theorem SortEngine.sort_of_ascending (engine : SortEngine compare) (h : Consistent compare l)
    (hlist : l.Pairwise fun a b => compare a b < 0) : engine.sort l = l := by
  have hle : l.Pairwise fun a b => compare a b <= 0 := hlist.imp fun hlt => le_of_lt hlt
  have hback : l.Pairwise fun a b => 0 < compare b a :=
    hlist.imp_of_mem fun ha hb hlt => (h.antisymm _ ha _ hb).mp hlt
  have heq : forall a, a ∈ l -> forall b, b ∈ l ->
      compare a b <= 0 -> compare b a <= 0 -> a = b := by
    apply List.Pairwise.forall_of_forall_of_flip
    · exact fun a _ _ _ => rfl
    · exact hback.imp fun hlt _ hba => absurd hba (not_le.mpr hlt)
    · exact hback.imp fun hlt hba _ => absurd hba (not_le.mpr hlt)
  refine List.Perm.eq_of_pairwise ?_ (engine.sorted l h) hle (engine.perm l)
  intro a b ha hb hab hba
  exact heq a ((engine.perm l).mem_iff.mp ha) b hb hab hba

end Foundation
