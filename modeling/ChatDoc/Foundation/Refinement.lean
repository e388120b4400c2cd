import ChatDoc.Foundation.Transition
import Mathlib.Data.List.Forall2

/-!
# Refinement

A system refines another when its runs perform what runs of the other perform.  A
forward simulation shows it step by step.  The relation between the states may look
at what has been performed so far, and the runs may be restricted to those whose
actions meet a condition that is kept by every shorter run.
-/

namespace Foundation

variable {state state' action : Type}

/-- What a run does, without the states it goes through. -/
def performed (trace : List (state × action)) : List action :=
  trace.map Prod.snd

theorem performed_snoc {trace : List (state × action)} {s : state} {a : action} :
    performed (trace ++ [(s, a)]) = performed trace ++ [a] :=
  List.map_append

def Performs (act : state -> action -> Option state) (start : state) (actions : List action)
    (s : state) : Prop :=
  exists trace, Run act start trace s ∧ performed trace = actions

section Steps

variable {act : state -> action -> Option state} {start s : state} {actions : List action}

theorem performs_nil : Performs act start [] start :=
  ⟨[], .nil, rfl⟩

theorem Performs.snoc {s' : state} {a : action} (h : Performs act start actions s)
    (hact : act s a = some s') : Performs act start (actions ++ [a]) s' := by
  rcases h with ⟨trace, hrun, rfl⟩
  exact ⟨trace ++ [(s, a)], .snoc hrun hact, performed_snoc⟩

theorem Performs.rec_snoc {motive : List action -> state -> Prop}
    (hnil : motive [] start)
    (hsnoc : forall actions s a s', Performs act start actions s -> motive actions s ->
      act s a = some s' -> motive (actions ++ [a]) s')
    (h : Performs act start actions s) : motive actions s := by
  rcases h with ⟨trace, hrun, rfl⟩
  induction hrun with
  | nil => exact hnil
  | snoc hprev hact ih =>
      rw [performed_snoc]
      exact hsnoc _ _ _ _ ⟨_, hprev, rfl⟩ ih hact

theorem exists_performs_of_follow {schedule : List action}
    (h : (follow act s schedule).isSome = true) : exists t, Performs act s schedule t := by
  rcases Option.isSome_iff_exists.mp h with ⟨⟨trace, t⟩, hfollow⟩
  refine ⟨t, trace, run_of_follow hfollow, ?_⟩
  clear h
  induction schedule generalizing s trace with
  | nil =>
      cases hfollow
      rfl
  | cons a rest ih =>
      rcases Option.bind_eq_some_iff.mp hfollow with ⟨s', _, hrest⟩
      rcases Option.map_eq_some_iff.mp hrest with ⟨⟨trace', t'⟩, hfollow', hout⟩
      cases hout
      exact congrArg (List.cons a) (ih _ hfollow')

end Steps

variable {act : state -> action -> Option state} {act' : state' -> action -> Option state'}
  {start s : state} {start' : state'} {related : List action -> state -> state' -> Prop}
  {actions : List action}

/-- A forward simulation. -/
theorem Performs.simulate (good : List action -> Prop)
    (hgood : forall actions a, good (actions ++ [a]) -> good actions)
    (hstart : related [] start start')
    (hstep : forall actions s t a s', good (actions ++ [a]) -> related actions s t ->
      act s a = some s' -> exists t', act' t a = some t' ∧ related (actions ++ [a]) s' t')
    (h : Performs act start actions s) (hall : good actions) :
    exists t, Performs act' start' actions t ∧ related actions s t := by
  revert hall
  apply Performs.rec_snoc _ _ h
  · intro _
    exact ⟨start', performs_nil, hstart⟩
  · intro actions s a s' _ ih hact hall
    rcases ih (hgood actions a hall) with ⟨t, hperforms, hrelated⟩
    rcases hstep actions s t a s' hall hrelated hact with ⟨t', hact', hnext⟩
    exact ⟨t', hperforms.snoc hact', hnext⟩

/-!
# Tables of handles
-/

section Tables

variable {α β : Type} {R R' : α -> β -> Prop} {xs : List α} {ys : List β}

theorem forall₂_iff_getElem? : List.Forall₂ R xs ys <-> xs.length = ys.length ∧
    forall (i : Nat) (x : α) (y : β), xs[i]? = some x -> ys[i]? = some y -> R x y := by
  rw [List.forall₂_iff_get]
  apply and_congr_right
  intro hlength
  constructor
  · intro h i x y hx hy
    rcases List.getElem?_eq_some_iff.mp hx with ⟨hi, rfl⟩
    rcases List.getElem?_eq_some_iff.mp hy with ⟨hi', rfl⟩
    exact h i hi hi'
  · intro h i hi hi'
    exact h i _ _ (List.getElem?_eq_getElem hi) (List.getElem?_eq_getElem hi')

theorem getElem?_snoc_cases {i : Nat} {x y : α} (h : (xs ++ [x])[i]? = some y) :
    xs[i]? = some y ∨ (i = xs.length ∧ y = x) := by
  rcases Nat.lt_trichotomy i xs.length with hlt | heq | hgt
  · rw [List.getElem?_append_left hlt] at h
    exact .inl h
  · rw [heq, List.getElem?_concat_length] at h
    exact .inr ⟨heq, (Option.some.inj h).symm⟩
  · have hlength : (xs ++ [x]).length ≤ i := by
      rw [List.length_append, List.length_singleton]
      exact hgt
    rw [List.getElem?_eq_none hlength] at h
    cases h

theorem getElem?_set_cases {i j : Nat} {x y : α} (h : (xs.set i x)[j]? = some y) :
    (j = i ∧ y = x) ∨ (j ≠ i ∧ xs[j]? = some y) := by
  by_cases hij : i = j
  · subst hij
    rcases List.getElem?_eq_some_iff.mp h with ⟨_, h⟩
    rw [List.getElem_set_self] at h
    exact .inl ⟨rfl, h.symm⟩
  · rw [List.getElem?_set_ne hij] at h
    exact .inr ⟨Ne.symm hij, h⟩

theorem exists_getElem?_of_forall₂ (h : List.Forall₂ R xs ys) {i : Nat} {x : α}
    (hx : xs[i]? = some x) : exists y, ys[i]? = some y ∧ R x y := by
  rcases forall₂_iff_getElem?.mp h with ⟨hlength, hall⟩
  rcases List.getElem?_eq_some_iff.mp hx with ⟨hi, _⟩
  rw [hlength] at hi
  exact ⟨ys[i], List.getElem?_eq_getElem hi, hall i x _ hx (List.getElem?_eq_getElem hi)⟩

theorem exists_getElem?_of_forall₂_right (h : List.Forall₂ R xs ys) {i : Nat} {y : β}
    (hy : ys[i]? = some y) : exists x, xs[i]? = some x ∧ R x y := by
  rcases exists_getElem?_of_forall₂ h.flip hy with ⟨x, hx, hxy⟩
  exact ⟨x, hx, hxy⟩

theorem forall₂_snoc (h : List.Forall₂ R xs ys) {x : α} {y : β} (hxy : R x y) :
    List.Forall₂ R (xs ++ [x]) (ys ++ [y]) :=
  List.rel_append h (.cons hxy .nil)

theorem forall₂_set_others (h : List.Forall₂ R xs ys) {i : Nat} {x : α} {y : β}
    (hxy : R' x y)
    (hothers : forall (j : Nat) (x : α) (y : β), j ≠ i -> xs[j]? = some x -> ys[j]? = some y ->
      R x y -> R' x y) :
    List.Forall₂ R' (xs.set i x) (ys.set i y) := by
  rcases forall₂_iff_getElem?.mp h with ⟨hlength, hall⟩
  rw [forall₂_iff_getElem?, List.length_set, List.length_set]
  refine ⟨hlength, ?_⟩
  intro j x' y' hx hy
  rcases getElem?_set_cases hx with ⟨_, rfl⟩ | ⟨hij, hx'⟩
  · rcases getElem?_set_cases hy with ⟨_, rfl⟩ | ⟨hij, _⟩
    · exact hxy
    · contradiction
  · rcases getElem?_set_cases hy with ⟨hij', _⟩ | ⟨_, hy'⟩
    · contradiction
    · exact hothers j x' y' hij hx' hy' (hall j x' y' hx' hy')

theorem forall₂_set (h : List.Forall₂ R xs ys) {i : Nat} {x : α} {y : β} (hxy : R x y) :
    List.Forall₂ R (xs.set i x) (ys.set i y) :=
  forall₂_set_others h hxy fun _ _ _ _ _ _ hold => hold

end Tables

end Foundation
