import Mathlib.Data.List.Forall2

/-!
# Loops that may raise

A loop over a list returns a list when each of its rounds returns, and then it
has the results of the rounds at their places.
-/

namespace Foundation

variable {α β γ ε : Type}

theorem bind_eq_ok {x : Except ε α} {f : α -> Except ε β} {b : β} :
    (x >>= f) = .ok b <-> exists a, x = .ok a ∧ f a = .ok b := by
  cases x with
  | error e =>
      constructor
      · intro h
        cases h
      · intro hall
        rcases hall with ⟨_, hok, _⟩
        cases hok
  | ok a =>
      constructor
      · intro h
        exact ⟨a, rfl, h⟩
      · intro hall
        rcases hall with ⟨_, hok, hf⟩
        cases hok
        exact hf

theorem mapM_eq_ok {f : α -> Except ε β} {xs : List α} {ys : List β} :
    xs.mapM f = .ok ys <-> List.Forall₂ (fun x y => f x = .ok y) xs ys := by
  induction xs generalizing ys with
  | nil =>
      rw [List.mapM_nil, List.forall₂_nil_left_iff]
      constructor
      · intro h
        cases h
        rfl
      · intro h
        rw [h]
        rfl
  | cons x rest ih =>
      rw [List.mapM_cons, bind_eq_ok]
      constructor
      · intro hall
        rcases hall with ⟨y, hy, hrest⟩
        rcases bind_eq_ok.mp hrest with ⟨ys', hys', hpair⟩
        cases hpair
        exact .cons hy (ih.mp hys')
      · intro hall
        cases hall with
        | cons hy hrest => exact ⟨_, hy, bind_eq_ok.mpr ⟨_, ih.mpr hrest, rfl⟩⟩

theorem forall₂_of_mapM {f : α -> Except ε β} {g : α -> Except ε γ} {R : β -> γ -> Prop}
    {xs : List α} {ys : List β} {zs : List γ} (hys : xs.mapM f = .ok ys)
    (hzs : xs.mapM g = .ok zs)
    (h : forall x y z, x ∈ xs -> f x = .ok y -> g x = .ok z -> R y z) :
    List.Forall₂ R ys zs := by
  induction xs generalizing ys zs with
  | nil =>
      cases hys
      cases hzs
      exact .nil
  | cons x rest ih =>
      rw [mapM_eq_ok] at hys hzs
      cases hys with
      | cons hy hyrest =>
          cases hzs with
          | cons hz hzrest =>
              refine .cons (h _ _ _ List.mem_cons_self hy hz) ?_
              exact ih (mapM_eq_ok.mpr hyrest) (mapM_eq_ok.mpr hzrest)
                fun x' y z hx' => h x' y z (List.mem_cons_of_mem _ hx')

theorem exists_of_mem_forall₂ {R : α -> β -> Prop} {xs : List α} {ys : List β}
    (h : List.Forall₂ R xs ys) {y : β} (hy : y ∈ ys) :
    exists x, x ∈ xs ∧ R x y := by
  induction h with
  | nil => cases hy
  | @cons x y' xs ys hxy _ ih =>
      rcases List.mem_cons.mp hy with rfl | hrest
      · exact ⟨x, List.mem_cons_self, hxy⟩
      · rcases ih hrest with ⟨x', hx', hR⟩
        exact ⟨x', List.mem_cons_of_mem _ hx', hR⟩

theorem pairwise_of_mapM {f : α -> Except ε β} {S : α -> α -> Prop} {R : β -> β -> Prop}
    {xs : List α} {ys : List β} (hys : xs.mapM f = .ok ys) (hxs : xs.Pairwise S)
    (h : forall x x' y y', S x x' -> f x = .ok y -> f x' = .ok y' -> R y y') :
    ys.Pairwise R := by
  rw [mapM_eq_ok] at hys
  induction hys with
  | nil => exact .nil
  | @cons x y rest ys' hy hrest ih =>
      rw [List.pairwise_cons] at hxs ⊢
      refine ⟨?_, ih hxs.2⟩
      intro y' hy'
      rcases exists_of_mem_forall₂ hrest hy' with ⟨x', hx', hround⟩
      exact h x x' y y' (hxs.1 x' hx') hy hround

theorem countP_le_of_forall₂ {p : α -> Bool} {q : β -> Bool} {xs : List α}
    {ys : List β}
    (h : List.Forall₂ (fun x y => p x = true -> q y = true) xs ys) :
    xs.countP p ≤ ys.countP q := by
  induction h with
  | nil => exact Nat.le_refl _
  | @cons x y xs ys hxy _ ih =>
      rw [List.countP_cons, List.countP_cons]
      split
      next hp =>
        rw [if_pos (hxy hp)]
        omega
      next => omega

theorem foldlM_invariant (inv : β -> Prop) {f : β -> α -> Except ε β} {xs : List α}
    {b b' : β} (hstart : inv b)
    (hstep : forall b a b', a ∈ xs -> inv b -> f b a = .ok b' -> inv b')
    (h : xs.foldlM f b = .ok b') : inv b' := by
  induction xs generalizing b with
  | nil =>
      cases h
      exact hstart
  | cons a rest ih =>
      rw [List.foldlM_cons, bind_eq_ok] at h
      rcases h with ⟨c, hfirst, hrest⟩
      exact ih (hstep b a c List.mem_cons_self hstart hfirst)
        (fun b a b' ha => hstep b a b' (List.mem_cons_of_mem _ ha)) hrest

theorem mem_of_foldlM {f : β -> α -> Except ε β} (items : β -> List γ)
    (made : α -> γ -> Prop) {xs : List α} {b b' : β} (hstart : items b = [])
    (hstep : forall b a b', a ∈ xs -> f b a = .ok b' ->
      forall y, y ∈ items b' -> y ∈ items b ∨ made a y)
    (h : xs.foldlM f b = .ok b') {y : γ} (hy : y ∈ items b') :
    exists a, a ∈ xs ∧ made a y := by
  revert y
  refine foldlM_invariant (fun b => forall {y}, y ∈ items b -> exists a, a ∈ xs ∧ made a y)
    ?_ ?_ h
  · intro y hy
    rw [hstart] at hy
    cases hy
  · intro b a b' ha hgood hturn y hy
    rcases hstep b a b' ha hturn y hy with hold | hnew
    · exact hgood hold
    · exact ⟨a, ha, hnew⟩

theorem filterM_eq_ok {p : α -> Except ε Bool} {q : α -> Bool} {xs : List α}
    (h : forall x, x ∈ xs -> p x = .ok (q x)) : xs.filterM p = .ok (xs.filter q) := by
  have haux (ys acc : List α) (hys : forall y, y ∈ ys -> p y = .ok (q y)) :
      List.filterAuxM p ys acc = .ok ((ys.filter q).reverse ++ acc) := by
    induction ys generalizing acc with
    | nil => rfl
    | cons y rest ih =>
        have hstep : List.filterAuxM p (y :: rest) acc =
            p y >>= fun b => List.filterAuxM p rest (cond b (y :: acc) acc) := rfl
        rw [hstep, hys y List.mem_cons_self]
        apply Eq.trans (ih _ fun z hz => hys z (List.mem_cons_of_mem y hz))
        cases hq : q y with
        | true => simp [hq]
        | false => simp [hq]
  have hfilter : xs.filterM p = List.filterAuxM p xs [] >>= fun ys => .ok ys.reverse := rfl
  rw [hfilter, haux xs [] h, List.append_nil]
  exact congrArg Except.ok (List.reverse_reverse _)

end Foundation
