import Mathlib.Data.List.Forall2

/-!
# Queued updates

A state that is only changed by functions of its previous value.  The updates
are queued, and what is shown is the state after those of them that have been
rendered: one that is urgent is rendered at once, any other may be skipped until
later, and once rendered an update stays so.
-/

namespace Foundation

structure Queued (update : Type) where
  update : update
  rendered : Bool

variable {state update : Type}

/-- Apply the updates in order.  One that cannot be applied raises. -/
def applyAll (apply : state -> update -> Option state) (s : state)
    (updates : List update) : Option state :=
  updates.foldlM apply s

def allUpdates (queue : List (Queued update)) : List update :=
  queue.map Queued.update

def renderedUpdates (queue : List (Queued update)) : List update :=
  allUpdates (queue.filter Queued.rendered)

def render (more : Nat -> Bool) (queue : List (Queued update)) : List (Queued update) :=
  queue.mapIdx fun i e => { e with rendered := e.rendered || more i }

def Rendered (queue queue' : List (Queued update)) : Prop :=
  List.Forall₂ (fun e e' => e'.update = e.update ∧
    (e.rendered = true -> e'.rendered = true)) queue queue'

section Lists

variable {queue queue' : List (Queued update)} {e : Queued update}

theorem allUpdates_snoc : allUpdates (queue ++ [e]) = allUpdates queue ++ [e.update] :=
  List.map_append

theorem renderedUpdates_snoc (h : e.rendered = true) :
    renderedUpdates (queue ++ [e]) = renderedUpdates queue ++ [e.update] := by
  unfold renderedUpdates
  rw [List.filter_append, List.filter_singleton, h]
  exact allUpdates_snoc

theorem renderedUpdates_waiting (h : e.rendered = false) :
    renderedUpdates (queue ++ [e]) = renderedUpdates queue := by
  unfold renderedUpdates
  rw [List.filter_append, List.filter_singleton, h]
  exact congrArg allUpdates (List.append_nil _)

theorem rendered_render (more : Nat -> Bool) (queue : List (Queued update)) :
    Rendered queue (render more queue) := by
  induction queue generalizing more with
  | nil => exact .nil
  | cons e rest ih =>
      unfold render
      rw [List.mapIdx_cons]
      refine .cons ⟨rfl, fun h => by simp [h]⟩ (ih fun i => more (i + 1))

theorem rendered_refl (queue : List (Queued update)) : Rendered queue queue := by
  induction queue with
  | nil => exact .nil
  | cons e rest ih => exact .cons ⟨rfl, id⟩ ih

theorem rendered_all (queue : List (Queued update)) :
    Rendered queue (queue.map fun e => { e with rendered := true }) := by
  induction queue with
  | nil => exact .nil
  | cons e rest ih => exact .cons ⟨rfl, fun _ => rfl⟩ ih

theorem renderedUpdates_all (queue : List (Queued update)) :
    renderedUpdates (queue.map fun e => { e with rendered := true }) = allUpdates queue := by
  unfold renderedUpdates allUpdates
  rw [List.filter_eq_self.mpr, List.map_map]
  · rfl
  · intro e he
    rcases List.mem_map.mp he with ⟨old, _, rfl⟩
    rfl

theorem allUpdates_of_rendered (h : Rendered queue queue') :
    allUpdates queue' = allUpdates queue := by
  induction h with
  | nil => rfl
  | cons hhead _ ih =>
      unfold allUpdates at ih ⊢
      rw [List.map_cons, List.map_cons, ih, hhead.left]

theorem mem_of_rendered {e' : Queued update} (h : Rendered queue queue') (he : e' ∈ queue') :
    exists e, e ∈ queue ∧ e'.update = e.update ∧
      (e.rendered = true -> e'.rendered = true) := by
  induction h with
  | nil => cases he
  | @cons e e'' rest rest' hhead _ ih =>
      rcases List.mem_cons.mp he with rfl | hin
      · exact ⟨e, List.mem_cons_self, hhead⟩
      · rcases ih hin with ⟨e1, he1, hsame⟩
        exact ⟨e1, List.mem_cons_of_mem _ he1, hsame⟩

end Lists

variable {apply : state -> update -> Option state}

theorem applyAll_snoc {s : state} {updates : List update} {u : update} :
    applyAll apply s (updates ++ [u]) = (applyAll apply s updates).bind fun t => apply t u := by
  unfold applyAll
  rw [List.foldlM_append]
  refine congrArg (Option.bind _) (funext fun t => ?_)
  rw [List.foldlM_cons]
  exact bind_pure (apply t u)

/-- How a state that has skipped some updates stands to one that has skipped
fewer, as long as these updates are still to come. -/
structure Lagging (apply : state -> update -> Option state) (skippable : update -> Prop)
    (lag : List update -> state -> state -> Prop) : Prop where
  both : forall {u rest s s'}, lag (u :: rest) s s' ->
    exists t t', apply s u = some t ∧ apply s' u = some t' ∧ lag rest t t'
  later : forall {u rest s s'}, lag (u :: rest) s s' -> skippable u ->
    exists t', apply s' u = some t' ∧ lag rest s t'
  neither : forall {u rest s s'}, lag (u :: rest) s s' -> skippable u -> lag rest s s'

theorem Lagging.views {skippable : update -> Prop}
    {lag : List update -> state -> state -> Prop} (hlag : Lagging apply skippable lag)
    {queue queue' : List (Queued update)} {s s' : state} (hmore : Rendered queue queue')
    (hskip : forall e, e ∈ queue -> e.rendered = false -> skippable e.update)
    (h : lag (allUpdates queue) s s') :
    exists t t', applyAll apply s (renderedUpdates queue) = some t ∧
      applyAll apply s' (renderedUpdates queue') = some t' ∧ lag [] t t' := by
  induction hmore generalizing s s' with
  | nil => exact ⟨s, s', rfl, rfl, h⟩
  | @cons e e' rest rest' hhead hrest ih =>
      rcases e with ⟨u, now⟩
      rcases e' with ⟨u', now'⟩
      rcases hhead with ⟨hsame, hstays⟩
      replace hsame : u' = u := hsame
      subst hsame
      have hskip' : forall e, e ∈ rest -> e.rendered = false -> skippable e.update :=
        fun e he => hskip e (List.mem_cons_of_mem _ he)
      cases now with
      | true =>
          cases hstays rfl
          rcases hlag.both h with ⟨t, t', ht, ht', hnext⟩
          rcases ih hskip' hnext with ⟨v, v', hv, hv', hend⟩
          exact ⟨v, v', (congrArg (Option.bind · _) ht).trans hv,
            (congrArg (Option.bind · _) ht').trans hv', hend⟩
      | false =>
          have hmay : skippable u' := hskip _ List.mem_cons_self rfl
          cases now' with
          | true =>
              rcases hlag.later h hmay with ⟨t', ht', hnext⟩
              rcases ih hskip' hnext with ⟨v, v', hv, hv', hend⟩
              exact ⟨v, v', hv, (congrArg (Option.bind · _) ht').trans hv', hend⟩
          | false =>
              rcases ih hskip' (hlag.neither h hmay) with ⟨v, v', hv, hv', hend⟩
              exact ⟨v, v', hv, hv', hend⟩

end Foundation
