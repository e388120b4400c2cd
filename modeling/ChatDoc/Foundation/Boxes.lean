import Mathlib.Order.Bounds.Basic

/-!
# Boxes around points of the plane

An axis-parallel box is the hull of a set of points when each of its sides goes
through a point of the set and no point lies beyond one.  The hull of a union is
the join of the hulls.
-/

namespace Foundation

structure Box (α : Type) where
  left : α
  top : α
  right : α
  bottom : α

namespace Box

variable {α : Type} [LinearOrder α] {points points' : Set (α × α)} {b c : Box α}

def join (b c : Box α) : Box α where
  left := min b.left c.left
  top := min b.top c.top
  right := max b.right c.right
  bottom := max b.bottom c.bottom

/-- The least box that contains the points. -/
structure IsHull (points : Set (α × α)) (b : Box α) : Prop where
  left : IsLeast (Prod.fst '' points) b.left
  top : IsLeast (Prod.snd '' points) b.top
  right : IsGreatest (Prod.fst '' points) b.right
  bottom : IsGreatest (Prod.snd '' points) b.bottom

theorem IsHull.unique (h : IsHull points b) (h' : IsHull points c) : b = c := by
  rcases b with ⟨left, top, right, bottom⟩
  rcases c with ⟨left', top', right', bottom'⟩
  have hleft : left = left' := h.left.unique h'.left
  have htop : top = top' := h.top.unique h'.top
  have hright : right = right' := h.right.unique h'.right
  have hbottom : bottom = bottom' := h.bottom.unique h'.bottom
  rw [hleft, htop, hright, hbottom]

theorem IsHull.join (h : IsHull points b) (h' : IsHull points' c) :
    IsHull (points ∪ points') (b.join c) := by
  constructor
  · rw [Set.image_union]
    exact h.left.union h'.left
  · rw [Set.image_union]
    exact h.top.union h'.top
  · rw [Set.image_union]
    exact h.right.union h'.right
  · rw [Set.image_union]
    exact h.bottom.union h'.bottom

end Box
end Foundation
