import Mathlib.Data.List.Basic

/-!
# Separators

A field that ends at the first character of some kind is read back from what follows it.
-/

namespace Foundation

variable {α : Type}

theorem field_unique {p : α -> Prop} {xs ys u v : List α} {a b : α}
    (hxs : forall x, x ∈ xs -> p x) (hys : forall y, y ∈ ys -> p y) (ha : ¬ p a)
    (hb : ¬ p b) (h : xs ++ a :: u = ys ++ b :: v) : xs = ys ∧ a = b ∧ u = v := by
  induction xs generalizing ys with
  | nil =>
      cases ys with
      | nil =>
          injection h with hab huv
          exact ⟨rfl, hab, huv⟩
      | cons y ys =>
          injection h with hay _
          exact absurd (hay ▸ hys y List.mem_cons_self) ha
  | cons x xs ih =>
      cases ys with
      | nil =>
          injection h with hxb _
          exact absurd (hxb ▸ hxs x List.mem_cons_self) hb
      | cons y ys =>
          injection h with hxy hrest
          rcases ih (fun z hz => hxs z (List.mem_cons_of_mem x hz))
            (fun z hz => hys z (List.mem_cons_of_mem y hz)) hrest with ⟨heq, hab, huv⟩
          exact ⟨by rw [hxy, heq], hab, huv⟩

theorem field_unique_of_notMem {sep : α} {xs ys u v : List α} (hxs : sep ∉ xs)
    (hys : sep ∉ ys) (h : xs ++ sep :: u = ys ++ sep :: v) : xs = ys ∧ u = v := by
  have hfield := field_unique (p := fun x => x ≠ sep)
    (fun x hx => ne_of_mem_of_not_mem hx hxs) (fun y hy => ne_of_mem_of_not_mem hy hys)
    (not_not.mpr rfl) (not_not.mpr rfl) h
  exact ⟨hfield.left, hfield.right.right⟩

theorem last_field_unique {sep : α} {xs ys u v : List α} (hxs : sep ∉ xs) (hys : sep ∉ ys)
    (h : u ++ sep :: xs = v ++ sep :: ys) : u = v ∧ xs = ys := by
  have hreverse := congrArg List.reverse h
  rw [List.reverse_append, List.reverse_append, List.reverse_cons, List.reverse_cons,
    List.append_assoc, List.append_assoc, List.singleton_append, List.singleton_append]
    at hreverse
  rcases field_unique_of_notMem (mt List.mem_reverse.mp hxs) (mt List.mem_reverse.mp hys)
    hreverse with ⟨hfield, hrest⟩
  exact ⟨List.reverse_inj.mp hrest, List.reverse_inj.mp hfield⟩

theorem notMem_intercalate {sep c : α} (hsep : c ≠ sep) {words : List (List α)}
    (h : forall word, word ∈ words -> c ∉ word) : c ∉ [sep].intercalate words := by
  induction words with
  | nil => exact List.not_mem_nil
  | cons word rest ih =>
      have hword := h word List.mem_cons_self
      cases rest with
      | nil => rwa [List.intercalate_singleton]
      | cons next rest =>
          rw [List.intercalate_cons_cons, List.append_assoc]
          simp [hword, hsep, ih fun w hw => h w (List.mem_cons_of_mem word hw)]

/-!
# Markers

A marker whose first character does not come again in it cannot overlap another occurrence
of itself.
-/

section Markers

variable {sep : α} {rest : List α}

/-- No occurrence of the marker starts within a text that does not have it, also where the
text goes on with the marker. -/
theorem marker_after {xs front back v : List α} (hsep : sep ∉ rest)
    (hxs : ¬ sep :: rest <:+: xs)
    (h : front ++ (sep :: rest ++ back) = xs ++ (sep :: rest ++ v)) :
    xs.length <= front.length := by
  rcases List.append_eq_append_iff.mp h with ⟨w, hw, hmarker⟩ | ⟨w, hw, _⟩
  · cases w with
    | nil =>
        apply Nat.le_of_eq
        rw [hw, List.append_nil]
    | cons a w =>
        exfalso
        rw [List.cons_append, List.cons_append] at hmarker
        injection hmarker with ha hrest
        subst ha
        rcases List.append_eq_append_iff.mp hrest with ⟨z, hz, _⟩ | ⟨z, hz, htail⟩
        · exact hxs ⟨front, z, by rw [hw, hz, List.append_assoc]; rfl⟩
        · cases z with
          | nil =>
              rw [List.append_nil] at hz
              exact hxs ⟨front, [], by rw [hw, hz, List.append_nil]⟩
          | cons b z =>
              injection htail with hb _
              rw [hz, ← hb] at hsep
              exact hsep (List.mem_append_right _ List.mem_cons_self)
  · rw [hw, List.length_append]
    exact Nat.le_add_right _ _

theorem marker_unique {xs ys u v : List α} (hsep : sep ∉ rest)
    (hxs : ¬ sep :: rest <:+: xs) (hys : ¬ sep :: rest <:+: ys)
    (h : xs ++ (sep :: rest ++ u) = ys ++ (sep :: rest ++ v)) : xs = ys ∧ u = v := by
  have hlength : xs.length = ys.length :=
    Nat.le_antisymm (marker_after hsep hxs h.symm) (marker_after hsep hys h)
  rcases List.append_inj h hlength with ⟨heq, htail⟩
  exact ⟨heq, List.append_cancel_left htail⟩

theorem marker_infix_append {front xs : List α} (hfront : sep ∉ front)
    (h : sep :: rest <:+: front ++ xs) : sep :: rest <:+: xs := by
  rcases h with ⟨s, t, hst⟩
  rw [List.append_assoc] at hst
  rcases List.append_eq_append_iff.mp hst with ⟨w, hw, hmarker⟩ | ⟨w, hw, hxs⟩
  · cases w with
    | nil => exact ⟨[], t, by rw [← List.nil_append xs, ← hmarker]; rfl⟩
    | cons a w =>
        injection hmarker with ha _
        rw [hw, ← ha] at hfront
        exact absurd (List.mem_append_right _ List.mem_cons_self) hfront
  · exact ⟨w, t, by rw [hxs, List.append_assoc]⟩

end Markers

end Foundation
