import ChatDoc.Foundation.Occurrence
import ChatDoc.Foundation.Whitespace

/-!
# Margins of a text

A pattern that begins and ends with characters is not found in the white space around a
text.
-/

namespace Foundation

namespace Spacing

variable {α : Type} {S : Spacing α} {before text after pattern : List α} {i : Nat}

theorem space_head (hne : pattern ≠ []) (hstarts : S.starts pattern = false) :
    exists c, pattern[0]? = some c ∧ S.space c = false := by
  cases pattern with
  | nil => exact absurd rfl hne
  | cons c rest => exact ⟨c, rfl, hstarts⟩

theorem space_last (hne : pattern ≠ []) (hends : S.ends pattern = false) :
    exists c, pattern[pattern.length - 1]? = some c ∧ S.space c = false := by
  rw [ends, List.getLast?_eq_some_getLast hne] at hends
  refine ⟨pattern.getLast hne, ?_, hends⟩
  rw [← List.getLast?_eq_getElem?, List.getLast?_eq_some_getLast hne]

theorem le_of_occursAt_margin (hbefore : S.Empty before) (hne : pattern ≠ [])
    (hstarts : S.starts pattern = false) (h : OccursAt (before ++ text) pattern i) :
    before.length <= i := by
  by_contra hlt
  rcases space_head hne hstarts with ⟨c, hc, hspace⟩
  have hfirst := h 0 (List.length_pos_of_ne_nil hne)
  rw [Nat.add_zero, List.getElem?_append_left (Nat.lt_of_not_le hlt), hc] at hfirst
  have hin := hbefore c (List.mem_of_getElem? hfirst)
  exact Bool.false_ne_true (hspace.symm.trans hin)

theorem add_le_of_occursAt_margin (hafter : S.Empty after) (hne : pattern ≠ [])
    (hends : S.ends pattern = false) (h : OccursAt (text ++ after) pattern i) :
    i + pattern.length <= text.length := by
  by_contra hlt
  rcases space_last hne hends with ⟨c, hc, hspace⟩
  have hpos : 0 < pattern.length := List.length_pos_of_ne_nil hne
  have hlast := h (pattern.length - 1) (by omega)
  rw [List.getElem?_append_right (by omega), hc] at hlast
  have hin := hafter c (List.mem_of_getElem? hlast)
  exact Bool.false_ne_true (hspace.symm.trans hin)

theorem indexOf_margins [DecidableEq α] (hbefore : S.Empty before) (hafter : S.Empty after)
    (hne : pattern ≠ []) (hstarts : S.starts pattern = false)
    (hends : S.ends pattern = false) (h : indexOf text pattern = some i) :
    indexOf (before ++ (text ++ after)) pattern = some (before.length + i) := by
  rcases indexOf_eq_some_iff.mp h with ⟨hoccurs, hle, hleast⟩
  apply indexOf_eq_some_iff.mpr
  have hend := hoccurs.le_length hne
  refine ⟨?_, ?_, ?_⟩
  · apply (occursAt_append_left before).mpr
    intro j hj
    rw [List.getElem?_append_left (by omega)]
    exact hoccurs j hj
  · rw [List.length_append, List.length_append]
    omega
  · intro j hj
    have hfront := le_of_occursAt_margin hbefore hne hstarts hj
    have hinner : OccursAt (text ++ after) pattern (j - before.length) := by
      apply (occursAt_append_left before).mp
      rwa [Nat.add_sub_cancel' hfront]
    have hback := add_le_of_occursAt_margin hafter hne hends hinner
    have htext : OccursAt text pattern (j - before.length) := by
      intro k hk
      rw [← hinner k hk, List.getElem?_append_left (by omega)]
    have hfirst := hleast _ htext
    omega

theorem indexOf_behind [DecidableEq α] (hbefore : S.Empty before) (hne : pattern ≠ [])
    (hstarts : S.starts pattern = false) (after : List α) :
    indexOf (before ++ (pattern ++ after)) pattern = some before.length := by
  apply indexOf_eq_some_iff.mpr
  refine ⟨occursAt_length before pattern after, ?_, ?_⟩
  · rw [List.length_append]
    omega
  · intro j hj
    exact le_of_occursAt_margin hbefore hne hstarts hj

end Spacing

end Foundation
