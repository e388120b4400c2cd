import Mathlib.Data.List.Infix
import Mathlib.Data.Nat.Find

/-!
# Occurrences

Where a pattern stands in a text, the first place of that kind, and how a pattern can
overlap the place it was cut from.
-/

namespace Foundation

variable {γ : Type} {text pattern front back : List γ} {i : Nat}

def OccursAt (text pattern : List γ) (i : Nat) : Prop :=
  forall j, j < pattern.length -> text[i + j]? = pattern[j]?

theorem occursAt_iff_drop : OccursAt text pattern i <-> pattern <+: text.drop i := by
  rw [List.prefix_iff_getElem?]
  constructor
  · intro h j hj
    rw [List.getElem?_drop, h j hj, List.getElem?_eq_getElem hj]
  · intro h j hj
    rw [← List.getElem?_drop, h j hj, List.getElem?_eq_getElem hj]

theorem occursAt_length (front pattern back : List γ) :
    OccursAt (front ++ (pattern ++ back)) pattern front.length := by
  rw [occursAt_iff_drop, List.drop_left]
  exact List.prefix_append pattern back

theorem infix_iff_exists_occursAt : pattern <:+: text <-> exists i, OccursAt text pattern i := by
  constructor
  · rintro ⟨front, back, h⟩
    exact ⟨front.length, by rw [← h, List.append_assoc]; exact occursAt_length front pattern back⟩
  · rintro ⟨i, h⟩
    exact (occursAt_iff_drop.mp h).isInfix.trans (List.drop_suffix i text).isInfix

theorem occursAt_append_left (front : List γ) :
    OccursAt (front ++ text) pattern (front.length + i) <-> OccursAt text pattern i := by
  rw [occursAt_iff_drop, occursAt_iff_drop, List.drop_append, List.drop_eq_nil_of_le]
  · rw [Nat.add_sub_cancel_left]
    rfl
  · exact Nat.le_add_right _ _

theorem OccursAt.left {a b : List γ} (h : OccursAt text (a ++ b) i) : OccursAt text a i := by
  intro j hj
  rw [h j (by rw [List.length_append]; omega), List.getElem?_append_left hj]

theorem OccursAt.right {a b : List γ} (h : OccursAt text (a ++ b) i) :
    OccursAt text b (i + a.length) := by
  intro j hj
  rw [Nat.add_assoc, h (a.length + j) (by rw [List.length_append]; omega),
    List.getElem?_append_right (Nat.le_add_right _ _), Nat.add_sub_cancel_left]

theorem OccursAt.take (h : OccursAt text pattern i) (n : Nat) :
    OccursAt text (pattern.take n) i := by
  rw [← List.take_append_drop n pattern] at h
  exact h.left

theorem OccursAt.le_length (h : OccursAt text pattern i) (hne : pattern ≠ []) :
    i + pattern.length <= text.length := by
  have hpos : 0 < pattern.length := List.length_pos_of_ne_nil hne
  have hlast := h (pattern.length - 1) (by omega)
  rw [List.getElem?_eq_getElem (by omega : pattern.length - 1 < pattern.length)] at hlast
  have hlt := (List.getElem?_eq_some_iff.mp hlast).choose
  omega

theorem occursAt_succ_iff {c : γ} {rest : List γ} :
    OccursAt (c :: rest) pattern (i + 1) <-> OccursAt rest pattern i := by
  rw [occursAt_iff_drop, occursAt_iff_drop, List.drop_succ_cons]

/-!
# The first occurrence
-/

section First

variable [DecidableEq γ]

def indexOf : (text pattern : List γ) -> Option Nat
  | [], pattern => if pattern.isPrefixOf [] then some 0 else none
  | c :: rest, pattern =>
      if pattern.isPrefixOf (c :: rest) then some 0 else (indexOf rest pattern).map (· + 1)

theorem occursAt_zero_iff : OccursAt text pattern 0 <-> pattern.isPrefixOf text = true := by
  rw [occursAt_iff_drop, List.drop_zero, List.isPrefixOf_iff_prefix]

theorem indexOf_eq_some_iff : indexOf text pattern = some i <->
    OccursAt text pattern i ∧ i <= text.length ∧
      forall j, OccursAt text pattern j -> i <= j := by
  induction text generalizing i with
  | nil =>
      rw [indexOf]
      by_cases hfirst : pattern.isPrefixOf ([] : List γ) = true
      · rw [if_pos hfirst, Option.some.injEq]
        have hzero := occursAt_zero_iff.mpr hfirst
        constructor
        · rintro rfl
          exact ⟨hzero, Nat.le_refl 0, fun j _ => Nat.zero_le j⟩
        · rintro ⟨_, hi, _⟩
          exact (Nat.le_zero.mp hi).symm
      · rw [if_neg hfirst]
        refine iff_of_false (fun h => nomatch h) ?_
        rintro ⟨hoccurs, hi, _⟩
        rw [Nat.le_zero.mp hi] at hoccurs
        exact hfirst (occursAt_zero_iff.mp hoccurs)
  | cons c rest ih =>
      rw [indexOf]
      by_cases hfirst : pattern.isPrefixOf (c :: rest) = true
      · rw [if_pos hfirst, Option.some.injEq]
        have hzero := occursAt_zero_iff.mpr hfirst
        constructor
        · rintro rfl
          exact ⟨hzero, Nat.zero_le _, fun j _ => Nat.zero_le j⟩
        · rintro ⟨_, _, hleast⟩
          exact (Nat.le_zero.mp (hleast 0 hzero)).symm
      · rw [if_neg hfirst]
        have hzero : ¬ OccursAt (c :: rest) pattern 0 := mt occursAt_zero_iff.mp hfirst
        cases i with
        | zero =>
            refine iff_of_false ?_ fun h => hzero h.left
            intro h
            rcases Option.map_eq_some_iff.mp h with ⟨k, _, hk⟩
            exact Nat.succ_ne_zero k hk
        | succ i =>
            have hmap : (indexOf rest pattern).map (· + 1) = some (i + 1) <->
                indexOf rest pattern = some i := by
              rw [Option.map_eq_some_iff]
              constructor
              · rintro ⟨k, hk, heq⟩
                rw [hk, Nat.succ_injective heq]
              · intro h
                exact ⟨i, h, rfl⟩
            rw [hmap, ih, occursAt_succ_iff, List.length_cons, Nat.succ_le_succ_iff]
            constructor
            · rintro ⟨hoccurs, hi, hleast⟩
              refine ⟨hoccurs, hi, ?_⟩
              intro j hj
              cases j with
              | zero => exact absurd hj hzero
              | succ j => exact Nat.succ_le_succ (hleast j (occursAt_succ_iff.mp hj))
            · rintro ⟨hoccurs, hi, hleast⟩
              refine ⟨hoccurs, hi, ?_⟩
              intro j hj
              exact Nat.le_of_succ_le_succ (hleast (j + 1) (occursAt_succ_iff.mpr hj))

theorem exists_indexOf (h : OccursAt text pattern i) (hne : pattern ≠ []) :
    exists first, indexOf text pattern = some first ∧ OccursAt text pattern first ∧
      first <= i ∧ forall j, OccursAt text pattern j -> first <= j := by
  classical
  have hexists : exists j, OccursAt text pattern j := ⟨i, h⟩
  have hfirst := Nat.find_spec hexists
  have hleast : forall j, OccursAt text pattern j -> Nat.find hexists <= j :=
    fun j hj => Nat.find_min' hexists hj
  have hlength := hfirst.le_length hne
  exact ⟨Nat.find hexists,
    indexOf_eq_some_iff.mpr ⟨hfirst, by omega, hleast⟩, hfirst, hleast i h, hleast⟩

end First

/-!
# A pattern with a mark in it

A text `front` is followed by a mark in one text and not in another one, or is followed by
two marks there. What is cut out around the mark is then found late in the other text.
-/

section Marks

variable {mark next : γ} {rest : List γ} {e : Nat}

theorem getElem?_front {j : Nat} (hj : j < front.length) :
    (front ++ rest)[j]? = front[j]? :=
  List.getElem?_append_left hj

theorem getElem?_behind (front rest : List γ) (j : Nat) :
    (front ++ rest)[front.length + j]? = rest[j]? := by
  rw [List.getElem?_append_right (Nat.le_add_right _ _), Nat.add_sub_cancel_left]

/-- The mark is missing: an overlap makes the front repeat itself. -/
theorem repeats_of_overlap (h : OccursAt (front ++ next :: rest) (front ++ [mark]) e) {j : Nat}
    (hj : j < front.length) :
    (front ++ next :: rest)[e + j]? = (front ++ next :: rest)[j]? := by
  have hlength : j < (front ++ [mark]).length := by
    rw [List.length_append]
    omega
  rw [h j hlength, getElem?_front hj, getElem?_front hj]

theorem overlap_pos (h : OccursAt (front ++ next :: rest) (front ++ [mark]) e)
    (hne : mark ≠ next) : 0 < e := by
  rw [Nat.pos_iff_ne_zero]
  rintro rfl
  have hmark := h front.length (by rw [List.length_append]; exact Nat.lt_succ_self _)
  have hleft := getElem?_behind front (next :: rest) 0
  have hright := getElem?_behind front [mark] 0
  rw [Nat.zero_add] at hmark
  rw [Nat.add_zero] at hleft hright
  rw [hleft, hright] at hmark
  exact hne (Option.some.inj hmark).symm

/-- The text around the mark that begins as far before it as the overlap is wide. -/
def around (front : List γ) (mark next : γ) (e : Nat) : List γ :=
  front.drop (front.length - e) ++ [mark, next]

theorem length_around (mark next : γ) (he : e <= front.length) :
    (around front mark next e).length = e + 2 := by
  rw [around, List.length_append, List.length_drop]
  simp only [List.length_cons, List.length_nil]
  omega

theorem around_mark (he : e <= front.length) : (around front mark next e)[e]? = some mark := by
  have hlength : (front.drop (front.length - e)).length = e := by
    rw [List.length_drop]
    omega
  have hget := getElem?_behind (front.drop (front.length - e)) [mark, next] 0
  rw [hlength, Nat.add_zero] at hget
  exact hget

theorem around_head (h : OccursAt (front ++ next :: rest) (front ++ [mark]) e)
    (hpos : 0 < e) (he : e < front.length) : (around front mark next e)[0]? = some next := by
  have hin : front.length - e < front.length := by omega
  have hrepeats := repeats_of_overlap h hin
  have hsum : e + (front.length - e) = front.length + 0 := by omega
  rw [hsum, getElem?_behind, getElem?_front hin] at hrepeats
  have hlength : 0 < (front.drop (front.length - e)).length := by
    rw [List.length_drop]
    omega
  rw [around, getElem?_front hlength, List.getElem?_drop, Nat.add_zero, ← hrepeats]
  rfl

theorem around_late (h : OccursAt (front ++ next :: rest) (front ++ [mark]) e)
    (hpos : 0 < e) (he : e < front.length) (hne : mark ≠ next) {i : Nat}
    (hi : OccursAt (front ++ next :: rest) (around front mark next e) i) :
    front.length <= i := by
  by_contra hlt
  have hlength := length_around mark next (Nat.le_of_lt he)
  have hmark := hi e (by omega)
  have hhead := hi 0 (by omega)
  rw [around_mark (Nat.le_of_lt he)] at hmark
  rw [around_head h hpos he, Nat.add_zero] at hhead
  rw [Nat.add_comm, repeats_of_overlap h (by omega), hhead] at hmark
  exact hne (Option.some.inj hmark).symm

theorem around_occursAt (back : List γ) (he : e <= front.length) :
    OccursAt (front ++ mark :: next :: back) (around front mark next e)
      (front.length - e) := by
  have hsplit : front ++ mark :: next :: back =
      front.take (front.length - e) ++ (around front mark next e ++ back) := by
    rw [around, List.append_assoc, ← List.append_assoc, List.take_append_drop]
    rfl
  have hlength : (front.take (front.length - e)).length = front.length - e := by
    rw [List.length_take]
    omega
  have hcut := occursAt_length (front.take (front.length - e))
    (around front mark next e) back
  rw [hlength] at hcut
  rwa [hsplit]

theorem around_first (h : OccursAt (front ++ next :: rest) (front ++ [mark]) e)
    (hpos : 0 < e) (he : e < front.length) (hne : mark ≠ next) {back : List γ} {i : Nat}
    (hi : OccursAt (front ++ mark :: next :: back) (around front mark next e) i) :
    front.length - e <= i := by
  by_contra hlt
  have hlength := length_around mark next (Nat.le_of_lt he)
  have hmark := hi e (by omega)
  have hhead := hi 0 (by omega)
  rw [around_mark (Nat.le_of_lt he), getElem?_front (by omega)] at hmark
  rw [around_head h hpos he, Nat.add_zero, getElem?_front (by omega)] at hhead
  have hrepeats := repeats_of_overlap h (j := i) (by omega)
  rw [getElem?_front (by omega), getElem?_front (by omega), Nat.add_comm, hmark, hhead]
    at hrepeats
  exact hne (Option.some.inj hrepeats)

/-- There is one mark too many: the text around it is not found in the front. -/
theorem doubled_late (hne : mark ≠ next)
    (hapart : forall j, ¬ (front[j]? = some mark ∧ front[j + 1]? = some mark))
    (hlast : front.getLast? ≠ some mark)
    (h : OccursAt (front ++ mark :: mark :: rest) (front ++ [mark, next]) e) :
    front.length <= e := by
  by_contra hlt
  have hlength : (front ++ [mark, next]).length = front.length + 2 := by simp
  have hfirst := h (front.length - e) (by omega)
  have hsecond := h (front.length - e + 1) (by omega)
  have hsum : e + (front.length - e) = front.length + 0 := by omega
  have hsum' : e + (front.length - e + 1) = front.length + 1 := by omega
  rw [hsum, getElem?_behind] at hfirst
  rw [hsum', getElem?_behind] at hsecond
  by_cases hzero : e = 0
  · have hplace : front.length - e + 1 = front.length + 1 := by omega
    rw [hplace, getElem?_behind] at hsecond
    exact hne (Option.some.inj hsecond)
  · rw [getElem?_front (by omega)] at hfirst
    by_cases hone : e = 1
    · rw [List.getLast?_eq_getElem?, ← hone] at hlast
      exact hlast hfirst.symm
    · rw [getElem?_front (by omega)] at hsecond
      exact hapart _ ⟨hfirst.symm, hsecond.symm⟩

end Marks

end Foundation
