import ChatDoc.Foundation.Margins
import ChatDoc.Web.ReferenceText

/-!
# Quotes that are spotted

A quote of the reference text is located when the rectangles are those of the items that it
has characters of. Well spaced items are read as the reference text.
-/

namespace ChatDoc

open Foundation

def Overlaps (text : List Marked) (first length j : Nat) : Prop :=
  exists k c, first <= k ∧ k < first + length ∧ text[k]? = some c ∧ c.2 = some j

/-- There is a rectangle, and rectangles are drawn around the items that the first occurrence
of the quote in the reference text has characters of. -/
def Located (L : CaseMap) (engine : SortEngine compareItems) (pdf : PdfJs)
    (content : List (Option TextItem)) (quote : List CodeUnit) : Prop :=
  let items := engine.sort (textItems content)
  let target := L.normalize quote
  findQuoteRects L engine pdf content quote ≠ [] ∧
    forall first, indexOf (textOf (normalizedReference L items)) target = some first ->
      forall j o, (layoutOf L items).offsets[j]? = some o ->
        (o ∈ matchedOffsets L items target <->
          Overlaps (normalizedReference L items) first target.length j)

def Spotted (L : CaseMap) (items : List TextItem) (target : List CodeUnit) : Prop :=
  exists i n, locate (textOf (markedSpacing.neat (lowerPieces L items))) target = some (i, n) ∧
    forall first, indexOf (textOf (normalizedReference L items)) target = some first ->
      forall j, j < items.length ->
        ((i < markedSpacing.place (lowerPieces L items) (j + 1) ∧
            markedSpacing.place (lowerPieces L items) j < i + n) <->
          Overlaps (normalizedReference L items) first target.length j)

section Places

variable {L : CaseMap} {items : List TextItem} {target : List CodeUnit}

theorem mem_matchedOffsets_iff {j : Nat} {o : Offset}
    (ho : (layoutOf L items).offsets[j]? = some o) :
    o ∈ matchedOffsets L items target <-> exists i n,
      locate (textOf (markedSpacing.neat (lowerPieces L items))) target = some (i, n) ∧
        i < markedSpacing.place (lowerPieces L items) (j + 1) ∧
        markedSpacing.place (lowerPieces L items) j < i + n := by
  have hmem := List.mem_of_getElem? ho
  rw [layoutOf_offsets] at ho
  rcases Option.map_eq_some_iff.mp ho with ⟨item, _, rfl⟩
  simp only [matchedOffsets]
  rw [layoutOf_concatenated]
  cases locate (textOf (markedSpacing.neat (lowerPieces L items))) target with
  | none =>
      refine iff_of_false List.not_mem_nil ?_
      rintro ⟨i, n, hnone, _⟩
      cases hnone
  | some found =>
      rcases found with ⟨i, n⟩
      rw [List.mem_filter, decide_eq_true_iff]
      constructor
      · rintro ⟨_, hstop, hstart⟩
        exact ⟨i, n, rfl, hstop, hstart⟩
      · rintro ⟨i', n', heq, hstop, hstart⟩
        cases heq
        exact ⟨hmem, hstop, hstart⟩

theorem exists_offset {j : Nat} (hj : j < items.length) :
    exists o, (layoutOf L items).offsets[j]? = some o := by
  rw [layoutOf_offsets, List.getElem?_eq_getElem hj]
  exact ⟨_, rfl⟩

variable {engine : SortEngine compareItems} {pdf : PdfJs} {content : List (Option TextItem)}
  {quote : List CodeUnit}

theorem spotted_of_located (hquote : L.normalize quote ≠ [])
    (h : Located L engine pdf content quote) :
    Spotted L (engine.sort (textItems content)) (L.normalize quote) := by
  rcases h with ⟨hrects, hitems⟩
  rw [findQuoteRects_ne_nil_iff hquote] at hrects
  rcases List.exists_mem_of_ne_nil _ hrects with ⟨found, hfound⟩
  have hin : found ∈ (layoutOf L (engine.sort (textItems content))).offsets := by
    simp only [matchedOffsets] at hfound
    split at hfound
    · cases hfound
    · exact (List.mem_filter.mp hfound).left
  rcases List.mem_iff_getElem?.mp hin with ⟨place, hplace⟩
  rcases (mem_matchedOffsets_iff hplace).mp hfound with ⟨i, n, hlocate, _⟩
  refine ⟨i, n, hlocate, ?_⟩
  intro first hfirst j hj
  rcases exists_offset (L := L) hj with ⟨o, ho⟩
  rw [← hitems first hfirst j o ho, mem_matchedOffsets_iff ho]
  constructor
  · exact fun htouch => ⟨i, n, hlocate, htouch⟩
  · rintro ⟨i', n', heq, htouch⟩
    rw [hlocate] at heq
    cases heq
    exact htouch

theorem located_of_spotted (hquote : L.normalize quote ≠ []) {first j : Nat}
    (hspotted : Spotted L (engine.sort (textItems content)) (L.normalize quote))
    (hfirst : indexOf (textOf (normalizedReference L (engine.sort (textItems content))))
      (L.normalize quote) = some first)
    (hj : j < (engine.sort (textItems content)).length)
    (hoverlaps : Overlaps (normalizedReference L (engine.sort (textItems content))) first
      (L.normalize quote).length j) : Located L engine pdf content quote := by
  rcases hspotted with ⟨i, n, hlocate, hitems⟩
  have hmatched : forall first',
      indexOf (textOf (normalizedReference L (engine.sort (textItems content))))
        (L.normalize quote) = some first' ->
      forall j' o, (layoutOf L (engine.sort (textItems content))).offsets[j']? = some o ->
        (o ∈ matchedOffsets L (engine.sort (textItems content)) (L.normalize quote) <->
          Overlaps (normalizedReference L (engine.sort (textItems content))) first'
            (L.normalize quote).length j') := by
    intro first' hfirst' j' o ho
    have hj' : j' < (engine.sort (textItems content)).length := by
      rw [layoutOf_offsets] at ho
      rcases Option.map_eq_some_iff.mp ho with ⟨item, hitem, _⟩
      exact (List.getElem?_eq_some_iff.mp hitem).choose
    rw [← hitems first' hfirst' j' hj', mem_matchedOffsets_iff ho]
    constructor
    · rintro ⟨i', n', heq, htouch⟩
      rw [hlocate] at heq
      cases heq
      exact htouch
    · exact fun htouch => ⟨i, n, hlocate, htouch⟩
  refine ⟨?_, hmatched⟩
  rw [findQuoteRects_ne_nil_iff hquote]
  rcases exists_offset (L := L) hj with ⟨o, ho⟩
  exact List.ne_nil_of_mem ((hmatched first hfirst j o ho).mpr hoverlaps)

end Places

/-!
# Well spaced items
-/

section Aligned

variable {L : CaseMap} {items : List TextItem} {target : List CodeUnit}

theorem getElem?_textOf {text : List Marked} {k : Nat} {c : CodeUnit}
    (h : (textOf text)[k]? = some c) : exists m : Marked, text[k]? = some m ∧ m.1 = c := by
  rw [textOf, List.getElem?_map] at h
  exact Option.map_eq_some_iff.mp h

theorem owned_lowerPieces (L : CaseMap) (items : List TextItem) :
    markedSpacing.Owned Prod.snd (lowerPieces L items) :=
  owned_piecesFrom L.toLowerCase items

theorem spotted_of_aligned (hlower : LowersAlone L items)
    (haligned : markedSpacing.Aligned (lowerPieces L items)) (hne : target ≠ [])
    (hstarts : spacing.starts target = false) (hends : spacing.ends target = false) {first : Nat}
    (hfirst : indexOf (textOf (normalizedReference L items)) target = some first) :
    Spotted L items target ∧ exists j, j < items.length ∧
      Overlaps (normalizedReference L items) first target.length j := by
  rcases haligned.exists_margins with ⟨before, after, hbefore, hafter, hneat, hempty⟩
  rw [← hlower] at hneat hempty
  have hspace : forall c : Marked, c = markedSpacing.blank -> isSpace c.1 = true := by
    rintro c rfl
    rfl
  have hfront : spacing.Empty (textOf before) :=
    empty_textOf.mpr fun c hc => hspace c (hbefore c hc)
  have hback : spacing.Empty (textOf after) :=
    empty_textOf.mpr fun c hc => hspace c (hafter c hc)
  have hindex := Spacing.indexOf_margins hfront hback hne hstarts hends hfirst
  rw [← textOf_append, ← textOf_append, ← hneat, length_textOf] at hindex
  have hlocate := locate_of_indexOf hindex
  have hpos : 0 < target.length := List.length_pos_of_ne_nil hne
  rcases indexOf_eq_some_iff.mp hfirst with ⟨hoccurs, _, _⟩
  have hend := hoccurs.le_length hne
  rw [length_textOf] at hend
  -- A character of the reference text stands behind the margin.
  have hget : forall k, k < (normalizedReference L items).length ->
      (markedSpacing.neat (lowerPieces L items))[before.length + k]? =
        (normalizedReference L items)[k]? := by
    intro k hk
    rw [hneat, List.getElem?_append_right (Nat.le_add_right _ _), Nat.add_sub_cancel_left,
      List.getElem?_append_left hk]
  have howned := owned_lowerPieces L items
  constructor
  · refine ⟨before.length + first, target.length, hlocate, ?_⟩
    intro first' hfirst' j hj
    rw [hfirst] at hfirst'
    cases hfirst'
    have hpiece : j < (lowerPieces L items).length := by
      rw [length_lowerPieces]
      exact hj
    rcases Spacing.space_last hne hends with ⟨c, hc, hcSpace⟩
    rw [← hoccurs _ (by omega)] at hc
    rcases getElem?_textOf hc with ⟨last, hlast, rfl⟩
    rw [← hget _ (by omega)] at hlast
    have hplace : before.length + (first + (target.length - 1)) =
        before.length + first + target.length - 1 := by omega
    rw [hplace] at hlast
    rw [howned.touches_iff (List.getElem?_eq_getElem hpiece)
      (fun hnothing => ?_) hpos hlast hcSpace]
    · constructor
      · rintro ⟨k, d, hle, hlt, hd, hown⟩
        have hk : before.length + (k - before.length) = k := by omega
        rw [← hk, hget _ (by omega)] at hd
        exact ⟨k - before.length, d, by omega, by omega, hd, hown⟩
      · rintro ⟨k, d, hle, hlt, hd, hown⟩
        rw [← hget k (by omega)] at hd
        exact ⟨before.length + k, d, by omega, by omega, hd, hown⟩
    · rcases hempty j _ (List.getElem?_eq_getElem hpiece) hnothing with hle | hle
      · exact .inl (by omega)
      · exact .inr (by omega)
  · rcases Spacing.space_head hne hstarts with ⟨c, hc, hcSpace⟩
    rw [← hoccurs 0 hpos, Nat.add_zero] at hc
    rcases getElem?_textOf hc with ⟨head, hhead, rfl⟩
    have hneatHead := hhead
    rw [← hget first (by omega)] at hneatHead
    rcases Spacing.exists_place (List.getElem?_eq_some_iff.mp hneatHead).choose with
      ⟨j, f, hf, hle, hlt⟩
    have hown := howned.of_place hf hle hlt hneatHead hcSpace
    have hj := (List.getElem?_eq_some_iff.mp hf).choose
    rw [length_lowerPieces] at hj
    exact ⟨j, hj, first, head, Nat.le_refl _, by omega, hhead, hown⟩

end Aligned

end ChatDoc
