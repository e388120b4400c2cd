import ChatDoc.Foundation.Boxes
import ChatDoc.Foundation.KeyedRows
import ChatDoc.Web.QuoteSearch
import Mathlib.Data.List.Dedup
import Mathlib.Tactic.Ring

/-!
# What a click on a citation highlights

The rectangles that `PdfViewer.tsx` draws for the citations of a chip: around the text
items that a quote meets, one for each line, and around the box of the chunk where the
quote is not found.  A page on which nothing is found flashes.
-/

namespace ChatDoc

open Foundation

/-!
# The rectangles of a click
-/

structure HighlightItem where
  bbox : Option (Rat × Rat × Rat × Rat)
  quote : List CodeUnit

/-- `bboxRect`; the page has its height in points. -/
def bboxRect (pdf : PdfJs) (pageHeight : Rat) (bbox : Rat × Rat × Rat × Rat) : Rect :=
  let x0 := bbox.1
  let y0 := bbox.2.1
  let x1 := bbox.2.2.1
  let y1 := bbox.2.2.2
  let v0 := pdf.convertToViewportPoint x0 (pageHeight - y1)
  let v1 := pdf.convertToViewportPoint x1 (pageHeight - y0)
  { left := min v0.1 v1.1
    top := min v0.2 v1.2
    width := |v1.1 - v0.1|
    height := |v1.2 - v0.2| }

section Click

variable (L : CaseMap) (engine : SortEngine compareItems) (pdf : PdfJs) (pageHeight : Rat)
  (content : Option (List (Option TextItem)))

/-- The rectangles of one citation. There is no content where `getTextContent` throws. -/
def itemRects (item : HighlightItem) : List Rect :=
  let found :=
    match content with
    | none => []
    | some content =>
        if item.quote = [] then [] else findQuoteRects L engine pdf content item.quote
  match found, item.bbox with
  | [], some bbox => [bboxRect pdf pageHeight bbox]
  | found, _ => found

/-- `allFound`, for the citations of the target. -/
def allFound (items : List HighlightItem) : List Rect :=
  items.flatMap (itemRects L engine pdf pageHeight content)

def quotedItems (item : HighlightItem) : List TextItem :=
  match content with
  | none => []
  | some content =>
      if L.normalize item.quote = [] then []
      else (matchedOffsets L (engine.sort (textItems content))
        (L.normalize item.quote)).map Offset.item

/-- `highlightPage`, `highlightRects` and `flashPage`. -/
structure Highlighting where
  highlightPage : Option Nat
  highlightRects : List Rect
  flashPage : Option Nat
deriving DecidableEq

/-- What the effect of a click leaves, unless it is cancelled by another one. -/
def clickEffect (page : Nat) (items : List HighlightItem) : Highlighting :=
  let allFound := allFound L engine pdf pageHeight content items
  if 0 < allFound.length then
    { highlightPage := some page, highlightRects := allFound, flashPage := none }
  else { highlightPage := none, highlightRects := [], flashPage := some page }

end Click

def highlightPadPx : Rat := 2

/-- The style of a highlight. -/
def Rect.padded (r : Rect) : Rect where
  left := r.left - highlightPadPx
  top := r.top - highlightPadPx
  width := r.width + highlightPadPx * 2
  height := r.height + highlightPadPx * 2

/-- The highlights that are drawn on a page. -/
def Highlighting.drawnOn (s : Highlighting) (n : Nat) : List Rect :=
  if s.highlightPage = some n then s.highlightRects.map Rect.padded else []

/-!
# Rectangles as boxes
-/

def Rect.box (r : Rect) : Box Rat where
  left := r.left
  top := r.top
  right := r.left + r.width
  bottom := r.top + r.height

theorem Rect.box_injective {r r' : Rect} (h : r.box = r'.box) : r = r' := by
  rcases r with ⟨left, top, width, height⟩
  rcases r' with ⟨left', top', width', height'⟩
  simp only [Rect.box, Box.mk.injEq] at h
  rcases h with ⟨rfl, rfl, hright, hbottom⟩
  rw [add_left_cancel hright, add_left_cancel hbottom]

theorem box_merge (r r' : Rect) : (r.merge r').box = r.box.join r'.box := by
  simp [Rect.box, Rect.merge, Box.join]

def cornersOf (pdf : PdfJs) (items : List TextItem) : Set (Rat × Rat) :=
  {p | exists item, item ∈ items ∧ p ∈ corners pdf item}

def Drawn (pdf : PdfJs) (items : List TextItem) (r : Rect) : Prop :=
  r.box.IsHull (cornersOf pdf items)

section Lines

variable {pdf : PdfJs} {items : List TextItem} {item : TextItem} {r : Rect}

theorem isLeast_min? {xs : List Rat} (h : xs ≠ []) :
    IsLeast {x | x ∈ xs} (xs.min?.getD 0) := by
  cases hmin : xs.min? with
  | none => exact absurd (List.min?_eq_none_iff.mp hmin) h
  | some m => exact List.min?_eq_some_iff.mp hmin

theorem isGreatest_max? {xs : List Rat} (h : xs ≠ []) :
    IsGreatest {x | x ∈ xs} (xs.max?.getD 0) := by
  cases hmax : xs.max? with
  | none => exact absurd (List.max?_eq_none_iff.mp hmax) h
  | some m => exact List.max?_eq_some_iff.mp hmax

theorem drawn_itemRect (item : TextItem) : Drawn pdf [item] (itemRect pdf item) := by
  have hne : corners pdf item ≠ [] := List.cons_ne_nil _ _
  have himage (f : Rat × Rat -> Rat) :
      f '' cornersOf pdf [item] = {x | x ∈ (corners pdf item).map f} := by
    ext x
    constructor
    · rintro ⟨p, ⟨item', hitem, hp⟩, hx⟩
      rw [List.mem_singleton.mp hitem] at hp
      exact List.mem_map.mpr ⟨p, hp, hx⟩
    · intro hx
      rcases List.mem_map.mp hx with ⟨p, hp, hx⟩
      exact ⟨p, ⟨item, List.mem_singleton_self item, hp⟩, hx⟩
  have hmap (f : Rat × Rat -> Rat) : (corners pdf item).map f ≠ [] :=
    mt List.map_eq_nil_iff.mp hne
  constructor
  · rw [himage]
    exact isLeast_min? (hmap Prod.fst)
  · rw [himage]
    exact isLeast_min? (hmap Prod.snd)
  · rw [himage]
    have hright : (itemRect pdf item).box.right =
        (((corners pdf item).map Prod.fst).max?.getD 0) := add_sub_cancel _ _
    rw [hright]
    exact isGreatest_max? (hmap Prod.fst)
  · rw [himage]
    have hbottom : (itemRect pdf item).box.bottom =
        (((corners pdf item).map Prod.snd).max?.getD 0) := add_sub_cancel _ _
    rw [hbottom]
    exact isGreatest_max? (hmap Prod.snd)

theorem drawn_merge (h : Drawn pdf items r) :
    Drawn pdf (items ++ [item]) (r.merge (itemRect pdf item)) := by
  unfold Drawn
  rw [box_merge]
  have hunion : cornersOf pdf (items ++ [item]) =
      cornersOf pdf items ∪ cornersOf pdf [item] := by
    ext p
    constructor
    · rintro ⟨item', hitem, hp⟩
      rcases List.mem_append.mp hitem with hold | hnew
      · exact .inl ⟨item', hold, hp⟩
      · exact .inr ⟨item', hnew, hp⟩
    · rintro (⟨item', hitem, hp⟩ | ⟨item', hitem, hp⟩)
      · exact ⟨item', List.mem_append_left _ hitem, hp⟩
      · exact ⟨item', List.mem_append_right _ hitem, hp⟩
  rw [hunion]
  exact h.join (drawn_itemRect item)

theorem addToLine_eq_collect (pdf : PdfJs) :
    addToLine pdf = collect lineKeyOf (itemRect pdf) Rect.merge := by
  funext lines item
  simp only [addToLine, collect]
  cases lines.lookup (lineKeyOf item) with
  | none => rfl
  | some existing => rfl

theorem lines_collected (pdf : PdfJs) (items : List TextItem) :
    Collected lineKeyOf (Drawn pdf) items (items.foldl (addToLine pdf) []) := by
  have h : Collected lineKeyOf (Drawn pdf) ([] ++ items)
      (items.foldl (collect lineKeyOf (itemRect pdf) Rect.merge) []) :=
    collected_foldl drawn_itemRect (fun _ _ _ h => drawn_merge h) (collected_nil _) items
  rw [addToLine_eq_collect]
  exact h

theorem length_lineRects (pdf : PdfJs) (items : List TextItem) :
    (lineRects pdf items).length = (items.map lineKeyOf).dedup.length := by
  have h := lines_collected pdf items
  have hkeys : ((items.foldl (addToLine pdf) []).map Prod.fst).Perm
      (items.map lineKeyOf).dedup := by
    rw [List.perm_ext_iff_of_nodup h.nodup (List.nodup_dedup _)]
    intro k
    rw [h.keys k, List.mem_dedup, List.mem_map]
  calc (lineRects pdf items).length
      = (items.foldl (addToLine pdf) []).length := List.length_map _
    _ = ((items.foldl (addToLine pdf) []).map Prod.fst).length := (List.length_map _).symm
    _ = (items.map lineKeyOf).dedup.length := hkeys.length_eq

end Lines

/-!
# The rectangles of the lines
-/

def lineOf (items : List TextItem) (item : TextItem) : List TextItem :=
  items.filter fun other => lineKeyOf other = lineKeyOf item

theorem mem_lineRects_iff {pdf : PdfJs} {items : List TextItem} {r : Rect} :
    r ∈ lineRects pdf items <->
      exists item, item ∈ items ∧ Drawn pdf (lineOf items item) r := by
  have h := lines_collected pdf items
  have hline {line : Int × Rect} (hline : line ∈ items.foldl (addToLine pdf) [])
      {item : TextItem} (hkey : lineKeyOf item = line.1) :
      Drawn pdf (lineOf items item) line.2 := by
    unfold lineOf
    rw [hkey]
    exact h.values line hline
  constructor
  · intro hr
    rcases List.mem_map.mp hr with ⟨line, hmem, rfl⟩
    rcases (h.keys line.1).mp (List.mem_map_of_mem hmem) with ⟨item, hitem, hkey⟩
    exact ⟨item, hitem, hline hmem hkey⟩
  · rintro ⟨item, hitem, hhull⟩
    rcases List.mem_map.mp ((h.keys (lineKeyOf item)).mpr ⟨item, hitem, rfl⟩) with
      ⟨line, hmem, hkey⟩
    rw [Rect.box_injective (hhull.unique (hline hmem hkey.symm))]
    exact List.mem_map_of_mem hmem

/-!
# The rectangle of a box
-/

def bboxCorners (pdf : PdfJs) (pageHeight : Rat) (bbox : Rat × Rat × Rat × Rat) :
    Set (Rat × Rat) :=
  {pdf.convertToViewportPoint bbox.1 (pageHeight - bbox.2.2.2),
    pdf.convertToViewportPoint bbox.2.2.1 (pageHeight - bbox.2.1)}

theorem bboxRect_hull (pdf : PdfJs) (pageHeight : Rat) (bbox : Rat × Rat × Rat × Rat) :
    (bboxRect pdf pageHeight bbox).box.IsHull (bboxCorners pdf pageHeight bbox) := by
  have hfar (a b : Rat) : min a b + |b - a| = max a b := by
    rw [← max_sub_min_eq_abs, add_sub_cancel]
  unfold bboxCorners
  constructor
  · rw [Set.image_pair]
    exact isLeast_pair
  · rw [Set.image_pair]
    exact isLeast_pair
  · rw [Set.image_pair]
    simp only [bboxRect, Rect.box, hfar]
    exact isGreatest_pair
  · rw [Set.image_pair]
    simp only [bboxRect, Rect.box, hfar]
    exact isGreatest_pair

/-!
# What a click shows
-/

section Shown

variable {L : CaseMap} {engine : SortEngine compareItems} {pdf : PdfJs} {pageHeight : Rat}
  {content : Option (List (Option TextItem))} {item : HighlightItem} {r : Rect}

theorem lineRects_eq_nil_iff {pdf : PdfJs} {items : List TextItem} :
    lineRects pdf items = [] <-> items = [] := by
  constructor
  · intro h
    by_contra hne
    exact lineRects_ne_nil pdf hne h
  · rintro rfl
    rfl

theorem itemRects_eq : itemRects L engine pdf pageHeight content item =
    if quotedItems L engine content item = [] then
      (item.bbox.map (bboxRect pdf pageHeight)).toList
    else lineRects pdf (quotedItems L engine content item) := by
  have hfound : (match content with
      | none => []
      | some content =>
          if item.quote = [] then [] else findQuoteRects L engine pdf content item.quote) =
      lineRects pdf (quotedItems L engine content item) := by
    cases content with
    | none => rfl
    | some content =>
        simp only [quotedItems, findQuoteRects]
        by_cases hquote : item.quote = []
        · have hempty : L.normalize item.quote = [] := by
            rw [hquote]
            rfl
          rw [if_pos hquote, if_pos hempty]
          rfl
        · rw [if_neg hquote]
          split
          · rfl
          · split
            · next hnone =>
                rw [hnone]
                rfl
            · rfl
  unfold itemRects
  rw [hfound]
  by_cases hnone : quotedItems L engine content item = []
  · rw [if_pos hnone, lineRects_eq_nil_iff.mpr hnone]
    cases item.bbox with
    | none => rfl
    | some bbox => rfl
  · rw [if_neg hnone]
    have hne : lineRects pdf (quotedItems L engine content item) ≠ [] :=
      lineRects_ne_nil pdf hnone
    cases hrects : lineRects pdf (quotedItems L engine content item) with
    | nil => exact absurd hrects hne
    | cons r rects => rfl

/-- What a rectangle of a citation goes around: the corners of the items on a line that it
quotes, or the corners of its box. -/
def Outlines (L : CaseMap) (engine : SortEngine compareItems) (pdf : PdfJs)
    (pageHeight : Rat) (content : Option (List (Option TextItem))) (item : HighlightItem)
    (b : Box Rat) : Prop :=
  let quoted := quotedItems L engine content item
  (exists text, text ∈ quoted ∧ b.IsHull (cornersOf pdf (lineOf quoted text))) ∨
    (quoted = [] ∧
      exists bbox, item.bbox = some bbox ∧ b.IsHull (bboxCorners pdf pageHeight bbox))

theorem mem_itemRects_iff : r ∈ itemRects L engine pdf pageHeight content item <->
    Outlines L engine pdf pageHeight content item r.box := by
  rw [itemRects_eq]
  unfold Outlines
  by_cases hnone : quotedItems L engine content item = []
  · rw [if_pos hnone, hnone, Option.mem_toList, Option.map_eq_some_iff]
    constructor
    · rintro ⟨bbox, hbbox, rfl⟩
      exact .inr ⟨rfl, bbox, hbbox, bboxRect_hull pdf pageHeight bbox⟩
    · rintro (⟨text, htext, _⟩ | ⟨_, bbox, hbbox, hhull⟩)
      · cases htext
      · refine ⟨bbox, hbbox, Rect.box_injective ?_⟩
        exact (bboxRect_hull pdf pageHeight bbox).unique hhull
  · rw [if_neg hnone, mem_lineRects_iff]
    constructor
    · exact .inl
    · rintro (hline | ⟨hno, _⟩)
      · exact hline
      · exact absurd hno hnone

theorem mem_allFound_iff {items : List HighlightItem} :
    r ∈ allFound L engine pdf pageHeight content items <->
      exists item, item ∈ items ∧ Outlines L engine pdf pageHeight content item r.box := by
  unfold allFound
  rw [List.mem_flatMap]
  simp only [mem_itemRects_iff]

theorem drawnOn_clickEffect (page n : Nat) (items : List HighlightItem) :
    (clickEffect L engine pdf pageHeight content page items).drawnOn n =
      if n = page then (allFound L engine pdf pageHeight content items).map Rect.padded
      else [] := by
  unfold clickEffect Highlighting.drawnOn
  dsimp only
  split
  · simp only [Option.some.injEq, eq_comm]
  · next hnone =>
      rw [Nat.not_lt, Nat.le_zero, List.length_eq_zero_iff] at hnone
      rw [if_neg (Option.some_ne_none n).symm, hnone, List.map_nil, ite_self]

/-- A click highlights, on its page alone and with a margin, the hulls of the lines that the
citations quote, one for each line of a citation, and the hulls of the boxes where nothing
quoted is found.  Where there is nothing to highlight the page flashes. -/
theorem click_outlines (L : CaseMap) (engine : SortEngine compareItems) (pdf : PdfJs)
    (pageHeight : Rat) (content : Option (List (Option TextItem))) (page : Nat)
    (items : List HighlightItem) :
    (forall n r, r ∈ (clickEffect L engine pdf pageHeight content page items).drawnOn n <->
      n = page ∧ exists item inner, item ∈ items ∧ r = Rect.padded inner ∧
        Outlines L engine pdf pageHeight content item inner.box) ∧
    (forall item, item ∈ items -> quotedItems L engine content item ≠ [] ->
      (itemRects L engine pdf pageHeight content item).length =
        ((quotedItems L engine content item).map lineKeyOf).dedup.length) ∧
    ((clickEffect L engine pdf pageHeight content page items).flashPage = some page <->
      forall item, item ∈ items ->
        quotedItems L engine content item = [] ∧ item.bbox = none) := by
  refine ⟨?_, ?_, ?_⟩
  · intro n r
    rw [drawnOn_clickEffect]
    constructor
    · intro hr
      rcases List.mem_ite_nil_right.mp hr with ⟨hpage, hmem⟩
      rcases List.mem_map.mp hmem with ⟨inner, hinner, rfl⟩
      rcases mem_allFound_iff.mp hinner with ⟨item, hitem, houtlines⟩
      exact ⟨hpage, item, inner, hitem, rfl, houtlines⟩
    · rintro ⟨rfl, item, inner, hitem, rfl, houtlines⟩
      rw [if_pos rfl]
      exact List.mem_map_of_mem (mem_allFound_iff.mpr ⟨item, hitem, houtlines⟩)
  · intro item _ hquoted
    rw [itemRects_eq, if_neg hquoted]
    exact length_lineRects pdf _
  · have hnothing : allFound L engine pdf pageHeight content items = [] <->
        forall item, item ∈ items ->
          quotedItems L engine content item = [] ∧ item.bbox = none := by
      unfold allFound
      rw [List.flatMap_eq_nil_iff]
      apply forall_congr'
      intro item
      apply imp_congr_right
      intro _
      rw [itemRects_eq]
      split
      · next hnone =>
          rw [hnone]
          cases item.bbox <;> simp
      · next hquoted => simp [hquoted, lineRects_eq_nil_iff]
    rw [← hnothing]
    unfold clickEffect
    dsimp only
    split
    · next hsome => exact iff_of_false (by simp) (List.length_pos_iff.mp hsome)
    · next hnone =>
        rw [Nat.not_lt, Nat.le_zero, List.length_eq_zero_iff] at hnone
        exact iff_of_true rfl hnone

end Shown

def turnedPdf : PdfJs where
  applyTransform := plainPdf.applyTransform
  convertToViewportPoint x y := (3 / 2 * y, 3 / 2 * x)

/-- The first citation is found on the page, and the second is not. -/
example :
    (clickEffect asciiCase (SortEngine.cautious compareItems) turnedPdf 792
        (some (spacedLine.map some)) 3
        [⟨none, [98, 9, 67]⟩, ⟨some (72, 80, 172, 92), [120]⟩]).drawnOn 3 =
      [⟨-2, -2, 19, 49⟩, ⟨1048, 106, 22, 154⟩] := by
  have hitems : (SortEngine.cautious compareItems).sort (textItems (spacedLine.map some)) =
      spacedLine := by
    have htext : textItems (spacedLine.map some) = spacedLine := rfl
    rw [htext]
    apply sort_line
    · simp [spacedLine]
    · simp [spacedLine]
  rw [drawnOn_clickEffect, if_pos rfl]
  simp only [allFound, List.flatMap_cons, List.flatMap_nil, itemRects, findQuoteRects]
  rw [hitems]
  decide +kernel

end ChatDoc
