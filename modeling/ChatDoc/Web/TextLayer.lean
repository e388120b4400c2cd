import ChatDoc.Foundation.Breaks
import ChatDoc.Foundation.Occurrence
import ChatDoc.Web.Normalizing
import ChatDoc.Web.ReadingOrder
import Mathlib.Data.Rat.Floor

/-!
# Quotes in the text layer of a page

`findQuoteRects` of `web/src/components/PdfViewer.tsx` joins the text items of a page to one
string, looks a quote up in it and draws rectangles around the items that it meets there.
-/

namespace ChatDoc

open Foundation

/-!
# Joining the items
-/

/-- The items of the text content with a text. What marks content has no `str`. -/
def textItems (content : List (Option TextItem)) : List TextItem :=
  content.reduceOption.filter fun item => item.str ≠ []

/-- Whether the loop inserts a space between two items, in exact arithmetic: a gap that misses
the limit by less than a rounding error of its doubles may come out otherwise in the source. -/
def separated (prev item : TextItem) : Bool :=
  let sameLine := decide (|item.y - prev.y| <= 2)
  if !sameLine then true
  else
    let prevEndX := prev.x + prev.width
    let gap := item.x - prevEndX
    let avgCharWidth := prev.width / max prev.str.length 1
    decide (avgCharWidth * (35 / 100) < gap)

def separatedFrom (prev : Option TextItem) (item : TextItem) : Bool :=
  prev.any fun before => separated before item

structure Offset where
  start : Nat
  stop : Nat
  item : TextItem
  deriving DecidableEq

structure Layout where
  concatenated : List CodeUnit
  offsets : List Offset
  prev : Option TextItem

def Layout.extend (L : CaseMap) (layout : Layout) (item : TextItem) : Layout :=
  let sep := if separatedFrom layout.prev item then [32] else []
  let piece := sep ++ L.normalize item.str
  let start := layout.concatenated.length
  let concatenated := layout.concatenated ++ piece
  { concatenated := concatenated
    offsets := layout.offsets ++ [⟨start, concatenated.length, item⟩]
    prev := some item }

def layoutOf (L : CaseMap) (items : List TextItem) : Layout :=
  items.foldl (Layout.extend L) ⟨[], [], none⟩

/-!
# Looking a quote up
-/

/-- Where the target or else its opening words are found, and how much of it. -/
def locate (concatenated target : List CodeUnit) : Option (Nat × Nat) :=
  match indexOf concatenated target with
  | some idx => some (idx, target.length)
  | none =>
      let anchor := target.take (min 60 target.length)
      (indexOf concatenated anchor).map fun idx => (idx, anchor.length)

def matchedOffsets (L : CaseMap) (items : List TextItem) (target : List CodeUnit) :
    List Offset :=
  let layout := layoutOf L items
  match locate layout.concatenated target with
  | none => []
  | some (idx, matchLen) =>
      layout.offsets.filter fun o => idx < o.stop ∧ o.start < idx + matchLen

/-!
# Rectangles
-/

structure Rect where
  left : Rat
  top : Rat
  width : Rat
  height : Rat
  deriving DecidableEq

/-- What `findQuoteRects` uses of pdf.js, with the viewport of the page. -/
structure PdfJs where
  applyTransform : Rat × Rat -> Vector Rat 6 -> Rat × Rat
  convertToViewportPoint : Rat -> Rat -> Rat × Rat

def corners (pdf : PdfJs) (item : TextItem) : List (Rat × Rat) :=
  [(0, 0), (item.width, 0), (0, item.height), (item.width, item.height)].map fun l =>
    let p := pdf.applyTransform l item.transform
    pdf.convertToViewportPoint p.1 p.2

def itemRect (pdf : PdfJs) (item : TextItem) : Rect :=
  let xs := (corners pdf item).map Prod.fst
  let ys := (corners pdf item).map Prod.snd
  let left := xs.min?.getD 0
  let top := ys.min?.getD 0
  { left := left
    top := top
    width := xs.max?.getD 0 - left
    height := ys.max?.getD 0 - top }

def Rect.merge (existing rect : Rect) : Rect :=
  let left := min existing.left rect.left
  let top := min existing.top rect.top
  let right := max (existing.left + existing.width) (rect.left + rect.width)
  let bottom := max (existing.top + existing.height) (rect.top + rect.height)
  { left := left
    top := top
    width := right - left
    height := bottom - top }

/-- `Math.round` of the baseline. -/
def lineKeyOf (item : TextItem) : Int :=
  ⌊item.y + 1 / 2⌋

/-- The map of the lines keeps the order in which its keys came in. -/
def addToLine (pdf : PdfJs) (lines : List (Int × Rect)) (item : TextItem) :
    List (Int × Rect) :=
  let rect := itemRect pdf item
  let key := lineKeyOf item
  match lines.lookup key with
  | none => lines ++ [(key, rect)]
  | some existing =>
      lines.map fun line => if line.1 = key then (key, existing.merge rect) else line

def lineRects (pdf : PdfJs) (matched : List TextItem) : List Rect :=
  (matched.foldl (addToLine pdf) []).map Prod.snd

def findQuoteRects (L : CaseMap) (engine : SortEngine compareItems) (pdf : PdfJs)
    (content : List (Option TextItem)) (quote : List CodeUnit) : List Rect :=
  let target := L.normalize quote
  if target = [] then []
  else
    let items := engine.sort (textItems content)
    let matched := matchedOffsets L items target
    if matched = [] then [] else lineRects pdf (matched.map Offset.item)

theorem addToLine_ne_nil (pdf : PdfJs) (lines : List (Int × Rect)) (item : TextItem) :
    addToLine pdf lines item ≠ [] := by
  simp only [addToLine]
  split
  · exact List.append_ne_nil_of_right_ne_nil _ (List.cons_ne_nil _ _)
  · rename_i hlines
    cases lines with
    | nil => cases hlines
    | cons line lines => exact List.cons_ne_nil _ _

theorem lineRects_ne_nil (pdf : PdfJs) {matched : List TextItem} (h : matched ≠ []) :
    lineRects pdf matched ≠ [] := by
  have hfold : matched.foldl (addToLine pdf) [] ≠ [] := by
    rw [← List.dropLast_append_getLast h, List.foldl_append]
    exact addToLine_ne_nil pdf _ _
  exact mt List.map_eq_nil_iff.mp hfold

theorem findQuoteRects_ne_nil_iff {L : CaseMap} {engine : SortEngine compareItems}
    {pdf : PdfJs} {content : List (Option TextItem)} {quote : List CodeUnit}
    (hquote : L.normalize quote ≠ []) : findQuoteRects L engine pdf content quote ≠ [] <->
      matchedOffsets L (engine.sort (textItems content)) (L.normalize quote) ≠ [] := by
  simp only [findQuoteRects]
  rw [if_neg hquote]
  split
  · rename_i hnil
    rw [hnil]
    exact iff_of_false (fun h => h rfl) (fun h => h rfl)
  · rename_i hne
    exact iff_of_true (lineRects_ne_nil pdf (mt List.map_eq_nil_iff.mp hne)) hne

/-!
# Found texts
-/

theorem locate_of_indexOf {text target : List CodeUnit} {i : Nat}
    (h : indexOf text target = some i) : locate text target = some (i, target.length) := by
  rw [locate, h]

/-- The whole target is found, or sixty code units of a target that is nowhere. -/
theorem locate_cases {text target : List CodeUnit} {i n : Nat} (hne : target ≠ [])
    (h : locate text target = some (i, n)) :
    indexOf text (target.take n) = some i ∧ (n = target.length ∨
      (n = 60 ∧ 60 < target.length ∧ forall j, ¬ OccursAt text target j)) := by
  unfold locate at h
  cases hwhole : indexOf text target with
  | some idx =>
      rw [hwhole] at h
      cases h
      rw [List.take_length]
      exact ⟨hwhole, .inl rfl⟩
  | none =>
      have hnowhere : forall j, ¬ OccursAt text target j := by
        intro j hj
        rcases exists_indexOf hj hne with ⟨first, hfirst, _⟩
        rw [hwhole] at hfirst
        cases hfirst
      rw [hwhole] at h
      rcases Option.map_eq_some_iff.mp h with ⟨idx, hidx, heq⟩
      cases heq
      by_cases hlong : 60 < target.length
      · have hlength : (target.take (min 60 target.length)).length = 60 := by
          rw [List.length_take]
          omega
        rw [hlength]
        rw [Nat.min_eq_left (Nat.le_of_lt hlong)] at hidx
        exact ⟨hidx, .inr ⟨rfl, hlong, hnowhere⟩⟩
      · rw [Nat.min_eq_right (Nat.le_of_not_lt hlong), List.take_length, hwhole] at hidx
        cases hidx

end ChatDoc
