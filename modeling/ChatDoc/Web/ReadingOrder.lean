import ChatDoc.Foundation.Comparators
import Mathlib.Algebra.Order.Group.Abs
import Mathlib.Tactic.Linarith
import Mathlib.Tactic.NormNum

/-!
# The reading order of a page

The comparison that `findQuoteRects` of `web/src/components/PdfViewer.tsx` sorts the text
items of a page by: from the top to the bottom, and from the left to the right among items
whose baselines are at most two points apart.
-/

namespace ChatDoc

open Foundation

/-- What `findQuoteRects` reads of a `TextItem` of pdf.js. The text is made of UTF-16 code
units, and the transform is the matrix `[a, b, c, d, e, f]`. -/
structure TextItem where
  str : List UInt16
  width : Rat
  height : Rat
  transform : Vector Rat 6
  deriving DecidableEq

namespace TextItem

def x (item : TextItem) : Rat :=
  item.transform[4]

def y (item : TextItem) : Rat :=
  item.transform[5]

def position (item : TextItem) : Rat × Rat :=
  (item.x, item.y)

end TextItem

/-- The argument of `items.sort`. -/
def compareItems (a b : TextItem) : Rat :=
  let dy := b.transform[5] - a.transform[5]
  if 2 < |dy| then dy else a.transform[4] - b.transform[4]

/-!
# Lines
-/

def SameLine (a b : TextItem) : Prop :=
  |b.y - a.y| <= 2

/-- Two items at the same distance from the left edge that count as one line. -/
def Stacked (items : List TextItem) : Prop :=
  exists a, a ∈ items ∧ exists b, b ∈ items ∧ a ≠ b ∧ SameLine a b ∧ a.x = b.x

/-- Two items of different lines with an item of both lines between them, where the text
goes up from the left to the right. -/
def Climbs (a b c : TextItem) : Prop :=
  2 < c.y - a.y ∧ SameLine a b ∧ SameLine b c ∧ a.x <= b.x ∧ b.x <= c.x

def Climbing (items : List TextItem) : Prop :=
  exists a, a ∈ items ∧ exists b, b ∈ items ∧ exists c, c ∈ items ∧ Climbs a b c

theorem SameLine.symm {a b : TextItem} (h : SameLine a b) : SameLine b a := by
  rw [SameLine, abs_sub_comm]
  exact h

theorem compareItems_of_sameLine {a b : TextItem} (h : SameLine a b) :
    compareItems a b = a.x - b.x :=
  if_neg (not_lt.mpr h)

theorem compareItems_of_not {a b : TextItem} (h : ¬ SameLine a b) :
    compareItems a b = b.y - a.y :=
  if_pos (not_le.mp h)

theorem compareItems_swap (a b : TextItem) : compareItems b a = -compareItems a b := by
  by_cases h : SameLine a b
  · rw [compareItems_of_sameLine h, compareItems_of_sameLine h.symm, neg_sub]
  · rw [compareItems_of_not h, compareItems_of_not (mt SameLine.symm h), neg_sub]

theorem compareItems_le_cases {a b : TextItem} (h : compareItems a b <= 0) :
    (SameLine a b ∧ a.x <= b.x) ∨ (¬ SameLine a b ∧ 2 < a.y - b.y) := by
  by_cases hline : SameLine a b
  · rw [compareItems_of_sameLine hline] at h
    exact .inl ⟨hline, sub_nonpos.mp h⟩
  · refine .inr ⟨hline, ?_⟩
    rw [compareItems_of_not hline] at h
    rw [SameLine, not_le, abs_of_nonpos h] at hline
    linarith

theorem compareItems_eq_zero_iff {a b : TextItem} :
    compareItems a b = 0 <-> SameLine a b ∧ a.x = b.x := by
  constructor
  · intro h
    rcases compareItems_le_cases (le_of_eq h) with ⟨hline, _⟩ | ⟨hline, hfar⟩
    · rw [compareItems_of_sameLine hline] at h
      exact ⟨hline, sub_eq_zero.mp h⟩
    · rw [compareItems_of_not hline] at h
      linarith
  · rintro ⟨hline, hx⟩
    rw [compareItems_of_sameLine hline, hx, sub_self]

/-!
# Cycles
-/

theorem tie_of_cycle {items : List TextItem} (hclimb : ¬ Climbing items) {a b c : TextItem}
    (ha : a ∈ items) (hb : b ∈ items) (hc : c ∈ items) (hab : compareItems a b <= 0)
    (hbc : compareItems b c <= 0) (hca : compareItems c a <= 0) :
    compareItems a b = 0 ∧ compareItems c a = 0 := by
  rcases compareItems_le_cases hab with ⟨habLine, habX⟩ | ⟨_, habY⟩
  · rcases compareItems_le_cases hbc with ⟨hbcLine, hbcX⟩ | ⟨_, hbcY⟩
    · rcases compareItems_le_cases hca with ⟨hcaLine, hcaX⟩ | ⟨_, hcaY⟩
      · rw [compareItems_eq_zero_iff, compareItems_eq_zero_iff]
        exact ⟨⟨habLine, by linarith⟩, ⟨hcaLine, by linarith⟩⟩
      · exact absurd ⟨a, ha, b, hb, c, hc, hcaY, habLine, hbcLine, habX, hbcX⟩ hclimb
    · rcases compareItems_le_cases hca with ⟨hcaLine, hcaX⟩ | ⟨_, hcaY⟩
      · exact absurd ⟨c, hc, a, ha, b, hb, hbcY, hcaLine, habLine, hcaX, habX⟩ hclimb
      · have hfar := abs_le.mp habLine
        linarith [hfar.left, hfar.right]
  · rcases compareItems_le_cases hbc with ⟨hbcLine, hbcX⟩ | ⟨_, hbcY⟩
    · rcases compareItems_le_cases hca with ⟨hcaLine, hcaX⟩ | ⟨_, hcaY⟩
      · exact absurd ⟨b, hb, c, hc, a, ha, habY, hbcLine, hcaLine, hbcX, hcaX⟩ hclimb
      · have hfar := abs_le.mp hbcLine
        linarith [hfar.left, hfar.right]
    · rcases compareItems_le_cases hca with ⟨hcaLine, _⟩ | ⟨_, hcaY⟩
      · have hfar := abs_le.mp hcaLine
        linarith [hfar.left, hfar.right]
      · linarith

/-- The comparison is a strict weak order exactly where no text climbs. -/
theorem consistent_compareItems_iff {items : List TextItem} :
    Consistent compareItems items <-> ¬ Climbing items := by
  constructor
  · rintro h ⟨a, ha, b, hb, c, hc, hfar, hab, hbc, habX, hbcX⟩
    have hle : compareItems a c <= 0 := by
      apply h.le_trans ha hb hc
      · rw [compareItems_of_sameLine hab]
        exact sub_nonpos.mpr habX
      · rw [compareItems_of_sameLine hbc]
        exact sub_nonpos.mpr hbcX
    have hline : ¬ SameLine a c := not_le.mpr (lt_of_lt_of_le hfar (le_abs_self _))
    rw [compareItems_of_not hline] at hle
    linarith
  · intro hclimb
    constructor
    · intro a _ b _
      rw [compareItems_swap a b, Left.neg_pos_iff]
    · intro a ha b hb c hc hab hbc
      by_contra hac
      have hca : compareItems c a <= 0 := by
        rw [compareItems_swap a c]
        exact neg_nonpos.mpr (not_lt.mp hac)
      have htie := tie_of_cycle hclimb ha hb hc (le_of_lt hab) (le_of_lt hbc) hca
      exact ne_of_lt hab htie.left
    · intro a ha b hb c hc hab hbc
      rcases le_total (compareItems c a) 0 with hca | hca
      · have htie := tie_of_cycle hclimb ha hb hc (le_of_eq hab) (le_of_eq hbc) hca
        rw [compareItems_swap c a, htie.right, neg_zero]
      · have hcb : compareItems c b = 0 := by rw [compareItems_swap b c, hbc, neg_zero]
        have hba : compareItems b a = 0 := by rw [compareItems_swap a b, hab, neg_zero]
        have hac : compareItems a c <= 0 := by
          rw [compareItems_swap c a]
          exact neg_nonpos.mpr hca
        exact (tie_of_cycle hclimb hc hb ha (le_of_eq hcb) (le_of_eq hba) hac).right

theorem nodup_of_positions {items : List TextItem}
    (h : (items.map TextItem.position).Nodup) : items.Nodup :=
  List.Nodup.of_map TextItem.position h

/-- The order that the items are read in is a strict weak order that does not depend on how
the content stream emits them, exactly where no item stands above another of its line and
no text climbs through a line. -/
theorem reading_order_iff {items : List TextItem}
    (hpositions : (items.map TextItem.position).Nodup) :
    (SortsAlike compareItems items ∧ Consistent compareItems items) <->
      ¬ Stacked items ∧ ¬ Climbing items := by
  rw [sortsAlike_iff (nodup_of_positions hpositions) compareItems_swap,
    consistent_compareItems_iff]
  constructor
  · rintro ⟨⟨_, htie⟩, hclimb⟩
    refine ⟨?_, hclimb⟩
    rintro ⟨a, ha, b, hb, hne, hstacked⟩
    exact hne (htie a ha b hb (compareItems_eq_zero_iff.mpr hstacked))
  · rintro ⟨hstacked, hclimb⟩
    refine ⟨⟨hclimb, ?_⟩, hclimb⟩
    intro a ha b hb htie
    by_contra hne
    exact hstacked ⟨a, ha, b, hb, hne, compareItems_eq_zero_iff.mp htie⟩

def wordAt (word : List UInt16) (x y : Rat) : TextItem :=
  ⟨word, 10, 10, #v[1, 0, 0, 1, x, y]⟩

@[simp]
theorem wordAt_x (word : List UInt16) (x y : Rat) : (wordAt word x y).x = x :=
  rfl

@[simp]
theorem wordAt_y (word : List UInt16) (x y : Rat) : (wordAt word x y).y = y :=
  rfl

def wordsOfALine : List TextItem :=
  [wordAt [97] 0 0, wordAt [98] 20 0]

theorem reading_order_iff_line :
    SortsAlike compareItems wordsOfALine ∧ Consistent compareItems wordsOfALine := by
  have hpositions : (wordsOfALine.map TextItem.position).Nodup := by
    simp [wordsOfALine, TextItem.position]
  apply (reading_order_iff hpositions).mpr
  constructor
  · rintro ⟨a, ha, b, hb, hne, _, hx⟩
    simp only [wordsOfALine, List.mem_cons, List.not_mem_nil, or_false] at ha hb
    rcases ha with rfl | rfl <;> rcases hb with rfl | rfl <;>
      first
      | exact hne rfl
      | norm_num [wordAt_x] at hx
  · rintro ⟨a, ha, b, _, c, hc, hfar, _⟩
    simp only [wordsOfALine, List.mem_cons, List.not_mem_nil, or_false] at ha hc
    rcases ha with rfl | rfl <;> rcases hc with rfl | rfl <;>
      norm_num [wordAt_y] at hfar

def climbingWords : List TextItem :=
  [wordAt [97] 0 0, wordAt [98] 20 (3 / 2), wordAt [99] 40 3]

theorem climbing_words_depend_on_the_stream :
    (climbingWords.map TextItem.position).Nodup ∧
      compareItems (wordAt [97] 0 0) (wordAt [98] 20 (3 / 2)) < 0 ∧
      compareItems (wordAt [98] 20 (3 / 2)) (wordAt [99] 40 3) < 0 ∧
      compareItems (wordAt [99] 40 3) (wordAt [97] 0 0) < 0 ∧
      ¬ Consistent compareItems climbingWords ∧ ¬ SortsAlike compareItems climbingWords := by
  have hpositions : (climbingWords.map TextItem.position).Nodup := by
    norm_num [climbingWords, TextItem.position]
  have hclimb : Climbing climbingWords := by
    refine ⟨wordAt [97] 0 0, ?_, wordAt [98] 20 (3 / 2), ?_, wordAt [99] 40 3, ?_, ?_⟩
    · simp [climbingWords]
    · simp [climbingWords]
    · simp [climbingWords]
    · norm_num [Climbs, SameLine, abs_le]
  have hinconsistent : ¬ Consistent compareItems climbingWords :=
    fun h => consistent_compareItems_iff.mp h hclimb
  refine ⟨hpositions, ?_, ?_, ?_, hinconsistent, ?_⟩
  · have hline : SameLine (wordAt [97] 0 0) (wordAt [98] 20 (3 / 2)) := by
      norm_num [SameLine, abs_le]
    norm_num [compareItems_of_sameLine hline]
  · have hline : SameLine (wordAt [98] 20 (3 / 2)) (wordAt [99] 40 3) := by
      norm_num [SameLine, abs_le]
    norm_num [compareItems_of_sameLine hline]
  · have hline : ¬ SameLine (wordAt [99] 40 3) (wordAt [97] 0 0) := by
      norm_num [SameLine, abs_le]
    norm_num [compareItems_of_not hline]
  · intro halike
    exact hinconsistent
      (halike.consistent (nodup_of_positions hpositions) compareItems_swap)

end ChatDoc
