import ChatDoc.Web.TextLayer

/-!
# The reference text of a page

The text that a reader sees: the strings of the items one after another, with a space where
the loop of `findQuoteRects` inserts one. The loop joins normalized strings instead.
-/

namespace ChatDoc

open Foundation

def pieceOf (f : List CodeUnit -> List CodeUnit) (prev : Option TextItem) (place : Nat)
    (item : TextItem) : Piece Marked :=
  ⟨separatedFrom prev item, (f item.str).map fun c => (c, some place)⟩

def piecesFrom (f : List CodeUnit -> List CodeUnit) :
    (prev : Option TextItem) -> (place : Nat) -> List TextItem -> List (Piece Marked)
  | _, _, [] => []
  | prev, place, item :: rest =>
      pieceOf f prev place item :: piecesFrom f (some item) (place + 1) rest

def lowerPieces (L : CaseMap) (items : List TextItem) : List (Piece Marked) :=
  piecesFrom L.toLowerCase none 0 items

def referenceText (items : List TextItem) : List Marked :=
  markedSpacing.raw (piecesFrom id none 0 items)

/-- White space is squeezed and letters are lower-cased in the whole text. -/
def normalizedReference (L : CaseMap) (items : List TextItem) : List Marked :=
  lowerMarked L.rule [] (markedSpacing.squeeze (referenceText items))

def LowersAlone (L : CaseMap) (items : List TextItem) : Prop :=
  normalizedReference L items =
    markedSpacing.squeeze (markedSpacing.raw (lowerPieces L items))

/-- Where two neighbours have white space between them, the loop inserts a space. -/
def Parted (a b : TextItem) : Prop :=
  spacing.ends a.str = true ∨ spacing.starts b.str = true -> separated a b = true

def Blank (item : TextItem) : Prop :=
  spacing.Empty item.str

/-- Blank items come only before the first word and behind the last one, and all the white
space between the others is where the loop inserts a space. -/
def WellSpaced (items : List TextItem) : Prop :=
  exists front core back, items = front ++ (core ++ back) ∧
    (forall item, item ∈ front -> Blank item) ∧ (forall item, item ∈ core -> ¬ Blank item) ∧
    (forall item, item ∈ back -> Blank item) ∧ core.IsChain Parted

theorem textOf_normalizedReference (L : CaseMap) (items : List TextItem) :
    textOf (normalizedReference L items) = L.normalize (textOf (referenceText items)) := by
  rw [normalizedReference, textOf_lowerMarked, textOf_squeeze]
  rfl

/-!
# Pieces of a page
-/

section Pieces

variable (f : List CodeUnit -> List CodeUnit)

theorem piecesFrom_append (prev : Option TextItem) (place : Nat) (xs ys : List TextItem) :
    piecesFrom f prev place (xs ++ ys) = piecesFrom f prev place xs ++
      piecesFrom f (xs.getLast?.or prev) (place + xs.length) ys := by
  induction xs generalizing prev place with
  | nil => rfl
  | cons x xs ih =>
      have hlast : (x :: xs).getLast?.or prev = xs.getLast?.or (some x) := by
        rw [List.getLast?_cons]
        cases xs.getLast? with
        | none => rfl
        | some last => rfl
      have hlength : place + (x :: xs).length = place + 1 + xs.length := by
        rw [List.length_cons]
        omega
      rw [List.cons_append, piecesFrom, piecesFrom, ih, hlast, hlength]
      rfl

theorem length_piecesFrom (prev : Option TextItem) (place : Nat) (items : List TextItem) :
    (piecesFrom f prev place items).length = items.length := by
  induction items generalizing prev place with
  | nil => rfl
  | cons item rest ih => rw [piecesFrom, List.length_cons, List.length_cons, ih]

theorem getElem?_piecesFrom (prev : Option TextItem) (place : Nat) (items : List TextItem)
    (j : Nat) : ((piecesFrom f prev place items)[j]?).map Piece.text =
      items[j]?.map fun item => (f item.str).map fun c => (c, some (place + j)) := by
  induction items generalizing prev place j with
  | nil => rfl
  | cons item rest ih =>
      rw [piecesFrom]
      cases j with
      | zero => rfl
      | succ j =>
          have hplace : place + (j + 1) = place + 1 + j := by omega
          rw [List.getElem?_cons_succ, List.getElem?_cons_succ, ih, hplace]

theorem forall_mem_piecesFrom {P : Piece Marked -> Prop} {Q : TextItem -> Prop}
    (h : forall prev place item, P (pieceOf f prev place item) <-> Q item)
    (prev : Option TextItem) (place : Nat) (items : List TextItem) :
    (forall p, p ∈ piecesFrom f prev place items -> P p) <->
      forall item, item ∈ items -> Q item := by
  induction items generalizing prev place with
  | nil => exact iff_of_true (List.forall_mem_nil _) (List.forall_mem_nil _)
  | cons item rest ih =>
      rw [piecesFrom, List.forall_mem_cons, List.forall_mem_cons, h, ih]

theorem exists_cut {prev : Option TextItem} {place : Nat} {items : List TextItem}
    {as bs : List (Piece Marked)} (h : piecesFrom f prev place items = as ++ bs) :
    exists xs ys, items = xs ++ ys ∧ as = piecesFrom f prev place xs ∧
      bs = piecesFrom f (xs.getLast?.or prev) (place + xs.length) ys := by
  have hlength := congrArg List.length h
  rw [length_piecesFrom, List.length_append] at hlength
  have hsplit := piecesFrom_append f prev place (items.take as.length) (items.drop as.length)
  rw [List.take_append_drop, h] at hsplit
  have hfront : as.length = (piecesFrom f prev place (items.take as.length)).length := by
    rw [length_piecesFrom, List.length_take]
    omega
  rcases List.append_inj hsplit hfront with ⟨has, hbs⟩
  exact ⟨_, _, (List.take_append_drop as.length items).symm, has, hbs⟩

theorem owned_piecesFrom (items : List TextItem) :
    markedSpacing.Owned Prod.snd (piecesFrom f none 0 items) where
  blank := rfl
  kept j p hp c hc _ := by
    have htext := getElem?_piecesFrom f none 0 items j
    rw [hp] at htext
    rcases Option.map_eq_some_iff.mp htext.symm with ⟨item, _, hmap⟩
    rw [← hmap, Nat.zero_add] at hc
    rcases List.mem_map.mp hc with ⟨d, _, rfl⟩
    rfl

end Pieces

/-!
# The layout of the loop
-/

section Layouts

variable (L : CaseMap)

theorem textOf_squeeze_pieceOf (prev : Option TextItem) (place : Nat) (item : TextItem) :
    textOf (markedSpacing.squeeze (pieceOf L.toLowerCase prev place item).text) =
      L.normalize item.str := by
  rw [textOf_squeeze, pieceOf, textOf_mark, CaseMap.squeeze_toLowerCase]

theorem textOf_lead (prev : Option TextItem) (place : Nat) (item : TextItem) :
    textOf (markedSpacing.lead (pieceOf L.toLowerCase prev place item)) =
      if separatedFrom prev item then [32] else [] := by
  unfold Spacing.lead pieceOf
  split
  · rfl
  · rfl

theorem length_lowerPieces (items : List TextItem) :
    (lowerPieces L items).length = items.length :=
  length_piecesFrom L.toLowerCase none 0 items

theorem layoutOf_snoc (items : List TextItem) (item : TextItem) :
    layoutOf L (items ++ [item]) = (layoutOf L items).extend L item := by
  rw [layoutOf, List.foldl_append]
  rfl

theorem layoutOf_prev (items : List TextItem) : (layoutOf L items).prev = items.getLast? := by
  induction items using List.reverseRecOn with
  | nil => rfl
  | append_singleton items item _ =>
      rw [layoutOf_snoc, List.getLast?_concat]
      rfl

theorem lowerPieces_snoc (items : List TextItem) (item : TextItem) :
    lowerPieces L (items ++ [item]) =
      lowerPieces L items ++
        [pieceOf L.toLowerCase items.getLast? items.length item] := by
  rw [lowerPieces, piecesFrom_append, Option.or_none, Nat.zero_add]
  rfl

theorem layoutOf_concatenated (items : List TextItem) : (layoutOf L items).concatenated =
    textOf (markedSpacing.neat (lowerPieces L items)) := by
  induction items using List.reverseRecOn with
  | nil => rfl
  | append_singleton items item ih =>
      have hextend : ((layoutOf L items).extend L item).concatenated =
          (layoutOf L items).concatenated ++
            ((if separatedFrom (layoutOf L items).prev item then [32] else []) ++
              L.normalize item.str) := rfl
      rw [layoutOf_snoc, hextend, ih, layoutOf_prev, lowerPieces_snoc, Spacing.neat_append,
        Spacing.neat_singleton, textOf_append, textOf_append, textOf_lead,
        textOf_squeeze_pieceOf]

theorem layoutOf_offsets (items : List TextItem) (j : Nat) :
    (layoutOf L items).offsets[j]? = items[j]?.map fun item =>
      ⟨markedSpacing.place (lowerPieces L items) j,
        markedSpacing.place (lowerPieces L items) (j + 1), item⟩ := by
  induction items using List.reverseRecOn generalizing j with
  | nil => rfl
  | append_singleton items item ih =>
      have hall : (layoutOf L items).offsets.length = items.length := by
        apply Nat.le_antisymm
        · apply List.getElem?_eq_none_iff.mp
          rw [ih, List.getElem?_eq_none (Nat.le_refl _)]
          rfl
        · apply List.getElem?_eq_none_iff.mp
          have hnone := ih (layoutOf L items).offsets.length
          rw [List.getElem?_eq_none (Nat.le_refl _)] at hnone
          exact Option.map_eq_none_iff.mp hnone.symm
      have hlength := length_lowerPieces L items
      have hextend : ((layoutOf L items).extend L item).offsets = (layoutOf L items).offsets ++
          [⟨(layoutOf L items).concatenated.length,
            ((layoutOf L items).extend L item).concatenated.length, item⟩] := rfl
      rw [layoutOf_snoc, hextend, ← layoutOf_snoc, layoutOf_concatenated,
        layoutOf_concatenated, length_textOf, length_textOf,
        lowerPieces_snoc]
      rcases Nat.lt_trichotomy j items.length with hlt | heq | hgt
      · rw [List.getElem?_append_left (hall ▸ hlt), List.getElem?_append_left hlt, ih,
          Spacing.place_of_le (by omega), Spacing.place_of_le (by omega)]
      · have hstart := Spacing.place_length (S := markedSpacing)
          (lowerPieces L items)
          [pieceOf L.toLowerCase items.getLast? items.length item]
        have hstop := Spacing.place_length (S := markedSpacing)
          (lowerPieces L (items ++ [item])) []
        rw [hlength] at hstart
        rw [List.append_nil, length_lowerPieces, List.length_append, List.length_singleton,
          lowerPieces_snoc] at hstop
        rw [heq, hstart, hstop, List.getElem?_append_right (Nat.le_of_eq hall), hall,
          List.getElem?_append_right (Nat.le_refl _), Nat.sub_self]
        rfl
      · rw [List.getElem?_eq_none, List.getElem?_eq_none]
        · rfl
        · rw [List.length_append, List.length_singleton]
          omega
        · rw [List.length_append, List.length_singleton]
          omega

end Layouts

/-!
# Well spaced items
-/

section Spaced

variable (L : CaseMap)

theorem empty_pieceOf (prev : Option TextItem) (place : Nat) (item : TextItem) :
    markedSpacing.Empty (pieceOf L.toLowerCase prev place item).text <-> Blank item := by
  rw [← empty_textOf, pieceOf, textOf_mark]
  exact L.empty_toLowerCase

theorem follows_pieceOf_iff (prev : Option TextItem) (place place' : Nat) (a b : TextItem) :
    markedSpacing.Follows (pieceOf L.toLowerCase prev place a)
      (pieceOf L.toLowerCase (some a) place' b) <-> Parted a b := by
  have hends : markedSpacing.ends (pieceOf L.toLowerCase prev place a).text =
      spacing.ends a.str := by
    rw [← ends_textOf, pieceOf, textOf_mark]
    exact L.ends_lowerWith [] a.str
  have hstarts : markedSpacing.starts (pieceOf L.toLowerCase (some a) place' b).text =
      spacing.starts b.str := by
    rw [← starts_textOf, pieceOf, textOf_mark]
    exact L.starts_toLowerCase b.str
  rw [Spacing.Follows, hends, hstarts]
  rfl

theorem isChain_piecesFrom (prev : Option TextItem) (place : Nat) (items : List TextItem) :
    (piecesFrom L.toLowerCase prev place items).IsChain markedSpacing.Follows <->
      items.IsChain Parted := by
  induction items generalizing prev place with
  | nil => exact iff_of_true .nil .nil
  | cons a rest ih =>
      cases rest with
      | nil => exact iff_of_true (.singleton _) (.singleton _)
      | cons b rest =>
          have hrest := ih (some a) (place + 1)
          rw [piecesFrom] at hrest
          rw [piecesFrom, piecesFrom, List.isChain_cons_cons, List.isChain_cons_cons, hrest,
            follows_pieceOf_iff]

theorem aligned_lowerPieces_iff (items : List TextItem) :
    markedSpacing.Aligned (lowerPieces L items) <-> WellSpaced items := by
  have hblank := forall_mem_piecesFrom (P := fun p => markedSpacing.Empty p.text)
    L.toLowerCase (empty_pieceOf L)
  have hkept := forall_mem_piecesFrom (P := fun p => ¬ markedSpacing.Empty p.text)
    L.toLowerCase fun prev place item => not_congr (empty_pieceOf L prev place item)
  constructor
  · rintro ⟨front, core, back, heq, hfront, hcore, hback, hchain⟩
    rcases exists_cut L.toLowerCase heq with ⟨xs, rest, rfl, rfl, hrest⟩
    rcases exists_cut L.toLowerCase hrest.symm with ⟨ys, zs, rfl, rfl, rfl⟩
    exact ⟨xs, ys, zs, rfl, (hblank _ _ xs).mp hfront, (hkept _ _ ys).mp hcore,
      (hblank _ _ zs).mp hback, (isChain_piecesFrom L _ _ ys).mp hchain⟩
  · rintro ⟨front, core, back, rfl, hfront, hcore, hback, hchain⟩
    exact ⟨_, _, _, by rw [lowerPieces, piecesFrom_append, piecesFrom_append],
      (hblank _ _ front).mpr hfront, (hkept _ _ core).mpr hcore, (hblank _ _ back).mpr hback,
      (isChain_piecesFrom L _ _ core).mpr hchain⟩

end Spaced

/-!
# Letters without a context
-/

section Plain

variable {L : CaseMap}

def Plain (rule : CaseRule) (c : CodeUnit) : Prop :=
  forall word rest, rule word c rest = rule [] c []

def lowerUnit (rule : CaseRule) (c : Marked) : List Marked :=
  if isSpace c.1 then [c] else (rule [] c.1 []).map fun d => (d, c.2)

theorem lowerMarked_of_plain {rule : CaseRule} (word : List CodeUnit) {text : List Marked}
    (h : forall c, c ∈ text -> isSpace c.1 = false -> Plain rule c.1) :
    lowerMarked rule word text = text.flatMap (lowerUnit rule) := by
  induction text generalizing word with
  | nil => rfl
  | cons c rest ih =>
      rcases List.forall_mem_cons.mp h with ⟨hc, hrest⟩
      rw [lowerMarked, List.flatMap_cons, lowerUnit]
      cases hspace : isSpace c.1 with
      | true =>
          rw [if_pos rfl, if_pos rfl, ih [] hrest]
          rfl
      | false =>
          rw [if_neg Bool.false_ne_true, if_neg Bool.false_ne_true, hc hspace, ih _ hrest]

theorem lowerMarked_mark (rule : CaseRule) (word s : List CodeUnit) (mark : Option Nat) :
    lowerMarked rule word (s.map fun c => (c, mark)) =
      (lowerWith rule word s).map fun c => (c, mark) := by
  induction s generalizing word with
  | nil => rfl
  | cons c rest ih =>
      rw [List.map_cons, lowerMarked, lowerWith]
      cases hspace : isSpace c with
      | true => rw [if_pos rfl, if_pos rfl, ih, List.map_cons]
      | false =>
          rw [if_neg Bool.false_ne_true, if_neg Bool.false_ne_true, ih, textOf_mark,
            List.map_append]

theorem flatMap_lowerUnit_mark {s : List CodeUnit}
    (h : forall c, c ∈ s -> isSpace c = false -> Plain L.rule c) (mark : Option Nat) :
    (s.map fun c => (c, mark)).flatMap (lowerUnit L.rule) =
      (L.toLowerCase s).map fun c => (c, mark) := by
  have hplain : forall c, c ∈ s.map (fun c => (c, mark)) -> isSpace c.1 = false ->
      Plain L.rule c.1 := by
    intro c hc
    rcases List.mem_map.mp hc with ⟨d, hd, rfl⟩
    exact h d hd
  rw [← lowerMarked_of_plain [] hplain, lowerMarked_mark]
  rfl

theorem flatMap_lowerUnit_lead (p : Piece Marked) :
    (markedSpacing.lead p).flatMap (lowerUnit L.rule) = markedSpacing.lead p := by
  unfold Spacing.lead
  split
  · rfl
  · rfl

theorem flatMap_lowerUnit_raw {items : List TextItem}
    (h : forall item, item ∈ items -> forall c, c ∈ item.str -> isSpace c = false ->
      Plain L.rule c) (prev : Option TextItem) (place : Nat) :
    (markedSpacing.raw (piecesFrom id prev place items)).flatMap (lowerUnit L.rule) =
      markedSpacing.raw (piecesFrom L.toLowerCase prev place items) := by
  induction items generalizing prev place with
  | nil => rfl
  | cons item rest ih =>
      rcases List.forall_mem_cons.mp h with ⟨hitem, hrest⟩
      have hlead : markedSpacing.lead (pieceOf id prev place item) =
          markedSpacing.lead (pieceOf L.toLowerCase prev place item) := rfl
      have htext : (pieceOf id prev place item).text.flatMap (lowerUnit L.rule) =
          (pieceOf L.toLowerCase prev place item).text := flatMap_lowerUnit_mark hitem _
      rw [piecesFrom, piecesFrom, Spacing.raw_cons, Spacing.raw_cons, List.flatMap_append,
        List.flatMap_append, flatMap_lowerUnit_lead, hlead, htext, ih hrest]

theorem exists_mem_item {f : List CodeUnit -> List CodeUnit} {prev : Option TextItem}
    {place : Nat} {items : List TextItem} {c : Marked}
    (hc : c ∈ markedSpacing.raw (piecesFrom f prev place items)) (hspace : isSpace c.1 = false) :
    exists item, item ∈ items ∧ c.1 ∈ f item.str := by
  induction items generalizing prev place with
  | nil => cases hc
  | cons item rest ih =>
      rw [piecesFrom, Spacing.raw_cons] at hc
      rcases List.mem_append.mp hc with hlead | hin
      · rw [Spacing.eq_blank_of_mem_lead hlead] at hspace
        cases hspace
      · rcases List.mem_append.mp hin with htext | hraw
        · rcases List.mem_map.mp htext with ⟨d, hd, rfl⟩
          exact ⟨item, List.mem_cons_self, hd⟩
        · rcases ih hraw with ⟨other, hother, hmem⟩
          exact ⟨other, List.mem_cons_of_mem item hother, hmem⟩

theorem lowersAlone_of_plain {items : List TextItem}
    (h : forall item, item ∈ items -> forall c, c ∈ item.str -> isSpace c = false ->
      Plain L.rule c) : LowersAlone L items := by
  have hplain : forall c, c ∈ referenceText items -> isSpace c.1 = false ->
      Plain L.rule c.1 := by
    intro c hc hspace
    rcases exists_mem_item hc hspace with ⟨item, hitem, hmem⟩
    exact h item hitem c.1 hmem hspace
  have hword : if markedSpacing.starts (referenceText items) then ([] : List CodeUnit) = []
      else ([] : List CodeUnit) = [] := by
    split
    · rfl
    · rfl
  rw [LowersAlone, normalizedReference, lowerMarked_squeeze L _ [] [] hword,
    lowerMarked_of_plain [] hplain, referenceText, flatMap_lowerUnit_raw h]
  rfl

end Plain

end ChatDoc
