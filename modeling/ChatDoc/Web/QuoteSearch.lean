import ChatDoc.Web.MissedQuotes

/-!
# Verbatim quotes

The loop of `findQuoteRects` normalizes each item and decides on the spaces between items by
their boxes. White space that an item carries itself is lost between two items.
-/

namespace ChatDoc

open Foundation

/-- Every quote of the reference text is located exactly where the items are well spaced. -/
theorem verbatim_quotes_located_iff {L : CaseMap} {engine : SortEngine compareItems}
    {pdf : PdfJs} {content : List (Option TextItem)}
    (hlower : LowersAlone L (engine.sort (textItems content))) :
    (forall quote, ¬ spacing.Empty quote ->
      L.normalize quote <:+: textOf (normalizedReference L (engine.sort (textItems content))) ->
      Located L engine pdf content quote) <->
        WellSpaced (engine.sort (textItems content)) := by
  rw [← aligned_lowerPieces_iff L]
  constructor
  · intro hall
    rcases Spacing.aligned_or_broken (S := markedSpacing)
      (lowerPieces L (engine.sort (textItems content))) with haligned | hbroken
    · exact haligned
    · rcases hbroken with ⟨front, core, f, mid, g, back, hbroken⟩
      apply absurd ?_ (not_spotsAll_of_broken hbroken hlower)
      intro part hpart hne hstarts hends
      have hcut := hpart
      rw [textOf_normalizedReference] at hcut
      have hnormal := L.normalize_of_part hcut hstarts hends
      have hkept : L.normalize part ≠ [] := hnormal.symm ▸ hne
      have hspotted := spotted_of_located hkept
        (hall part (mt L.normalize_eq_nil_iff.mpr hkept) (hnormal.symm ▸ hpart))
      rwa [hnormal] at hspotted
  · intro haligned quote hquote hoccurs
    have hne : L.normalize quote ≠ [] := mt L.normalize_eq_nil_iff.mp hquote
    have htight := L.tight_normalize quote
    rcases infix_iff_exists_occursAt.mp hoccurs with ⟨i, hi⟩
    rcases exists_indexOf hi hne with ⟨first, hfirst, _⟩
    rcases spotted_of_aligned hlower haligned hne htight.starts htight.ends hfirst with
      ⟨hspotted, j, hj, hoverlaps⟩
    exact located_of_spotted hne hspotted hfirst hj hoverlaps

/-!
# Pages of one line
-/

section Line

def asciiLower (c : CodeUnit) : CodeUnit :=
  if 65 <= c && c <= 90 then c + 32 else c

theorem asciiLower_cases (c : CodeUnit) : (asciiLower c = c ∧ ¬ (65 <= c ∧ c <= 90)) ∨
    (97 <= asciiLower c ∧ asciiLower c <= 122 ∧ 65 <= c ∧ c <= 90) := by
  unfold asciiLower
  split
  · rename_i h
    rw [Bool.and_eq_true, decide_eq_true_iff, decide_eq_true_iff] at h
    right
    simp only [UInt16.le_iff_toNat_le, UInt16.toNat_add] at h ⊢
    simp at h ⊢
    omega
  · rename_i h
    rw [Bool.and_eq_true, decide_eq_true_iff, decide_eq_true_iff] at h
    exact .inl ⟨rfl, h⟩

theorem isSpace_letter {c : CodeUnit} (h : 97 <= c ∧ c <= 122) : isSpace c = false := by
  simp only [isSpace, UInt16.le_iff_toNat_le] at h ⊢
  simp [← UInt16.toNat_inj] at h ⊢
  omega

theorem isSpace_asciiLower (c : CodeUnit) : isSpace (asciiLower c) = isSpace c := by
  rcases asciiLower_cases c with ⟨heq, _⟩ | ⟨hlow, hhigh, hfrom, hto⟩
  · rw [heq]
  · rw [isSpace_letter ⟨hlow, hhigh⟩]
    simp only [isSpace, UInt16.le_iff_toNat_le] at hfrom hto ⊢
    simp [← UInt16.toNat_inj] at hfrom hto ⊢
    omega

theorem asciiLower_asciiLower (c : CodeUnit) : asciiLower (asciiLower c) = asciiLower c := by
  rcases asciiLower_cases (asciiLower c) with ⟨heq, _⟩ | ⟨_, _, hfrom, hto⟩
  · exact heq
  · rcases asciiLower_cases c with ⟨heq, hnot⟩ | ⟨hlow, _, _, _⟩
    · rw [heq] at hfrom hto
      exact absurd ⟨hfrom, hto⟩ hnot
    · simp only [UInt16.le_iff_toNat_le] at hlow hto
      simp at hlow hto
      omega

theorem lowerWith_ascii (word text : List CodeUnit) :
    lowerWith (fun _ c _ => [asciiLower c]) word text = text.map asciiLower := by
  induction text generalizing word with
  | nil => rfl
  | cons c rest ih =>
      rw [lowerWith, List.map_cons]
      split
      · rename_i hspace
        rcases asciiLower_cases c with ⟨heq, _⟩ | ⟨hlow, hhigh, _⟩
        · rw [heq, ih]
        · rw [← isSpace_asciiLower, isSpace_letter ⟨hlow, hhigh⟩] at hspace
          cases hspace
      · rw [ih]
        rfl

/-- What `toLowerCase` does to ASCII. -/
def asciiCase : CaseMap where
  rule := fun _ c _ => [asciiLower c]
  visible _ c _ hc := by
    refine ⟨List.cons_ne_nil _ _, ?_⟩
    intro d hd
    rw [List.mem_singleton.mp hd, isSpace_asciiLower]
    exact hc
  settled text part hpart := by
    rw [lowerWith_ascii] at hpart ⊢
    rw [List.map_congr_left (g := id), List.map_id]
    intro c hc
    rcases List.mem_map.mp (hpart.subset hc) with ⟨d, _, rfl⟩
    exact asciiLower_asciiLower d

theorem lowersAlone_ascii (items : List TextItem) : LowersAlone asciiCase items :=
  lowersAlone_of_plain fun _ _ _ _ _ _ _ => rfl

def plainPdf : PdfJs where
  applyTransform p m :=
    (p.1 * m.get 0 + p.2 * m.get 2 + m.get 4, p.1 * m.get 1 + p.2 * m.get 3 + m.get 5)
  convertToViewportPoint x y := (x, 792 - y)

theorem sort_line (engine : SortEngine compareItems) {items : List TextItem}
    (hlevel : forall item, item ∈ items -> item.y = 0)
    (hlist : items.Pairwise fun a b => a.x < b.x) : engine.sort items = items := by
  have hline : forall a, a ∈ items -> forall b, b ∈ items -> SameLine a b := by
    intro a ha b hb
    rw [SameLine, hlevel a ha, hlevel b hb]
    norm_num
  apply engine.sort_of_ascending
  · rw [consistent_compareItems_iff]
    rintro ⟨a, ha, _, _, c, hc, hfar, _⟩
    rw [hlevel a ha, hlevel c hc] at hfar
    norm_num at hfar
  · apply hlist.imp_of_mem
    intro a b ha hb hlt
    rw [compareItems_of_sameLine (hline a ha b hb)]
    exact sub_neg.mpr hlt

def spacedLine : List TextItem :=
  [wordAt [97, 66, 32] 0 0, wordAt [99] 20 0]

theorem verbatim_quotes_located_iff_line :
    WellSpaced spacedLine ∧ Located asciiCase (SortEngine.cautious compareItems) plainPdf
      (spacedLine.map some) [98, 9, 67] := by
  have hspaced : WellSpaced spacedLine := by
    refine ⟨[], spacedLine, [], rfl, List.forall_mem_nil _, ?_, List.forall_mem_nil _, ?_⟩
    · simp only [spacedLine, List.forall_mem_cons, wordAt, Blank]
      decide
    · apply List.isChain_pair.mpr
      intro _
      decide +kernel
  have hitems : (SortEngine.cautious compareItems).sort (textItems (spacedLine.map some)) =
      spacedLine := by
    have htext : textItems (spacedLine.map some) = spacedLine := rfl
    rw [htext]
    apply sort_line
    · simp [spacedLine]
    · simp [spacedLine]
  refine ⟨hspaced, (verbatim_quotes_located_iff (lowersAlone_ascii _)).mpr ?_ _ ?_ ?_⟩
  · rw [hitems]
    exact hspaced
  · decide
  · rw [hitems]
    decide +kernel

def flushLine : List TextItem :=
  [wordAt [97] 0 0, wordAt [32] 10 0, wordAt [98] 20 0]

theorem blank_item_is_lost :
    ¬ spacing.Empty [97, 32, 98] ∧
      asciiCase.normalize [97, 32, 98] <:+: textOf (normalizedReference asciiCase
        ((SortEngine.cautious compareItems).sort (textItems (flushLine.map some)))) ∧
      findQuoteRects asciiCase (SortEngine.cautious compareItems) plainPdf
        (flushLine.map some) [97, 32, 98] = [] ∧
      ¬ Located asciiCase (SortEngine.cautious compareItems) plainPdf
        (flushLine.map some) [97, 32, 98] := by
  have hitems : (SortEngine.cautious compareItems).sort (textItems (flushLine.map some)) =
      flushLine := by
    have htext : textItems (flushLine.map some) = flushLine := rfl
    rw [htext]
    apply sort_line
    · simp [flushLine]
    · norm_num [flushLine]
  have hrects : findQuoteRects asciiCase (SortEngine.cautious compareItems) plainPdf
      (flushLine.map some) [97, 32, 98] = [] := by
    simp only [findQuoteRects]
    rw [hitems]
    decide +kernel
  refine ⟨by decide, ?_, hrects, fun h => h.left hrects⟩
  rw [hitems]
  decide +kernel

end Line

end ChatDoc
