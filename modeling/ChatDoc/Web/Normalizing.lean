import ChatDoc.Foundation.Whitespace

/-!
# Normalized texts

`normalize` of `web/src/components/PdfViewer.tsx`: white space is squeezed and letters are
lower-cased. What remains of a text is followed by marks that the characters carry.
-/

namespace ChatDoc

open Foundation

abbrev CodeUnit := UInt16

/-- `\s` of a regular expression, which is also what `trim` takes away. -/
def isSpace (c : CodeUnit) : Bool :=
  (9 <= c && c <= 13) || c == 32 || c == 160 || c == 5760 || (8192 <= c && c <= 8202) ||
    c == 8232 || c == 8233 || c == 8239 || c == 8287 || c == 12288 || c == 65279

def spacing : Spacing CodeUnit where
  space := isSpace
  blank := 32
  space_blank := rfl

/-!
# Lower case
-/

abbrev CaseRule := (before : List CodeUnit) -> CodeUnit -> (after : List CodeUnit) ->
  List CodeUnit

def wordAhead (text : List CodeUnit) : List CodeUnit :=
  text.takeWhile fun c => !isSpace c

/-- What a rule for the code units of a word makes of a text, behind a part of a word. The
texts that are lower-cased have been squeezed. Their white space is the blank, which has no
case and which no condition of a case mapping looks past. -/
def lowerWith (rule : CaseRule) : (word text : List CodeUnit) -> List CodeUnit
  | _, [] => []
  | word, c :: rest =>
      if isSpace c then c :: lowerWith rule [] rest
      else rule word c (wordAhead rest) ++ lowerWith rule (word ++ [c]) rest

/-- The case mapping of `toLowerCase`. It makes no white space of anything and drops
nothing, and lower case stays. -/
structure CaseMap where
  rule : CaseRule
  visible : forall before c after, isSpace c = false -> rule before c after ≠ [] ∧
    forall d, d ∈ rule before c after -> isSpace d = false
  settled : forall text part, part <:+: lowerWith rule [] text ->
    lowerWith rule [] part = part

namespace CaseMap

def toLowerCase (L : CaseMap) (text : List CodeUnit) : List CodeUnit :=
  lowerWith L.rule [] text

/-- `s.replace(/\s+/g, ' ').trim().toLowerCase()`. -/
def normalize (L : CaseMap) (s : List CodeUnit) : List CodeUnit :=
  L.toLowerCase (spacing.trim (spacing.collapse s))

end CaseMap

/-!
# Marks
-/

abbrev Marked := CodeUnit × Option Nat

/-- A run of white space belongs to no item. -/
def markedSpacing : Spacing Marked where
  space := fun c => isSpace c.1
  blank := (32, none)
  space_blank := rfl

def textOf (text : List Marked) : List CodeUnit :=
  text.map Prod.fst

/-- The same as `lowerWith`, where what becomes of a code unit keeps its mark. -/
def lowerMarked (rule : CaseRule) : List CodeUnit -> List Marked -> List Marked
  | _, [] => []
  | word, c :: rest =>
      if isSpace c.1 then c :: lowerMarked rule [] rest
      else (rule word c.1 (wordAhead (textOf rest))).map (fun d => (d, c.2)) ++
        lowerMarked rule (word ++ [c.1]) rest

theorem length_textOf (text : List Marked) : (textOf text).length = text.length :=
  List.length_map _

theorem textOf_append (a b : List Marked) : textOf (a ++ b) = textOf a ++ textOf b :=
  List.map_append

theorem textOf_mark (text : List CodeUnit) (mark : Option Nat) :
    textOf (text.map fun c => (c, mark)) = text := by
  rw [textOf, List.map_map]
  exact List.map_id text

theorem textOf_lowerMarked (rule : CaseRule) (word : List CodeUnit) (text : List Marked) :
    textOf (lowerMarked rule word text) = lowerWith rule word (textOf text) := by
  induction text generalizing word with
  | nil => rfl
  | cons c rest ih =>
      have hcons : textOf (c :: rest) = c.1 :: textOf rest := rfl
      rw [hcons, lowerMarked, lowerWith]
      by_cases hc : isSpace c.1 = true
      · rw [if_pos hc, if_pos hc, ← ih]
        rfl
      · rw [if_neg hc, if_neg hc, textOf_append, textOf_mark, ih]

theorem textOf_squeeze (text : List Marked) :
    textOf (markedSpacing.squeeze text) = spacing.squeeze (textOf text) := by
  have hspace : forall c : Marked, spacing.space c.1 = markedSpacing.space c := fun _ => rfl
  exact (Spacing.squeeze_map hspace rfl text).symm

/-!
# Squeezing and lower-casing
-/

section Commuting

variable (L : CaseMap)

theorem lowerMarked_space {c : Marked} (hc : isSpace c.1 = true) (word : List CodeUnit)
    (rest : List Marked) :
    lowerMarked L.rule word (c :: rest) = c :: lowerMarked L.rule [] rest :=
  if_pos hc

theorem lowerMarked_of_not {c : Marked} (hc : isSpace c.1 = false) (word : List CodeUnit)
    (rest : List Marked) : lowerMarked L.rule word (c :: rest) =
      (L.rule word c.1 (wordAhead (textOf rest))).map (fun d => (d, c.2)) ++
        lowerMarked L.rule (word ++ [c.1]) rest :=
  if_neg (Bool.eq_false_iff.mp hc)

theorem lowerMarked_ne_nil {c : Marked} {word : List CodeUnit} {rest : List Marked} :
    lowerMarked L.rule word (c :: rest) ≠ [] := by
  cases hc : isSpace c.1 with
  | true =>
      rw [lowerMarked_space L hc]
      exact List.cons_ne_nil _ _
  | false =>
      rw [lowerMarked_of_not L hc]
      apply List.append_ne_nil_of_left_ne_nil
      exact mt List.map_eq_nil_iff.mp (L.visible _ _ _ hc).left

theorem starts_lowerMarked (word : List CodeUnit) (text : List Marked) :
    markedSpacing.starts (lowerMarked L.rule word text) = markedSpacing.starts text := by
  cases text with
  | nil => rfl
  | cons c rest =>
      cases hc : isSpace c.1 with
      | true => rw [lowerMarked_space L hc]; rfl
      | false =>
          have hrule := L.visible word c.1 (wordAhead (textOf rest)) hc
          rw [lowerMarked_of_not L hc]
          cases hmade : L.rule word c.1 (wordAhead (textOf rest)) with
          | nil => exact absurd hmade hrule.left
          | cons d made =>
              rw [hmade] at hrule
              have hd : isSpace d = false := hrule.right d List.mem_cons_self
              exact hd.trans hc.symm

theorem wordAhead_behind (text : List Marked) :
    wordAhead (textOf (markedSpacing.behind text)) = wordAhead (textOf text) := by
  induction text with
  | nil => rfl
  | cons c rest ih =>
      cases hc : isSpace c.1 with
      | true =>
          have hstarts : markedSpacing.starts (c :: rest) = true := hc
          have hright : wordAhead (textOf (c :: rest)) = [] := by
            show List.takeWhile _ (c.1 :: textOf rest) = []
            rw [List.takeWhile_cons_of_neg]
            simp [hc]
          rw [hright]
          by_cases hnil : markedSpacing.squeeze (c :: rest) = []
          · rw [Spacing.behind_of_squeeze_nil hnil]
            rfl
          · rw [Spacing.behind_of_starts hstarts hnil]
            rfl
      | false =>
          have hstarts : markedSpacing.starts (c :: rest) = false := hc
          rw [Spacing.behind_eq_squeeze hstarts, Spacing.squeeze_cons_of_not hc]
          show List.takeWhile _ (c.1 :: textOf (markedSpacing.behind rest)) =
            List.takeWhile _ (c.1 :: textOf rest)
          rw [List.takeWhile_cons_of_pos (by simp [hc]),
            List.takeWhile_cons_of_pos (by simp [hc])]
          exact congrArg _ ih

theorem squeeze_visible {made : List Marked} (hne : made ≠ [])
    (hmade : forall d, d ∈ made -> isSpace d.1 = false) (rest : List Marked) :
    markedSpacing.squeeze (made ++ rest) = made ++ markedSpacing.behind rest := by
  induction made with
  | nil => exact absurd rfl hne
  | cons d made ih =>
      have hd : isSpace d.1 = false := hmade d List.mem_cons_self
      rw [List.cons_append, Spacing.squeeze_cons_of_not hd]
      cases made with
      | nil => rfl
      | cons e made =>
          have he : markedSpacing.starts (e :: made ++ rest) = false :=
            hmade e (List.mem_cons_of_mem d List.mem_cons_self)
          rw [Spacing.behind_eq_squeeze he, ih (List.cons_ne_nil e made)
            (fun k hk => hmade k (List.mem_cons_of_mem d hk)), List.cons_append,
            List.cons_append, List.cons_append]

/-- White space may be squeezed before the letters are lower-cased or after that. Only the
word counts that a text goes on with. -/
theorem lowerMarked_squeeze (text : List Marked) (word word' : List CodeUnit)
    (hword : if markedSpacing.starts text then word = [] else word = word') :
    lowerMarked L.rule word (markedSpacing.squeeze text) =
      markedSpacing.squeeze (lowerMarked L.rule word' text) := by
  induction text generalizing word word' with
  | nil => rfl
  | cons c rest ih =>
      cases hc : isSpace c.1 with
      | true =>
          have hstarts : markedSpacing.starts (c :: rest) = true := hc
          rw [hstarts, if_pos rfl] at hword
          rw [hword, Spacing.squeeze_cons_space hc, lowerMarked_space L hc,
            Spacing.squeeze_cons_space hc]
          apply ih
          split
          · rfl
          · rfl
      | false =>
          have hstarts : markedSpacing.starts (c :: rest) = false := hc
          rw [hstarts, if_neg Bool.false_ne_true] at hword
          have hrule := L.visible word' c.1 (wordAhead (textOf rest)) hc
          rw [hword, Spacing.squeeze_cons_of_not hc, lowerMarked_of_not L hc,
            lowerMarked_of_not L hc, wordAhead_behind, squeeze_visible]
          · apply congrArg
            have hlower := starts_lowerMarked L (word' ++ [c.1]) rest
            cases hrest : markedSpacing.starts rest with
            | false =>
                rw [hrest] at hlower
                rw [Spacing.behind_eq_squeeze hrest, Spacing.behind_eq_squeeze hlower]
                apply ih
                rw [hrest, if_neg Bool.false_ne_true]
            | true =>
                rw [hrest] at hlower
                have hsame := ih [] (word' ++ [c.1]) (by rw [hrest, if_pos rfl])
                cases hsqueeze : markedSpacing.squeeze rest with
                | nil =>
                    rw [hsqueeze] at hsame
                    rw [Spacing.behind_of_squeeze_nil hsqueeze,
                      Spacing.behind_of_squeeze_nil hsame.symm]
                    rfl
                | cons k kept =>
                    have hne : markedSpacing.squeeze rest ≠ [] := by
                      rw [hsqueeze]
                      exact List.cons_ne_nil k kept
                    have hne' : markedSpacing.squeeze
                        (lowerMarked L.rule (word' ++ [c.1]) rest) ≠ [] := by
                      rw [← hsame, hsqueeze]
                      exact lowerMarked_ne_nil L
                    rw [Spacing.behind_of_starts hrest hne,
                      Spacing.behind_of_starts hlower hne', ← hsame]
                    rfl
          · exact mt List.map_eq_nil_iff.mp hrule.left
          · intro d hd
            rcases List.mem_map.mp hd with ⟨k, hk, rfl⟩
            exact hrule.right k hk

end Commuting

/-!
# Normalized texts and parts of them
-/

theorem starts_textOf (text : List Marked) :
    spacing.starts (textOf text) = markedSpacing.starts text := by
  cases text with
  | nil => rfl
  | cons c rest => rfl

theorem ends_textOf (text : List Marked) :
    spacing.ends (textOf text) = markedSpacing.ends text := by
  rw [Spacing.ends, Spacing.ends, textOf, List.getLast?_map]
  cases text.getLast? with
  | none => rfl
  | some c => rfl

theorem empty_textOf {text : List Marked} :
    spacing.Empty (textOf text) <-> markedSpacing.Empty text :=
  List.forall_mem_map

namespace CaseMap

variable (L : CaseMap)

theorem squeeze_toLowerCase (s : List CodeUnit) :
    spacing.squeeze (L.toLowerCase s) = L.normalize s := by
  have hmark := textOf_mark s none
  have hword : if markedSpacing.starts (s.map fun c => (c, none)) then ([] : List CodeUnit) = []
      else ([] : List CodeUnit) = [] := by
    split
    · rfl
    · rfl
  have hsame := congrArg textOf (lowerMarked_squeeze L (s.map fun c => (c, none)) [] [] hword)
  rw [textOf_lowerMarked, textOf_squeeze, textOf_squeeze, textOf_lowerMarked, hmark] at hsame
  exact hsame.symm

theorem starts_toLowerCase (s : List CodeUnit) :
    spacing.starts (L.toLowerCase s) = spacing.starts s := by
  have hmark := textOf_mark s none
  have hsame := starts_lowerMarked L [] (s.map fun c => (c, none))
  rw [← starts_textOf, ← starts_textOf, textOf_lowerMarked, hmark] at hsame
  exact hsame

theorem lowerWith_ne_nil {word text : List CodeUnit} (h : text ≠ []) :
    lowerWith L.rule word text ≠ [] := by
  cases text with
  | nil => exact absurd rfl h
  | cons c rest =>
      rw [lowerWith]
      cases hc : isSpace c with
      | true =>
          rw [if_pos rfl]
          exact List.cons_ne_nil _ _
      | false =>
          rw [if_neg Bool.false_ne_true]
          exact List.append_ne_nil_of_left_ne_nil (L.visible _ _ _ hc).left _

theorem ends_lowerWith (word text : List CodeUnit) :
    spacing.ends (lowerWith L.rule word text) = spacing.ends text := by
  induction text generalizing word with
  | nil => rfl
  | cons c rest ih =>
      rw [lowerWith]
      by_cases hnil : rest = []
      · subst hnil
        cases hc : isSpace c with
        | true =>
            rw [if_pos rfl]
            rfl
        | false =>
            have hrule := L.visible word c (wordAhead []) hc
            have hlast := hrule.right _ (List.getLast_mem hrule.left)
            have hnothing : lowerWith L.rule (word ++ [c]) [] = [] := rfl
            rw [if_neg Bool.false_ne_true, hnothing, List.append_nil, Spacing.ends,
              List.getLast?_eq_some_getLast hrule.left]
            exact hlast.trans hc.symm
      · have hrest : forall word', lowerWith L.rule word' rest ≠ [] :=
          fun _ => lowerWith_ne_nil L hnil
        rw [Spacing.ends_cons c hnil]
        cases hc : isSpace c with
        | true =>
            rw [if_pos rfl, Spacing.ends_cons c (hrest []), ih]
        | false =>
            rw [if_neg Bool.false_ne_true, Spacing.ends_append (hrest _), ih]

theorem normalize_eq_nil_iff {s : List CodeUnit} :
    L.normalize s = [] <-> spacing.Empty s := by
  have hnormal : L.normalize s = L.toLowerCase (spacing.squeeze s) := rfl
  rw [hnormal, ← Spacing.squeeze_eq_nil_iff]
  constructor
  · intro hnil
    by_contra hne
    exact lowerWith_ne_nil L hne hnil
  · intro hnil
    rw [hnil]
    rfl

theorem empty_toLowerCase {s : List CodeUnit} :
    spacing.Empty (L.toLowerCase s) <-> spacing.Empty s := by
  rw [← Spacing.squeeze_eq_nil_iff, squeeze_toLowerCase, normalize_eq_nil_iff]

theorem tight_normalize (s : List CodeUnit) : spacing.Tight (L.normalize s) := by
  rw [← squeeze_toLowerCase]
  exact Spacing.tight_squeeze _

theorem normalize_of_part {s part : List CodeUnit} (hpart : part <:+: L.normalize s)
    (hstarts : spacing.starts part = false) (hends : spacing.ends part = false) :
    L.normalize part = part := by
  have htight := (tight_normalize L s).part hpart hstarts hends
  have hlower : L.toLowerCase part = part := L.settled _ part hpart
  have hnormal : L.normalize part = L.toLowerCase (spacing.squeeze part) := rfl
  rw [hnormal, Spacing.squeeze_of_tight htight, hlower]

end CaseMap

end ChatDoc
