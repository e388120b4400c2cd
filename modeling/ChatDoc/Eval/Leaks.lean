import ChatDoc.Gate.Grounding
import Mathlib.Data.List.Dedup

/-!
# The leak check

`eval/build_negatives.py` keeps an item as an unanswerable negative when the
gold figure is nowhere in the pages that the served document still has.  The
check looks for the figure as it stands in the gold value, with three digits or
more.  The gate divides the value by the multiplier of a scale first, and is
content with two digits.
-/

namespace ChatDoc

open Foundation

/-!
# The check
-/

/-- `MIN_SIGNIFICANT_DIGITS`. -/
def minSignificantDigits : Nat := 3

def goldFigureVariants (goldValue : PyFloat) : Except Exn (List (List Char)) := do
  let cs ← candidates goldValue
  let variants := (cs.flatMap variantsOf).dedup
  return variants.filter fun v =>
    v ≠ [] ∧ v ∉ ["0".toList, "-0".toList] ∧ minSignificantDigits ≤ digitCount v

def leaksElsewhere (u : PyText) (goldValue : PyFloat) (pages : List String)
    (excludedPages : List Int) : Except Exn Bool := do
  let variants ← goldFigureVariants goldValue
  if variants = [] then
    -- too few digits to search for: err toward not dropping the item
    return false
  else
    let patterns := variants.map (figurePattern u)
    return pages.zipIdx.any fun page =>
      if (page.2 : Int) ∈ excludedPages then false
      else patterns.any fun pattern => pattern.search page.1.toList

variable {u : PyText} {gold : PyFloat} {variants : List (List Char)}
  {pages : List String} {excludedPages : List Int}

/-!
# What the check looks for
-/

theorem mem_goldFigureVariants (h : goldFigureVariants gold = .ok variants)
    {v : List Char} :
    v ∈ variants <-> exists q, gold = .finite q ∧ v ∈ searched q ∧ 3 ≤ digitCount v := by
  cases gold with
  | inf negative => cases h
  | nan => cases h
  | finite q =>
      unfold goldFigureVariants candidates at h
      rw [← Except.ok.inj h]
      change v ∈ (searched q).dedup.filter _ <-> _
      rw [List.mem_filter, List.mem_dedup, decide_eq_true_eq]
      constructor
      · intro hall
        exact ⟨q, rfl, hall.1, hall.2.2.2⟩
      · intro hall
        rcases hall with ⟨_, hq, hv, hcount⟩
        cases hq
        refine ⟨hv, ?_, ?_, hcount⟩
        · rintro rfl
          exact absurd hcount (by decide)
        · intro hzero
          rcases List.mem_pair.mp hzero with rfl | rfl <;>
            exact absurd hcount (by decide)

theorem not_bounded_of_kept (hvariants : goldFigureVariants gold = .ok variants)
    (hne : variants ≠ [])
    (hkept : leaksElsewhere u gold pages excludedPages = .ok false) {i : Nat}
    {text : String} (hpage : pages[i]? = some text)
    (hleft : (i : Int) ∉ excludedPages) {v : List Char} (hv : v ∈ variants) :
    ¬ exists pre post, Bounded u v text.toList pre post := by
  unfold leaksElsewhere at hkept
  rw [hvariants] at hkept
  dsimp only [bind, Except.bind] at hkept
  rw [if_neg hne] at hkept
  have hnone := List.any_eq_false.mp (Except.ok.inj hkept) (text, i)
    (List.mem_zipIdx_iff_getElem?.mpr hpage)
  rw [if_neg hleft, Bool.not_eq_true, List.any_eq_false] at hnone
  intro hbounded
  exact hnone _ (List.mem_map_of_mem hv) (search_figure.mpr hbounded)

/-!
# What the gate can still find
-/

/-- A spelling of the figure by which the gate finds it and which the check does
not look for: one with just two digits, or one of the figure at the scale of the
page that is none of the gold value itself. -/
def FoundUnsearched (u : PyText) (gold : PyFloat) (scale : Option String)
    (text : String) : Prop :=
  exists q, gold = .finite q ∧
    exists v, v ∈ searched (unscaled u q scale) ∧ 2 ≤ digitCount v ∧
      (digitCount v = 2 ∨ v ∉ searched q) ∧
        exists pre post, Bounded u v text.toList pre post

/-- The candidates of a number are not below a power of ten that the number is
not below. -/
theorem lt_digitCount_of_searched {q : Rat} {k : Nat} {v : List Char}
    (h : (10 : Rat) ^ k ≤ |q|) (hv : v ∈ searched q) : k < digitCount v := by
  have hround {r : Rat} {n : Nat} (hr : (10 : Rat) ^ n ≤ |r|) :
      (10 : Rat) ^ n ≤ |(halfEven r : Rat)| := by
    have hle : (((10 ^ n : Nat) : Int) : Rat) ≤ |r| := by
      push_cast
      exact hr
    have hint := le_halfEven hle
    rw [← abs_halfEven] at hint
    exact_mod_cast hint
  unfold searched at hv
  rcases List.mem_flatMap.mp hv with ⟨r, hr, hvr⟩
  simp only [List.mem_cons, List.not_mem_nil, or_false] at hr
  rcases hr with rfl | rfl | rfl
  · exact lt_digitCount_of_variant h hvr
  · exact lt_digitCount_of_variant (hround h) hvr
  · have hcents : (10 : Rat) ^ (k + 2) ≤ |q * 100| := by
      rw [abs_mul, pow_add, abs_of_pos (show (0 : Rat) < 100 by norm_num)]
      linarith
    have hle := hround hcents
    rw [pow_add] at hle
    apply lt_digitCount_of_variant _ hvr
    rw [abs_div, abs_of_pos (show (0 : Rat) < 100 by norm_num), le_div_iff₀ (by norm_num)]
    linarith

/-- On a page that is left to a kept negative the gate finds the gold figure
exactly by a spelling that the check does not look for.  Without a scale, a
figure from a hundred on has none. -/
theorem valueFoundInText_kept_iff
    (hvariants : goldFigureVariants gold = .ok variants) (hne : variants ≠ [])
    (hkept : leaksElsewhere u gold pages excludedPages = .ok false) {i : Nat}
    {text : String} (hpage : pages[i]? = some text)
    (hleft : (i : Int) ∉ excludedPages) (scale : Option String) :
    (valueFoundInText u gold scale text = .ok true <->
        FoundUnsearched u gold scale text) ∧
      forall q, gold = .finite q -> Representable |q| -> scaleMultiplier u scale = 1 ->
        100 ≤ |q| -> valueFoundInText u gold scale text = .ok false := by
  have hiff : valueFoundInText u gold scale text = .ok true <->
      FoundUnsearched u gold scale text := by
    rw [valueFoundInText_iff]
    constructor
    · intro hfound
      rcases hfound with ⟨q, hq, v, hv, hcount, hbounded⟩
      refine ⟨q, hq, v, hv, hcount, ?_, hbounded⟩
      by_contra hsearched
      rw [not_or, not_not] at hsearched
      have hthree : 3 ≤ digitCount v := by omega
      have hvariant := (mem_goldFigureVariants hvariants).mpr
        ⟨q, hq, hsearched.2, hthree⟩
      exact not_bounded_of_kept hvariants hne hkept hpage hleft hvariant hbounded
    · intro hfound
      rcases hfound with ⟨q, hq, v, hv, hcount, _, hbounded⟩
      exact ⟨q, hq, v, hv, hcount, hbounded⟩
  refine ⟨hiff, ?_⟩
  intro q hq hfloat hscale hlarge
  have hnot : ¬ FoundUnsearched u gold scale text := by
    intro hfound
    rcases hfound with ⟨q', hq', v, hv, _, hunsearched, _⟩
    rw [hq] at hq'
    cases hq'
    unfold unscaled at hv
    rw [hscale, Arithmetic.quotient_one _ hfloat] at hv
    have hlong : 2 < digitCount v :=
      lt_digitCount_of_searched (by norm_num; exact hlarge) hv
    rcases hunsearched with htwo | hnone
    · omega
    · exact hnone hv
  rcases valueFoundInText_cases u gold scale text with
    ⟨htrue, _⟩ | ⟨hfalse, _⟩ | ⟨exc, _, hnone⟩
  · exact absurd (hiff.mp htrue) hnot
  · exact hfalse
  · rw [hq] at hnone
    cases hnone

/-!
# Figures in millions

The gold value is 1577000000, and the page that is left prints "1,577".
-/

theorem valueFoundInText_kept_millions :
    (valueFoundInText .ascii (.finite 1577000000) none "Revenue was $1,577" = .ok true <->
        FoundUnsearched .ascii (.finite 1577000000) none "Revenue was $1,577") ∧
      forall q, PyFloat.finite 1577000000 = .finite q -> Representable |q| ->
        scaleMultiplier .ascii none = 1 -> 100 ≤ |q| ->
          valueFoundInText .ascii (.finite 1577000000) none "Revenue was $1,577" =
            .ok false := by
  have hvariants : goldFigureVariants (.finite 1577000000) =
      .ok ["1,577,000,000".toList, "1577000000".toList] := by
    decide +kernel
  have hkept : leaksElsewhere .ascii (.finite 1577000000) ["Revenue was $1,577"] [] =
      .ok false := by
    decide +kernel
  have hpage : ["Revenue was $1,577"][0]? = some "Revenue was $1,577" := rfl
  exact valueFoundInText_kept_iff hvariants (by decide) hkept hpage List.not_mem_nil none

theorem exists_kept_found :
    ¬ forall (u : PyText) (gold : PyFloat) (variants : List (List Char))
        (pages : List String) (excludedPages : List Int),
      goldFigureVariants gold = .ok variants -> variants ≠ [] ->
        leaksElsewhere u gold pages excludedPages = .ok false ->
          forall (i : Nat) (text : String), pages[i]? = some text ->
            (i : Int) ∉ excludedPages ->
              forall scale, scale ∈ [none, some "thousands", some "millions",
                  some "billions"] ->
                valueFoundInText u gold scale text = .ok false := by
  intro hall
  have hfalse := hall .ascii (.finite 1577000000)
    ["1,577,000,000".toList, "1577000000".toList] ["Revenue was $1,577"] []
    (by decide +kernel) (by decide) (by decide +kernel) 0 _ rfl List.not_mem_nil
    (some "millions") (by decide)
  have htrue : valueFoundInText .ascii (.finite 1577000000) (some "millions")
      "Revenue was $1,577" = .ok true := by
    decide +kernel
  rw [htrue] at hfalse
  cases hfalse

end ChatDoc
