import Mathlib.Data.Rat.Floor
import Mathlib.Tactic.Linarith
import Mathlib.Tactic.Ring

/-!
# Rounding half to even

The rounding of exact decimal arithmetic: the nearest integer, and the even one
of two that are equally near.
-/

namespace Foundation

def halfEven (q : Rat) : Int :=
  let k := ⌊q⌋
  if q - k < 1 / 2 then k else if 1 / 2 < q - k then k + 1 else k + k % 2

theorem halfEven_eq {q : Rat} {n : Int} (hlow : (n : Rat) - 1 / 2 < q)
    (hhigh : q < n + 1 / 2) : halfEven q = n := by
  unfold halfEven
  dsimp only
  rcases lt_or_ge q n with hlt | hge
  · have hfloor : ⌊q⌋ = n - 1 := by
      rw [Int.floor_eq_iff]
      push_cast
      constructor <;> linarith
    rw [hfloor]
    push_cast
    rw [if_neg (by linarith), if_pos (by linarith)]
    ring
  · have hfloor : ⌊q⌋ = n := by
      rw [Int.floor_eq_iff]
      constructor <;> linarith
    rw [hfloor, if_pos (by linarith)]

theorem halfEven_intCast (n : Int) : halfEven n = n := by
  apply halfEven_eq
  · linarith
  · linarith

theorem halfEven_half (n : Int) : halfEven (n + 1 / 2) = n + n % 2 := by
  have hfloor : ⌊(n : Rat) + 1 / 2⌋ = n := by
    rw [Int.floor_eq_iff]
    constructor <;> linarith
  unfold halfEven
  dsimp only
  rw [hfloor, if_neg (by linarith), if_neg (by linarith)]

theorem near_or_half (q : Rat) :
    (exists n : Int, (n : Rat) - 1 / 2 < q ∧ q < n + 1 / 2) ∨
      exists n : Int, q = n + 1 / 2 := by
  have hlow := Int.floor_le q
  have hhigh := Int.lt_floor_add_one q
  rcases lt_trichotomy (q - ⌊q⌋) (1 / 2) with hlt | heq | hgt
  · exact .inl ⟨⌊q⌋, by linarith, by linarith⟩
  · exact .inr ⟨⌊q⌋, by linarith⟩
  · refine .inl ⟨⌊q⌋ + 1, ?_, ?_⟩
    · push_cast
      linarith
    · push_cast
      linarith

theorem halfEven_neg (q : Rat) : halfEven (-q) = -halfEven q := by
  rcases near_or_half q with ⟨n, hlow, hhigh⟩ | ⟨n, hq⟩
  · rw [halfEven_eq hlow hhigh]
    apply halfEven_eq
    · push_cast
      linarith
    · push_cast
      linarith
  · have hneg : -q = ((-n - 1 : Int) : Rat) + 1 / 2 := by
      rw [hq]
      push_cast
      ring
    rw [hneg, hq, halfEven_half, halfEven_half]
    omega

theorem le_halfEven {q : Rat} {n : Int} (h : (n : Rat) ≤ q) : n ≤ halfEven q := by
  have hfloor : n ≤ ⌊q⌋ := Int.le_floor.mpr h
  unfold halfEven
  dsimp only
  split
  · exact hfloor
  · split <;> omega

theorem halfEven_le {q : Rat} {n : Int} (h : q ≤ n) : halfEven q ≤ n := by
  have hneg : ((-n : Int) : Rat) ≤ -q := by
    rw [Int.cast_neg]
    exact neg_le_neg h
  have hround := le_halfEven hneg
  rw [halfEven_neg] at hround
  omega

theorem halfEven_nonneg {q : Rat} (h : 0 ≤ q) : 0 ≤ halfEven q := by
  apply le_halfEven
  rw [Int.cast_zero]
  exact h

theorem abs_halfEven (q : Rat) : |halfEven q| = halfEven |q| := by
  rcases le_total 0 q with h | h
  · rw [abs_of_nonneg h, abs_of_nonneg (halfEven_nonneg h)]
  · have hneg : 0 ≤ -q := neg_nonneg.mpr h
    have hround := halfEven_nonneg hneg
    rw [halfEven_neg] at hround
    rw [abs_of_nonpos h, halfEven_neg,
      abs_of_nonpos (neg_nonneg.mp hround)]

end Foundation
