import ChatDoc.Foundation.HalfEven
import Mathlib.Data.Int.Log
import Mathlib.Algebra.Order.Field.Power

/-!
# Binary floating point

Magnitudes of the 64-bit format as rationals, the one that is nearest to a
rational, and the shortest decimal that rounds to a given one.
-/

namespace Foundation

/-- At most 53 significant bits, in the range of the exponents. -/
def Representable (q : Rat) : Prop :=
  exists (m : Nat) (e : Int), m < 2 ^ 53 ∧ -1074 ≤ e ∧ e ≤ 971 ∧ q = m * 2 ^ e

/-- The weight of the last bit of what a number rounds to. -/
def quantum (q : Rat) : Rat := 2 ^ max (Int.log 2 q - 52) (-1074)

/-- The nearest magnitude, ties to even; none when it is infinite. -/
def nearest (q : Rat) : Option Rat :=
  let r := halfEven (q / quantum q) * quantum q
  if r < 2 ^ 1024 then some r else none

theorem representable_nonneg {q : Rat} (h : Representable q) : 0 ≤ q := by
  rcases h with ⟨m, e, _, _, _, rfl⟩
  positivity

theorem representable_lt {q : Rat} (h : Representable q) : q < 2 ^ 1024 := by
  rcases h with ⟨m, e, hm, _, he, rfl⟩
  have hm' : (m : Rat) < 2 ^ (53 : Int) := by
    exact_mod_cast hm
  have hpow : (2 : Rat) ^ e ≤ 2 ^ (971 : Int) :=
    zpow_le_zpow_right₀ (by norm_num) he
  have htop : (2 : Rat) ^ (53 : Int) * 2 ^ (971 : Int) = 2 ^ 1024 := by
    rw [← zpow_add₀ (by norm_num)]
    norm_num
  rw [← htop]
  exact mul_lt_mul hm' hpow (by positivity) (by positivity)

theorem quantum_pos (q : Rat) : 0 < quantum q := by
  unfold quantum
  positivity

theorem representable_quantum {q : Rat} (h : Representable q) :
    exists n : Int, q = n * quantum q := by
  rcases h with ⟨m, e, hm, hlow, _, hq⟩
  rcases Nat.eq_zero_or_pos m with hzero | hpos
  · refine ⟨0, ?_⟩
    rw [hq, hzero]
    simp
  · have hqpos : 0 < q := by
      rw [hq]
      positivity
    have hbound : max (Int.log 2 q - 52) (-1074) ≤ e := by
      refine max_le ?_ hlow
      have hlog : Int.log 2 q < e + 53 := by
        rw [← Int.lt_zpow_iff_log_lt (by norm_num) hqpos, hq]
        have hm' : (m : Rat) < 2 ^ (53 : Int) := by
          exact_mod_cast hm
        have htwo : ((2 : Nat) : Rat) = 2 := rfl
        rw [htwo, zpow_add₀ (by norm_num), mul_comm ((2 : Rat) ^ e)]
        exact mul_lt_mul_of_pos_right hm' (by positivity)
      omega
    rcases Int.le.dest hbound with ⟨k, hk⟩
    refine ⟨m * 2 ^ k, ?_⟩
    unfold quantum
    rw [mul_comm ((m * 2 ^ k : Int) : Rat)]
    push_cast
    rw [mul_left_comm, ← zpow_natCast, ← zpow_add₀ (by norm_num), hk]
    exact hq

theorem smallest_le_quantum (q : Rat) : 2 ^ (-1074 : Int) ≤ quantum q :=
  zpow_le_zpow_right₀ (by norm_num) (le_max_right _ _)

theorem nearest_zero : nearest 0 = some 0 := by
  have hzero : halfEven (0 / quantum 0) = 0 := by
    rw [zero_div]
    exact halfEven_intCast 0
  rw [nearest, hzero, Int.cast_zero, zero_mul, if_pos (by norm_num)]

theorem smallest_le_of_nearest {q r : Rat} (hq : 0 ≤ q) (h : nearest q = some r)
    (hr : r ≠ 0) : 2 ^ (-1074 : Int) ≤ r := by
  rw [nearest] at h
  split at h
  · rw [Option.some.injEq] at h
    have hnonneg : 0 ≤ halfEven (q / quantum q) :=
      halfEven_nonneg (div_nonneg hq (quantum_pos q).le)
    have hne : halfEven (q / quantum q) ≠ 0 := by
      intro hzero
      rw [hzero, Int.cast_zero, zero_mul] at h
      exact hr h.symm
    have hone : (1 : Rat) ≤ halfEven (q / quantum q) := by
      exact_mod_cast (by omega : 1 ≤ halfEven (q / quantum q))
    calc (2 : Rat) ^ (-1074 : Int)
        ≤ quantum q := smallest_le_quantum q
      _ ≤ halfEven (q / quantum q) * quantum q :=
          le_mul_of_one_le_left (quantum_pos q).le hone
      _ = r := h
  · cases h

theorem nearest_ne_zero {q : Rat} (h : 2 ^ (-1074 : Int) ≤ q) : nearest q ≠ some 0 := by
  have hpos : (0 : Rat) < q := lt_of_lt_of_le (by positivity) h
  have hquantum : quantum q ≤ q := by
    rw [quantum]
    rcases le_total (Int.log 2 q - 52) (-1074) with hsmall | hlarge
    · rw [max_eq_right hsmall]
      exact h
    · rw [max_eq_left hlarge]
      calc (2 : Rat) ^ (Int.log 2 q - 52)
          ≤ 2 ^ Int.log 2 q := zpow_le_zpow_right₀ (by norm_num) (by omega)
        _ ≤ q := Int.zpow_log_le_self (by norm_num) hpos
  have hone : 1 ≤ halfEven (q / quantum q) := by
    apply le_halfEven
    rw [Int.cast_one, le_div_iff₀ (quantum_pos q), one_mul]
    exact hquantum
  intro hzero
  rw [nearest] at hzero
  split at hzero
  · rw [Option.some.injEq, mul_eq_zero] at hzero
    rcases hzero with hzero | hzero
    · rw [Int.cast_eq_zero] at hzero
      omega
    · exact absurd hzero (quantum_pos q).ne'
  · cases hzero

theorem nearest_representable {q : Rat} (h : Representable q) : nearest q = some q := by
  rcases representable_quantum h with ⟨n, hn⟩
  have hdiv : q / quantum q = n := by
    rw [div_eq_iff (quantum_pos q).ne']
    exact hn
  unfold nearest
  dsimp only
  rw [hdiv, halfEven_intCast, ← hn, if_pos (representable_lt h)]

theorem quantum_dvd {r q : Rat} (hr : 0 < r) (hle : r ≤ q) :
    exists n : Int, quantum q = n * quantum r := by
  have hlog : Int.log 2 r ≤ Int.log 2 q := Int.log_mono_right hr hle
  have hexp : max (Int.log 2 r - 52) (-1074) ≤ max (Int.log 2 q - 52) (-1074) :=
    max_le_max (by omega) le_rfl
  rcases Int.le.dest hexp with ⟨k, hk⟩
  refine ⟨2 ^ k, ?_⟩
  unfold quantum
  push_cast
  rw [← hk, ← zpow_natCast, ← zpow_add₀ (by norm_num), add_comm]

theorem nearest_isSome_of_le {r q : Rat} (hq : Representable q) (hr : 0 ≤ r) (hle : r ≤ q) :
    (nearest r).isSome = true := by
  rcases eq_or_lt_of_le hr with rfl | hpos
  · rw [nearest_zero]
    rfl
  · rcases representable_quantum hq with ⟨m, hm⟩
    rcases quantum_dvd hpos hle with ⟨n, hn⟩
    have hmul : q = ((m * n : Int) : Rat) * quantum r := by
      rw [hm, hn]
      push_cast
      exact (mul_assoc _ _ _).symm
    have hround : halfEven (r / quantum r) ≤ m * n := by
      apply halfEven_le
      rw [div_le_iff₀ (quantum_pos r), ← hmul]
      exact hle
    have hbound : (halfEven (r / quantum r) : Rat) * quantum r < 2 ^ 1024 :=
      calc (halfEven (r / quantum r) : Rat) * quantum r
          ≤ ((m * n : Int) : Rat) * quantum r :=
            mul_le_mul_of_nonneg_right (by exact_mod_cast hround) (quantum_pos r).le
        _ = q := hmul.symm
        _ < 2 ^ 1024 := representable_lt hq
    unfold nearest
    dsimp only
    rw [if_pos hbound]
    rfl

/-!
# Shortest decimals
-/

def decimalWith (q : Rat) (digits : Nat) : Option (Nat × Int) :=
  let p := Int.log 10 q + 1 - digits
  let y := q / 10 ^ p
  ([(halfEven y).toNat, ⌊y⌋₊, ⌊y⌋₊ + 1].find? fun m : Nat =>
    nearest ((m : Rat) * 10 ^ p) = some q).map fun m => (m, p)

/-- The decimal with the fewest digits; 17 of them are enough. -/
def shortestDecimal (q : Rat) : Nat × Int :=
  ((List.range' 1 17).findSome? (decimalWith q)).getD
    (⌊q * 10 ^ (1074 : Int)⌋₊, -1074)

/-- The exact decimal of a magnitude of the format. -/
theorem exact_decimal {q : Rat} (h : Representable q) :
    (⌊q * 10 ^ (1074 : Int)⌋₊ : Rat) * 10 ^ (-1074 : Int) = q := by
  rcases h with ⟨m, e, _, hlow, _, hq⟩
  have hnat : exists k : Nat, q * 10 ^ (1074 : Int) = k := by
    rcases Int.le.dest hlow with ⟨k, hk⟩
    have htwo : (2 : Rat) ^ e * 2 ^ (1074 : Int) = (2 ^ k : Nat) := by
      rw [← zpow_add₀ (by norm_num), Nat.cast_pow, ← zpow_natCast]
      congr 1
      omega
    have hfive : (5 : Rat) ^ (1074 : Int) = (5 ^ (1074 : Int).toNat : Nat) := by
      rw [Nat.cast_pow, ← zpow_natCast]
      rfl
    have hten : (10 : Rat) ^ (1074 : Int) = 2 ^ (1074 : Int) * 5 ^ (1074 : Int) := by
      rw [← mul_zpow]
      norm_num
    refine ⟨m * 2 ^ k * 5 ^ (1074 : Int).toNat, ?_⟩
    rw [hq, hten, Nat.cast_mul, Nat.cast_mul, ← htwo, ← hfive]
    ring
  rcases hnat with ⟨k, hk⟩
  rw [hk, Nat.floor_natCast, ← hk, mul_assoc, ← zpow_add₀ (by norm_num)]
  norm_num

theorem nearest_shortestDecimal {q : Rat} (h : Representable q) :
    nearest ((shortestDecimal q).1 * 10 ^ (shortestDecimal q).2) = some q := by
  unfold shortestDecimal
  cases hfound : (List.range' 1 17).findSome? (decimalWith q) with
  | none =>
      rw [Option.getD_none, exact_decimal h]
      exact nearest_representable h
  | some decimal =>
      rcases List.exists_of_findSome?_eq_some hfound with ⟨digits, _, hdecimal⟩
      unfold decimalWith at hdecimal
      rcases Option.map_eq_some_iff.mp hdecimal with ⟨m, hm, hpair⟩
      have hrounds := List.find?_some hm
      rw [decide_eq_true_eq] at hrounds
      rw [Option.getD_some, ← hpair]
      exact hrounds

theorem shortestDecimal_pos {q : Rat} (h : Representable q) (hpos : 0 < q) :
    0 < (shortestDecimal q).1 := by
  rcases Nat.eq_zero_or_pos (shortestDecimal q).1 with hzero | hdecimal
  · have hrounds := nearest_shortestDecimal h
    have hnone : Representable 0 := ⟨0, 0, by norm_num, by norm_num, by norm_num, by simp⟩
    rw [hzero, Nat.cast_zero, zero_mul, nearest_representable hnone] at hrounds
    cases hrounds
    exact absurd hpos (lt_irrefl 0)
  · exact hdecimal

end Foundation
