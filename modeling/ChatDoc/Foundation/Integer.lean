import ChatDoc.Foundation.Numeral

/-!
# Integers as text

The decimal text of an integer, and reading it back.
-/

namespace Foundation

/-- `str(n)` of an integer. -/
def intText (n : Int) : List Char :=
  if n < 0 then '-' :: Nat.toDigits 10 n.natAbs else Nat.toDigits 10 n.natAbs

def readNat (ds : List Char) : Option Nat :=
  if ds ≠ [] ∧ ds.all Char.isDigit then some (Nat.ofDigitChars 10 ds 0) else none

/-- `int(s)` of a plain decimal numeral. -/
def readInt : List Char -> Option Int
  | '-' :: ds => (readNat ds).map fun n : Nat => -(n : Int)
  | ds => (readNat ds).map fun n : Nat => (n : Int)

theorem readNat_toDigits (n : Nat) : readNat (Nat.toDigits 10 n) = some n := by
  have hall : (Nat.toDigits 10 n).all Char.isDigit = true := by
    rw [List.all_eq_true]
    exact digits_toDigits n
  unfold readNat
  rw [if_pos ⟨Nat.toDigits_ne_nil, hall⟩, Nat.ofDigitChars_ten_toDigits]

theorem readInt_of_digits {ds : List Char} (h : Digits ds) :
    readInt ds = (readNat ds).map fun n : Nat => (n : Int) := by
  unfold readInt
  split
  next ds' =>
    have hminus := h '-' List.mem_cons_self
    cases hminus
  next => rfl

theorem readInt_intText (n : Int) : readInt (intText n) = some n := by
  unfold intText
  split
  next hneg =>
    have hread : readInt ('-' :: Nat.toDigits 10 n.natAbs) =
        (readNat (Nat.toDigits 10 n.natAbs)).map fun m : Nat => -(m : Int) := rfl
    rw [hread, readNat_toDigits, Option.map_some]
    congr 1
    omega
  next hnonneg =>
    rw [readInt_of_digits (digits_toDigits _), readNat_toDigits, Option.map_some]
    congr 1
    omega

theorem intText_injective : Function.Injective intText := by
  intro n m h
  have hread := congrArg readInt h
  rw [readInt_intText, readInt_intText] at hread
  exact Option.some.inj hread

theorem mem_intText {n : Int} {c : Char} (h : c ∈ intText n) :
    c = '-' ∨ c.isDigit = true := by
  unfold intText at h
  split at h
  · rcases List.mem_cons.mp h with hsign | hdigit
    · exact .inl hsign
    · exact .inr (digits_toDigits _ c hdigit)
  · exact .inr (digits_toDigits _ c h)

theorem toString_int (n : Int) : toString n = String.ofList (intText n) := by
  cases n with
  | ofNat m => rfl
  | negSucc m =>
      show "-" ++ Nat.repr (m + 1) = _
      rw [intText, if_pos (Int.negSucc_lt_zero m), ← String.toList_inj]
      simp [Nat.repr]

end Foundation
