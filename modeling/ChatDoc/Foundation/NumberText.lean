import ChatDoc.Foundation.Binary64
import ChatDoc.Foundation.Integer
import Mathlib.Tactic.IntervalCases

/-!
# Number literals

The literals of decimal numbers with a fraction and an exponent, as they are
written and read.  `intText` and `floatText` write what Python's `repr` writes.
-/

namespace Foundation

structure Literal where
  negative : Bool
  whole : List Char
  frac : List Char
  exponent : Option (Bool × List Char)
deriving DecidableEq

namespace Literal

def sign (negative : Bool) : List Char := if negative then ['-'] else []

def fracText (frac : List Char) : List Char :=
  if frac = [] then [] else '.' :: frac

def exponentText : Option (Bool × List Char) -> List Char
  | none => []
  | some (negative, ds) => 'e' :: (if negative then '-' else '+') :: ds

def text (l : Literal) : List Char :=
  sign l.negative ++ (l.whole ++ (fracText l.frac ++ exponentText l.exponent))

def exponentValue : Option (Bool × List Char) -> Int
  | none => 0
  | some (negative, ds) =>
      if negative then -(Nat.ofDigitChars 10 ds 0 : Int) else Nat.ofDigitChars 10 ds 0

def magnitude (l : Literal) : Rat :=
  Nat.ofDigitChars 10 (l.whole ++ l.frac) 0 *
    10 ^ (exponentValue l.exponent - l.frac.length)

/-- The digits stand where they must, and no zero leads. -/
structure Proper (l : Literal) : Prop where
  whole : Digits l.whole
  nonempty : l.whole ≠ []
  leading : l.whole.head? = some '0' -> l.whole = ['0']
  frac : Digits l.frac
  exponent : forall negative ds, l.exponent = some (negative, ds) ->
    ds ≠ [] ∧ Digits ds

end Literal

/-!
# Reading
-/

def readDigits (text : List Char) : Option (List Char × List Char) :=
  match text.takeWhile Char.isDigit with
  | [] => none
  | ds => some (ds, text.dropWhile Char.isDigit)

def readWhole : List Char -> Option (List Char × List Char)
  | '0' :: rest => some (['0'], rest)
  | text => readDigits text

def readFrac : List Char -> Option (List Char × List Char)
  | '.' :: rest => readDigits rest
  | text => some ([], text)

def readSigned : List Char -> Option ((Bool × List Char) × List Char)
  | '-' :: rest => (readDigits rest).map fun out => ((true, out.1), out.2)
  | '+' :: rest => (readDigits rest).map fun out => ((false, out.1), out.2)
  | text => (readDigits text).map fun out => ((false, out.1), out.2)

def readExponent : List Char -> Option (Option (Bool × List Char) × List Char)
  | 'e' :: rest => (readSigned rest).map fun out => (some out.1, out.2)
  | 'E' :: rest => (readSigned rest).map fun out => (some out.1, out.2)
  | text => some (none, text)

def readUnsigned (negative : Bool) (text : List Char) : Option (Literal × List Char) := do
  let (whole, text) ← readWhole text
  let (frac, text) ← readFrac text
  let (exponent, text) ← readExponent text
  some (⟨negative, whole, frac, exponent⟩, text)

def readLiteral : List Char -> Option (Literal × List Char)
  | '-' :: rest => readUnsigned true rest
  | text => readUnsigned false text

def Delimits (rest : List Char) : Prop :=
  forall c, rest.head? = some c -> c.isDigit = false ∧ c ≠ '.' ∧ c ≠ 'e' ∧ c ≠ 'E'

def NoDigit (rest : List Char) : Prop := forall c, rest.head? = some c -> c.isDigit = false

theorem takeWhile_digits {ds rest : List Char} (hds : Digits ds) (hrest : NoDigit rest) :
    (ds ++ rest).takeWhile Char.isDigit = ds := by
  rw [List.takeWhile_append_of_pos hds]
  cases rest with
  | nil => exact List.append_nil ds
  | cons c rest =>
      have hc := hrest c rfl
      rw [List.takeWhile_cons_of_neg (by rw [hc]; decide), List.append_nil]

theorem dropWhile_digits {ds rest : List Char} (hds : Digits ds) (hrest : NoDigit rest) :
    (ds ++ rest).dropWhile Char.isDigit = rest := by
  rw [List.dropWhile_append_of_pos hds]
  cases rest with
  | nil => rfl
  | cons c rest =>
      have hc := hrest c rfl
      rw [List.dropWhile_cons_of_neg (by rw [hc]; decide)]

theorem readDigits_append {ds rest : List Char} (hnil : ds ≠ []) (hds : Digits ds)
    (hrest : NoDigit rest) : readDigits (ds ++ rest) = some (ds, rest) := by
  unfold readDigits
  rw [takeWhile_digits hds hrest, dropWhile_digits hds hrest]
  cases ds with
  | nil => exact absurd rfl hnil
  | cons d ds => rfl

theorem readWhole_append {ds rest : List Char} (hnil : ds ≠ []) (hds : Digits ds)
    (hleading : ds.head? = some '0' -> ds = ['0']) (hrest : NoDigit rest) :
    readWhole (ds ++ rest) = some (ds, rest) := by
  by_cases hzero : ds.head? = some '0'
  · rw [hleading hzero]
    rfl
  · have hread : readWhole (ds ++ rest) = readDigits (ds ++ rest) := by
      cases ds with
      | nil => exact absurd rfl hnil
      | cons d ds =>
          unfold readWhole
          split
          next heq =>
            cases heq
            exact absurd rfl hzero
          next => rfl
    rw [hread]
    exact readDigits_append hnil hds hrest

theorem noDigit_of_delimits {rest : List Char} (h : Delimits rest) : NoDigit rest :=
  fun c hc => (h c hc).1

theorem readExponent_append {exponent : Option (Bool × List Char)} {rest : List Char}
    (hexponent : forall negative ds, exponent = some (negative, ds) ->
      ds ≠ [] ∧ Digits ds) (hrest : Delimits rest) :
    readExponent (Literal.exponentText exponent ++ rest) = some (exponent, rest) := by
  cases exponent with
  | none =>
      unfold Literal.exponentText readExponent
      rw [List.nil_append]
      split
      next => exact absurd rfl (hrest 'e' rfl).2.2.1
      next => exact absurd rfl (hrest 'E' rfl).2.2.2
      next => rfl
  | some signed =>
      rcases signed with ⟨negative, ds⟩
      rcases hexponent negative ds rfl with ⟨hnil, hds⟩
      have hread := readDigits_append hnil hds (noDigit_of_delimits hrest)
      cases negative with
      | true =>
          have htext : readExponent (Literal.exponentText (some (true, ds)) ++ rest) =
              ((readDigits (ds ++ rest)).map fun out => ((true, out.1), out.2)).map
                fun out => (some out.1, out.2) := rfl
          rw [htext, hread]
          rfl
      | false =>
          have htext : readExponent (Literal.exponentText (some (false, ds)) ++ rest) =
              ((readDigits (ds ++ rest)).map fun out => ((false, out.1), out.2)).map
                fun out => (some out.1, out.2) := rfl
          rw [htext, hread]
          rfl

theorem noDigit_exponentText {exponent : Option (Bool × List Char)} {rest : List Char}
    (hrest : Delimits rest) : NoDigit (Literal.exponentText exponent ++ rest) := by
  cases exponent with
  | none => exact noDigit_of_delimits hrest
  | some signed =>
      intro c hc
      cases hc
      rfl

theorem readFrac_append {frac rest : List Char} {exponent : Option (Bool × List Char)}
    (hfrac : Digits frac) (hrest : Delimits rest) :
    readFrac (Literal.fracText frac ++ (Literal.exponentText exponent ++ rest)) =
      some (frac, Literal.exponentText exponent ++ rest) := by
  unfold Literal.fracText
  split
  next hnil =>
    rw [hnil, List.nil_append]
    cases exponent with
    | none =>
        unfold Literal.exponentText readFrac
        rw [List.nil_append]
        split
        next => exact absurd rfl (hrest '.' rfl).2.1
        next => rfl
    | some signed => rfl
  next hnil => exact readDigits_append hnil hfrac (noDigit_exponentText hrest)

theorem readLiteral_text {l : Literal} {rest : List Char} (h : l.Proper)
    (hrest : Delimits rest) : readLiteral (l.text ++ rest) = some (l, rest) := by
  rcases l with ⟨negative, whole, frac, exponent⟩
  have hfollow : NoDigit
      (Literal.fracText frac ++ (Literal.exponentText exponent ++ rest)) := by
    unfold Literal.fracText
    split
    next => exact noDigit_exponentText hrest
    next =>
      intro c hc
      cases hc
      rfl
  have hunsigned : readUnsigned negative (whole ++ (Literal.fracText frac ++
      (Literal.exponentText exponent ++ rest))) =
        some (⟨negative, whole, frac, exponent⟩, rest) := by
    unfold readUnsigned
    rw [readWhole_append h.nonempty h.whole h.leading hfollow]
    dsimp only [Option.bind_eq_bind, Option.bind_some]
    rw [readFrac_append h.frac hrest]
    dsimp only [Option.bind_some]
    rw [readExponent_append h.exponent hrest]
    rfl
  unfold Literal.text
  dsimp only
  rw [List.append_assoc, List.append_assoc, List.append_assoc]
  cases negative with
  | true => exact hunsigned
  | false =>
      have hsame (text : List Char) (hhead : text.head? ≠ some '-') :
          readLiteral text = readUnsigned false text := by
        unfold readLiteral
        split
        next => exact absurd rfl hhead
        next => rfl
      have hplain : Literal.sign false ++ (whole ++ (Literal.fracText frac ++
          (Literal.exponentText exponent ++ rest))) = whole ++ (Literal.fracText frac ++
            (Literal.exponentText exponent ++ rest)) := rfl
      rw [hplain, hsame]
      · exact hunsigned
      · cases whole with
        | nil => exact absurd rfl h.nonempty
        | cons d ds =>
            intro hminus
            cases hminus
            have hdigit := h.whole '-' List.mem_cons_self
            cases hdigit

/-!
# Writing
-/

def intLiteral (n : Int) : Literal where
  negative := n < 0
  whole := Nat.toDigits 10 n.natAbs
  frac := []
  exponent := none

def exponentDigits (n : Nat) : List Char :=
  if n < 10 then ['0', Nat.digitChar n] else Nat.toDigits 10 n

/-- Digits with the decimal point at a place: plainly when the place is near,
else with an exponent. -/
def floatLayout (negative : Bool) (ds : List Char) (place : Int) : Literal :=
  if -4 < place ∧ place ≤ 16 then
    if place ≤ 0 then
      ⟨negative, ['0'], List.replicate (-place).toNat '0' ++ ds, none⟩
    else if ds.length ≤ place then
      ⟨negative, ds ++ List.replicate (place - ds.length).toNat '0', ['0'], none⟩
    else ⟨negative, ds.take place.toNat, ds.drop place.toNat, none⟩
  else
    ⟨negative, ds.take 1, ds.drop 1,
      some (place - 1 < 0, exponentDigits (place - 1).natAbs)⟩

/-- `repr` of a finite float, by its sign and its magnitude. -/
def floatLiteral (negative : Bool) (q : Rat) : Literal :=
  if q = 0 then ⟨negative, ['0'], ['0'], none⟩
  else
    let decimal := shortestDecimal q
    let written := Nat.toDigits 10 decimal.1
    floatLayout negative (written.rdropWhile fun c => c = '0')
      (written.length + decimal.2)

def floatText (negative : Bool) (q : Rat) : List Char := (floatLiteral negative q).text

theorem text_intLiteral (n : Int) : (intLiteral n).text = intText n := by
  unfold intLiteral Literal.text Literal.sign Literal.fracText Literal.exponentText intText
  dsimp only
  rw [if_pos rfl, List.append_nil, List.append_nil]
  by_cases hneg : n < 0
  · rw [if_pos hneg, if_pos (decide_eq_true hneg)]
    rfl
  · rw [if_neg hneg, if_neg (by rw [decide_eq_true_eq]; exact hneg)]
    rfl

theorem proper_intLiteral (n : Int) : (intLiteral n).Proper where
  whole := digits_toDigits _
  nonempty := Nat.toDigits_ne_nil
  leading := by
    intro hhead
    rcases Nat.eq_zero_or_pos n.natAbs with hzero | hpos
    · unfold intLiteral
      dsimp only
      rw [hzero]
      rfl
    · exact absurd hhead (head?_toDigits_ne_zero hpos)
  frac := digits_nil
  exponent := by
    intro _ _ hsome
    cases hsome

theorem magnitude_intLiteral (n : Int) : (intLiteral n).magnitude = n.natAbs := by
  unfold Literal.magnitude intLiteral Literal.exponentValue
  dsimp only
  rw [List.append_nil, Nat.ofDigitChars_ten_toDigits]
  simp

theorem exponentDigits_spec (n : Nat) :
    exponentDigits n ≠ [] ∧ Digits (exponentDigits n) ∧
      Nat.ofDigitChars 10 (exponentDigits n) 0 = n := by
  unfold exponentDigits
  split
  next hlt =>
    refine ⟨by simp, ?_, ?_⟩
    · intro c hc
      rcases List.mem_cons.mp hc with rfl | hc
      · rfl
      · rw [List.mem_singleton.mp hc]
        exact isDigit_digitChar hlt
    · rw [Nat.ofDigitChars_cons, Nat.ofDigitChars_cons_digitChar_of_lt_ten hlt,
        Nat.ofDigitChars_nil]
      norm_num
  next => exact ⟨Nat.toDigits_ne_nil, digits_toDigits _, Nat.ofDigitChars_ten_toDigits⟩

theorem digits_zeros (k : Nat) : Digits (List.replicate k '0') := by
  intro c hc
  rw [(List.mem_replicate.mp hc).2]
  rfl

structure Literal.Written (l : Literal) : Prop where
  whole : Digits l.whole
  frac : Digits l.frac
  exponent : forall negative ds, l.exponent = some (negative, ds) ->
    ds ≠ [] ∧ Digits ds

theorem written_floatLayout {negative : Bool} {ds : List Char} {place : Int}
    (hds : Digits ds) : (floatLayout negative ds place).Written := by
  have htake (k : Nat) : Digits (ds.take k) := fun c hc => hds c (List.mem_of_mem_take hc)
  have hdrop (k : Nat) : Digits (ds.drop k) := fun c hc => hds c (List.mem_of_mem_drop hc)
  have hplain {whole frac : List Char} (hwhole : Digits whole) (hfrac : Digits frac) :
      Literal.Written ⟨negative, whole, frac, none⟩ :=
    ⟨hwhole, hfrac, fun _ _ hsome => by cases hsome⟩
  unfold floatLayout
  split
  next =>
    split
    next => exact hplain (digits_zeros 1) (digits_append.mpr ⟨digits_zeros _, hds⟩)
    next =>
      split
      next => exact hplain (digits_append.mpr ⟨hds, digits_zeros _⟩) (digits_zeros 1)
      next => exact hplain (htake _) (hdrop _)
  next =>
    refine ⟨htake 1, hdrop 1, ?_⟩
    intro negative' ds' hsome
    cases hsome
    rcases exponentDigits_spec (place - 1).natAbs with ⟨hnil, hdigits, _⟩
    exact ⟨hnil, hdigits⟩

theorem proper_floatLayout {negative : Bool} {ds : List Char} {place : Int}
    (hnil : ds ≠ []) (hds : Digits ds) (hleading : ds.head? ≠ some '0') :
    (floatLayout negative ds place).Proper := by
  have hwritten : (floatLayout negative ds place).Written := written_floatLayout hds
  refine ⟨hwritten.whole, ?_, ?_, hwritten.frac, hwritten.exponent⟩
  · cases ds with
    | nil => exact absurd rfl hnil
    | cons d rest =>
        unfold floatLayout
        split
        next =>
          split
          next => simp
          next =>
            split
            next => simp
            next =>
              simp only [ne_eq, List.take_eq_nil_iff, reduceCtorEq, or_false]
              omega
        next => simp
  · intro hzero
    cases ds with
    | nil => exact absurd rfl hnil
    | cons d rest =>
        unfold floatLayout at hzero ⊢
        split at hzero
        next hnear =>
          rw [if_pos hnear]
          split at hzero
          next hbelow => rw [if_pos hbelow]
          next hbelow =>
            split at hzero
            next => exact absurd hzero hleading
            next =>
              have hplace : place.toNat = (place.toNat - 1) + 1 := by omega
              rw [hplace] at hzero
              exact absurd hzero hleading
        next => exact absurd hzero hleading

theorem magnitude_floatLayout {negative : Bool} {ds : List Char} {place : Int}
    (hnil : ds ≠ []) : (floatLayout negative ds place).magnitude =
      Nat.ofDigitChars 10 ds 0 * 10 ^ (place - ds.length) := by
  have hlen : 0 < ds.length := List.length_pos_of_ne_nil hnil
  unfold floatLayout Literal.magnitude
  split
  next hnear =>
    split
    next hbelow =>
      dsimp only
      have hzeros : ['0'] ++ (List.replicate (-place).toNat '0' ++ ds) =
          List.replicate ((-place).toNat + 1) '0' ++ ds := by
        rw [← List.append_assoc]
        rfl
      rw [hzeros, Nat.ofDigitChars_append, Nat.ofDigitChars_replicate_zero, mul_zero,
        List.length_append, List.length_replicate]
      congr 2
      simp only [Literal.exponentValue]
      omega
    next hbelow =>
      split
      next hwhole =>
        have hexists : exists k : Nat, place = ds.length + k :=
          ⟨(place - ds.length).toNat, by omega⟩
        rcases hexists with ⟨k, hk⟩
        have hcount : (place - ds.length).toNat = k := by omega
        have hone : ((['0'] : List Char).length : Int) = 1 := rfl
        have hlast (n : Nat) : Nat.ofDigitChars 10 ['0'] n = 10 * n := rfl
        have hplace : place - ds.length = k := by omega
        dsimp only
        rw [hcount, Nat.ofDigitChars_append, hlast, Nat.ofDigitChars_append,
          Nat.ofDigitChars_replicate_zero, hone, hplace, zpow_natCast]
        simp only [Literal.exponentValue]
        push_cast
        norm_num
        ring
      next hwhole =>
        dsimp only
        rw [List.take_append_drop, List.length_drop]
        congr 2
        simp only [Literal.exponentValue]
        omega
  next hfar =>
    dsimp only
    rw [List.take_append_drop, List.length_drop]
    congr 2
    unfold Literal.exponentValue
    dsimp only
    rw [(exponentDigits_spec _).2.2]
    split
    next hneg =>
      rw [decide_eq_true_eq] at hneg
      omega
    next hneg =>
      rw [decide_eq_true_eq] at hneg
      omega

theorem rdropWhile_zeros (ds : List Char) :
    exists k, ds = ds.rdropWhile (fun c => c = '0') ++ List.replicate k '0' := by
  have hzeros : ds.rtakeWhile (fun c => c = '0') =
      List.replicate (ds.rtakeWhile fun c => c = '0').length '0' := by
    apply List.eq_replicate_of_mem
    intro c hc
    have hzero := List.mem_rtakeWhile_imp hc
    exact of_decide_eq_true hzero
  refine ⟨(ds.rtakeWhile fun c => c = '0').length, ?_⟩
  rw [← hzeros]
  exact List.rdropWhile_append_rtakeWhile.symm

theorem written_floatLiteral (negative : Bool) (q : Rat) :
    (floatLiteral negative q).Written := by
  unfold floatLiteral
  split
  next =>
    exact ⟨digits_zeros 1, digits_zeros 1, fun _ _ hsome => by cases hsome⟩
  next => exact written_floatLayout (digits_rdropWhile (digits_toDigits _) _)

theorem floatLiteral_spec (negative : Bool) {q : Rat} (h : Representable q) :
    (floatLiteral negative q).negative = negative ∧ (floatLiteral negative q).Proper ∧
      nearest (floatLiteral negative q).magnitude = some q := by
  unfold floatLiteral
  split
  next hzero =>
    refine ⟨rfl, ⟨digits_zeros 1, by simp, fun _ => rfl, digits_zeros 1, ?_⟩, ?_⟩
    · intro _ _ hsome
      cases hsome
    · have hvalue : Literal.magnitude ⟨negative, ['0'], ['0'], none⟩ = 0 := by
        have hdigits : Nat.ofDigitChars 10 (['0'] ++ ['0']) 0 = 0 := by decide
        unfold Literal.magnitude
        dsimp only
        rw [hdigits, Nat.cast_zero, zero_mul]
      rw [hvalue, ← hzero]
      exact nearest_representable h
  next hzero =>
    have hpos : 0 < q := lt_of_le_of_ne (representable_nonneg h) (Ne.symm hzero)
    have hdecimal := shortestDecimal_pos h hpos
    rcases rdropWhile_zeros (Nat.toDigits 10 (shortestDecimal q).1) with ⟨k, hk⟩
    generalize hds : (Nat.toDigits 10 (shortestDecimal q).1).rdropWhile
      (fun c => c = '0') = ds at hk
    have hdigits := digits_toDigits (shortestDecimal q).1
    have hvalue := Nat.ofDigitChars_ten_toDigits (n := (shortestDecimal q).1)
    have hhead := head?_toDigits_ne_zero hdecimal
    rw [hk] at hdigits hhead
    rw [hk, Nat.ofDigitChars_append, Nat.ofDigitChars_replicate_zero] at hvalue
    have hnil : ds ≠ [] := by
      intro hempty
      rw [hempty, Nat.ofDigitChars_nil, mul_zero] at hvalue
      omega
    have hleading : ds.head? ≠ some '0' := by
      cases ds with
      | nil => exact absurd rfl hnil
      | cons d rest => exact hhead
    dsimp only
    rw [hds]
    refine ⟨?_, proper_floatLayout hnil (digits_append.mp hdigits).1 hleading, ?_⟩
    · unfold floatLayout
      split
      · split
        · rfl
        · split <;> rfl
      · rfl
    · have hlength : (Nat.toDigits 10 (shortestDecimal q).1).length = ds.length + k := by
        rw [hk, List.length_append, List.length_replicate]
      have hpower : ((Nat.toDigits 10 (shortestDecimal q).1).length +
          (shortestDecimal q).2 - ds.length : Int) = k + (shortestDecimal q).2 := by
        omega
      rw [magnitude_floatLayout hnil, hpower, zpow_add₀ (by norm_num), zpow_natCast,
        ← mul_assoc]
      have hsame : (Nat.ofDigitChars 10 ds 0 * 10 ^ k : Rat) = (shortestDecimal q).1 := by
        rw [mul_comm]
        exact_mod_cast hvalue
      rw [hsame]
      exact nearest_shortestDecimal h

end Foundation
