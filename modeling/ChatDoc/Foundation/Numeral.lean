import ChatDoc.Foundation.HalfEven
import Mathlib.Algebra.Order.Field.Basic
import Mathlib.Data.List.DropRight
import Mathlib.Tactic.IntervalCases

/-!
# Decimal numerals

Numerals as they are printed: digits, commas between groups of three of them,
and a decimal part.  Printing rounds half to even, and reading back what was
printed gives the rounded number.
-/

namespace Foundation

def Digits (l : List Char) : Prop := forall c, c ∈ l -> c.isDigit = true

theorem digits_nil : Digits [] := by
  intro c hc
  cases hc

theorem digits_append {l l' : List Char} :
    Digits (l ++ l') <-> Digits l ∧ Digits l' :=
  List.forall_mem_append

theorem digits_reverse {l : List Char} : Digits l.reverse <-> Digits l := by
  simp [Digits]

theorem digits_toDigits (n : Nat) : Digits (Nat.toDigits 10 n) := by
  intro c hc
  exact Nat.isDigit_of_mem_toDigits (by decide) (by decide) hc

/-!
# Groups of three
-/

/-- A comma after every third digit.  The digits stand from right to left. -/
def groupRight : List Char -> List Char
  | a :: b :: c :: d :: rest => a :: b :: c :: ',' :: groupRight (d :: rest)
  | ds => ds

def grouped (ds : List Char) : List Char := (groupRight ds.reverse).reverse

def ungrouped (l : List Char) : List Char := l.filter fun c => c ≠ ','

theorem ungrouped_append (l l' : List Char) :
    ungrouped (l ++ l') = ungrouped l ++ ungrouped l' :=
  List.filter_append l l'

theorem ungrouped_comma (l : List Char) : ungrouped (',' :: l) = ungrouped l := rfl

theorem ungrouped_of_digits {ds : List Char} (h : Digits ds) :
    ungrouped ds = ds := by
  apply List.filter_eq_self.mpr
  intro c hc
  have hdigit := h c hc
  simp only [decide_eq_true_eq]
  intro heq
  subst heq
  cases hdigit

theorem ungrouped_groupRight {ds : List Char} (h : Digits ds) :
    ungrouped (groupRight ds) = ds := by
  induction ds using groupRight.induct with
  | case1 a b c d rest ih =>
      have hsplit : a :: b :: c :: d :: rest = [a, b, c] ++ (d :: rest) := rfl
      rw [hsplit] at h
      rcases digits_append.mp h with ⟨hfirst, hrest⟩
      have hgroup : groupRight (a :: b :: c :: d :: rest) =
          [a, b, c] ++ (',' :: groupRight (d :: rest)) := rfl
      have hfilter : ungrouped [a, b, c] = [a, b, c] := ungrouped_of_digits hfirst
      rw [hgroup, ungrouped_append, hfilter, ungrouped_comma, ih hrest, hsplit]
  | case2 ds hshort =>
      rw [groupRight]
      · exact ungrouped_of_digits h
      · exact hshort

theorem ungrouped_grouped {ds : List Char} (h : Digits ds) :
    ungrouped (grouped ds) = ds := by
  unfold ungrouped grouped
  rw [List.filter_reverse]
  have hreverse := ungrouped_groupRight (digits_reverse.mpr h)
  unfold ungrouped at hreverse
  rw [hreverse, List.reverse_reverse]

theorem mem_groupRight {ds : List Char} {c : Char} (h : c ∈ groupRight ds) :
    c = ',' ∨ c ∈ ds := by
  by_cases hcomma : c = ','
  · exact .inl hcomma
  · induction ds using groupRight.induct with
    | case1 x y z d rest ih =>
        simp only [groupRight, List.mem_cons, hcomma, false_or] at h ⊢
        rcases h with h | h | h | h
        · exact .inl h
        · exact .inr (.inl h)
        · exact .inr (.inr (.inl h))
        · have hrest := (ih h).resolve_left hcomma
          rw [List.mem_cons] at hrest
          exact .inr (.inr (.inr hrest))
    | case2 ds hshort =>
        rw [groupRight] at h
        · exact .inr h
        · exact hshort

theorem mem_grouped {ds : List Char} {c : Char} (h : c ∈ grouped ds) :
    c = ',' ∨ c ∈ ds := by
  rcases mem_groupRight (List.mem_reverse.mp h) with hcomma | hmem
  · exact .inl hcomma
  · exact .inr (List.mem_reverse.mp hmem)

/-!
# Decimal parts
-/

def point (whole fs : List Char) : List Char :=
  if fs = [] then whole else whole ++ '.' :: fs

theorem ungrouped_point {ds fs : List Char} (hds : Digits ds) (hfs : Digits fs) :
    ungrouped (point (grouped ds) fs) = point ds fs := by
  unfold point
  split
  · exact ungrouped_grouped hds
  · have hpoint : ungrouped ('.' :: fs) = '.' :: fs := by
      have hself := ungrouped_of_digits hfs
      unfold ungrouped at hself ⊢
      rw [List.filter_cons_of_pos (by decide), hself]
    rw [ungrouped_append, ungrouped_grouped hds, hpoint]

theorem rdropWhile_point {base fs : List Char}
    (hbase : base.rdropWhile (fun c => c = '.') = base) (hfs : Digits fs) :
    ((base ++ '.' :: fs).rdropWhile fun c => c = '0').rdropWhile (fun c => c = '.') =
      point base (fs.rdropWhile fun c => c = '0') := by
  induction fs using List.reverseRecOn with
  | nil =>
      rw [List.rdropWhile_concat_neg _ _ _ (by decide),
        List.rdropWhile_concat_pos _ _ _ (by decide), hbase]
      rfl
  | append_singleton fs c ih =>
      rcases digits_append.mp hfs with ⟨hinit, hlast⟩
      have hsplit : base ++ '.' :: (fs ++ [c]) = (base ++ '.' :: fs) ++ [c] := by
        rw [List.append_assoc, List.cons_append]
      rw [hsplit]
      by_cases hc : c = '0'
      · rw [List.rdropWhile_concat_pos _ _ _ (by simpa using hc),
          List.rdropWhile_concat_pos _ _ _ (by simpa using hc), ih hinit]
      · have hdot : c ≠ '.' := by
          intro heq
          subst heq
          exact absurd (hlast '.' (List.mem_singleton.mpr rfl)) (by decide)
        rw [List.rdropWhile_concat_neg _ _ _ (by simpa using hc),
          List.rdropWhile_concat_neg _ _ _ (by simpa using hdot),
          List.rdropWhile_concat_neg _ _ _ (by simpa using hc)]
        unfold point
        rw [if_neg (by simp), ← hsplit]

def decimalValue (ds fs : List Char) : Rat :=
  Nat.ofDigitChars 10 ds 0 + Nat.ofDigitChars 10 fs 0 / 10 ^ fs.length

/-- A numeral with its value: digits, plain or in groups, and decimals. -/
def Numeral (num : List Char) (value : Rat) : Prop :=
  exists ds fs, ds ≠ [] ∧ Digits ds ∧ Digits fs ∧
    (num = point ds fs ∨ num = point (grouped ds) fs) ∧
      value = decimalValue ds fs

def readNumeral (num : List Char) : Rat :=
  decimalValue (ungrouped (num.takeWhile fun c => c ≠ '.'))
    ((num.dropWhile fun c => c ≠ '.').drop 1)

theorem readNumeral_point {whole fs : List Char} (h : '.' ∉ whole) :
    readNumeral (point whole fs) = decimalValue (ungrouped whole) fs := by
  have hwhole (c : Char) (hc : c ∈ whole) : (decide (c ≠ '.')) = true := by
    rw [decide_eq_true_eq]
    intro heq
    subst heq
    exact h hc
  unfold readNumeral point
  split
  next hnil =>
    rw [List.takeWhile_eq_self_iff.mpr hwhole, List.dropWhile_eq_nil_iff.mpr hwhole,
      hnil, List.drop_nil]
  next =>
    rw [List.takeWhile_append_of_pos hwhole, List.dropWhile_append_of_pos hwhole,
      List.takeWhile_cons_of_neg (by decide), List.dropWhile_cons_of_neg (by decide),
      List.append_nil]
    rfl

theorem Numeral.value_eq {num : List Char} {value : Rat} (h : Numeral num value) :
    value = readNumeral num := by
  rcases h with ⟨ds, fs, _, hds, _, hnum, rfl⟩
  have hplain : '.' ∉ ds := fun hmem => absurd (hds '.' hmem) (by decide)
  have hgrouped : '.' ∉ grouped ds := by
    intro hmem
    rcases mem_grouped hmem with hcomma | hmem
    · exact absurd hcomma (by decide)
    · exact hplain hmem
  rcases hnum with rfl | rfl
  · rw [readNumeral_point hplain, ungrouped_of_digits hds]
  · rw [readNumeral_point hgrouped, ungrouped_grouped hds]

def lastDigits : Nat -> Nat -> List Char
  | 0, _ => []
  | places + 1, n => lastDigits places (n / 10) ++ [Nat.digitChar (n % 10)]

theorem isDigit_digitChar {n : Nat} (h : n < 10) :
    (Nat.digitChar n).isDigit = true := by
  have hdigits := digits_toDigits n
  rw [Nat.toDigits_of_lt_base h] at hdigits
  exact hdigits _ (List.mem_singleton.mpr rfl)

theorem digits_lastDigits (places n : Nat) : Digits (lastDigits places n) := by
  induction places generalizing n with
  | zero => exact digits_nil
  | succ places ih =>
      refine digits_append.mpr ⟨ih _, ?_⟩
      intro c hc
      rw [List.mem_singleton.mp hc]
      exact isDigit_digitChar (Nat.mod_lt _ (by decide))

@[simp] theorem length_lastDigits (places n : Nat) :
    (lastDigits places n).length = places := by
  induction places generalizing n with
  | zero => rfl
  | succ places ih => rw [lastDigits, List.length_append, ih, List.length_singleton]

theorem ofDigitChars_lastDigits (places n : Nat) :
    Nat.ofDigitChars 10 (lastDigits places n) 0 = n % 10 ^ places := by
  induction places generalizing n with
  | zero =>
      rw [pow_zero, Nat.mod_one]
      rfl
  | succ places ih =>
      rw [lastDigits, Nat.ofDigitChars_append, ih,
        Nat.ofDigitChars_cons_digitChar_of_lt_ten (Nat.mod_lt _ (by decide)),
        Nat.ofDigitChars_nil, Nat.pow_succ', Nat.mod_mul]
      ring

theorem digitChar_of_isDigit {c : Char} (h : c.isDigit = true) :
    Nat.digitChar (c.toNat - 48) = c ∧ c.toNat - 48 < 10 := by
  rw [Char.isDigit_iff_toNat] at h
  have hzero : '0'.toNat = 48 := rfl
  have hnine : '9'.toNat = 57 := rfl
  rw [hzero, hnine] at h
  have hsmall : c.toNat - 48 < 10 := by omega
  refine ⟨?_, hsmall⟩
  have hchar : forall n, n < 10 -> Nat.digitChar n = Char.ofNat (n + 48) := by decide
  rw [hchar _ hsmall, Nat.sub_add_cancel h.1, Char.ofNat_toNat]

theorem lastDigits_ofDigitChars {l : List Char} (h : Digits l) (n : Nat) :
    lastDigits l.length (n * 10 ^ l.length + Nat.ofDigitChars 10 l 0) = l := by
  induction l using List.reverseRecOn with
  | nil => rfl
  | append_singleton l c ih =>
      rcases digits_append.mp h with ⟨hinit, hlast⟩
      rcases digitChar_of_isDigit (hlast c (List.mem_singleton.mpr rfl)) with
        ⟨hchar, hsmall⟩
      have hvalue : n * 10 ^ (l.length + 1) + Nat.ofDigitChars 10 (l ++ [c]) 0 =
          10 * (n * 10 ^ l.length + Nat.ofDigitChars 10 l 0) + (c.toNat - 48) := by
        rw [Nat.ofDigitChars_append, Nat.ofDigitChars_cons, Nat.ofDigitChars_nil, pow_succ]
        change _ + (10 * Nat.ofDigitChars 10 l 0 + (c.toNat - 48)) = _
        ring
      rw [List.length_append, List.length_singleton, hvalue, lastDigits]
      rw [show (10 * (n * 10 ^ l.length + Nat.ofDigitChars 10 l 0) + (c.toNat - 48)) / 10 =
        n * 10 ^ l.length + Nat.ofDigitChars 10 l 0 by omega, ih hinit]
      rw [show (10 * (n * 10 ^ l.length + Nat.ofDigitChars 10 l 0) + (c.toNat - 48)) % 10 =
        c.toNat - 48 by omega, hchar]

theorem ofDigitChars_lt {l : List Char} (h : Digits l) :
    Nat.ofDigitChars 10 l 0 < 10 ^ l.length := by
  have hself := lastDigits_ofDigitChars h 0
  rw [Nat.zero_mul, Nat.zero_add] at hself
  have hvalue := ofDigitChars_lastDigits l.length (Nat.ofDigitChars 10 l 0)
  rw [hself] at hvalue
  rw [hvalue]
  exact Nat.mod_lt _ (by positivity)

theorem decimalValue_append_zero (ds fs : List Char) :
    decimalValue ds (fs ++ ['0']) = decimalValue ds fs := by
  unfold decimalValue
  rw [Nat.ofDigitChars_append, List.length_append]
  have hzero : Nat.ofDigitChars 10 ['0'] (Nat.ofDigitChars 10 fs 0) =
      10 * Nat.ofDigitChars 10 fs 0 := rfl
  rw [hzero, List.length_singleton, pow_succ]
  push_cast
  have hpos : (10 : Rat) ^ fs.length ≠ 0 := pow_ne_zero _ (by norm_num)
  field_simp

theorem decimalValue_append_zeros (ds fs : List Char) (n : Nat) :
    decimalValue ds (fs ++ List.replicate n '0') = decimalValue ds fs := by
  induction n with
  | zero => rw [List.replicate_zero, List.append_nil]
  | succ n ih =>
      rw [List.replicate_succ', ← List.append_assoc, decimalValue_append_zero, ih]

theorem decimalValue_rdropWhile (ds fs : List Char) :
    decimalValue ds (fs.rdropWhile fun c => c = '0') = decimalValue ds fs := by
  induction fs using List.reverseRecOn with
  | nil => rfl
  | append_singleton fs c ih =>
      by_cases hc : c = '0'
      · rw [List.rdropWhile_concat_pos _ _ _ (by simpa using hc), ih, hc,
          decimalValue_append_zero]
      · rw [List.rdropWhile_concat_neg _ _ _ (by simpa using hc)]

theorem digits_rdropWhile {fs : List Char} (h : Digits fs) (p : Char -> Bool) :
    Digits (fs.rdropWhile p) := by
  intro c hc
  exact h c ((List.rdropWhile_prefix p fs).subset hc)

/-!
# Superfluous zeros
-/

theorem rdropWhile_append_zeros (fs : List Char) (n : Nat) :
    (fs ++ List.replicate n '0').rdropWhile (fun c => c = '0') =
      fs.rdropWhile fun c => c = '0' := by
  induction n with
  | zero => rw [List.replicate_zero, List.append_nil]
  | succ n ih =>
      rw [List.replicate_succ', ← List.append_assoc,
        List.rdropWhile_concat_pos _ _ _ (by decide), ih]

theorem stripped_eq_iff {fs : List Char} :
    fs.rdropWhile (fun c => c = '0') = fs <-> fs.getLast? ≠ some '0' := by
  rw [List.rdropWhile_eq_self_iff]
  rcases List.eq_nil_or_concat fs with rfl | ⟨init, c, rfl⟩ <;> simp

theorem head?_toDigits_ne_zero {n : Nat} (h : 0 < n) :
    (Nat.toDigits 10 n).head? ≠ some '0' := by
  induction n using Nat.strongRecOn with
  | ind n ih =>
      by_cases hlt : n < 10
      · rw [Nat.toDigits_of_lt_base hlt]
        intro hzero
        interval_cases n <;> cases hzero
      · have hge : 10 ≤ n := Nat.not_lt.mp hlt
        rw [Nat.toDigits_of_base_le (by decide) hge]
        have hrest := ih (n / 10) (by omega) (by omega)
        cases hdigits : Nat.toDigits 10 (n / 10) with
        | nil => exact absurd hdigits Nat.toDigits_ne_nil
        | cons d ds =>
            rw [hdigits] at hrest
            exact hrest

/-- Digits before the point that do not start with a superfluous zero are those that are
printed for their value. -/
theorem toDigits_ofDigitChars {ds : List Char} (hne : ds ≠ []) (hds : Digits ds)
    (hleading : ds.head? = some '0' -> ds.length ≤ 1) :
    Nat.toDigits 10 (Nat.ofDigitChars 10 ds 0) = ds := by
  induction ds using List.reverseRecOn with
  | nil => exact absurd rfl hne
  | append_singleton init c ih =>
      rcases digits_append.mp hds with ⟨hinit, hlast⟩
      rcases digitChar_of_isDigit (hlast c (List.mem_singleton.mpr rfl)) with
        ⟨hchar, hsmall⟩
      have hvalue : Nat.ofDigitChars 10 (init ++ [c]) 0 =
          10 * Nat.ofDigitChars 10 init 0 + (c.toNat - 48) := by
        rw [Nat.ofDigitChars_append, Nat.ofDigitChars_cons, Nat.ofDigitChars_nil]
        rfl
      have hsingle : Nat.toDigits 10 (c.toNat - 48) = [c] := by
        rw [Nat.toDigits_of_lt_base hsmall, hchar]
      by_cases hnil : init = []
      · subst hnil
        rw [hvalue, Nat.ofDigitChars_nil, Nat.mul_zero, Nat.zero_add, hsingle, List.nil_append]
      · have hhead : init.head? ≠ some '0' := by
          intro hzero
          have hlength := hleading (by rw [List.head?_append_of_ne_nil _ hnil, hzero])
          rw [List.length_append, List.length_singleton] at hlength
          exact hnil (List.length_eq_zero_iff.mp (by omega))
        have hself := ih hnil hinit fun hzero => absurd hzero hhead
        have hpos : 0 < Nat.ofDigitChars 10 init 0 := by
          rw [Nat.pos_iff_ne_zero]
          intro hzero
          rw [hzero, Nat.toDigits_zero] at hself
          exact hhead (by rw [← hself]; rfl)
        rw [hvalue, ← Nat.toDigits_append_toDigits (by decide) hpos hsmall, hself, hsingle]

theorem digits_of_mul_add_eq {l l' : List Char} (hl : Digits l) (hl' : Digits l')
    (hlength : l.length = l'.length) {n n' : Nat}
    (heq : n * 10 ^ l.length + Nat.ofDigitChars 10 l 0 =
      n' * 10 ^ l'.length + Nat.ofDigitChars 10 l' 0) : n = n' ∧ l = l' := by
  constructor
  · have hlt := ofDigitChars_lt hl
    have hlt' := ofDigitChars_lt hl'
    have hdiv := congrArg (· / 10 ^ l.length) heq
    rw [hlength] at hdiv hlt
    rwa [Nat.mul_comm n, Nat.mul_comm n', Nat.mul_add_div (by positivity),
      Nat.mul_add_div (by positivity), Nat.div_eq_of_lt hlt, Nat.div_eq_of_lt hlt',
      Nat.add_zero, Nat.add_zero] at hdiv
  · rw [← lastDigits_ofDigitChars hl n, heq, hlength, lastDigits_ofDigitChars hl' n']

theorem digits_of_decimalValue_eq {ds ds' fs fs' : List Char} (hfs : Digits fs)
    (hfs' : Digits fs') (heq : decimalValue ds fs = decimalValue ds' fs') :
    Nat.ofDigitChars 10 ds 0 = Nat.ofDigitChars 10 ds' 0 ∧
      fs.rdropWhile (fun c => c = '0') = fs'.rdropWhile fun c => c = '0' := by
  have hpadded {l : List Char} (hl : Digits l) (n : Nat) :
      Digits (l ++ List.replicate n '0') := by
    rw [digits_append]
    refine ⟨hl, ?_⟩
    intro c hc
    rw [List.eq_of_mem_replicate hc]
    rfl
  have hlength : (fs ++ List.replicate fs'.length '0').length =
      (fs' ++ List.replicate fs.length '0').length := by
    rw [List.length_append, List.length_append, List.length_replicate, List.length_replicate,
      Nat.add_comm]
  rw [← decimalValue_append_zeros ds fs fs'.length,
    ← decimalValue_append_zeros ds' fs' fs.length] at heq
  unfold decimalValue at heq
  rw [hlength] at heq
  have hpow : (10 : Rat) ^ (fs' ++ List.replicate fs.length '0').length ≠ 0 :=
    pow_ne_zero _ (by norm_num)
  field_simp at heq
  norm_cast at heq
  rcases digits_of_mul_add_eq (hpadded hfs _) (hpadded hfs' _) hlength
    (by rw [hlength, heq, Nat.mul_comm (10 ^ _)]) with ⟨hwhole, hpart⟩
  refine ⟨hwhole, ?_⟩
  rw [← rdropWhile_append_zeros fs fs'.length, hpart, rdropWhile_append_zeros]

/-- A numeral with no zero before other digits and none at the end of its decimals. -/
structure Trimmed (ds fs : List Char) : Prop where
  nonempty : ds ≠ []
  whole : Digits ds
  decimals : Digits fs
  leading : ds.head? = some '0' -> ds.length ≤ 1
  trailing : fs.getLast? ≠ some '0'

theorem trimmed_toDigits (n : Nat) {fs : List Char} (hfs : Digits fs) :
    Trimmed (Nat.toDigits 10 n) (fs.rdropWhile fun c => c = '0') where
  nonempty := Nat.toDigits_ne_nil
  whole := digits_toDigits n
  decimals := digits_rdropWhile hfs _
  leading := by
    intro hzero
    rcases Nat.eq_zero_or_pos n with rfl | hpos
    · exact Nat.le_refl 1
    · exact absurd hzero (head?_toDigits_ne_zero hpos)
  trailing := stripped_eq_iff.mp (List.rdropWhile_idempotent _ _)

theorem Trimmed.unique {ds ds' fs fs' : List Char} (h : Trimmed ds fs)
    (h' : Trimmed ds' fs') (heq : decimalValue ds fs = decimalValue ds' fs') :
    ds = ds' ∧ fs = fs' := by
  rcases digits_of_decimalValue_eq h.decimals h'.decimals heq with ⟨hwhole, hpart⟩
  constructor
  · rw [← toDigits_ofDigitChars h.nonempty h.whole h.leading, hwhole,
      toDigits_ofDigitChars h'.nonempty h'.whole h'.leading]
  · rw [← stripped_eq_iff.mpr h.trailing, hpart, stripped_eq_iff.mpr h'.trailing]

/-!
# Fixed-point printing
-/

def units (places : Nat) (v : Rat) : Nat :=
  (halfEven (|v| * 10 ^ places)).toNat

def wholeDigits (places : Nat) (v : Rat) : List Char :=
  Nat.toDigits 10 (units places v / 10 ^ places)

def fractionDigits (places : Nat) (v : Rat) : List Char :=
  lastDigits places (units places v)

theorem wholeDigits_ne_nil (places : Nat) (v : Rat) :
    wholeDigits places v ≠ [] := Nat.toDigits_ne_nil

theorem digits_wholeDigits (places : Nat) (v : Rat) :
    Digits (wholeDigits places v) := digits_toDigits _

theorem digits_fractionDigits (places : Nat) (v : Rat) :
    Digits (fractionDigits places v) := digits_lastDigits _ _

theorem units_eq (places : Nat) (v : Rat) :
    (units places v : Rat) = |(halfEven (v * 10 ^ places) : Rat)| := by
  have hpow : (0 : Rat) ≤ 10 ^ places := by positivity
  have habs : |v| * 10 ^ places = |v * 10 ^ places| := by
    rw [abs_mul, abs_of_nonneg hpow]
  unfold units
  rw [habs, ← abs_halfEven]
  have hnat : ((|halfEven (v * 10 ^ places)|.toNat : Int) : Rat) =
      (|halfEven (v * 10 ^ places)| : Int) := by
    rw [Int.toNat_of_nonneg (abs_nonneg _)]
  rw [← Int.cast_abs, ← hnat, Int.cast_natCast]

/-- The digits before the point of a number that is not below a power of ten. -/
theorem lt_length_wholeDigits {places k : Nat} {v : Rat}
    (h : (10 : Rat) ^ k ≤ |v|) : k < (wholeDigits places v).length := by
  have hunits : 10 ^ k * 10 ^ places ≤ units places v := by
    have hle : (((10 ^ k * 10 ^ places : Nat) : Int) : Rat) ≤ |v| * 10 ^ places := by
      push_cast
      exact mul_le_mul_of_nonneg_right h (by positivity)
    unfold units
    have hround := le_halfEven hle
    omega
  have hwhole : 10 ^ k ≤ units places v / 10 ^ places :=
    (Nat.le_div_iff_mul_le (by positivity)).mpr hunits
  rcases Nat.eq_zero_or_pos k with rfl | hk
  · exact List.length_pos_iff.mpr (wholeDigits_ne_nil places v)
  · rw [← not_le]
    intro hle
    unfold wholeDigits at hle
    rw [Nat.length_toDigits_le_iff (by decide) hk] at hle
    exact absurd hwhole (Nat.not_le.mpr hle)

theorem decimalValue_printed (places : Nat) (v : Rat) :
    decimalValue (wholeDigits places v) (fractionDigits places v) =
      |(halfEven (v * 10 ^ places) : Rat)| / 10 ^ places := by
  unfold decimalValue wholeDigits fractionDigits
  rw [Nat.ofDigitChars_ten_toDigits, ofDigitChars_lastDigits, length_lastDigits,
    ← units_eq]
  have hpow : ((10 : Rat) ^ places) ≠ 0 := pow_ne_zero _ (by norm_num)
  have hdiv := Nat.div_add_mod (units places v) (10 ^ places)
  have hcast : ((10 ^ places * (units places v / 10 ^ places) +
      units places v % 10 ^ places : Nat) : Rat) = units places v := by
    rw [hdiv]
  rw [← hcast]
  push_cast
  field_simp

end Foundation
