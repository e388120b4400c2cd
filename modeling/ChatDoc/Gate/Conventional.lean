import ChatDoc.Gate.Provenance
import ChatDoc.Gate.Grounding

/-!
# Conventionally printed figures

A report prints a figure with up to two decimals, zeros included, with or without
commas between groups, and a negative one after a minus or in parentheses.  The
search looks for the figure without trailing zeros and with a minus, and for the
figure rounded to a whole number.
-/

namespace ChatDoc

open Foundation

inductive FigureStyle where
  | plain
  | minus
  | parentheses
deriving DecidableEq

namespace FigureStyle

def opening : FigureStyle -> List Char
  | .plain => []
  | .minus => ['-']
  | .parentheses => ['(']

def closing : FigureStyle -> List Char
  | .plain => []
  | .minus => []
  | .parentheses => [')']

end FigureStyle

/-- A figure as it is printed: at least two digits, at most two decimals. -/
structure PrintedFigure where
  whole : Nat
  decimals : List Char
  inGroups : Bool
  style : FigureStyle
  digits : Digits decimals
  short : decimals.length ≤ 2
  long : 2 ≤ (Nat.toDigits 10 whole).length + decimals.length

namespace PrintedFigure

variable (f : PrintedFigure)

def wholePart : List Char :=
  if f.inGroups then grouped (Nat.toDigits 10 f.whole) else Nat.toDigits 10 f.whole

def body : List Char := point f.wholePart f.decimals

def token : List Char := f.style.opening ++ (f.body ++ f.style.closing)

def magnitude : Rat := decimalValue (Nat.toDigits 10 f.whole) f.decimals

def value : Rat :=
  match f.style with
  | .plain => f.magnitude
  | .minus => -f.magnitude
  | .parentheses => -f.magnitude

def rounded : Nat := (halfEven f.magnitude).toNat

/-- The figure is printed as the search would spell it, or the part before its
point is: it has no parentheses, and it has no trailing zero or rounds to its
whole part.  Or its two decimals are by chance what it rounds to, as in "49.50". -/
def SpeltAsSearched : Prop :=
  (f.style ≠ .parentheses ∧
      (f.decimals.getLast? ≠ some '0' ∨ (f.rounded = f.whole ∧ 10 ≤ f.whole))) ∨
    (f.style = .plain ∧ f.decimals.length = 2 ∧
      f.decimals = Nat.toDigits 10 f.rounded)

end PrintedFigure

def Outside (u : PyText) (c : Char) : Prop :=
  u.decimal c = false ∧ c ≠ ',' ∧ c ≠ '.'

structure PrintedBetween (u : PyText) (f : PrintedFigure) (text pre post : List Char) :
    Prop where
  split : text = pre ++ (f.token ++ post)
  before : forall c, pre.getLast? = some c -> Outside u c
  after : forall c, post.head? = some c -> Outside u c

/-- Some spelling of the figure stands at another place in the text, apart from
the digits that are printed after `pre`. -/
def SpeltElsewhere (u : PyText) (f : PrintedFigure) (text pre : List Char) : Prop :=
  exists v, v ∈ searched f.value ∧ 2 ≤ digitCount v ∧
    exists pre' post', Bounded u v text pre' post' ∧
      (pre'.length + v.length ≤ (pre ++ f.style.opening).length ∨
        (pre ++ f.style.opening).length + f.body.length ≤ pre'.length)

variable {u : PyText} {q : Rat}

/-!
# Two decimals
-/

theorem printed_of_abs {n : Nat} {fs : List Char} (hfs : Digits fs)
    (hshort : fs.length ≤ 2) (hq : |q| = decimalValue (Nat.toDigits 10 n) fs) :
    wholeDigits 2 q = Nat.toDigits 10 n ∧
      shortFraction q = fs.rdropWhile (fun c => c = '0') := by
  have hvalue := value_two q
  rw [cents_of_abs hshort hq, hq, ← decimalValue_rdropWhile _ fs] at hvalue
  exact (trimmed_two q).unique (trimmed_toDigits n hfs) hvalue

theorem wholeDigits_zero_of_abs {n : Nat} (h : halfEven |q| = n) :
    wholeDigits 0 q = Nat.toDigits 10 n := by
  unfold wholeDigits units
  rw [pow_zero, mul_one, h, Int.toNat_natCast, pow_zero, Nat.div_one]

/-!
# What is searched
-/

namespace PrintedFigure

variable {f : PrintedFigure} {num : List Char}

def Form (f : PrintedFigure) (num : List Char) : Prop :=
  Spells (Nat.toDigits 10 f.whole) (f.decimals.rdropWhile fun c => c = '0') num ∨
    Spells (Nat.toDigits 10 f.rounded) [] num

theorem magnitude_nonneg (f : PrintedFigure) : 0 ≤ f.magnitude := by
  unfold magnitude decimalValue
  positivity

theorem halfEven_magnitude (f : PrintedFigure) : halfEven f.magnitude = f.rounded := by
  unfold rounded
  rw [Int.toNat_of_nonneg (halfEven_nonneg f.magnitude_nonneg)]

theorem whole_le_rounded (f : PrintedFigure) : f.whole ≤ f.rounded := by
  have hle : ((f.whole : Int) : Rat) ≤ f.magnitude := by
    unfold magnitude decimalValue
    rw [Nat.ofDigitChars_ten_toDigits, Int.cast_natCast]
    exact le_add_of_nonneg_right (by positivity)
  have hround := le_halfEven hle
  rw [halfEven_magnitude] at hround
  exact_mod_cast hround

theorem Form.digits (h : f.Form num) :
    exists ds fs, Digits ds ∧ Digits fs ∧ Spells ds fs num := by
  rcases h with hspells | hspells
  · exact ⟨_, _, digits_toDigits _, digits_rdropWhile f.digits _, hspells⟩
  · exact ⟨_, _, digits_toDigits _, digits_nil, hspells⟩

theorem searched_of_form (hq : |q| = f.magnitude) (h : f.Form num) :
    sign q ++ num ∈ searched q := by
  rcases printed_of_abs f.digits f.short hq with ⟨hwhole, hfraction⟩
  have hzero : wholeDigits 0 q = Nat.toDigits 10 f.rounded :=
    wholeDigits_zero_of_abs (hq ▸ f.halfEven_magnitude)
  refine List.mem_flatMap.mpr ⟨q, List.mem_cons_self, mem_variantsOf.mpr ⟨num, rfl, ?_⟩⟩
  rw [hwhole, hfraction, hzero]
  exact h

theorem form_of_searched (hq : |q| = f.magnitude) {v : List Char} (hv : v ∈ searched q)
    (hlong : 2 ≤ digitCount v) : exists num, v = sign q ++ num ∧ f.Form num := by
  rcases printed_of_abs f.digits f.short hq with ⟨hwhole, hfraction⟩
  have hzero : wholeDigits 0 q = Nat.toDigits 10 f.rounded :=
    wholeDigits_zero_of_abs (hq ▸ f.halfEven_magnitude)
  rcases spelling_of_searched hv hlong with ⟨num, rfl, hvariant | htwice⟩
  · rw [mem_variantsOf, hwhole, hfraction, hzero] at hvariant
    rcases hvariant with ⟨num', hsame, hform⟩
    exact ⟨num, rfl, List.append_cancel_left hsame ▸ hform⟩
  · -- with two decimals nothing is rounded before
    have hother := htwice.2
    rw [cents_of_abs f.short hq] at hother
    exact absurd rfl hother

/-!
# The digits of a printed figure
-/

def NumeralChar (c : Char) : Prop := c.isDigit = true ∨ c = ',' ∨ c = '.'

theorem numeralChar_of_spells {ds fs num : List Char} (hds : Digits ds)
    (hfs : Digits fs) (h : Spells ds fs num) {c : Char} (hc : c ∈ num) :
    NumeralChar c := by
  have hpoint {l : List Char} (hl : forall d, d ∈ l -> NumeralChar d)
      (hmem : c ∈ point l fs) : NumeralChar c := by
    unfold point at hmem
    split at hmem
    · exact hl c hmem
    · rcases List.mem_append.mp hmem with hmem | hmem
      · exact hl c hmem
      · rcases List.mem_cons.mp hmem with hdot | hmem
        · exact .inr (.inr hdot)
        · exact .inl (hfs c hmem)
  rcases h with rfl | rfl
  · apply hpoint _ hc
    intro d hd
    rcases mem_grouped hd with hcomma | hd
    · exact .inr (.inl hcomma)
    · exact .inl (hds d hd)
  · apply hpoint _ hc
    intro d hd
    exact .inl (hds d hd)

theorem Form.numeralChar (h : f.Form num) {c : Char} (hc : c ∈ num) : NumeralChar c := by
  rcases h.digits with ⟨ds, fs, hds, hfs, hspells⟩
  exact numeralChar_of_spells hds hfs hspells hc

theorem spells_body (f : PrintedFigure) :
    Spells (Nat.toDigits 10 f.whole) f.decimals f.body := by
  unfold body wholePart
  split
  · exact .inl rfl
  · exact .inr rfl

theorem numeralChar_body {c : Char} (hc : c ∈ f.body) : NumeralChar c :=
  numeralChar_of_spells (digits_toDigits _) f.digits f.spells_body hc

theorem not_numeralChar_minus : ¬ NumeralChar '-' := by
  unfold NumeralChar
  decide

theorem ungrouped_wholePart (f : PrintedFigure) :
    ungrouped f.wholePart = Nat.toDigits 10 f.whole := by
  unfold wholePart
  split
  · exact ungrouped_grouped (digits_toDigits _)
  · exact ungrouped_of_digits (digits_toDigits _)

theorem point_not_mem_wholePart (f : PrintedFigure) : '.' ∉ f.wholePart := by
  intro hmem
  have hdot : '.' ∈ ungrouped f.wholePart := List.mem_filter.mpr ⟨hmem, by decide⟩
  rw [ungrouped_wholePart] at hdot
  exact absurd (digits_toDigits _ _ hdot) (by decide)

theorem body_of_decimals (h : f.decimals ≠ []) :
    f.body = f.wholePart ++ '.' :: f.decimals := if_neg h

theorem ten_le_of_length {n : Nat} (h : 2 ≤ (Nat.toDigits 10 n).length) : 10 ≤ n := by
  by_contra hlt
  have hone := (Nat.length_toDigits_le_iff (by decide) Nat.one_pos).mpr
    (show n < 10 ^ 1 by omega)
  omega

theorem length_toDigits_mono {n m : Nat} (h : n ≤ m) :
    (Nat.toDigits 10 n).length ≤ (Nat.toDigits 10 m).length := by
  have hpos : 0 < (Nat.toDigits 10 m).length := Nat.length_toDigits_pos
  rw [Nat.length_toDigits_le_iff (by decide) hpos]
  exact Nat.lt_of_le_of_lt h
    ((Nat.length_toDigits_le_iff (by decide) hpos).mp (Nat.le_refl _))

theorem toDigits_injective {n m : Nat} (h : Nat.toDigits 10 n = Nat.toDigits 10 m) :
    n = m := by
  rw [← Nat.ofDigitChars_ten_toDigits (n := n), h, Nat.ofDigitChars_ten_toDigits]

/-- A stripped figure that is spelled within the printed one, with a digit
dropped, would end before a digit. -/
theorem whole_of_stripped_within {a b : List Char} (hbody : f.body = a ++ (num ++ b))
    (hspells : Spells (Nat.toDigits 10 f.whole)
      (f.decimals.rdropWhile fun c => c = '0') num)
    (hlong : 2 ≤ digitCount num) (hzero : f.decimals.getLast? = some '0')
    (hafter : forall c, b.head? = some c -> c.isDigit = false) :
    f.rounded = f.whole ∧ 10 ≤ f.whole := by
  rw [hspells.digitCount_eq (digits_toDigits _) (digits_rdropWhile f.digits _)] at hlong
  have hne : f.decimals ≠ [] := by
    intro hnil
    rw [hnil] at hzero
    cases hzero
  by_cases hstripped : f.decimals.rdropWhile (fun c => c = '0') = []
  · rw [hstripped] at hlong
    refine ⟨?_, ten_le_of_length hlong⟩
    have hmagnitude : f.magnitude = ((f.whole : Int) : Rat) := by
      unfold magnitude
      rw [← decimalValue_rdropWhile, hstripped, decimalValue,
        Nat.ofDigitChars_ten_toDigits]
      simp
    unfold rounded
    rw [hmagnitude, halfEven_intCast, Int.toNat_natCast]
  · exfalso
    have hnum : exists whole, num =
        whole ++ '.' :: f.decimals.rdropWhile (fun c => c = '0') := by
      rcases hspells with rfl | rfl
      · exact ⟨_, if_neg hstripped⟩
      · exact ⟨_, if_neg hstripped⟩
    rcases hnum with ⟨whole, rfl⟩
    -- the body has one point only, so what comes after it is cut in the same place
    rw [body_of_decimals hne, List.append_assoc, List.cons_append, ← List.append_assoc]
      at hbody
    have hdot : '.' ∉ f.decimals := fun hmem => absurd (f.digits '.' hmem) (by decide)
    have hcut := ((List.append_cons_inj_of_notMem (point_not_mem_wholePart f) hdot).mp
      hbody).2.2
    cases b with
    | nil =>
        rw [List.append_nil] at hcut
        exact stripped_eq_iff.mp hcut.symm hzero
    | cons c b =>
        have hmem : c ∈ f.decimals := by
          rw [hcut]
          exact List.mem_append_right _ List.mem_cons_self
        exact Bool.false_ne_true ((hafter c rfl).symm.trans (f.digits c hmem))

/-- The rounded figure that is spelled within the printed one is its whole part,
or by chance its decimals. -/
theorem whole_or_decimals_of_rounded_within {a b : List Char}
    (hbody : f.body = a ++ (num ++ b))
    (hspells : Spells (Nat.toDigits 10 f.rounded) [] num) (hlong : 2 ≤ digitCount num) :
    (f.rounded = f.whole ∧ 10 ≤ f.whole) ∨
      (a ≠ [] ∧ f.decimals.length = 2 ∧ f.decimals = Nat.toDigits 10 f.rounded) := by
  have hcount := hspells.digitCount_eq (digits_toDigits _) digits_nil
  rw [List.length_nil, Nat.add_zero] at hcount
  have hungrouped : ungrouped num = Nat.toDigits 10 f.rounded := by
    rcases hspells with rfl | rfl
    · exact ungrouped_grouped (digits_toDigits _)
    · exact ungrouped_of_digits (digits_toDigits _)
  have hwithin {a b : List Char} (hpart : f.wholePart = a ++ (num ++ b)) :
      f.rounded = f.whole := by
    have hdigits := congrArg ungrouped hpart
    rw [ungrouped_wholePart, ungrouped_append, ungrouped_append, hungrouped] at hdigits
    have hlength := congrArg List.length hdigits
    rw [List.length_append, List.length_append] at hlength
    have hmono := length_toDigits_mono f.whole_le_rounded
    have ha : ungrouped a = [] := List.length_eq_zero_iff.mp (by omega)
    have hb : ungrouped b = [] := List.length_eq_zero_iff.mp (by omega)
    rw [ha, hb, List.nil_append, List.append_nil] at hdigits
    exact (toDigits_injective hdigits).symm
  by_cases hwhole : f.rounded = f.whole
  · refine .inl ⟨hwhole, ?_⟩
    rw [hcount, hwhole] at hlong
    exact ten_le_of_length hlong
  · by_cases hnil : f.decimals = []
    · have hbase : f.body = f.wholePart := if_pos hnil
      exact absurd (hwithin (hbase ▸ hbody)) hwhole
    · have hdot : '.' ∉ num := by
        intro hmem
        have hmem' : '.' ∈ ungrouped num := List.mem_filter.mpr ⟨hmem, by decide⟩
        rw [hungrouped] at hmem'
        exact absurd (digits_toDigits _ _ hmem') (by decide)
      rw [body_of_decimals hnil] at hbody
      rcases split_beside hdot hbody with ⟨b', hpart, _⟩ | ⟨a', ha, hdecimals⟩
      · exact absurd (hwithin hpart) hwhole
      · have hle : digitCount num ≤ num.length := List.length_filter_le _ _
        have hlength := congrArg List.length hdecimals
        rw [List.length_append, List.length_append] at hlength
        have hshort := f.short
        have ha' : a' = [] := List.length_eq_zero_iff.mp (by omega)
        have hb : b = [] := List.length_eq_zero_iff.mp (by omega)
        rw [ha', hb, List.nil_append, List.append_nil] at hdecimals
        refine .inr ⟨?_, by omega, ?_⟩
        · rw [ha]
          simp
        · rw [← hungrouped, ← hdecimals]
          exact (ungrouped_of_digits f.digits).symm

/-!
# The sign
-/

theorem abs_value (f : PrintedFigure) : |f.value| = f.magnitude := by
  have hnonneg := f.magnitude_nonneg
  unfold value
  split
  · exact abs_of_nonneg hnonneg
  · rw [abs_neg, abs_of_nonneg hnonneg]
  · rw [abs_neg, abs_of_nonneg hnonneg]

theorem magnitude_pos (h : f.Form num) (hlong : 2 ≤ digitCount num) :
    0 < f.magnitude := by
  rcases f.magnitude_nonneg.lt_or_eq with hpos | hzero
  · exact hpos
  · exfalso
    have hrounded : f.rounded = 0 := by
      unfold rounded
      rw [← hzero]
      decide +kernel
    have hwhole : f.whole = 0 := Nat.le_zero.mp (hrounded ▸ f.whole_le_rounded)
    have habs : |(0 : Rat)| = f.magnitude := abs_zero.trans hzero
    have hfraction := (printed_of_abs f.digits f.short habs).2
    have hshort : shortFraction 0 = [] := by decide +kernel
    unfold Form at h
    rw [← hfraction, hshort, hwhole, hrounded, or_self] at h
    rw [h.digitCount_eq (digits_toDigits _) digits_nil] at hlong
    exact absurd hlong (by decide)

theorem sign_value (h : f.Form num) (hlong : 2 ≤ digitCount num) :
    sign f.value = if f.style = .plain then [] else ['-'] := by
  have hpos := magnitude_pos h hlong
  unfold value sign
  cases f.style with
  | plain => exact if_neg (not_lt.mpr hpos.le)
  | minus => exact if_pos (neg_lt_zero.mpr hpos)
  | parentheses => exact if_pos (neg_lt_zero.mpr hpos)

/-!
# Where the search finds the figure
-/

variable {text pre post : List Char}

theorem spelt_of_piece {a b : List Char} (hprinted : PrintedBetween u f text pre post)
    (hstyle : f.style = .plain ∨ (f.style = .minus ∧ a = []))
    (hbody : f.body = a ++ (num ++ b)) (hform : f.Form num) (hlong : 2 ≤ digitCount num)
    (hbefore : forall c, a.getLast? = some c -> u.decimal c = false)
    (hafter : forall c, b.head? = some c -> u.decimal c = false) :
    Spelt u f.value text := by
  have hsign := sign_value hform hlong
  have hsplit := hprinted.split
  unfold token at hsplit
  have hpost (c : Char) (hc : (b ++ post).head? = some c) : u.decimal c = false := by
    cases b with
    | nil => exact (hprinted.after c hc).1
    | cons d b => exact hafter c hc
  refine ⟨sign f.value ++ num, searched_of_form f.abs_value hform, ?_, ?_⟩
  · rw [digitCount_append]
    omega
  · rcases hstyle with hplain | ⟨hminus, ha⟩
    · rw [hplain] at hsplit
      rw [hsign, if_pos hplain, List.nil_append]
      refine ⟨pre ++ a, b ++ post, ?_, ?_, hpost⟩
      · rw [hsplit, hbody]
        simp [FigureStyle.opening, FigureStyle.closing]
      · intro c hc
        rw [List.getLast?_append] at hc
        cases hlast : a.getLast? with
        | none =>
            rw [hlast] at hc
            exact (hprinted.before c hc).1
        | some d =>
            rw [hlast] at hc
            exact hbefore c (hlast.trans hc)
    · rw [hminus] at hsplit
      rw [hsign, if_neg (by rw [hminus]; decide)]
      refine ⟨pre, b ++ post, ?_, ?_, hpost⟩
      · rw [hsplit, hbody, ha]
        simp [FigureStyle.opening, FigureStyle.closing]
      · intro c hc
        exact (hprinted.before c hc).1

theorem spelt_of_speltAsSearched (hprinted : PrintedBetween u f text pre post)
    (h : f.SpeltAsSearched) : Spelt u f.value text := by
  have hpoint : u.decimal '.' = false := u.decimal_ascii '.' (by decide)
  have hstyle (hne : f.style ≠ .parentheses) :
      f.style = .plain ∨ (f.style = .minus ∧ ([] : List Char) = []) := by
    cases hs : f.style with
    | plain => exact .inl rfl
    | minus => exact .inr ⟨rfl, rfl⟩
    | parentheses => exact absurd hs hne
  have hnone (c : Char) (hc : ([] : List Char).getLast? = some c) :
      u.decimal c = false := by
    cases hc
  rcases h with ⟨hne, hlast | ⟨hrounded, hten⟩⟩ | ⟨hplain, hlength, hdecimals⟩
  · -- without trailing zeros the whole body is a spelling
    have hspells := f.spells_body
    rw [← stripped_eq_iff.mpr hlast] at hspells
    have hcount := hspells.digitCount_eq (digits_toDigits _) (digits_rdropWhile f.digits _)
    rw [stripped_eq_iff.mpr hlast] at hcount
    apply spelt_of_piece (a := []) (b := []) hprinted (hstyle hne) _ (.inl hspells) _
      hnone
    · intro c hc
      cases hc
    · rw [List.nil_append, List.append_nil]
    · rw [hcount]
      exact f.long
  · -- the rounded figure stands before the point
    have hspells : Spells (Nat.toDigits 10 f.rounded) [] f.wholePart := by
      rw [hrounded]
      unfold wholePart
      split
      · exact .inl rfl
      · exact .inr rfl
    have hcount := hspells.digitCount_eq (digits_toDigits _) digits_nil
    have hlong : 2 ≤ digitCount f.wholePart := by
      rw [hcount, hrounded, List.length_nil, Nat.add_zero, ← not_lt]
      intro hshort
      have hlt := (Nat.length_toDigits_le_iff (b := 10) (by decide) Nat.one_pos).mp
        (Nat.le_of_lt_succ hshort)
      omega
    by_cases hnil : f.decimals = []
    · apply spelt_of_piece (a := []) (b := []) hprinted (hstyle hne) _ (.inr hspells)
        hlong hnone
      · intro c hc
        cases hc
      · rw [List.nil_append, List.append_nil]
        exact if_pos hnil
    · apply spelt_of_piece (a := []) (b := '.' :: f.decimals) hprinted (hstyle hne) _
        (.inr hspells) hlong hnone
      · intro c hc
        cases hc
        exact hpoint
      · rw [List.nil_append]
        exact body_of_decimals hnil
  · -- the rounded figure stands after the point
    have hne : f.decimals ≠ [] := by
      intro hnil
      rw [hnil] at hlength
      cases hlength
    have hspells : Spells (Nat.toDigits 10 f.rounded) [] f.decimals := .inr hdecimals
    apply spelt_of_piece (a := f.wholePart ++ ['.']) (b := []) hprinted (.inl hplain) _
      (.inr hspells)
    · rw [digitCount_of_digits f.digits, hlength]
    · intro c hc
      rw [List.getLast?_concat] at hc
      cases hc
      exact hpoint
    · intro c hc
      cases hc
    · rw [body_of_decimals hne]
      simp

theorem isDigit_of_not_decimal {c : Char} (h : u.decimal c = false) :
    c.isDigit = false := by
  by_contra hdigit
  rw [Bool.not_eq_false] at hdigit
  have hle : c.toNat ≤ '9'.toNat := (Char.isDigit_iff_toNat.mp hdigit).2
  have hascii : c.toNat < 128 := Nat.lt_of_le_of_lt hle (by decide)
  rw [u.decimal_ascii c hascii, hdigit] at h
  cases h

theorem not_numeralChar_of_outside {c : Char} (h : Outside u c) : ¬ NumeralChar c := by
  intro hnumeral
  rcases h with ⟨hdecimal, hcomma, hpoint⟩
  rcases hnumeral with hdigit | hc | hc
  · rw [isDigit_of_not_decimal hdecimal] at hdigit
    cases hdigit
  · exact hcomma hc
  · exact hpoint hc

theorem not_numeralChar_before (hprinted : PrintedBetween u f text pre post) {c : Char}
    (hc : (pre ++ f.style.opening).getLast? = some c) : ¬ NumeralChar c := by
  cases hs : f.style with
  | plain =>
      rw [hs] at hc
      apply not_numeralChar_of_outside
      apply hprinted.before
      rw [← hc, FigureStyle.opening, List.append_nil]
  | minus =>
      rw [hs, FigureStyle.opening, List.getLast?_concat] at hc
      cases hc
      exact not_numeralChar_minus
  | parentheses =>
      rw [hs, FigureStyle.opening, List.getLast?_concat] at hc
      cases hc
      unfold NumeralChar
      decide

theorem not_numeralChar_after (hprinted : PrintedBetween u f text pre post) {c : Char}
    (hc : (f.style.closing ++ post).head? = some c) : ¬ NumeralChar c := by
  cases hs : f.style with
  | plain =>
      rw [hs] at hc
      exact not_numeralChar_of_outside (hprinted.after c hc)
  | minus =>
      rw [hs] at hc
      exact not_numeralChar_of_outside (hprinted.after c hc)
  | parentheses =>
      rw [hs] at hc
      cases hc
      unfold NumeralChar
      decide

/-- A spelling with a minus that lies in the printed digits takes the minus in
front of them, and all that is before is none of the figure. -/
theorem minus_of_sign_before {a pre' rest : List Char} (hbody : f.body = a ++ rest)
    (hbefore : pre' ++ ['-'] = pre ++ f.style.opening ++ a) (hstyle : f.style ≠ .plain) :
    f.style = .minus ∧ a = [] := by
  rcases List.eq_nil_or_concat a with rfl | ⟨init, c, rfl⟩
  · refine ⟨?_, rfl⟩
    have hlast := congrArg List.getLast? hbefore
    cases hs : f.style with
    | plain => exact absurd hs hstyle
    | minus => rfl
    | parentheses =>
        rw [hs, FigureStyle.opening, List.append_nil, List.getLast?_concat,
          List.getLast?_concat] at hlast
        exact absurd hlast (by decide)
  · exfalso
    have hlast := congrArg List.getLast? hbefore
    rw [List.concat_eq_append, ← List.append_assoc, List.getLast?_concat,
      List.getLast?_concat] at hlast
    have hmem : '-' ∈ f.body := by
      rw [hbody, Option.some.inj hlast]
      simp
    exact not_numeralChar_minus (numeralChar_body hmem)

theorem body_ne_nil (f : PrintedFigure) : f.body ≠ [] := by
  intro hnil
  have hcount := f.spells_body.digitCount_eq (digits_toDigits _) f.digits
  have hlong := f.long
  rw [hnil] at hcount
  have hzero : digitCount [] = 0 := rfl
  omega

theorem not_at_minus {front rest pre' rest' : List Char}
    (h : front ++ (f.body ++ rest) = (pre' ++ ['-']) ++ rest')
    (hle : front.length + f.body.length ≤ pre'.length + 1) :
    front.length + f.body.length ≤ pre'.length := by
  by_contra hlt
  rcases List.eq_nil_or_concat f.body with hnil | ⟨init, c, hbody⟩
  · exact f.body_ne_nil hnil
  · rw [hbody, List.concat_eq_append, List.length_append, List.length_singleton]
      at hle hlt
    rw [hbody] at h
    simp only [List.concat_eq_append, List.append_assoc] at h
    rw [← List.append_assoc] at h
    have hplace : (front ++ init).length = pre'.length := by
      rw [List.length_append]
      omega
    have hchar := List.head_eq_of_cons_eq (List.append_inj h hplace).2
    have hmem : '-' ∈ f.body := by
      rw [hbody, hchar]
      simp
    exact not_numeralChar_minus (numeralChar_body hmem)

theorem speltAsSearched_of_within {a b : List Char} (hform : f.Form num)
    (hcount : 2 ≤ digitCount num) (hbody : f.body = a ++ (num ++ b))
    (hafter : forall c, b.head? = some c -> c.isDigit = false)
    (hstyle : f.style ≠ .plain -> f.style = .minus ∧ a = []) : f.SpeltAsSearched := by
  have hparentheses : f.style ≠ .parentheses := by
    intro hs
    have hminus := (hstyle (by rw [hs]; decide)).1
    rw [hs] at hminus
    cases hminus
  by_cases hlast : f.decimals.getLast? = some '0'
  · have hcases : (f.rounded = f.whole ∧ 10 ≤ f.whole) ∨
        (a ≠ [] ∧ f.decimals.length = 2 ∧ f.decimals = Nat.toDigits 10 f.rounded) := by
      rcases hform with hspells | hspells
      · exact .inl (whole_of_stripped_within hbody hspells hcount hlast hafter)
      · exact whole_or_decimals_of_rounded_within hbody hspells hcount
    rcases hcases with hwhole | ⟨ha, hdecimals⟩
    · exact .inl ⟨hparentheses, .inr hwhole⟩
    · refine .inr ⟨?_, hdecimals⟩
      by_contra hne
      exact ha (hstyle hne).2
  · exact .inl ⟨hparentheses, .inl hlast⟩

theorem speltAsSearched_or_elsewhere (hprinted : PrintedBetween u f text pre post)
    (h : Spelt u f.value text) : f.SpeltAsSearched ∨ SpeltElsewhere u f text pre := by
  rcases h with ⟨v, hv, hlong, pre', post', hbounded⟩
  rcases form_of_searched f.abs_value hv hlong with ⟨num, rfl, hform⟩
  have hcount : 2 ≤ digitCount num := by
    rw [digitCount_append, digitCount_sign, Nat.zero_add] at hlong
    exact hlong
  have hsign := sign_value hform hcount
  have htext : (pre ++ f.style.opening) ++ (f.body ++ (f.style.closing ++ post)) =
      (pre' ++ sign f.value) ++ (num ++ post') := by
    have hsplit := hprinted.split
    have hsplit' := hbounded.split
    unfold token at hsplit
    simp only [List.append_assoc] at hsplit hsplit' ⊢
    rw [← hsplit, hsplit']
  by_cases hoverlap : (pre ++ f.style.opening).length <
      (pre' ++ sign f.value).length + num.length ∧
      (pre' ++ sign f.value).length < (pre ++ f.style.opening).length + f.body.length
  · left
    rcases exists_within htext (fun c hc => hform.numeralChar hc)
      (fun c hc => not_numeralChar_before hprinted hc)
      (fun c hc => not_numeralChar_after hprinted hc) hoverlap.1 hoverlap.2 with
      ⟨a, b, hbody, hbefore, hpost⟩
    have hafter (c : Char) (hc : b.head? = some c) : c.isDigit = false := by
      apply isDigit_of_not_decimal
      apply hbounded.after
      rw [hpost, List.head?_append, hc]
      rfl
    apply speltAsSearched_of_within hform hcount hbody hafter
    intro hne
    rw [hsign, if_neg hne] at hbefore
    exact minus_of_sign_before hbody hbefore hne
  · right
    refine ⟨sign f.value ++ num, hv, hlong, pre', post', hbounded, ?_⟩
    have hlength : (sign f.value ++ num).length = (sign f.value).length + num.length :=
      List.length_append
    have hbefore (back : List Char) : (pre' ++ back).length = pre'.length + back.length :=
      List.length_append
    rw [hlength]
    rw [not_and_or, not_lt, not_lt, hbefore] at hoverlap
    rcases hoverlap with hleft | hright
    · left
      omega
    · right
      by_cases hplain : f.style = .plain
      · rw [hsign, if_pos hplain] at hright
        exact hright
      · rw [hsign, if_neg hplain] at hright htext
        exact not_at_minus htext hright

/-- In exact arithmetic a figure that is printed in the text is found, at any scale, exactly
when it is printed as the search spells it or a spelling of it stands elsewhere. -/
theorem valueFoundInText_printed_iff {text : String} {pre post : List Char}
    (hprinted : PrintedBetween u f text.toList pre post) (scale : Option String) :
    valueFoundInText u.exactly (.finite (f.value * scaleMultiplier u scale)) scale text =
        .ok true <->
      f.SpeltAsSearched ∨ SpeltElsewhere u f text.toList pre := by
  have hvalue : unscaled u.exactly (f.value * scaleMultiplier u scale) scale = f.value :=
    mul_div_cancel_right₀ _ (scaleMultiplier_pos u scale).ne'
  rw [valueFoundInText_iff, findable_iff_spelt, hvalue, spelt_exactly]
  constructor
  · exact speltAsSearched_or_elsewhere hprinted
  · intro hcases
    rcases hcases with hspelt | ⟨v, hv, hlong, pre', post', hbounded, _⟩
    · exact spelt_of_speltAsSearched hprinted hspelt
    · exact ⟨v, hv, hlong, pre', post', hbounded⟩

/-!
# A price

The text prints "$13.50".
-/

theorem digits_fifty : Digits ['5', '0'] := by
  intro c hc
  rcases List.mem_pair.mp hc with rfl | rfl <;> rfl

theorem long_price : 2 ≤ (Nat.toDigits 10 13).length + ['5', '0'].length := by decide

def price : PrintedFigure where
  whole := 13
  decimals := ['5', '0']
  inGroups := false
  style := .plain
  digits := digits_fifty
  short := Nat.le_refl 2
  long := long_price

theorem printedBetween_price : PrintedBetween .ascii price "$13.50".toList ['$'] [] where
  split := by decide +kernel
  before := by
    intro c hc
    cases hc
    exact ⟨rfl, by decide, by decide⟩
  after := by
    intro c hc
    cases hc

theorem valueFoundInText_price_iff :
    valueFoundInText PyText.ascii.exactly (.finite (price.value * scaleMultiplier .ascii none))
        none "$13.50" = .ok true <->
      price.SpeltAsSearched ∨ SpeltElsewhere .ascii price "$13.50".toList ['$'] :=
  valueFoundInText_printed_iff printedBetween_price none

theorem exists_printed_not_found :
    ¬ forall (u : PyText) (f : PrintedFigure) (text : String) (pre post : List Char)
        (scale : Option String), PrintedBetween u f text.toList pre post ->
      valueFoundInText u.exactly (.finite (f.value * scaleMultiplier u scale)) scale text =
        .ok true := by
  intro hall
  have htrue := hall .ascii price "$13.50" ['$'] [] none printedBetween_price
  have hfalse : valueFoundInText PyText.ascii.exactly
      (.finite (price.value * scaleMultiplier .ascii none)) none "$13.50" =
        .ok false := by
    decide +kernel
  rw [htrue] at hfalse
  cases hfalse

/-- The value of "49.50" is looked for as "50" too. -/
example : valueFoundInText .ascii (.finite (495 / 10)) none "$49.50" = .ok true := by
  decide +kernel

end PrintedFigure

end ChatDoc
