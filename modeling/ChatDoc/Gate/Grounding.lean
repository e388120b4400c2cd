import ChatDoc.Gate.Verdicts

/-!
# Numeric grounding

A figure is grounded when the text prints its magnitude as a number of its own,
not as a piece of a longer one.  The search of the gate looks for a digit on
either side of a match and for nothing else, so it also accepts a piece that
ends at a comma or at a decimal point, and it accepts a spelling that was
rounded twice.  Numerals have forms that it never looks for.
-/

namespace ChatDoc

open Foundation

/-!
# Complete numerals
-/

def threeDigits (u : PyText) (l : List Char) : Bool :=
  (l.takeWhile u.decimal).length == 3

/-- The number that starts with `rest` has begun before: its digits do, or a
point or a grouping comma stands between digits. -/
def joinedLeft (u : PyText) (pre rest : List Char) : Bool :=
  match pre.reverse with
  | [] => false
  | c :: before =>
      u.decimal c || (before.head?.any u.decimal &&
        (c == '.' || (c == ',' && threeDigits u rest)))

def joinedRight (u : PyText) (num post : List Char) : Bool :=
  match post with
  | [] => false
  | c :: after =>
      u.decimal c || (!num.contains '.' &&
        ((c == '.' && after.head?.any u.decimal) ||
          (c == ',' && threeDigits u after)))

structure Complete (u : PyText) (text pre num post : List Char) : Prop where
  split : text = pre ++ (num ++ post)
  left : joinedLeft u pre (num ++ post) = false
  right : joinedRight u num post = false

def magnitudes (q : Rat) : List Rat :=
  [|q|, |(halfEven q : Rat)|, |(halfEven (q * 100) : Rat) / 100|]

def PrintedIn (u : PyText) (q : Rat) (text : List Char) : Prop :=
  exists pre num post m, Complete u text pre num post ∧ Numeral num m ∧
    m ∈ magnitudes q

def Grounds (u : PyText) (value : PyFloat) (scale : Option String)
    (text : String) : Prop :=
  exists q, value = .finite q ∧ PrintedIn u (unscaled u q scale) text.toList

/-- What a pass of the gate should mean for the figures of the answer. -/
def Grounded (u : PyText) (ctx : GateContext) (answer : GateAnswer) : Prop :=
  EachFigure (fun id value scale text =>
    id ∈ ctx.retrievedChunkIds ∧ Grounds u value scale text) ctx answer

/-!
# Spellings
-/

theorem sign_no (q : Rat) {c : Char} (h : c ≠ '-') : c ∉ sign q := by
  unfold sign
  split <;> simp [h]

theorem ungrouped_sign (q : Rat) : ungrouped (sign q) = sign q := by
  unfold sign
  split <;> rfl

def shortFraction (q : Rat) : List Char :=
  (fractionDigits 2 q).rdropWhile fun c => c = '0'

theorem digits_shortFraction (q : Rat) : Digits (shortFraction q) :=
  digits_rdropWhile (digits_fractionDigits 2 q) _

theorem rstrip_fixedGrouped (q : Rat) :
    rstrip '.' (rstrip '0' (fixedGrouped 2 q)) =
      sign q ++ point (grouped (wholeDigits 2 q)) (shortFraction q) := by
  have hno : '.' ∉ sign q ++ grouped (wholeDigits 2 q) := by
    rw [List.mem_append, not_or]
    refine ⟨sign_no q (by decide), ?_⟩
    intro hmem
    rcases mem_grouped hmem with hcomma | hmem
    · exact absurd hcomma (by decide)
    · exact absurd (digits_wholeDigits 2 q '.' hmem) (by decide)
  have hbase : (sign q ++ grouped (wholeDigits 2 q)).rdropWhile (fun c => c = '.') =
      sign q ++ grouped (wholeDigits 2 q) := by
    rw [List.rdropWhile_eq_self_iff]
    intro hne hlast
    rw [decide_eq_true_eq] at hlast
    exact hno (hlast ▸ List.getLast_mem hne)
  have hfraction : fractionDigits 2 q ≠ [] := by
    apply List.ne_nil_of_length_pos
    rw [fractionDigits, length_lastDigits]
    exact Nat.two_pos
  have hprinted : fixedGrouped 2 q =
      (sign q ++ grouped (wholeDigits 2 q)) ++ '.' :: fractionDigits 2 q := by
    rw [fixedGrouped, point, if_neg hfraction, List.append_assoc]
  unfold rstrip shortFraction
  rw [hprinted, rdropWhile_point hbase (digits_fractionDigits 2 q)]
  unfold point
  split
  · rfl
  · rw [List.append_assoc]

theorem fixedGrouped_zero (q : Rat) :
    fixedGrouped 0 q = sign q ++ point (grouped (wholeDigits 0 q)) [] := rfl

theorem ungrouped_spelling (q : Rat) {ds fs : List Char} (hds : Digits ds)
    (hfs : Digits fs) :
    ungrouped (sign q ++ point (grouped ds) fs) = sign q ++ point ds fs := by
  rw [ungrouped_append, ungrouped_sign, ungrouped_point hds hfs]

/-- `num` prints the digits `ds` and the decimals `fs`, in groups or plain. -/
def Spells (ds fs num : List Char) : Prop :=
  num = point (grouped ds) fs ∨ num = point ds fs

theorem mem_variantsOf {q : Rat} {v : List Char} :
    v ∈ variantsOf q <->
      exists num, v = sign q ++ num ∧
        (Spells (wholeDigits 2 q) (shortFraction q) num ∨
          Spells (wholeDigits 0 q) [] num) := by
  unfold variantsOf Spells
  dsimp only
  rw [rstrip_fixedGrouped, fixedGrouped_zero,
    ungrouped_spelling q (digits_wholeDigits 2 q) (digits_shortFraction q),
    ungrouped_spelling q (digits_wholeDigits 0 q) digits_nil]
  simp only [List.mem_cons, List.not_mem_nil, or_false]
  constructor
  · intro hcases
    rcases hcases with rfl | rfl | rfl | rfl
    · exact ⟨_, rfl, .inl (.inl rfl)⟩
    · exact ⟨_, rfl, .inl (.inr rfl)⟩
    · exact ⟨_, rfl, .inr (.inl rfl)⟩
    · exact ⟨_, rfl, .inr (.inr rfl)⟩
  · intro hall
    rcases hall with ⟨num, rfl, (rfl | rfl) | (rfl | rfl)⟩
    · exact .inl rfl
    · exact .inr (.inl rfl)
    · exact .inr (.inr (.inl rfl))
    · exact .inr (.inr (.inr rfl))

theorem Spells.numeral {ds fs num : List Char} (h : Spells ds fs num)
    (hne : ds ≠ []) (hds : Digits ds) (hfs : Digits fs) :
    Numeral num (decimalValue ds fs) :=
  ⟨ds, fs, hne, hds, hfs, h.symm, rfl⟩

theorem filter_isDigit_ungrouped (v : List Char) :
    (ungrouped v).filter Char.isDigit = v.filter Char.isDigit := by
  unfold ungrouped
  rw [List.filter_filter]
  apply List.filter_congr
  intro c _
  by_cases hc : c = ','
  · subst hc
    rfl
  · simp [hc]

theorem digitCount_append (v v' : List Char) :
    digitCount (v ++ v') = digitCount v + digitCount v' := by
  unfold digitCount
  rw [List.filter_append, List.length_append]

theorem digitCount_of_digits {ds : List Char} (h : Digits ds) :
    digitCount ds = ds.length := by
  unfold digitCount
  rw [List.filter_eq_self.mpr h]

theorem digitCount_sign (q : Rat) : digitCount (sign q) = 0 := by
  unfold sign
  split <;> rfl

theorem digitCount_point {ds fs : List Char} (hds : Digits ds) (hfs : Digits fs) :
    digitCount (point ds fs) = ds.length + fs.length := by
  unfold point
  split
  next hnil => rw [hnil, digitCount_of_digits hds, List.length_nil, Nat.add_zero]
  next =>
    rw [digitCount_append, digitCount_of_digits hds]
    congr 1
    exact digitCount_of_digits hfs

theorem Spells.digitCount_eq {ds fs num : List Char} (h : Spells ds fs num)
    (hds : Digits ds) (hfs : Digits fs) : digitCount num = ds.length + fs.length := by
  rw [← digitCount_point hds hfs]
  rcases h with rfl | rfl
  · unfold digitCount
    rw [← filter_isDigit_ungrouped, ungrouped_point hds hfs]
  · rfl

theorem lt_digitCount_of_variant {q : Rat} {k : Nat} {v : List Char}
    (h : (10 : Rat) ^ k ≤ |q|) (hv : v ∈ variantsOf q) : k < digitCount v := by
  rcases mem_variantsOf.mp hv with ⟨num, rfl, hspells⟩
  rw [digitCount_append, digitCount_sign, Nat.zero_add]
  rcases hspells with hspells | hspells
  · rw [hspells.digitCount_eq (digits_wholeDigits 2 q) (digits_shortFraction q)]
    exact Nat.lt_add_right _ (lt_length_wholeDigits h)
  · rw [hspells.digitCount_eq (digits_wholeDigits 0 q) digits_nil]
    exact Nat.lt_add_right _ (lt_length_wholeDigits h)

theorem value_two (q : Rat) :
    decimalValue (wholeDigits 2 q) (shortFraction q) = |(halfEven (q * 100) : Rat) / 100| := by
  unfold shortFraction
  rw [decimalValue_rdropWhile, decimalValue_printed, abs_div,
    abs_of_pos (show (0 : Rat) < 100 by norm_num), show (10 : Rat) ^ 2 = 100 by norm_num]

theorem value_zero (q : Rat) : decimalValue (wholeDigits 0 q) [] = |(halfEven q : Rat)| := by
  have hprinted := decimalValue_printed 0 q
  rw [pow_zero, mul_one, div_one] at hprinted
  exact hprinted

theorem trimmed_two (q : Rat) : Trimmed (wholeDigits 2 q) (shortFraction q) :=
  trimmed_toDigits _ (digits_fractionDigits 2 q)

theorem trimmed_zero (q : Rat) : Trimmed (wholeDigits 0 q) [] :=
  trimmed_toDigits _ digits_nil

theorem numeral_of_variant {q : Rat} {num : List Char}
    (h : sign q ++ num ∈ variantsOf q) :
    exists m, Numeral num m ∧ m ∈ magnitudes q := by
  have htwo : decimalValue (wholeDigits 2 q) (shortFraction q) ∈ magnitudes q := by
    rw [value_two]
    exact List.mem_cons_of_mem _ (List.mem_cons_of_mem _ List.mem_cons_self)
  have hzero : decimalValue (wholeDigits 0 q) [] ∈ magnitudes q := by
    rw [value_zero]
    exact List.mem_cons_of_mem _ List.mem_cons_self
  rcases mem_variantsOf.mp h with ⟨num', hnum, hspells⟩
  rw [List.append_cancel_left hnum]
  rcases hspells with hspells | hspells
  · exact ⟨_, hspells.numeral (wholeDigits_ne_nil 2 q) (digits_wholeDigits 2 q)
      (digits_shortFraction q), htwo⟩
  · exact ⟨_, hspells.numeral (wholeDigits_ne_nil 0 q) (digits_wholeDigits 0 q)
      digits_nil, hzero⟩

theorem cents_of_abs {q : Rat} {ds fs : List Char} (hshort : fs.length ≤ 2)
    (hq : |q| = decimalValue ds fs) : (halfEven (q * 100) : Rat) / 100 = q := by
  have hcents : exists k : Int, |q| * 100 = k := by
    refine ⟨Nat.ofDigitChars 10 ds 0 * 100 +
      Nat.ofDigitChars 10 fs 0 * 10 ^ (2 - fs.length), ?_⟩
    have hpow : (10 : Rat) ^ fs.length * 10 ^ (2 - fs.length) = 100 := by
      rw [← pow_add, Nat.add_sub_cancel' hshort]
      norm_num
    have hne : (10 : Rat) ^ fs.length ≠ 0 := pow_ne_zero _ (by norm_num)
    rw [hq]
    unfold decimalValue
    push_cast
    rw [← hpow]
    field_simp
  rcases hcents with ⟨k, hk⟩
  rcases abs_choice q with habs | habs
  · rw [habs] at hk
    rw [hk, halfEven_intCast, ← hk]
    ring
  · rw [habs, neg_mul, neg_eq_iff_eq_neg, ← Int.cast_neg] at hk
    rw [hk, halfEven_intCast, ← hk]
    ring

/-- A numeral without superfluous zeros and with two decimals at most is a spelling of the
numbers that have its magnitude or are rounded to it. -/
theorem variant_of_numeral {q : Rat} {ds fs num : List Char} (h : Trimmed ds fs)
    (hshort : fs.length ≤ 2) (hspells : Spells ds fs num)
    (hvalue : decimalValue ds fs ∈ magnitudes q) : sign q ++ num ∈ variantsOf q := by
  rw [mem_variantsOf]
  refine ⟨num, rfl, ?_⟩
  have htwo (hcents : decimalValue ds fs = |(halfEven (q * 100) : Rat) / 100|) :
      Spells (wholeDigits 2 q) (shortFraction q) num := by
    rw [← value_two] at hcents
    rcases h.unique (trimmed_two q) hcents with ⟨rfl, rfl⟩
    exact hspells
  unfold magnitudes at hvalue
  simp only [List.mem_cons, List.not_mem_nil, or_false] at hvalue
  rcases hvalue with hself | hround | hcents
  · left
    apply htwo
    rw [cents_of_abs hshort hself.symm, hself]
  · right
    rw [← value_zero] at hround
    rcases h.unique (trimmed_zero q) hround with ⟨rfl, rfl⟩
    exact hspells
  · exact .inl (htwo hcents)

/-!
# What the search takes for a spelling
-/

theorem sign_rounded {q m : Rat} (hm : 0 < m) (h : halfEven (q * m) ≠ 0) :
    sign ((halfEven (q * m) : Rat) / m) = sign q := by
  unfold sign
  rcases lt_or_ge q 0 with hneg | hnonneg
  · have hround := halfEven_nonneg (neg_nonneg.mpr (mul_neg_of_neg_of_pos hneg hm).le)
    rw [halfEven_neg] at hround
    have hlt : ((halfEven (q * m) : Int) : Rat) < 0 := Int.cast_lt_zero.mpr (by omega)
    rw [if_pos hneg, if_pos (div_neg_of_neg_of_pos hlt hm)]
  · have hround := halfEven_nonneg (mul_nonneg hnonneg hm.le)
    rw [if_neg (not_lt.mpr hnonneg),
      if_neg (not_lt.mpr (div_nonneg (Int.cast_nonneg hround) hm.le))]

theorem digitCount_variant_zero {v : List Char} (hv : v ∈ variantsOf 0) :
    digitCount v < 2 := by
  have hall : forall v, v ∈ variantsOf 0 -> digitCount v < 2 := by decide +kernel
  exact hall v hv

/-- `num` spells the whole number that the figure comes to when it is rounded to two decimals
first, and rounded at once it comes to another. -/
def RoundedTwice (q : Rat) (num : List Char) : Prop :=
  Spells (wholeDigits 0 (halfEven (q * 100) / 100 : Rat)) [] num ∧
    wholeDigits 0 (halfEven (q * 100) / 100 : Rat) ≠ wholeDigits 0 q

theorem spelling_of_searched {q : Rat} {v : List Char} (hv : v ∈ searched q)
    (hlong : 2 ≤ digitCount v) :
    exists num, v = sign q ++ num ∧ (v ∈ variantsOf q ∨ RoundedTwice q num) := by
  unfold searched at hv
  rcases List.mem_flatMap.mp hv with ⟨r, hr, hvr⟩
  have hne : r ≠ 0 := by
    rintro rfl
    exact absurd hlong (Nat.not_le.mpr (digitCount_variant_zero hvr))
  rcases mem_variantsOf.mp hvr with ⟨num, rfl, hspells⟩
  simp only [List.mem_cons, List.not_mem_nil, or_false] at hr
  rcases hr with rfl | rfl | rfl
  · exact ⟨num, rfl, .inl hvr⟩
  · -- rounded to a whole number, and that is not rounded any more
    have hsign := sign_rounded (q := q) (m := 1) one_pos (by simpa using hne)
    rw [mul_one, div_one] at hsign
    have htwo := value_two (halfEven q : Rat)
    rw [show (halfEven q : Rat) * 100 = ((halfEven q * 100 : Int) : Rat) by push_cast; ring,
      halfEven_intCast, Int.cast_mul, Int.cast_ofNat, mul_div_cancel_right₀ _ (by norm_num),
      ← value_zero] at htwo
    have hzero := value_zero (halfEven q : Rat)
    rw [halfEven_intCast, ← value_zero] at hzero
    have hwhole : Spells (wholeDigits 0 q) [] num := by
      rw [((trimmed_two _).unique (trimmed_zero q) htwo).1,
        ((trimmed_two _).unique (trimmed_zero q) htwo).2,
        ((trimmed_zero _).unique (trimmed_zero q) hzero).1, or_self] at hspells
      exact hspells
    refine ⟨num, by rw [hsign], .inl ?_⟩
    rw [hsign]
    exact mem_variantsOf.mpr ⟨num, rfl, .inr hwhole⟩
  · have hnonzero : halfEven (q * 100) ≠ 0 := by
      intro hzero
      rw [hzero, Int.cast_zero, zero_div] at hne
      exact hne rfl
    have hsign := sign_rounded (q := q) (m := 100) (by norm_num) hnonzero
    refine ⟨num, by rw [hsign], ?_⟩
    rcases hspells with hspells | hspells
    · left
      have htwo := value_two (halfEven (q * 100) / 100 : Rat)
      rw [div_mul_cancel₀ _ (by norm_num), halfEven_intCast, ← value_two] at htwo
      rw [((trimmed_two _).unique (trimmed_two q) htwo).1,
        ((trimmed_two _).unique (trimmed_two q) htwo).2] at hspells
      rw [hsign]
      exact mem_variantsOf.mpr ⟨num, rfl, .inl hspells⟩
    · by_cases htwice : wholeDigits 0 (halfEven (q * 100) / 100 : Rat) = wholeDigits 0 q
      · left
        rw [htwice] at hspells
        rw [hsign]
        exact mem_variantsOf.mpr ⟨num, rfl, .inr hspells⟩
      · exact .inr ⟨hspells, htwice⟩

/-- A number that is rounded to two decimals and is whole then is also rounded to that one
at once. -/
theorem halfEven_of_cents {q : Rat} {k : Int} (h : (halfEven (q * 100) : Rat) / 100 = k) :
    halfEven q = k := by
  have hcents : halfEven (q * 100) = 100 * k := by
    rw [div_eq_iff (by norm_num)] at h
    have hcast : (halfEven (q * 100) : Rat) = ((100 * k : Int) : Rat) := by
      rw [h]
      push_cast
      ring
    exact_mod_cast hcast
  apply halfEven_eq
  · by_contra hle
    have hbound : q * 100 ≤ ((100 * k - 50 : Int) : Rat) := by
      push_cast
      linarith
    have hround := halfEven_le hbound
    omega
  · by_contra hle
    have hbound : ((100 * k + 50 : Int) : Rat) ≤ q * 100 := by
      push_cast
      linarith
    have hround := le_halfEven hbound
    omega

theorem Spells.value_eq {ds ds' fs fs' num : List Char} (h : Spells ds fs num)
    (h' : Spells ds' fs' num) (hds : Trimmed ds fs) (hds' : Trimmed ds' fs') :
    decimalValue ds fs = decimalValue ds' fs' :=
  (h.numeral hds.nonempty hds.whole hds.decimals).value_eq.trans
    (h'.numeral hds'.nonempty hds'.whole hds'.decimals).value_eq.symm

theorem RoundedTwice.not_variant {q : Rat} {num : List Char} (h : RoundedTwice q num) :
    sign q ++ num ∉ variantsOf q := by
  intro hv
  rcases h with ⟨htwice, hother⟩
  apply hother
  rcases mem_variantsOf.mp hv with ⟨num', hsame, hspells⟩
  rw [← List.append_cancel_left hsame] at hspells
  rcases hspells with hspells | hspells
  · -- the figure is whole after the first rounding, so the second changes nothing
    have hvalue := htwice.value_eq hspells (trimmed_zero _) (trimmed_two q)
    rw [value_zero, value_two] at hvalue
    have hwhole : exists k : Int, (halfEven (q * 100) : Rat) / 100 = k := by
      rcases abs_eq_abs.mp hvalue with hsame | hneg
      · exact ⟨_, hsame.symm⟩
      · exact ⟨-halfEven (halfEven (q * 100) / 100 : Rat), by rw [Int.cast_neg, hneg, neg_neg]⟩
    rcases hwhole with ⟨k, hk⟩
    have hzero := value_zero (halfEven (q * 100) / 100 : Rat)
    rw [hk, halfEven_intCast, ← halfEven_of_cents hk, ← value_zero,
      halfEven_of_cents hk] at hzero
    rw [hk]
    exact ((trimmed_zero _).unique (trimmed_zero q) hzero).1
  · exact ((trimmed_zero _).unique (trimmed_zero q)
      (htwice.value_eq hspells (trimmed_zero _) (trimmed_zero q))).1

/-- The search also spells a number that was rounded twice. -/
example : "14".toList ∈ searched (13496 / 1000) ∧
    "14".toList ∉ variantsOf (13496 / 1000) := by
  decide +kernel

/-!
# What the gate guarantees
-/

structure MatchedAt (u : PyText) (q : Rat) (text pre num post : List Char) : Prop where
  spelling : sign q ++ num ∈ searched q
  long : 2 ≤ digitCount num
  bounded : Bounded u (sign q ++ num) text pre post

def Matched (u : PyText) (value : PyFloat) (scale : Option String) (text : String) : Prop :=
  exists q, value = .finite q ∧
    exists pre num post, MatchedAt u (unscaled u q scale) text.toList pre num post

/-- A comma or a point beside `num` joins it to further digits. -/
def Fragment (u : PyText) (q : Rat) (pre num post : List Char) : Prop :=
  joinedLeft u (pre ++ sign q) (num ++ post) = true ∨ joinedRight u num post = true

def Signed (u : PyText) (q : Rat) (pre : List Char) : Prop :=
  exists front, pre = front ++ sign q ∧
    forall c, front.getLast? = some c -> u.decimal c = false

/-- The forms of a numeral that the search never looks for: a superfluous zero, more than two
decimals, a single digit, and a negative figure without its minus. -/
inductive NeverSpelled (u : PyText) (q : Rat) (pre ds fs : List Char) : Prop where
  | leadingZero (hzero : ds.head? = some '0') (hlong : 1 < ds.length)
  | trailingZero (hzero : fs.getLast? = some '0')
  | thirdDecimal (hlong : 2 < fs.length)
  | oneDigit (hshort : ds.length + fs.length < 2)
  | unsigned (hneg : q < 0) (hminus : ¬ Signed u q pre)

def PrintedOtherwise (u : PyText) (q : Rat) (text : List Char) : Prop :=
  exists pre num post ds fs, Complete u text pre num post ∧ ds ≠ [] ∧ Digits ds ∧
    Digits fs ∧ Spells ds fs num ∧ decimalValue ds fs ∈ magnitudes q ∧
      NeverSpelled u q pre ds fs

/-- Wherever the search ends, a comma or a point joins the match to a longer number or the
figure is rounded twice; and the text has it in none of the forms that are not looked for. -/
structure Misread (u : PyText) (q : Rat) (text : List Char) : Prop where
  bad : forall pre num post, MatchedAt u q text pre num post ->
    Fragment u q pre num post ∨ RoundedTwice q num
  nowhereElse : ¬ PrintedOtherwise u q text

def ReadRight (u : PyText) (value : PyFloat) (scale : Option String)
    (text : String) : Prop :=
  exists q, value = .finite q ∧ ¬ Misread u (unscaled u q scale) text.toList

variable {u : PyText} {rerank : Reranker} {answer : GateAnswer}
  {ctx : GateContext} {q : Rat} {text pre num post : List Char}

theorem findable_iff_matched {value : PyFloat} {scale : Option String} {text : String} :
    Findable u value scale text <-> Matched u value scale text := by
  constructor
  · intro hall
    rcases hall with ⟨q, rfl, v, hv, hlong, pre, post, hbounded⟩
    rcases spelling_of_searched hv hlong with ⟨num, rfl, _⟩
    rw [digitCount_append, digitCount_sign, Nat.zero_add] at hlong
    exact ⟨q, rfl, pre, num, post, hv, hlong, hbounded⟩
  · intro hall
    rcases hall with ⟨q, rfl, pre, num, post, hv, hlong, hbounded⟩
    refine ⟨q, rfl, _, hv, ?_, pre, post, hbounded⟩
    rw [digitCount_append, digitCount_sign, Nat.zero_add]
    exact hlong

theorem decimal_of_joinedRight (h : joinedRight u num post = false) {c : Char}
    (hc : post.head? = some c) : u.decimal c = false := by
  cases post with
  | nil => cases hc
  | cons d after =>
      cases hc
      exact (Bool.or_eq_false_iff.mp h).1

theorem decimal_of_joinedLeft {rest : List Char} (h : joinedLeft u pre rest = false)
    {c : Char} (hc : pre.getLast? = some c) : u.decimal c = false := by
  unfold joinedLeft at h
  rw [← List.head?_reverse] at hc
  cases hpre : pre.reverse with
  | nil =>
      rw [hpre] at hc
      cases hc
  | cons d before =>
      rw [hpre] at hc h
      cases hc
      exact (Bool.or_eq_false_iff.mp h).1

theorem Complete.signed (h : Complete u text pre num post) (hq : 0 ≤ q) : Signed u q pre := by
  refine ⟨pre, ?_, ?_⟩
  · unfold sign
    rw [if_neg (not_lt.mpr hq), List.append_nil]
  · intro c hc
    exact decimal_of_joinedLeft h.left hc

theorem matchedAt_of_complete {ds fs : List Char} (h : Complete u text pre num post)
    (hne : ds ≠ []) (hds : Digits ds) (hfs : Digits fs) (hspells : Spells ds fs num)
    (hm : decimalValue ds fs ∈ magnitudes q) (hnever : ¬ NeverSpelled u q pre ds fs) :
    exists front, MatchedAt u q text front num post ∧ ¬ Fragment u q front num post ∧
      ¬ RoundedTwice q num := by
  have htrimmed : Trimmed ds fs := by
    refine ⟨hne, hds, hfs, ?_, fun hzero => hnever (.trailingZero hzero)⟩
    intro hzero
    exact Nat.not_lt.mp fun hlong => hnever (.leadingZero hzero hlong)
  have hshort := Nat.not_lt.mp fun hlong => hnever (.thirdDecimal hlong)
  have hcount := Nat.not_lt.mp fun hone => hnever (.oneDigit hone)
  have hsigned : Signed u q pre := by
    rcases lt_or_ge q 0 with hneg | hpos
    · exact Classical.not_not.mp fun hminus => hnever (.unsigned hneg hminus)
    · exact h.signed hpos
  rcases hsigned with ⟨front, rfl, hfront⟩
  have hvariant := variant_of_numeral htrimmed hshort hspells hm
  refine ⟨front, ⟨?_, ?_, ?_, hfront, ?_⟩, ?_, ?_⟩
  · exact List.mem_flatMap.mpr ⟨q, List.mem_cons_self, hvariant⟩
  · rw [Spells.digitCount_eq hspells hds hfs]
    exact hcount
  · rw [h.split, List.append_assoc, List.append_assoc]
  · intro c hc
    exact decimal_of_joinedRight h.right hc
  · intro hfragment
    rcases hfragment with hleft | hright
    · rw [h.left] at hleft
      cases hleft
    · rw [h.right] at hright
      cases hright
  · exact fun htwice => htwice.not_variant hvariant

theorem printedIn_of_matchedAt (h : MatchedAt u q text pre num post)
    (hwhole : ¬ Fragment u q pre num post) (honce : ¬ RoundedTwice q num) :
    PrintedIn u q text := by
  have hlong : 2 ≤ digitCount (sign q ++ num) := by
    rw [digitCount_append, digitCount_sign, Nat.zero_add]
    exact h.long
  rcases spelling_of_searched h.spelling hlong with ⟨num', hsame, hspelling⟩
  rw [← List.append_cancel_left hsame] at hspelling
  rcases numeral_of_variant (hspelling.resolve_right honce) with ⟨m, hnum, hm⟩
  refine ⟨pre ++ sign q, num, post, m, ⟨?_, ?_, ?_⟩, hnum, hm⟩
  · rw [h.bounded.split, List.append_assoc, List.append_assoc]
  · rw [← Bool.not_eq_true]
    exact fun hleft => hwhole (.inl hleft)
  · rw [← Bool.not_eq_true]
    exact fun hright => hwhole (.inr hright)

/-- The text prints the magnitude of a figure unless the search misreads it. -/
theorem printedIn_iff : PrintedIn u q text <-> ¬ Misread u q text := by
  constructor
  · intro hall hmisread
    rcases hall with ⟨pre, num, post, m, hcomplete, ⟨ds, fs, hne, hds, hfs, hnum, rfl⟩, hm⟩
    by_cases hnever : NeverSpelled u q pre ds fs
    · exact hmisread.nowhereElse
        ⟨pre, num, post, ds, fs, hcomplete, hne, hds, hfs, hnum.symm, hm, hnever⟩
    · rcases matchedAt_of_complete hcomplete hne hds hfs hnum.symm hm hnever with
        ⟨front, hmatched, hwhole, honce⟩
      rcases hmisread.bad front num post hmatched with hfragment | htwice
      · exact hwhole hfragment
      · exact honce htwice
  · intro hright
    by_contra hno
    apply hright
    constructor
    · intro pre num post hmatched
      by_contra hgood
      rw [not_or] at hgood
      exact hno (printedIn_of_matchedAt hmatched hgood.1 hgood.2)
    · intro hall
      rcases hall with ⟨pre, num, post, ds, fs, hcomplete, hne, hds, hfs, hspells, hm, _⟩
      exact hno ⟨pre, num, post, _, hcomplete, hspells.numeral hne hds hfs, hm⟩

theorem grounds_iff {value : PyFloat} {scale : Option String} {text : String} :
    Grounds u value scale text <-> ReadRight u value scale text := by
  unfold Grounds ReadRight
  simp only [printedIn_iff]

/-- A pass of the gate means grounded figures exactly when, among the answers that its checks
accept, no figure is misread: matched only where a comma or a point joins the match to a longer
number or where it is rounded twice, and printed in no other form. -/
theorem applyGate_grounded_iff (u : PyText) (rerank : Reranker)
    (answer : GateAnswer) (ctx : GateContext) (l3bThreshold : PyFloat)
    (l1Margin : Option (PyFloat × Option PyFloat)) (l1Threshold : PyFloat) :
    (Passes (applyGate u rerank answer ctx liveGateLayers l3bThreshold l1Margin
        l1Threshold) -> Grounded u ctx answer) <->
      ((checkL2 answer ctx).passed = true ->
        (checkL3bProse u rerank answer ctx l3bThreshold).passed = true ->
          EachFigure (fun _ => Matched u) ctx answer ->
            EachFigure (fun _ => ReadRight u) ctx answer) := by
  have hmatched : Findable u = Matched u := by
    funext value scale text
    exact propext findable_iff_matched
  rw [passes_applyGate, passes_checkL3aNumeric, hmatched]
  constructor
  · intro hsound hl2 hl3b hfound
    have hgrounded := hsound ⟨hl2, hfound, hl3b⟩
    apply EachFigure.mono hgrounded
    intro _ value scale text _ hall
    rcases hall with ⟨_, hgrounds⟩
    exact grounds_iff.mp hgrounds
  · intro hread hall
    rcases hall with ⟨hl2, hfound, hl3b⟩
    apply EachFigure.mono (hread hl2 hl3b hfound)
    intro id value scale text hid hright
    exact ⟨(checkL2_passed.mp hl2).2 id hid, grounds_iff.mpr hright⟩

/-!
# A piece of a number

The value 577 is found in the text "$1,577".
-/

def printsAt (u : PyText) (q : Rat) (text : List Char) (i j : Nat) : Bool :=
  let num := (text.drop i).take j
  let post := (text.drop i).drop j
  !joinedLeft u (text.take i) (num ++ post) && !joinedRight u num post &&
    decide (readNumeral num ∈ magnitudes q)

theorem printsAt_of_printedIn {q : Rat} {text : List Char}
    (h : PrintedIn u q text) :
    exists i j, i ≤ text.length ∧ j ≤ text.length ∧
      printsAt u q text i j = true := by
  rcases h with ⟨pre, num, post, m, ⟨rfl, hleft, hright⟩, hnum, hm⟩
  refine ⟨pre.length, num.length, ?_, ?_, ?_⟩
  · simp
  · simp only [List.length_append]
    omega
  · unfold printsAt
    simp only [List.drop_left, List.take_left, hleft, hright]
    rw [hnum.value_eq] at hm
    simpa using hm

def pieceAnswer : GateAnswer where
  sufficient := true
  value := some (.finite 577)
  unit := some "USD"
  scale := none
  operands := []
  answerText := none
  citations := [⟨7, "$1,577"⟩]

def pieceContext : GateContext where
  retrievedChunkIds := [7]
  chunkTextById := fun id => if id = 7 then some "$1,577" else none
  chunkScaleById := fun _ => none

theorem passes_piece :
    Passes (applyGate .ascii (fun _ _ => []) pieceAnswer pieceContext
      liveGateLayers (.finite 0) none (.finite 0)) :=
  ⟨.pass, by decide +kernel, rfl⟩

theorem not_printedIn_piece : ¬ PrintedIn .ascii 577 "$1,577".toList := by
  intro hprinted
  rcases printsAt_of_printedIn hprinted with ⟨i, j, hi, hj, hprints⟩
  have hnone : forall i, i ≤ 6 -> forall j, j ≤ 6 ->
      printsAt .ascii 577 "$1,577".toList i j = false := by
    decide +kernel
  have hlength : "$1,577".toList.length = 6 := by decide +kernel
  rw [hlength] at hi hj
  rw [hnone i hi j hj] at hprints
  cases hprints

theorem exists_applyGate_ungrounded :
    ¬ forall (u : PyText) (rerank : Reranker) (answer : GateAnswer)
        (ctx : GateContext) (l3bThreshold : PyFloat)
        (l1Margin : Option (PyFloat × Option PyFloat)) (l1Threshold : PyFloat),
      Passes (applyGate u rerank answer ctx liveGateLayers l3bThreshold l1Margin
        l1Threshold) -> Grounded u ctx answer := by
  intro hsound
  have hgrounded := hsound .ascii (fun _ _ => []) pieceAnswer pieceContext
    (.finite 0) none (.finite 0) passes_piece
  rcases hgrounded.value rfl (.finite 577) rfl with
    ⟨c, hc, text, htext, _, q, hq, hprinted⟩
  rw [List.mem_singleton.mp hc] at htext hprinted
  cases hq
  cases htext
  have hscale : unscaled .ascii 577 (orElse none none) = 577 := by decide +kernel
  exact not_printedIn_piece (hscale ▸ hprinted)

end ChatDoc
