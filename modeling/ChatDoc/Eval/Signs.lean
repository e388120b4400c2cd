import ChatDoc.Eval.ScalePhrase

/-!
# Negative answers

The ways to write a negative amount, and which of them the normalizer reads as
one.
-/

namespace ChatDoc

open Foundation

/-!
# Floats
-/

namespace PyFloat

theorem neg_finite_zero : neg (.finite 0) = .finite 0 := by
  rw [neg, neg_zero]

theorem ofMagnitude_zero : ofMagnitude 0 = .finite 0 := by
  rw [ofMagnitude, nearest_zero]

theorem round_neg (q : Rat) : round (-q) = neg (round q) := by
  have hneg (x : PyFloat) : neg (neg x) = x := by
    cases x <;> simp [neg]
  rcases lt_trichotomy q 0 with hlt | rfl | hgt
  · rw [round, round, if_pos hlt, if_neg (by linarith), hneg]
  · rw [neg_zero, round, if_neg (by norm_num), ofMagnitude_zero, neg_finite_zero]
  · rw [round, round, if_pos (by linarith), if_neg (by linarith), neg_neg]

theorem mulBy_neg (m : Rat) (x : PyFloat) : mulBy m x.neg = (mulBy m x).neg := by
  cases x with
  | finite q =>
      rw [neg, mulBy, mulBy, neg_mul]
      exact round_neg (q * m)
  | inf negative => rfl
  | nan => rfl

theorem eq_zero_of_neg_eq {x : PyFloat} (hnan : x ≠ .nan) (h : x.neg = x) :
    x = .finite 0 := by
  cases x with
  | finite q =>
      have heq : -q = q := PyFloat.finite.inj h
      have hzero : q = 0 := by linarith
      rw [hzero]
  | inf negative => cases negative <;> cases h
  | nan => exact absurd rfl hnan

theorem ofMagnitude_ne_nan (q : Rat) : ofMagnitude q ≠ .nan := by
  rw [ofMagnitude]
  cases nearest q <;> intro h <;> cases h

theorem mulBy_ofMagnitude {q m : Rat} (hq : 0 ≤ q) (hm : 1 ≤ m) :
    mulBy m (ofMagnitude q) ≠ .nan ∧
      (mulBy m (ofMagnitude q) = .finite 0 <-> ofMagnitude q = .finite 0) := by
  rw [ofMagnitude]
  cases hr : nearest q with
  | none =>
      constructor
      · intro h
        cases h
      · constructor <;> intro h <;> cases h
  | some r =>
      dsimp only
      by_cases hzero : r = 0
      · rw [hzero, mulBy, zero_mul, round, if_neg (by norm_num), ofMagnitude_zero]
        constructor
        · intro h
          cases h
        · rfl
      · have hsmall := smallest_le_of_nearest hq hr hzero
        have hpos : (0 : Rat) < r := lt_of_lt_of_le (by positivity) hsmall
        have hgrown : (2 : Rat) ^ (-1074 : Int) ≤ r * m :=
          hsmall.trans (le_mul_of_one_le_right hpos.le hm)
        have hsign : ¬ r * m < 0 := not_lt.mpr (mul_nonneg hpos.le (by linarith))
        rw [mulBy, round, if_neg hsign, ofMagnitude]
        cases hrounded : nearest (r * m) with
        | none =>
            constructor
            · intro h
              cases h
            · constructor
              · intro h
                cases h
              · intro h
                exact absurd (PyFloat.finite.inj h) hzero
        | some r' =>
            dsimp only
            constructor
            · intro h
              cases h
            · constructor
              · intro h
                rw [PyFloat.finite.inj h] at hrounded
                exact absurd hrounded (nearest_ne_zero hgrown)
              · intro h
                exact absurd (PyFloat.finite.inj h) hzero

end PyFloat

/-!
# Spellings
-/

/-- What may follow the number: nothing, a percent sign, or a scale word. -/
def suffixes : List (List Char) :=
  [] :: ['%'] :: scaleWords.map fun entry => ' ' :: entry.1.toList

/-- `-d w`, `-$d w`, `$-d w`, `(d) w`, `$(d) w`, `($d) w` and `(d w)`. -/
inductive Spelling where
  | minus
  | minusDollar
  | dollarMinus
  | parens
  | dollarParens
  | parensDollar
  | parensSuffix
deriving DecidableEq

namespace Spelling

def spell (text w : List Char) : Spelling -> List Char
  | minus => '-' :: (text ++ w)
  | minusDollar => '-' :: '$' :: (text ++ w)
  | dollarMinus => '$' :: '-' :: (text ++ w)
  | parens => '(' :: (text ++ ')' :: w)
  | dollarParens => '$' :: '(' :: (text ++ ')' :: w)
  | parensDollar => '(' :: '$' :: (text ++ ')' :: w)
  | parensSuffix => '(' :: (text ++ (w ++ [')']))

/-- A minus right before the digits, or parentheses right around them. -/
def SignBeside (w : List Char) : Spelling -> Prop
  | minus => True
  | minusDollar => False
  | dollarMinus => True
  | parens => True
  | dollarParens => True
  | parensDollar => False
  | parensSuffix => w = []

end Spelling

section Signs

variable {u : PyUnicode}

/-- The negative spelling is read, with the same flag and the negated value. -/
def SignKept (u : PyUnicode) (text w : List Char) (s : Spelling) : Prop :=
  exists value isPercent,
    normalizeNumericAnswer u (text ++ w) = some { value := value, isPercent := isPercent } ∧
      normalizeNumericAnswer u (s.spell text w) =
        some { value := value.neg, isPercent := isPercent }

theorem suffix_cases {w : List Char} (hw : w ∈ suffixes) :
    w = [] ∨ w = ['%'] ∨
      exists entry, entry ∈ scaleWords ∧ w = ' ' :: entry.1.toList := by
  rw [suffixes, List.mem_cons, List.mem_cons] at hw
  rcases hw with hnil | hpercent | hmap
  · exact .inl hnil
  · exact .inr (.inl hpercent)
  · rcases List.mem_map.mp hmap with ⟨entry, hentry, heq⟩
    exact .inr (.inr ⟨entry, hentry, heq.symm⟩)

structure Small (c : Char) : Prop where
  ascii : c.toNat < 128
  digit : c.isDigit = false
  upper : c.isUpper = false

theorem small_of_isLower {c : Char} (h : c.isLower = true) : Small c := by
  have hbounds := PyUnicode.isLower_iff.mp h
  constructor
  · omega
  · rw [Bool.eq_false_iff]
    intro hdigit
    have hcode := PyUnicode.isDigit_iff.mp hdigit
    omega
  · rw [Bool.eq_false_iff]
    intro hupper
    have hcode := PyUnicode.isUpper_iff.mp hupper
    omega

theorem asciiSpace_of_isLower {c : Char} (h : c.isLower = true) : asciiSpace c = false := by
  have hbounds := PyUnicode.isLower_iff.mp h
  rw [Bool.eq_false_iff]
  intro hspace
  have hcode := PyUnicode.asciiSpace_iff.mp hspace
  omega

theorem suffix_small {w : List Char} (hw : w ∈ suffixes) {c : Char} (hc : c ∈ w) :
    Small c := by
  rcases suffix_cases hw with rfl | rfl | ⟨entry, hentry, rfl⟩
  · cases hc
  · rw [List.mem_singleton.mp hc]
    exact ⟨by decide, by decide, by decide⟩
  · rcases List.mem_cons.mp hc with rfl | hword
    · exact ⟨by decide, by decide, by decide⟩
    · exact small_of_isLower ((scaleWords_lower hentry).right c hword)

theorem suffix_head {w : List Char} (hw : w ∈ suffixes) (c : Char)
    (hc : w.head? = some c) : c ≠ ',' ∧ c ≠ '.' ∧ c ≠ ')' := by
  rcases suffix_cases hw with rfl | rfl | ⟨entry, _, rfl⟩
  · cases hc
  · rw [← Option.some.inj hc]
    decide
  · rw [← Option.some.inj hc]
    decide

theorem suffix_decimal {w : List Char} (hw : w ∈ suffixes) {c : Char} (hc : c ∈ w) :
    u.decimal c = false := by
  have hsmall := suffix_small hw hc
  exact decimal_eq ⟨hsmall.ascii, hsmall.digit⟩

/-- How the expression sees a spelling: characters it passes over, the sign and
the closing parenthesis that it takes, and the text after them. -/
structure Seen where
  front : List Char
  sign : List Char
  close : List Char
  after : List Char

namespace Seen

def text (seen : Seen) (numeral : List Char) : List Char :=
  seen.front ++ (seen.sign ++ (numeral ++ (seen.close ++ seen.after)))

end Seen

def Spelling.seen (w : List Char) : Spelling -> Seen
  | .minus => ⟨[], ['-'], [], w⟩
  | .minusDollar => ⟨['-', '$'], [], [], w⟩
  | .dollarMinus => ⟨['$'], ['-'], [], w⟩
  | .parens => ⟨[], ['('], [')'], w⟩
  | .dollarParens => ⟨['$'], ['('], [')'], w⟩
  | .parensDollar => ⟨['(', '$'], [], [')'], w⟩
  | .parensSuffix => if w = [] then ⟨[], ['('], [')'], []⟩ else ⟨[], ['('], [], w ++ [')']⟩

theorem Spelling.text_seen (s : Spelling) (numeral w : List Char) :
    (s.seen w).text numeral = s.spell numeral w := by
  cases s with
  | parensSuffix =>
      by_cases hw : w = []
      · subst hw
        rfl
      · rw [Spelling.seen, if_neg hw]
        rfl
  | parens => simp [Spelling.seen, Seen.text, Spelling.spell]
  | dollarParens => simp [Spelling.seen, Seen.text, Spelling.spell]
  | parensDollar => simp [Spelling.seen, Seen.text, Spelling.spell]
  | _ => rfl

structure Seen.Sound (u : PyUnicode) (seen : Seen) : Prop where
  sign_mem : seen.sign ∈ [[], ['-'], ['(']]
  close_mem : seen.close ∈ [[], [')']]
  ending : NumeralEnding u seen.close seen.after
  blocked : forall pre post, seen.front = pre ++ post -> post ≠ [] ->
    forall rest, Blocked u (post ++ (seen.sign ++ rest))
  space : forall c, c ∈ seen.front ++ (seen.sign ++ seen.close) -> u.space c = false
  space_last : forall c, seen.after.getLast? = some c -> u.space c = false

theorem strip_eq_self {l : List Char} (hhead : forall c, l.head? = some c -> u.space c = false)
    (hlast : forall c, l.getLast? = some c -> u.space c = false) : u.strip l = l := by
  have hdrop : l.dropWhile u.space = l :=
    @dropWhile_append_eq u.space [] l (fun _ h => absurd h List.not_mem_nil) hhead
  have hrdrop := @rdropWhile_append_eq u.space l [] (fun _ h => absurd h List.not_mem_nil) hlast
  rw [List.append_nil] at hrdrop
  rw [PyText.strip, hdrop, hrdrop]

variable (d : UnsignedNumeral u)

theorem Seen.text_eq (seen : Seen) (numeral : List Char) :
    seen.text numeral =
      seen.front ++ (seen.sign ++ (numeral ++ seen.close)) ++ seen.after := by
  simp [Seen.text]

theorem Seen.text_ne_nil (seen : Seen) : seen.text d.text ≠ [] := by
  intro hnil
  rw [Seen.text, List.append_eq_nil_iff, List.append_eq_nil_iff, List.append_eq_nil_iff]
    at hnil
  exact d.text_ne_nil hnil.right.right.left

theorem Seen.strip_text {seen : Seen} (h : seen.Sound u) :
    u.strip (seen.text d.text) = seen.text d.text := by
  have hspace : forall c,
      c ∈ seen.front ++ (seen.sign ++ (d.text ++ seen.close)) -> u.space c = false := by
    intro c hc
    have hsymbols := h.space c
    rw [List.mem_append, List.mem_append] at hsymbols
    rw [List.mem_append, List.mem_append, List.mem_append] at hc
    rcases hc with hfront | hsign | hnumeral | hclose
    · exact hsymbols (.inl hfront)
    · exact hsymbols (.inr (.inl hsign))
    · exact d.space_text hnumeral
    · exact hsymbols (.inr (.inr hclose))
  have hne : seen.front ++ (seen.sign ++ (d.text ++ seen.close)) ≠ [] := by
    intro hnil
    rw [List.append_eq_nil_iff, List.append_eq_nil_iff, List.append_eq_nil_iff] at hnil
    exact d.text_ne_nil hnil.right.right.left
  rw [seen.text_eq]
  apply strip_eq_self
  · intro c hc
    rw [List.head?_append_of_ne_nil _ hne] at hc
    exact hspace c (List.mem_of_head? hc)
  · intro c hc
    by_cases hafter : seen.after = []
    · rw [hafter, List.append_nil] at hc
      exact hspace c (List.mem_of_getLast? hc)
    · rw [List.getLast?_append_of_ne_nil _ hafter] at hc
      exact h.space_last c hc

/-- What is seen is read as the numeral with its sign. -/
theorem Seen.normalize {seen : Seen} (h : seen.Sound u) :
    normalizeNumericAnswer u (seen.text d.text) =
      some { value :=
               if (seen.text d.text).contains '%' then
                 signedFloat seen.sign seen.close d.float
               else
                 (signedFloat seen.sign seen.close d.float).mulBy
                   (scaleIn u (u.lower (seen.text d.text)))
             isPercent := (seen.text d.text).contains '%' } := by
  have hfind : (numberRe u).findall (seen.text d.text) =
      [seen.sign ++ (d.text ++ seen.close)] := by
    apply findall_signed d h.sign_mem h.ending
    intro pre post hsplit hpost
    exact h.blocked pre post hsplit hpost _
  exact normalize_of_findall d (seen.text_ne_nil d) (seen.strip_text d h) h.sign_mem
    h.close_mem hfind

def plainSeen (w : List Char) : Seen := ⟨[], [], [], w⟩

theorem suffix_open {w : List Char} (hw : w ∈ suffixes) : NumeralEnding u [] w :=
  ending_open (suffix_head hw) fun _ hc => suffix_decimal hw hc

theorem suffix_closed {w : List Char} (hw : w ∈ suffixes) : NumeralEnding u [')'] w :=
  ending_closed fun _ hc => suffix_decimal hw hc

theorem suffix_space_last {w : List Char} (hw : w ∈ suffixes) (c : Char)
    (hc : w.getLast? = some c) : u.space c = false := by
  rcases suffix_cases hw with rfl | rfl | ⟨entry, hentry, rfl⟩
  · cases hc
  · rw [← Option.some.inj hc]
    exact space_eq (by decide)
  · rcases scaleWords_lower hentry with ⟨hne, hlower⟩
    have hin : c ∈ entry.1.toList := by
      apply List.mem_of_getLast?
      rw [← hc, ← List.singleton_append, List.getLast?_append_of_ne_nil _ hne]
    exact space_eq ⟨(small_of_isLower (hlower c hin)).ascii,
      asciiSpace_of_isLower (hlower c hin)⟩

def isSymbol (c : Char) : Bool := c == '-' || c == '$' || c == '(' || c == ')'

theorem mem_of_isSymbol {c : Char} (h : isSymbol c = true) : c ∈ ['-', '$', '(', ')'] := by
  simpa [isSymbol, or_assoc] using h

structure SymbolFacts (c : Char) : Prop extends Small c where
  space : asciiSpace c = false
  alpha : c.isAlpha = false
  percent : c ≠ '%'

theorem symbolFacts {c : Char} (h : isSymbol c = true) : SymbolFacts c := by
  have hall : ['-', '$', '(', ')'].all (fun c =>
      decide ((c.toNat < 128 ∧ c.isDigit = false ∧ c.isUpper = false) ∧
        asciiSpace c = false ∧ c.isAlpha = false ∧ c ≠ '%')) = true := by
    decide
  rcases of_decide_eq_true (List.all_eq_true.mp hall c (mem_of_isSymbol h)) with
    ⟨⟨hascii, hdigit, hupper⟩, hspace, halpha, hpercent⟩
  exact ⟨⟨hascii, hdigit, hupper⟩, hspace, halpha, hpercent⟩

def Symbols (l : List Char) : Prop := forall c, c ∈ l -> isSymbol c = true

theorem symbols_of_all {l : List Char} (h : l.all isSymbol = true) : Symbols l :=
  List.all_eq_true.mp h

theorem sound_of_symbols {front sign close after : List Char}
    (hshape : front ∈ [[], ['$'], ['-', '$'], ['(', '$']] ∧ sign ∈ [[], ['-'], ['(']] ∧
      close ∈ [[], [')']])
    (hending : NumeralEnding u close after)
    (hlast : forall c, after.getLast? = some c -> u.space c = false) :
    Seen.Sound u ⟨front, sign, close, after⟩ where
  sign_mem := hshape.right.left
  close_mem := hshape.right.right
  ending := hending
  space_last := hlast
  space := by
    have hfronts : forall front, front ∈ [[], ['$'], ['-', '$'], ['(', '$']] ->
        front.all isSymbol = true := by
      decide
    have hsigns : forall sign, sign ∈ [[], ['-'], ['(']] -> sign.all isSymbol = true := by
      decide
    have hcloses : forall close, close ∈ [[], [')']] -> close.all isSymbol = true := by
      decide
    have hsymbol : Symbols (front ++ (sign ++ close)) := by
      apply symbols_of_all
      rw [List.all_append, List.all_append, hfronts front hshape.left,
        hsigns sign hshape.right.left, hcloses close hshape.right.right]
      rfl
    intro c hc
    have hfacts := symbolFacts (hsymbol c hc)
    exact space_eq ⟨hfacts.ascii, hfacts.space⟩
  blocked := by
    have hall : forall front, front ∈ [[], ['$'], ['-', '$'], ['(', '$']] ->
        (front = [] ∨ front.getLast? = some '$') ∧ front.all isSymbol = true := by
      decide
    rcases hall front hshape.left with ⟨hdollar, hsymbols⟩
    intro pre post hsplit hpost rest
    change front = pre ++ post at hsplit
    rcases List.eq_nil_or_concat post with hnil | ⟨post', c, hconcat⟩
    · exact absurd hnil hpost
    · rw [hconcat, List.concat_eq_append, ← List.append_assoc] at hsplit
      have hc : c = '$' := by
        rw [hsplit, List.getLast?_append_of_ne_nil _ (List.cons_ne_nil _ _)] at hdollar
        rcases hdollar with hnil | hlast
        · simp at hnil
        · exact Option.some.inj hlast
      have hdecimal : forall x, x ∈ post' -> u.decimal x = false := by
        intro x hx
        have hin : x ∈ front := by
          rw [hsplit]
          simp [hx]
        have hfacts := symbolFacts (symbols_of_all hsymbols x hin)
        exact decimal_eq ⟨hfacts.ascii, hfacts.digit⟩
      rw [hconcat, hc, List.concat_eq_append, List.append_assoc, List.singleton_append]
      exact blocked_append hdecimal (blocked_dollar _)

theorem plainSeen_sound {w : List Char} (hw : w ∈ suffixes) : (plainSeen w).Sound u :=
  sound_of_symbols (by decide) (suffix_open hw) (suffix_space_last hw)

theorem Spelling.seen_sound (s : Spelling) {w : List Char} (hw : w ∈ suffixes) :
    (s.seen w).Sound u := by
  have hopen := suffix_open (u := u) hw
  have hclosed := suffix_closed (u := u) hw
  have hlast := suffix_space_last (u := u) hw
  cases s with
  | minus => exact sound_of_symbols (by decide) hopen hlast
  | minusDollar => exact sound_of_symbols (by decide) hopen hlast
  | dollarMinus => exact sound_of_symbols (by decide) hopen hlast
  | parens => exact sound_of_symbols (by decide) hclosed hlast
  | dollarParens => exact sound_of_symbols (by decide) hclosed hlast
  | parensDollar => exact sound_of_symbols (by decide) hclosed hlast
  | parensSuffix =>
      rw [Spelling.seen]
      split
      · rename_i hnil
        apply sound_of_symbols (by decide)
        · exact ending_closed fun _ hc => absurd hc List.not_mem_nil
        · intro c hc
          cases hc
      · rename_i hne
        apply sound_of_symbols (by decide)
        · apply ending_open
          · intro c hc
            rw [List.head?_append_of_ne_nil _ hne] at hc
            exact suffix_head hw c hc
          · intro c hc
            rcases List.mem_append.mp hc with hin | hparen
            · exact suffix_decimal hw hin
            · rw [List.mem_singleton.mp hparen]
              exact decimal_eq (by decide)
        · intro c hc
          rw [List.getLast?_append_of_ne_nil _ (List.cons_ne_nil _ _)] at hc
          rw [← Option.some.inj hc]
          exact space_eq (by decide)

/-!
# The flag and the multiplier
-/

theorem Spelling.parts (s : Spelling) (numeral w : List Char) : exists front close back,
    s.spell numeral w = (front ++ (numeral ++ close)) ++ (w ++ back) ∧
      (front ++ close).all isSymbol = true ∧ back ∈ [[], [')']] := by
  cases s with
  | minus => exact ⟨['-'], [], [], by simp [spell], rfl, List.mem_cons_self⟩
  | minusDollar => exact ⟨['-', '$'], [], [], by simp [spell], rfl, List.mem_cons_self⟩
  | dollarMinus => exact ⟨['$', '-'], [], [], by simp [spell], rfl, List.mem_cons_self⟩
  | parens => exact ⟨['('], [')'], [], by simp [spell], rfl, List.mem_cons_self⟩
  | dollarParens => exact ⟨['$', '('], [')'], [], by simp [spell], rfl, List.mem_cons_self⟩
  | parensDollar => exact ⟨['(', '$'], [')'], [], by simp [spell], rfl, List.mem_cons_self⟩
  | parensSuffix => exact ⟨['('], [], [')'], by simp [spell], rfl, List.mem_pair.mpr (.inr rfl)⟩

theorem scaleIn_suffix {front back w : List Char} (hw : w ∈ suffixes)
    (hfront : Letterless front) (hback : back ∈ [[], [')']]) :
    scaleIn u (front ++ (w ++ back)) = scaleIn u w := by
  have hparen : u.word ')' = false := by
    rw [u.word_ascii ')' (by decide)]
    decide
  have hdrop (text : List Char) : scaleIn u (text ++ back) = scaleIn u text := by
    rw [List.mem_cons, List.mem_singleton] at hback
    rcases hback with rfl | rfl
    · rw [List.append_nil]
    · exact scaleIn_back (by decide) hparen
  have hletterless (hnone : Letterless w) :
      scaleIn u (front ++ (w ++ back)) = scaleIn u w := by
    rw [← List.append_assoc, hdrop]
    exact scaleIn_letterless (letterless_append.mpr ⟨hfront, hnone⟩) hnone
  rcases suffix_cases hw with rfl | rfl | ⟨entry, _, rfl⟩
  · apply hletterless
    intro c hc
    cases hc
  · apply hletterless
    intro c hc
    rw [List.mem_singleton.mp hc]
    decide
  · have hblank : forall c, [' '].getLast? = some c -> u.word c = false := by
      intro c hc
      rw [← Option.some.inj hc]
      exact u.space_word ' ' space_blank
    have hlast : forall c, (front ++ [' ']).getLast? = some c -> u.word c = false := by
      intro c hc
      rw [List.getLast?_append_of_ne_nil _ (List.cons_ne_nil _ _)] at hc
      exact hblank c hc
    have hspace : Letterless [' '] := by
      intro c hc
      rw [List.mem_singleton.mp hc]
      decide
    rw [← List.append_assoc, hdrop, ← List.singleton_append, ← List.append_assoc,
      scaleIn_front (letterless_append.mpr ⟨hfront, hspace⟩) hlast,
      scaleIn_front hspace hblank]

theorem around_suffix {front close back w : List Char} (hw : w ∈ suffixes)
    (hsymbols : (front ++ close).all isSymbol = true) (hback : back ∈ [[], [')']]) :
    ((front ++ (d.text ++ close)) ++ (w ++ back)).contains '%' = w.contains '%' ∧
      scaleIn u (u.lower ((front ++ (d.text ++ close)) ++ (w ++ back))) = scaleIn u w := by
  rw [List.all_append, Bool.and_eq_true] at hsymbols
  have hbacks : forall back, back ∈ [[], [')']] -> back.all isSymbol = true := by decide
  have hfront := symbols_of_all hsymbols.left
  have hclose := symbols_of_all hsymbols.right
  have hparen := symbols_of_all (hbacks back hback)
  have hne {l : List Char} (h : Symbols l) : '%' ∉ l :=
    fun hin => (symbolFacts (h '%' hin)).percent rfl
  have hletterless {l : List Char} (h : Symbols l) : Letterless l :=
    fun c hc => (symbolFacts (h c hc)).alpha
  have hnumeral : '%' ∉ d.text := d.not_mem_text (by decide) (by decide)
  constructor
  · rw [Bool.eq_iff_iff, List.contains_iff_mem, List.contains_iff_mem]
    simp only [List.mem_append, hne hfront, hne hclose, hne hparen, hnumeral, false_or,
      or_false]
  · rw [lower_plain]
    · apply scaleIn_suffix hw _ hback
      exact letterless_append.mpr ⟨hletterless hfront,
        letterless_append.mpr ⟨d.letterless, hletterless hclose⟩⟩
    · have hplain {c : Char} (h : Small c) :
          u.decimal c = true ∨ c.toNat < 128 ∧ c.isUpper = false :=
        .inr ⟨h.ascii, h.upper⟩
      have hsymbol {l : List Char} (h : Symbols l) {c : Char} (hc : c ∈ l) :
          u.decimal c = true ∨ c.toNat < 128 ∧ c.isUpper = false :=
        hplain (symbolFacts (h c hc)).toSmall
      intro c hc
      simp only [List.mem_append] at hc
      rcases hc with (hin | hin | hin) | hin | hin
      · exact hsymbol hfront hin
      · rcases d.mem_text hin with hdecimal | rfl | rfl
        · exact .inl hdecimal
        · exact .inr (by decide)
        · exact .inr (by decide)
      · exact hsymbol hclose hin
      · exact hplain (suffix_small hw hin)
      · exact hsymbol hparen hin

/-!
# Which spellings keep their sign
-/

theorem Spelling.signedFloat_of_beside {s : Spelling} {w : List Char} (h : s.SignBeside w)
    (x : PyFloat) : signedFloat (s.seen w).sign (s.seen w).close x = x.neg := by
  cases s with
  | minusDollar => exact h.elim
  | parensDollar => exact h.elim
  | parensSuffix =>
      change w = [] at h
      rw [Spelling.seen, if_pos h]
      rfl
  | _ => rfl

theorem Spelling.signedFloat_of_not_beside {s : Spelling} {w : List Char}
    (h : ¬ s.SignBeside w) (x : PyFloat) :
    signedFloat (s.seen w).sign (s.seen w).close x = x := by
  cases s with
  | minusDollar => exact signedFloat_unsigned _ x
  | parensDollar => exact signedFloat_unsigned _ x
  | parensSuffix =>
      change ¬ w = [] at h
      rw [Spelling.seen, if_neg h]
      rfl
  | _ => exact absurd True.intro h

theorem one_le_scaleIn (lowered : List Char) : 1 ≤ scaleIn u lowered := by
  have hwords : forall entry, entry ∈ scaleWords -> 1 ≤ entry.2 := by decide +kernel
  rw [scaleIn]
  split
  · rename_i entry hfind
    exact hwords entry (List.mem_of_find?_eq_some hfind)
  · exact le_refl 1

def suffixed (u : PyUnicode) (w : List Char) (x : PyFloat) : PyFloat :=
  if w.contains '%' then x else x.mulBy (scaleIn u w)

theorem suffixed_neg (w : List Char) (x : PyFloat) :
    suffixed u w x.neg = (suffixed u w x).neg := by
  rw [suffixed, suffixed]
  split
  · rfl
  · exact PyFloat.mulBy_neg _ x

theorem Seen.normalize_suffixed {seen : Seen} (h : seen.Sound u)
    {front close back w : List Char} (hw : w ∈ suffixes)
    (hsymbols : (front ++ close).all isSymbol = true) (hback : back ∈ [[], [')']])
    (htext : seen.text d.text = (front ++ (d.text ++ close)) ++ (w ++ back)) :
    normalizeNumericAnswer u (seen.text d.text) =
      some { value := suffixed u w (signedFloat seen.sign seen.close d.float)
             isPercent := w.contains '%' } := by
  rcases around_suffix d hw hsymbols hback with ⟨hflag, hscale⟩
  rw [seen.normalize d h, htext, hflag, hscale]
  rfl

theorem normalize_plain {w : List Char} (hw : w ∈ suffixes) :
    normalizeNumericAnswer u (d.text ++ w) =
      some { value := suffixed u w d.float, isPercent := w.contains '%' } := by
  have hsymbols : ([] ++ [] : List Char).all isSymbol = true := rfl
  have htext : (plainSeen w).text d.text = ([] ++ (d.text ++ [])) ++ (w ++ []) := by
    simp [plainSeen, Seen.text]
  have hread := (plainSeen w).normalize_suffixed d (plainSeen_sound hw) hw hsymbols
    List.mem_cons_self htext
  rw [plainSeen, signedFloat_unsigned] at hread
  exact hread

theorem normalize_spelling (s : Spelling) {w : List Char} (hw : w ∈ suffixes) :
    normalizeNumericAnswer u (s.spell d.text w) =
      some { value := suffixed u w
               (signedFloat (s.seen w).sign (s.seen w).close d.float)
             isPercent := w.contains '%' } := by
  rcases s.parts d.text w with ⟨front, close, back, hparts, hsymbols, hback⟩
  rw [← s.text_seen] at hparts ⊢
  exact (s.seen w).normalize_suffixed d (s.seen_sound hw) hw hsymbols hback hparts

theorem suffixed_float (w : List Char) :
    suffixed u w d.float ≠ .nan ∧
      (suffixed u w d.float = .finite 0 <-> d.float = .finite 0) := by
  have hgrown (m : Rat) (hm : 1 ≤ m) := PyFloat.mulBy_ofMagnitude
    (q := digitsValue u (ungrouped (d.lead :: d.group) ++ d.fraction.getD []) /
      10 ^ (d.fraction.getD []).length) (m := m) (by positivity) hm
  rw [suffixed]
  split
  · exact ⟨PyFloat.ofMagnitude_ne_nan _, Iff.rfl⟩
  · exact hgrown _ (one_le_scaleIn w)

/-- Where the sign does not stand beside the digits it is lost. -/
theorem float_eq_zero_of_signKept {s : Spelling} {w : List Char} (hw : w ∈ suffixes)
    (hbeside : ¬ s.SignBeside w) (h : SignKept u d.text w s) : d.float = .finite 0 := by
  rcases h with ⟨value, isPercent, hbase, hnegative⟩
  rw [normalize_plain d hw, Option.some.injEq, NormalizedNumber.mk.injEq] at hbase
  rw [normalize_spelling d s hw, Spelling.signedFloat_of_not_beside hbeside,
    Option.some.injEq, NormalizedNumber.mk.injEq, ← hbase.left] at hnegative
  rcases suffixed_float d w with ⟨hnan, hzero⟩
  exact hzero.mp (PyFloat.eq_zero_of_neg_eq hnan hnegative.left.symm)

/-- A negative answer keeps its sign exactly when the sign stands right beside
the digits, unless its value is zero. -/
theorem signKept_iff (s : Spelling) {w : List Char} (hw : w ∈ suffixes) :
    SignKept u d.text w s <-> s.SignBeside w ∨ d.float = .finite 0 := by
  constructor
  · intro h
    by_cases hbeside : s.SignBeside w
    · exact .inl hbeside
    · exact .inr (float_eq_zero_of_signKept d hw hbeside h)
  · intro h
    refine ⟨_, _, normalize_plain d hw, ?_⟩
    rw [normalize_spelling d s hw]
    by_cases hbeside : s.SignBeside w
    · rw [Spelling.signedFloat_of_beside hbeside, suffixed_neg]
    · have hzero := (suffixed_float d w).right.mpr (h.resolve_left hbeside)
      rw [Spelling.signedFloat_of_not_beside hbeside, hzero, PyFloat.neg_finite_zero]

theorem signKept_iff_minus : SignKept PyUnicode.ascii ['5'] " million".toList .minus :=
  (signKept_iff (UnsignedNumeral.ofDigit '5' rfl) .minus (by decide)).mpr (.inl True.intro)

/-- `-$5 million` is read as a gain. -/
theorem minusDollar_loses_sign :
    ¬ SignKept PyUnicode.ascii ['5'] " million".toList .minusDollar := by
  intro h
  have hzero := float_eq_zero_of_signKept (UnsignedNumeral.ofDigit '5' rfl) (by decide) id h
  have hfive : PyFloat.ofMagnitude (5 / 10 ^ 0) = .finite 0 := hzero
  rw [PyFloat.ofMagnitude] at hfive
  cases hnearest : nearest (5 / 10 ^ 0) with
  | none =>
      rw [hnearest] at hfive
      cases hfive
  | some r =>
      rw [hnearest] at hfive
      rw [PyFloat.finite.inj hfive] at hnearest
      have hsmall : (2 : Rat) ^ (-1074 : Int) ≤ 1 :=
        zpow_le_one_of_nonpos₀ (by norm_num) (by norm_num)
      exact nearest_ne_zero (hsmall.trans (by norm_num)) hnearest

end Signs
end ChatDoc
