import ChatDoc.Foundation.Binary64
import ChatDoc.Ingest.Coverage

/-!
# Numeric normalization

`normalize_numeric_answer` of `eval/normalize.py`, which reads one number out of
a free-text answer.
-/

namespace ChatDoc

open Foundation

namespace PyFloat

def neg : PyFloat -> PyFloat
  | .finite q => .finite (-q)
  | .inf negative => .inf (!negative)
  | .nan => .nan

/-- The float nearest to a magnitude. -/
def ofMagnitude (q : Rat) : PyFloat :=
  match nearest q with
  | some r => .finite r
  | none => .inf false

/-- The float nearest to a number; rounding does not look at the sign. -/
def round (q : Rat) : PyFloat := if q < 0 then neg (ofMagnitude (-q)) else ofMagnitude q

def mulBy (m : Rat) : PyFloat -> PyFloat
  | .finite q => round (q * m)
  | .inf negative => .inf negative
  | .nan => .nan

end PyFloat

section Normalize

variable (u : PyUnicode)

/-- `-?\(?`. -/
def numberSign (s : Regex) : Regex :=
  .seq (.maybe (.one fun c => c == '-')) (.seq (.maybe (.one fun c => c == '(')) s)

/-- `\d[\d,]*\.?\d*\)?`. -/
def numberBody : Regex :=
  .seq (.one u.decimal)
    (.seq (.many (fun c => u.decimal c || c == ',') 0 none)
      (.seq (.maybe (.one fun c => c == '.'))
        (.seq (.many u.decimal 0 none) (.maybe (.one fun c => c == ')')))))

/-- `_NUMBER_RE`. -/
def numberRe : Regex := numberSign (numberBody u)

def digitsValue (ds : List Char) : Nat :=
  ds.foldl (fun n c => 10 * n + u.digitValue c) 0

/-- `float` of a text without a sign: digits, at most one point between or
around them, and nothing else. -/
def readMagnitude (text : List Char) : Option PyFloat :=
  let whole := text.takeWhile u.decimal
  match text.dropWhile u.decimal with
  | [] =>
      if whole = [] then none
      else some (PyFloat.ofMagnitude (digitsValue u whole))
  | c :: fs =>
      if c = '.' && fs.all u.decimal && !(whole.isEmpty && fs.isEmpty) then
        some (PyFloat.ofMagnitude (digitsValue u (whole ++ fs) / 10 ^ fs.length))
      else none

/-- `float` of what `_NUMBER_RE` leaves: it has no exponent and no letters. -/
def readFloat : List Char -> Option PyFloat
  | '-' :: text => (readMagnitude u text).map PyFloat.neg
  | text => readMagnitude u text

structure NormalizedNumber where
  value : PyFloat
  isPercent : Bool
deriving DecidableEq

/-- The multiplier of the first scale word in a lowered text. -/
def scaleIn (lowered : List Char) : Rat :=
  match scaleWords.find? fun entry => (wordPattern u.toPyText entry.1).search lowered with
  | some entry => entry.2
  | none => 1

def isParen (c : Char) : Bool := c == '(' || c == ')'

/-- `raw.strip("()")`. -/
def stripParens (raw : List Char) : List Char := (raw.dropWhile isParen).rdropWhile isParen

def normalizeNumericAnswer (text : List Char) : Option NormalizedNumber :=
  if text = [] then none
  else
    let stripped := u.strip text
    let isPercent := stripped.contains '%'
    let scale := scaleIn u (u.lower stripped)
    match (numberRe u).findall stripped with
    | [raw] =>
        let negative := raw.head? == some '(' && raw.getLast? == some ')'
        let cleaned := ungrouped (stripParens raw)
        (readFloat u cleaned).map fun value =>
          let value := if negative then value.neg else value
          { value := if isPercent then value else value.mulBy scale
            isPercent := isPercent }
    | _ => none

end Normalize

/-!
# Unsigned numerals
-/

structure UnsignedNumeral (u : PyUnicode) where
  lead : Char
  group : List Char
  fraction : Option (List Char)
  lead_decimal : u.decimal lead = true
  group_decimal : forall c, c ∈ group -> u.decimal c = true ∨ c = ','
  fraction_decimal : forall fs, fraction = some fs -> forall c, c ∈ fs -> u.decimal c = true

namespace UnsignedNumeral

variable {u : PyUnicode} (d : UnsignedNumeral u)

def decimals : List Char :=
  match d.fraction with
  | none => []
  | some fs => '.' :: fs

def text : List Char := d.lead :: (d.group ++ d.decimals)

/-- `float(d.replace(",", ""))`. -/
def float : PyFloat :=
  PyFloat.ofMagnitude (digitsValue u (ungrouped (d.lead :: d.group) ++ d.fraction.getD []) /
    10 ^ (d.fraction.getD []).length)

theorem lead_ne {c : Char} (h : c.toNat < 128 ∧ c.isDigit = false) : d.lead ≠ c := by
  intro heq
  have hlead := d.lead_decimal
  rw [heq, decimal_eq h] at hlead
  cases hlead

def Stops (u : PyUnicode) (rest : List Char) : Prop :=
  forall c, rest.head? = some c -> u.decimal c = false ∧ c ≠ ',' ∧ c ≠ '.'

theorem point_not_decimal : u.decimal '.' = false := decimal_eq (by decide)

theorem comma_not_decimal : u.decimal ',' = false := decimal_eq (by decide)

theorem head_decimals_append {rest : List Char} (hstops : Stops u rest) (c : Char)
    (hc : (d.decimals ++ rest).head? = some c) : (u.decimal c || c == ',') = false := by
  rw [decimals] at hc
  rw [Bool.or_eq_false_iff, beq_eq_false_iff_ne]
  cases hfraction : d.fraction with
  | none =>
      rw [hfraction] at hc
      exact ⟨(hstops c hc).left, (hstops c hc).right.left⟩
  | some fs =>
      rw [hfraction] at hc
      have heq : '.' = c := Option.some.inj hc
      rw [← heq]
      exact ⟨point_not_decimal, by decide⟩

theorem first_decimals {rest close after : List Char} (hstops : Stops u rest)
    (hclose : forall prev,
      (Regex.one fun c => c == ')').maybe.first prev rest = some ⟨close, [], after⟩)
    (prev : Option Char) :
    Regex.first (.seq (.maybe (.one fun c => c == '.')) (.seq
      (.many u.decimal 0 none) (.maybe (.one fun c => c == ')')))) prev
        (d.decimals ++ rest) = some ⟨d.decimals ++ close, [], after⟩ := by
  have hlast : Regex.Total (.seq (.many u.decimal 0 none)
      (.maybe (.one fun c => c == ')'))) :=
    Regex.total_seq (Regex.total_many _ _) (Regex.total_maybe _)
  have hrest : forall c, rest.head? = some c -> u.decimal c = false :=
    fun c hc => (hstops c hc).left
  have hdigits {fs : List Char} (hfs : forall c, c ∈ fs -> u.decimal c = true)
      (prev : Option Char) :
      Regex.first (.seq (.many u.decimal 0 none) (.maybe (.one fun c => c == ')'))) prev
        (fs ++ rest) = some ⟨fs ++ close, [], after⟩ := by
    rw [Regex.first_seq_of_total (Regex.total_maybe _), Regex.first_many_append hfs hrest,
      Option.bind_some, Regex.andThen, hclose]
    rfl
  rw [Regex.first_seq_of_total hlast, decimals]
  cases hfraction : d.fraction with
  | none =>
      have hdot : forall c, rest.head? = some c -> (c == '.') = false :=
        fun c hc => beq_eq_false_iff_ne.mpr (hstops c hc).right.right
      have hnil := @hdigits [] (fun _ h => absurd h List.not_mem_nil) prev
      dsimp only
      rw [List.nil_append, List.nil_append] at *
      rw [Regex.first_maybe_one_of_neg hdot, Option.bind_some, Regex.andThen_fallen]
      exact hnil
  | some fs =>
      dsimp only
      rw [List.cons_append, Regex.first_maybe_one_of_pos (by decide), Option.bind_some,
        Regex.andThen, hdigits (d.fraction_decimal fs hfraction)]
      rfl

theorem first_numberBody {rest close after : List Char} (hstops : Stops u rest)
    (hclose : forall prev,
      (Regex.one fun c => c == ')').maybe.first prev rest = some ⟨close, [], after⟩)
    (prev : Option Char) :
    (numberBody u).first prev (d.text ++ rest) = some ⟨d.text ++ close, [], after⟩ := by
  have hgroup : forall c, c ∈ d.group -> (u.decimal c || c == ',') = true := by
    intro c hc
    rw [Bool.or_eq_true, beq_iff_eq]
    exact d.group_decimal c hc
  have hdot : Regex.Total (.seq (.maybe (.one fun c => c == '.')) (.seq
      (.many u.decimal 0 none) (.maybe (.one fun c => c == ')')))) :=
    Regex.total_seq (Regex.total_maybe _)
      (Regex.total_seq (Regex.total_many _ _) (Regex.total_maybe _))
  have htext (back : List Char) :
      d.text ++ back = d.lead :: (d.group ++ (d.decimals ++ back)) := by
    rw [text, List.cons_append, List.append_assoc]
  rw [numberBody, Regex.first_seq_of_single (Regex.run_one_length _), htext, htext,
    Regex.first_one_cons, if_pos d.lead_decimal, Option.bind_some, Regex.andThen]
  dsimp only
  rw [Regex.first_seq_of_total hdot,
    Regex.first_many_append hgroup (d.head_decimals_append hstops),
    Option.bind_some, Regex.andThen, d.first_decimals hstops hclose]
  rfl

theorem first_numberBody_none {text : List Char}
    (h : forall c, text.head? = some c -> u.decimal c = false) (prev : Option Char) :
    (numberBody u).first prev text = none := by
  rw [numberBody, Regex.first_seq_of_single (Regex.run_one_length _)]
  cases text with
  | nil => rfl
  | cons c rest =>
      rw [Regex.first_one_cons, h c rfl]
      rfl

end UnsignedNumeral

/-!
# What the expression finds
-/

section Finding

variable {u : PyUnicode}

/-- Before every digit of the text stands a character that cannot lead a number. -/
def Blocked (u : PyUnicode) (text : List Char) : Prop :=
  forall pre c post, text = pre ++ c :: post -> u.decimal c = true ->
    exists x, x ∈ pre ∧ x ≠ '-' ∧ x ≠ '('

theorem Blocked.head {text : List Char} (h : Blocked u text) (c : Char)
    (hc : text.head? = some c) : u.decimal c = false := by
  cases text with
  | nil => cases hc
  | cons d rest =>
      rw [List.head?_cons, Option.some.injEq] at hc
      subst hc
      rw [Bool.eq_false_iff]
      intro hdecimal
      rcases h [] d rest rfl hdecimal with ⟨x, hx, _⟩
      cases hx

theorem Blocked.tail {c : Char} {rest : List Char} (h : Blocked u (c :: rest))
    (hc : c = '-' ∨ c = '(') : Blocked u rest := by
  intro pre d post hsplit hdecimal
  rcases h (c :: pre) d post (by rw [hsplit, List.cons_append]) hdecimal with
    ⟨x, hx, hminus, hparen⟩
  rcases List.mem_cons.mp hx with rfl | hin
  · rcases hc with heq | heq
    · exact absurd heq hminus
    · exact absurd heq hparen
  · exact ⟨x, hin, hminus, hparen⟩

theorem Blocked.cons {c : Char} {rest : List Char} (h : Blocked u rest)
    (hc : u.decimal c = false) : Blocked u (c :: rest) := by
  intro pre d post hsplit hdecimal
  cases pre with
  | nil =>
      rw [List.nil_append, List.cons.injEq] at hsplit
      rw [← hsplit.left, hc] at hdecimal
      cases hdecimal
  | cons x pre =>
      rw [List.cons_append, List.cons.injEq] at hsplit
      rcases h pre d post hsplit.right hdecimal with ⟨y, hy, hne⟩
      exact ⟨y, List.mem_cons_of_mem _ hy, hne⟩

theorem blocked_append {front rest : List Char}
    (hfront : forall c, c ∈ front -> u.decimal c = false) (h : Blocked u rest) :
    Blocked u (front ++ rest) := by
  induction front with
  | nil => exact h
  | cons c front ih =>
      exact (ih fun x hx => hfront x (List.mem_cons_of_mem _ hx)).cons
        (hfront c List.mem_cons_self)

theorem blocked_dollar (rest : List Char) : Blocked u ('$' :: rest) := by
  intro pre c post hsplit hdecimal
  cases pre with
  | nil =>
      rw [List.nil_append, List.cons.injEq] at hsplit
      have hdollar : u.decimal '$' = false := decimal_eq (by decide)
      rw [← hsplit.left, hdollar] at hdecimal
      cases hdecimal
  | cons x pre =>
      rw [List.cons_append, List.cons.injEq] at hsplit
      exact ⟨'$', hsplit.left ▸ List.mem_cons_self, by decide, by decide⟩

theorem blocked_of_forall {text : List Char} (h : forall c, c ∈ text -> u.decimal c = false) :
    Blocked u text := by
  intro pre c post hsplit hdecimal
  have hc : c ∈ text := by
    rw [hsplit]
    exact List.mem_append_right _ List.mem_cons_self
  rw [h c hc] at hdecimal
  cases hdecimal

def numberOpen (u : PyUnicode) : Regex :=
  .seq (.maybe (.one fun c => c == '(')) (numberBody u)

theorem numberRe_eq : numberRe u = .seq (.maybe (.one fun c => c == '-')) (numberOpen u) :=
  rfl

theorem first_numberOpen_blocked {text : List Char} (h : Blocked u text)
    (prev : Option Char) : (numberOpen u).first prev text = none := by
  have hbody := UnsignedNumeral.first_numberBody_none h.head prev
  cases text with
  | nil =>
      rw [numberOpen, Regex.first_seq]
      exact hbody
  | cons c rest =>
      rw [numberOpen, Regex.first_maybe_one_seq, hbody, Option.or_none]
      cases hc : c == '(' with
      | false => rfl
      | true =>
          have htail := h.tail (.inr (beq_iff_eq.mp hc))
          rw [if_pos rfl, Regex.andThen, UnsignedNumeral.first_numberBody_none htail.head]
          rfl

theorem first_numberRe_blocked {text : List Char} (h : Blocked u text)
    (prev : Option Char) : (numberRe u).first prev text = none := by
  have hopen := first_numberOpen_blocked h prev
  cases text with
  | nil =>
      rw [numberRe_eq, Regex.first_seq]
      exact hopen
  | cons c rest =>
      rw [numberRe_eq, Regex.first_maybe_one_seq, hopen, Option.or_none]
      cases hc : c == '-' with
      | false => rfl
      | true =>
          have htail := h.tail (.inl (beq_iff_eq.mp hc))
          rw [if_pos rfl, Regex.andThen, first_numberOpen_blocked htail]
          rfl

structure NumeralEnding (u : PyUnicode) (close after : List Char) : Prop where
  stops : UnsignedNumeral.Stops u (close ++ after)
  closes : forall prev, (Regex.one fun c => c == ')').maybe.first prev (close ++ after) =
    some ⟨close, [], after⟩
  no_decimal : forall c, c ∈ after -> u.decimal c = false

theorem ending_open {after : List Char}
    (hhead : forall c, after.head? = some c -> c ≠ ',' ∧ c ≠ '.' ∧ c ≠ ')')
    (hdecimal : forall c, c ∈ after -> u.decimal c = false) : NumeralEnding u [] after where
  stops := fun c hc =>
    ⟨hdecimal c (List.mem_of_head? hc), (hhead c hc).left, (hhead c hc).right.left⟩
  closes := fun _ => Regex.first_maybe_one_of_neg fun c hc =>
    beq_eq_false_iff_ne.mpr (hhead c hc).right.right
  no_decimal := hdecimal

theorem ending_closed {after : List Char}
    (hdecimal : forall c, c ∈ after -> u.decimal c = false) : NumeralEnding u [')'] after where
  stops := by
    intro c hc
    rw [← Option.some.inj hc]
    exact ⟨decimal_eq (by decide), by decide, by decide⟩
  closes := fun _ => Regex.first_maybe_one_of_pos (by decide)
  no_decimal := hdecimal

variable (d : UnsignedNumeral u) {close after : List Char}

theorem first_numberOpen_lead (h : NumeralEnding u close after) (prev : Option Char) :
    (numberOpen u).first prev (d.text ++ (close ++ after)) =
      some ⟨d.text ++ close, [], after⟩ := by
  have hbody := d.first_numberBody h.stops h.closes prev
  have hparen : (d.lead == '(') = false :=
    beq_eq_false_iff_ne.mpr (d.lead_ne (by decide))
  rw [UnsignedNumeral.text, List.cons_append] at hbody ⊢
  rw [numberOpen, Regex.first_maybe_one_seq, hparen]
  exact hbody

theorem first_numberRe_signed {sign : List Char} (hsign : sign ∈ [[], ['-'], ['(']])
    (h : NumeralEnding u close after) (prev : Option Char) :
    (numberRe u).first prev (sign ++ (d.text ++ (close ++ after))) =
      some ⟨sign ++ (d.text ++ close), [], after⟩ := by
  have hopen := first_numberOpen_lead d h
  rw [List.mem_cons, List.mem_cons, List.mem_singleton] at hsign
  rcases hsign with rfl | rfl | rfl
  · have hminus : (d.lead == '-') = false :=
      beq_eq_false_iff_ne.mpr (d.lead_ne (by decide))
    have hhere := hopen prev
    rw [List.nil_append, List.nil_append]
    rw [UnsignedNumeral.text, List.cons_append] at hhere ⊢
    rw [numberRe_eq, Regex.first_maybe_one_seq, hminus]
    exact hhere
  · rw [List.singleton_append, numberRe_eq, Regex.first_maybe_one_seq, if_pos (by decide),
      Regex.andThen, hopen]
    rfl
  · rw [List.singleton_append, numberRe_eq, Regex.first_maybe_one_seq,
      if_neg (by decide), numberOpen, Regex.first_maybe_one_seq, if_pos (by decide),
      Regex.andThen, d.first_numberBody h.stops h.closes]
    rfl

theorem findallFrom_front {front text : List Char}
    (h : forall pre post, front = pre ++ post -> post ≠ [] -> Blocked u (post ++ text))
    (prev : Option Char) :
    (numberRe u).findallFrom 0 prev (front ++ text) =
      (numberRe u).findallFrom 0 (front.getLast?.or prev) text := by
  induction front generalizing prev with
  | nil => rfl
  | cons c front ih =>
      have hhere := first_numberRe_blocked
        (h [] (c :: front) rfl (List.cons_ne_nil _ _)) prev
      rw [List.cons_append] at hhere ⊢
      rw [Regex.findallFrom_of_none hhere, ih, List.getLast?_cons]
      · cases front.getLast? <;> rfl
      · intro pre post hsplit
        exact h (c :: pre) post (by rw [hsplit, List.cons_append])

theorem findall_signed {front sign : List Char} (hsign : sign ∈ [[], ['-'], ['(']])
    (h : NumeralEnding u close after)
    (hfront : forall pre post, front = pre ++ post -> post ≠ [] ->
      Blocked u (post ++ (sign ++ (d.text ++ (close ++ after))))) :
    (numberRe u).findall (front ++ (sign ++ (d.text ++ (close ++ after)))) =
      [sign ++ (d.text ++ close)] := by
  have hfirst := first_numberRe_signed d hsign h
  have hne : sign ++ (d.text ++ close) ≠ [] := by
    rw [UnsignedNumeral.text]
    simp
  rw [Regex.findall, findallFrom_front hfront]
  rcases List.exists_cons_of_ne_nil hne with ⟨c, taken, htaken⟩
  have hsplit : sign ++ (d.text ++ (close ++ after)) = c :: taken ++ after := by
    rw [← htaken]
    simp
  have hhere := hfirst (front.getLast?.or none)
  rw [hsplit, htaken] at hhere
  rw [hsplit, Regex.findallFrom_of_some hhere, htaken, Regex.findallFrom_eq_nil]
  intro pre post hpost prev
  apply first_numberRe_blocked
  apply blocked_of_forall
  intro x hx
  exact h.no_decimal x (by rw [hpost]; exact List.mem_append_right _ hx)

end Finding

/-!
# What is read
-/

section Reading

theorem dropWhile_append_eq {p : Char -> Bool} {front text : List Char}
    (hfront : forall c, c ∈ front -> p c = true)
    (htext : forall c, text.head? = some c -> p c = false) :
    (front ++ text).dropWhile p = text := by
  rw [List.dropWhile_append_of_pos hfront]
  cases text with
  | nil => rfl
  | cons c text =>
      rw [List.dropWhile_cons, htext c rfl, if_neg Bool.false_ne_true]

theorem rdropWhile_append_eq {p : Char -> Bool} {text back : List Char}
    (hback : forall c, c ∈ back -> p c = true)
    (htext : forall c, text.getLast? = some c -> p c = false) :
    (text ++ back).rdropWhile p = text := by
  rw [List.rdropWhile, List.reverse_append, dropWhile_append_eq, List.reverse_reverse]
  · intro c hc
    exact hback c (List.mem_reverse.mp hc)
  · intro c hc
    rw [List.head?_reverse] at hc
    exact htext c hc

variable {u : PyUnicode} (d : UnsignedNumeral u)

namespace UnsignedNumeral

theorem mem_text {c : Char} (h : c ∈ d.text) : u.decimal c = true ∨ c = ',' ∨ c = '.' := by
  rw [text, List.mem_cons, List.mem_append, decimals] at h
  rcases h with rfl | hgroup | hdecimals
  · exact .inl d.lead_decimal
  · exact (d.group_decimal c hgroup).imp_right .inl
  · cases hfraction : d.fraction with
    | none =>
        rw [hfraction] at hdecimals
        cases hdecimals
    | some fs =>
        rw [hfraction] at hdecimals
        rcases List.mem_cons.mp hdecimals with rfl | hfs
        · exact .inr (.inr rfl)
        · exact .inl (d.fraction_decimal fs hfraction c hfs)

theorem text_ne_nil : d.text ≠ [] := List.cons_ne_nil _ _

theorem not_mem_text {c : Char} (h : c.toNat < 128 ∧ c.isDigit = false)
    (hmarks : c ≠ ',' ∧ c ≠ '.') : c ∉ d.text := by
  intro hc
  rcases d.mem_text hc with hdecimal | heq | heq
  · rw [decimal_eq h] at hdecimal
    cases hdecimal
  · exact hmarks.left heq
  · exact hmarks.right heq

theorem isParen_text {c : Char} (h : c ∈ d.text) : isParen c = false := by
  rw [isParen, Bool.or_eq_false_iff, beq_eq_false_iff_ne, beq_eq_false_iff_ne]
  constructor
  · intro heq
    exact d.not_mem_text (by decide) (by decide) (heq ▸ h)
  · intro heq
    exact d.not_mem_text (by decide) (by decide) (heq ▸ h)

theorem ungrouped_text :
    ungrouped d.text = ungrouped (d.lead :: d.group) ++ d.decimals := by
  have hdecimals : ungrouped d.decimals = d.decimals := by
    apply List.filter_eq_self.mpr
    intro c hc
    rw [decide_eq_true_iff]
    intro heq
    rw [decimals] at hc
    cases hfraction : d.fraction with
    | none =>
        rw [hfraction] at hc
        cases hc
    | some fs =>
        rw [hfraction, heq] at hc
        rcases List.mem_cons.mp hc with hpoint | hfs
        · revert hpoint
          decide
        · have hcomma := d.fraction_decimal fs hfraction ',' hfs
          rw [comma_not_decimal] at hcomma
          cases hcomma
  rw [text, ← List.cons_append, ungrouped_append, hdecimals]

theorem readMagnitude_text : readMagnitude u (ungrouped d.text) = some d.float := by
  have hwhole : forall c, c ∈ ungrouped (d.lead :: d.group) -> u.decimal c = true := by
    intro c hc
    rcases List.mem_filter.mp hc with ⟨hin, hne⟩
    rcases List.mem_cons.mp hin with rfl | hgroup
    · exact d.lead_decimal
    · exact (d.group_decimal c hgroup).resolve_right (of_decide_eq_true hne)
  have hne : ungrouped (d.lead :: d.group) ≠ [] := by
    have hlead : d.lead ∈ ungrouped (d.lead :: d.group) :=
      List.mem_filter.mpr ⟨List.mem_cons_self,
        decide_eq_true (d.lead_ne (by decide))⟩
    exact List.ne_nil_of_mem hlead
  have hhead : forall c, d.decimals.head? = some c -> u.decimal c = false := by
    intro c hc
    have hstops : Stops u [] := by
      intro c hc
      cases hc
    have hnext := d.head_decimals_append hstops c (by rw [List.append_nil]; exact hc)
    rw [Bool.or_eq_false_iff] at hnext
    exact hnext.left
  have htake : (ungrouped (d.lead :: d.group) ++ d.decimals).takeWhile u.decimal =
      ungrouped (d.lead :: d.group) := by
    rw [List.takeWhile_append_of_pos hwhole]
    cases hdecimals : d.decimals with
    | nil => rw [List.takeWhile_nil, List.append_nil]
    | cons c rest =>
        rw [List.takeWhile_cons, hhead c (by rw [hdecimals]; rfl),
          if_neg Bool.false_ne_true, List.append_nil]
  rw [readMagnitude, ungrouped_text, htake, dropWhile_append_eq hwhole hhead]
  cases hfraction : d.fraction with
  | none =>
      rw [decimals, hfraction]
      dsimp only
      rw [if_neg hne, float, hfraction]
      simp
  | some fs =>
      have hall : fs.all u.decimal = true :=
        List.all_eq_true.mpr (d.fraction_decimal fs hfraction)
      have hempty : (ungrouped (d.lead :: d.group)).isEmpty = false :=
        List.isEmpty_eq_false_iff.mpr hne
      rw [decimals, hfraction]
      dsimp only
      have hread : (decide ('.' = '.') && true && !(false && fs.isEmpty)) = true := rfl
      rw [hall, hempty, if_pos hread, float, hfraction]
      rfl

theorem readFloat_text : readFloat u (ungrouped d.text) = some d.float := by
  have hlead : exists rest, ungrouped d.text = d.lead :: rest := by
    rw [ungrouped, text, List.filter_cons,
      if_pos (decide_eq_true (d.lead_ne (by decide)))]
    exact ⟨_, rfl⟩
  rcases hlead with ⟨rest, hrest⟩
  rw [← d.readMagnitude_text, hrest, readFloat]
  intro text heq
  rw [List.cons.injEq] at heq
  exact d.lead_ne (by decide) heq.left

theorem readFloat_minus :
    readFloat u (ungrouped ('-' :: d.text)) = some d.float.neg := by
  have hminus : ungrouped ('-' :: d.text) = '-' :: ungrouped d.text := rfl
  rw [hminus, readFloat, readMagnitude_text, Option.map_some]

end UnsignedNumeral

theorem stripParens_wrapped {front text back : List Char} (hne : text ≠ [])
    (hfront : forall c, c ∈ front -> isParen c = true)
    (hback : forall c, c ∈ back -> isParen c = true)
    (hhead : forall c, text.head? = some c -> isParen c = false)
    (hlast : forall c, text.getLast? = some c -> isParen c = false) :
    stripParens (front ++ (text ++ back)) = text := by
  rw [stripParens, dropWhile_append_eq hfront, rdropWhile_append_eq hback hlast]
  intro c hc
  rw [List.head?_append_of_ne_nil _ hne] at hc
  exact hhead c hc

/-- The value that is read from a numeral between what the expression took:
negative means a minus before the digits or both parentheses around them. -/
def signedFloat (sign close : List Char) (x : PyFloat) : PyFloat :=
  if sign = ['-'] ∨ sign = ['('] ∧ close = [')'] then x.neg else x

theorem signedFloat_unsigned (close : List Char) (x : PyFloat) :
    signedFloat [] close x = x := by
  rw [signedFloat, if_neg]
  intro h
  rcases h with h | h
  · cases h
  · cases h.left

theorem isParen_of_mem_close {close : List Char} (hclose : close ∈ [[], [')']]) (c : Char)
    (hc : c ∈ close) : isParen c = true := by
  rw [List.mem_cons, List.mem_singleton] at hclose
  rcases hclose with rfl | rfl
  · cases hc
  · rw [List.mem_singleton.mp hc]
    rfl

theorem stripParens_text {front back : List Char}
    (hfront : forall c, c ∈ front -> isParen c = true)
    (hback : forall c, c ∈ back -> isParen c = true) :
    stripParens (front ++ (d.text ++ back)) = d.text :=
  stripParens_wrapped d.text_ne_nil hfront hback
    (fun _ hc => d.isParen_text (List.mem_of_head? hc))
    fun _ hc => d.isParen_text (List.mem_of_getLast? hc)

theorem stripParens_minus {back : List Char}
    (hback : forall c, c ∈ back -> isParen c = true) :
    stripParens ('-' :: (d.text ++ back)) = '-' :: d.text := by
  change stripParens ([] ++ (('-' :: d.text) ++ back)) = _
  apply stripParens_wrapped (List.cons_ne_nil _ _) (fun _ h => absurd h List.not_mem_nil) hback
  · intro c hc
    rw [← Option.some.inj hc]
    rfl
  · intro c hc
    rw [← List.singleton_append, List.getLast?_append_of_ne_nil _ d.text_ne_nil] at hc
    exact d.isParen_text (List.mem_of_getLast? hc)

theorem read_signed {sign close : List Char} (hsign : sign ∈ [[], ['-'], ['(']])
    (hclose : close ∈ [[], [')']]) :
    exists x, readFloat u (ungrouped (stripParens (sign ++ (d.text ++ close)))) = some x ∧
      (if (sign ++ (d.text ++ close)).head? == some '(' &&
          (sign ++ (d.text ++ close)).getLast? == some ')' then x.neg else x) =
        signedFloat sign close d.float := by
  have hparens := isParen_of_mem_close hclose
  rw [List.mem_cons, List.mem_cons, List.mem_singleton] at hsign
  rcases hsign with rfl | rfl | rfl
  · refine ⟨d.float, ?_, ?_⟩
    · rw [stripParens_text d (fun _ h => absurd h List.not_mem_nil) hparens]
      exact d.readFloat_text
    · have hlead : (some d.lead == some '(') = false :=
        beq_eq_false_iff_ne.mpr fun h => d.lead_ne (by decide) (Option.some.inj h)
      change (if some d.lead == some '(' && _ then _ else _) = _
      rw [hlead, Bool.false_and, if_neg Bool.false_ne_true, signedFloat_unsigned]
  · refine ⟨d.float.neg, ?_, ?_⟩
    · rw [List.singleton_append, stripParens_minus d hparens]
      exact d.readFloat_minus
    · have hminus : (['-'] : List Char) = ['-'] ∨ ['-'] = ['('] ∧ close = [')'] := .inl rfl
      have hhere : (some '-' == some '(') = false := rfl
      change (if some '-' == some '(' && _ then _ else _) = _
      rw [signedFloat, if_pos hminus, hhere, Bool.false_and, if_neg Bool.false_ne_true]
  · refine ⟨d.float, ?_, ?_⟩
    · rw [stripParens_text d (List.forall_mem_singleton.mpr rfl) hparens]
      exact d.readFloat_text
    · have hne : d.text ++ close ≠ [] := List.append_ne_nil_of_left_ne_nil d.text_ne_nil _
      change (if some '(' == some '(' && _ then _ else _) = _
      rw [beq_self_eq_true, Bool.true_and, List.getLast?_append_of_ne_nil _ hne]
      rw [List.mem_cons, List.mem_singleton] at hclose
      rcases hclose with rfl | rfl
      · have hlast : (d.text.getLast? == some ')') = false := by
          rw [beq_eq_false_iff_ne]
          intro heq
          have hparen := d.isParen_text (List.mem_of_getLast? heq)
          cases hparen
        have hneither : ¬ ((['('] : List Char) = ['-'] ∨ ['('] = ['('] ∧ [] = [')']) := by
          simp
        rw [List.append_nil, hlast, if_neg Bool.false_ne_true, signedFloat, if_neg hneither]
      · have hboth : (['('] : List Char) = ['-'] ∨ ['('] = ['('] ∧ [')'] = [')'] :=
          .inr ⟨rfl, rfl⟩
        rw [List.getLast?_append_of_ne_nil _ (List.cons_ne_nil _ _), signedFloat,
          if_pos hboth]
        rfl

theorem normalize_of_findall {text stripped sign close : List Char} (hne : text ≠ [])
    (hstrip : u.strip text = stripped) (hsign : sign ∈ [[], ['-'], ['(']])
    (hclose : close ∈ [[], [')']])
    (hfind : (numberRe u).findall stripped = [sign ++ (d.text ++ close)]) :
    normalizeNumericAnswer u text =
      some { value :=
               if stripped.contains '%' then signedFloat sign close d.float
               else (signedFloat sign close d.float).mulBy (scaleIn u (u.lower stripped))
             isPercent := stripped.contains '%' } := by
  rcases read_signed d hsign hclose with ⟨x, hread, hvalue⟩
  rw [normalizeNumericAnswer, if_neg hne]
  dsimp only
  rw [hstrip, hfind]
  dsimp only
  rw [hread, Option.map_some, hvalue]

end Reading
end ChatDoc
