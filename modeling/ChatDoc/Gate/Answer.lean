import ChatDoc.Foundation.Binary64
import ChatDoc.Foundation.Numeral
import ChatDoc.Foundation.Search

/-!
# Answers and figures

The schema of `eval/gate_schema.py`, `scale_multiplier` of `eval/normalize.py`,
and what the checks of the gate need of Python's numbers and strings: floats,
fixed-point formats, and the Unicode tables behind `re` and `str`.
-/

namespace ChatDoc

open Foundation

/-- The double nearest to a number; rounding does not look at the sign.  No quotient that is
taken of doubles here comes near to the largest one. -/
def nearestDouble (q : Rat) : Rat :=
  if q < 0 then -(nearest (-q)).getD (-q) else (nearest q).getD q

/-- How a quotient of two floats comes out: rounded as Python does, or in exact arithmetic. -/
inductive Arithmetic where
  | double
  | exact
deriving DecidableEq

def Arithmetic.quotient : Arithmetic -> Rat -> Rat -> Rat
  | .double, q, m => nearestDouble (q / m)
  | .exact, q, m => q / m

theorem nearestDouble_representable {q : Rat} (h : Representable |q|) : nearestDouble q = q := by
  unfold nearestDouble
  rcases lt_or_ge q 0 with hneg | hpos
  · rw [abs_of_neg hneg] at h
    rw [if_pos hneg, nearest_representable h, Option.getD_some, neg_neg]
  · rw [abs_of_nonneg hpos] at h
    rw [if_neg (not_lt_of_ge hpos), nearest_representable h, Option.getD_some]

theorem nearest_quotient_isSome {q m : Rat} (h : Representable |q|) (hm : 1 ≤ m) :
    (nearest |q / m|).isSome = true := by
  apply nearest_isSome_of_le h (abs_nonneg _)
  rw [abs_div, abs_of_pos (zero_lt_one.trans_le hm)]
  exact div_le_self (abs_nonneg q) hm

theorem Arithmetic.quotient_one (a : Arithmetic) {q : Rat} (h : Representable |q|) :
    a.quotient q 1 = q := by
  cases a with
  | double =>
      rw [quotient, div_one]
      exact nearestDouble_representable h
  | exact => exact div_one q

/-- A float.  A finite one stands for its exact value. -/
inductive PyFloat where
  | finite (q : Rat)
  | inf (negative : Bool)
  | nan
deriving DecidableEq

namespace PyFloat

def lt : PyFloat -> PyFloat -> Bool
  | .finite a, .finite b => decide (a < b)
  | .finite _, .inf negative => !negative
  | .inf negative, .finite _ => negative
  | .inf negative, .inf negative' => negative && !negative'
  | .nan, _ => false
  | _, .nan => false

/-- The difference in exact arithmetic. Rounding it to a double keeps its sign, but where it
misses a threshold by less than half a unit in the last place the source may decide otherwise. -/
def sub : PyFloat -> PyFloat -> PyFloat
  | .finite a, .finite b => .finite (a - b)
  | .finite _, .inf negative => .inf (!negative)
  | .inf negative, .finite _ => .inf negative
  | .inf negative, .inf negative' =>
      if negative = negative' then .nan else .inf negative
  | .nan, _ => .nan
  | _, .nan => .nan

def divBy (a : Arithmetic) (m : Rat) : PyFloat -> PyFloat
  | .finite q => .finite (a.quotient q m)
  | .inf negative => .inf negative
  | .nan => .nan

/-- Python's `max(scores)`. -/
def maximum (first : PyFloat) (rest : List PyFloat) : PyFloat :=
  rest.foldl (fun best score => if lt best score then score else best) first

theorem lt_irrefl (a : PyFloat) : lt a a = false := by
  cases a with
  | finite q => simp [lt]
  | inf negative => cases negative <;> rfl
  | nan => rfl

theorem lt_trans {a b c : PyFloat} (hab : lt a b = true) (hbc : lt b c = true) :
    lt a c = true := by
  cases a <;> cases b <;> cases c <;> simp_all [lt]
  next a b c => exact hab.trans hbc

theorem lt_asymm {a b : PyFloat} (h : lt a b = true) : lt b a = false := by
  rw [Bool.eq_false_iff]
  intro hba
  have haa := lt_trans h hba
  rw [lt_irrefl] at haa
  cases haa

theorem not_lt_trans {a b c : PyFloat} (hb : b ≠ .nan) (hba : lt b a = false)
    (hcb : lt c b = false) : lt c a = false := by
  cases a <;> cases b <;> cases c <;> simp_all [lt]
  next a b c => exact hba.trans hcb

def toRat? : PyFloat -> Option Rat
  | .finite q => some q
  | .inf _ => none
  | .nan => none

theorem toRat?_eq_some {x : PyFloat} {q : Rat} :
    x.toRat? = some q <-> x = .finite q := by
  cases x <;> simp [toRat?]

end PyFloat

/-!
# Formats
-/

def sign (q : Rat) : List Char := if q < 0 then ['-'] else []

/-- The format `f"{v:.nf}"` of a finite number. -/
def fixed (places : Nat) (q : Rat) : List Char :=
  sign q ++ point (wholeDigits places q) (fractionDigits places q)

/-- The format `f"{v:,.nf}"` of a finite number. -/
def fixedGrouped (places : Nat) (q : Rat) : List Char :=
  sign q ++ point (grouped (wholeDigits places q)) (fractionDigits places q)

def rstrip (c : Char) (l : List Char) : List Char := l.rdropWhile fun d => d = c

def formatFixed (places : Nat) : PyFloat -> String
  | .finite q => String.ofList (fixed places q)
  | .inf negative => if negative then "-inf" else "inf"
  | .nan => "nan"

/-- What the running Python decides: the Unicode tables of `\d` and `\w`, of
`str.strip` and `str.lower`, the text of `str(x)` for a float, and how floats are
divided. -/
structure PyText where
  decimal : Char -> Bool
  word : Char -> Bool
  space : Char -> Bool
  lower : List Char -> List Char
  strFloat : PyFloat -> String
  arithmetic : Arithmetic
  decimal_ascii : forall c : Char, c.toNat < 128 -> decimal c = c.isDigit
  word_ascii : forall c : Char, c.toNat < 128 ->
    word c = (c.isAlphanum || c == '_')

namespace PyText

def strip (u : PyText) (l : List Char) : List Char :=
  (l.dropWhile u.space).rdropWhile u.space

def exactly (u : PyText) : PyText := { u with arithmetic := .exact }

def ascii : PyText where
  decimal := Char.isDigit
  word := fun c => c.isAlphanum || c == '_'
  space := Char.isWhitespace
  lower := fun l => l.map Char.toLower
  strFloat := fun x => formatFixed 1 x
  arithmetic := .double
  decimal_ascii := fun _ _ => rfl
  word_ascii := fun _ _ => rfl

end PyText

/-!
# Scale words
-/

/-- `_SCALE_WORDS`, in its order. -/
def scaleWords : List (String × Rat) :=
  [("thousand", 1000), ("thousands", 1000), ("million", 1000000),
   ("millions", 1000000), ("mm", 1000000), ("billion", 1000000000),
   ("billions", 1000000000), ("bn", 1000000000), ("trillion", 1000000000000),
   ("trillions", 1000000000000)]

/-- The regular expression `\bword\b`. -/
def wordPattern (u : PyText) (w : String) : Pattern where
  start := .boundary u.word
  literal := w.toList
  stop := .boundary u.word

def scaleMultiplier (u : PyText) : Option String -> Rat
  | none => 1
  | some scale =>
      if scale = "" then 1
      else
        let lowered := u.lower (u.strip scale.toList)
        match scaleWords.find? fun entry =>
            entry.1.toList == lowered || (wordPattern u entry.1).search lowered with
        | some entry => entry.2
        | none => 1

theorem scaleMultiplier_pos (u : PyText) (scale : Option String) :
    0 < scaleMultiplier u scale := by
  have hwords : forall entry, entry ∈ scaleWords -> 0 < entry.2 := by decide +kernel
  unfold scaleMultiplier
  cases scale with
  | none => exact one_pos
  | some scale =>
      dsimp only
      split
      · exact one_pos
      · split
        next entry hfind => exact hwords entry (List.mem_of_find?_eq_some hfind)
        next => exact one_pos

/-!
# The schema
-/

structure Operand where
  value : PyFloat
  citationChunkId : Int
deriving DecidableEq

structure Citation where
  chunkId : Int
  quote : String
deriving DecidableEq

structure GateAnswer where
  sufficient : Bool
  value : Option PyFloat
  unit : Option String
  scale : Option String
  operands : List Operand
  answerText : Option String
  citations : List Citation
deriving DecidableEq

end ChatDoc
