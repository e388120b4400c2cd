import ChatDoc.Gate.Answer
import ChatDoc.Foundation.Regex

/-!
# Unicode tables

More of what the running Python decides about characters: what the chunker and
the normalizer ask of `str` and `re` beyond what the gate does.
-/

namespace ChatDoc

open Foundation

/-- The white space of `str.strip` and of `\s` among the ASCII characters. -/
def asciiSpace (c : Char) : Bool :=
  c.toNat == 32 || (9 ≤ c.toNat && c.toNat ≤ 13) || (28 ≤ c.toNat && c.toNat ≤ 31)

/-- `str.isdigit` of a character, the value of a digit as `float` reads it, and
whether a character matches a letter of an expression under `re.IGNORECASE`.
White space is never part of a word, and `str.lower` looks at the two sides of
white space or of a digit apart. -/
structure PyUnicode extends PyText where
  digit : Char -> Bool
  digitValue : Char -> Nat
  sameLetter : Char -> Char -> Bool
  space_ascii : forall c : Char, c.toNat < 128 -> space c = asciiSpace c
  space_word : forall c : Char, space c = true -> word c = false
  space_decimal : forall c : Char, space c = true -> decimal c = false
  space_same : forall c d : Char, c.isAlpha = true -> space d = true ->
    sameLetter c d = false
  same_ascii : forall c d : Char, c.toNat < 128 -> d.toNat < 128 ->
    sameLetter c d = (c.toLower == d.toLower)
  digitValue_ascii : forall c : Char, c.isDigit = true -> digitValue c = c.toNat - 48
  lower_ascii : forall l : List Char, (forall c, c ∈ l -> c.toNat < 128) ->
    lower l = l.map Char.toLower
  lower_apart : forall (l r : List Char) (c : Char),
    space c = true ∨ decimal c = true -> lower (l ++ c :: r) = lower l ++ c :: lower r

namespace PyUnicode

theorem asciiSpace_iff {c : Char} :
    asciiSpace c = true <->
      c.toNat = 32 ∨ 9 ≤ c.toNat ∧ c.toNat ≤ 13 ∨ 28 ≤ c.toNat ∧ c.toNat ≤ 31 := by
  simp [asciiSpace, or_assoc]

theorem isUpper_iff {c : Char} : c.isUpper = true <-> 65 ≤ c.toNat ∧ c.toNat ≤ 90 :=
  decide_eq_true_iff

theorem isLower_iff {c : Char} : c.isLower = true <-> 97 ≤ c.toNat ∧ c.toNat ≤ 122 :=
  Bool.and_eq_true_iff.trans (and_congr decide_eq_true_iff decide_eq_true_iff)

theorem isDigit_iff {c : Char} : c.isDigit = true <-> 48 ≤ c.toNat ∧ c.toNat ≤ 57 :=
  Bool.and_eq_true_iff.trans (and_congr decide_eq_true_iff decide_eq_true_iff)

theorem isAlpha_iff {c : Char} :
    c.isAlpha = true <->
      65 ≤ c.toNat ∧ c.toNat ≤ 90 ∨ 97 ≤ c.toNat ∧ c.toNat ≤ 122 :=
  Bool.or_eq_true_iff.trans (or_congr isUpper_iff isLower_iff)

theorem toNat_toLower_of_isUpper {c : Char} (h : c.isUpper = true) :
    c.toLower.toNat = c.toNat + 32 := by
  have hbounds := isUpper_iff.mp h
  calc c.toLower.toNat
      = (c.toNat + 32) % 2 ^ 32 :=
        congrArg Char.toNat (dif_pos (decide_eq_true_iff.mp h))
    _ = c.toNat + 32 := by omega

theorem toLower_of_not_isUpper {c : Char} (h : c.isUpper = false) : c.toLower = c :=
  dif_neg (decide_eq_false_iff_not.mp h)

theorem toLower_ne {c d : Char} (hc : c.isAlpha = true) (hd : d.isAlpha = false) :
    c.toLower ≠ d.toLower := by
  intro heq
  rcases Bool.or_eq_false_iff.mp hd with ⟨hdupper, hdlower⟩
  rw [toLower_of_not_isUpper hdupper] at heq
  have hlower : d.isLower = true := by
    rw [← heq, isLower_iff]
    cases hupper : c.isUpper with
    | true =>
        have hbounds := isUpper_iff.mp hupper
        rw [toNat_toLower_of_isUpper hupper]
        omega
    | false =>
        rw [toLower_of_not_isUpper hupper]
        rcases Bool.or_eq_true_iff.mp hc with hcupper | hclower
        · rw [hcupper] at hupper
          cases hupper
        · exact isLower_iff.mp hclower
  rw [hdlower] at hlower
  cases hlower

theorem asciiSpace_apart {c : Char} (h : asciiSpace c = true) :
    c.isAlpha = false ∧ c.isDigit = false ∧ c ≠ '_' := by
  have hspace := asciiSpace_iff.mp h
  rw [← Bool.not_eq_true, ← Bool.not_eq_true, isAlpha_iff, isDigit_iff]
  refine ⟨by omega, by omega, ?_⟩
  intro heq
  rw [heq] at hspace
  revert hspace
  decide

theorem ascii_space_word (c : Char) (h : asciiSpace c = true) :
    (c.isAlphanum || c == '_') = false := by
  rcases asciiSpace_apart h with ⟨halpha, hdigit, hline⟩
  rw [Char.isAlphanum, halpha, hdigit, Bool.or_false, Bool.false_or]
  exact beq_eq_false_iff_ne.mpr hline

theorem ascii_lower_apart (l r : List Char) (c : Char)
    (h : asciiSpace c = true ∨ c.isDigit = true) :
    (l ++ c :: r).map Char.toLower = l.map Char.toLower ++ c :: r.map Char.toLower := by
  have hupper : c.isUpper = false := by
    rw [Bool.eq_false_iff]
    intro hupper
    have hbounds := isUpper_iff.mp hupper
    rcases h with hspace | hdigit
    · have hcode := asciiSpace_iff.mp hspace
      omega
    · have hcode := isDigit_iff.mp hdigit
      omega
  rw [List.map_append, List.map_cons, toLower_of_not_isUpper hupper]

def ascii : PyUnicode where
  decimal := Char.isDigit
  word := fun c => c.isAlphanum || c == '_'
  space := asciiSpace
  lower := fun l => l.map Char.toLower
  strFloat := fun x => formatFixed 1 x
  arithmetic := .double
  digit := Char.isDigit
  digitValue := fun c => c.toNat - 48
  sameLetter := fun c d => c.toLower == d.toLower
  decimal_ascii := PyText.ascii.decimal_ascii
  word_ascii := PyText.ascii.word_ascii
  space_ascii := fun _ _ => rfl
  space_word := ascii_space_word
  space_decimal := fun _ h => (asciiSpace_apart h).right.left
  space_same := fun _ _ hc h => beq_eq_false_iff_ne.mpr (toLower_ne hc (asciiSpace_apart h).left)
  same_ascii := fun _ _ _ _ => rfl
  digitValue_ascii := fun _ _ => rfl
  lower_ascii := fun _ _ => rfl
  lower_apart := ascii_lower_apart

end PyUnicode

/-!
# ASCII characters
-/

section Characters

variable {u : PyUnicode} {c d : Char} {b : Bool}

theorem space_eq (h : c.toNat < 128 ∧ asciiSpace c = b) : u.space c = b := by
  rw [u.space_ascii c h.left, h.right]

theorem decimal_eq (h : c.toNat < 128 ∧ c.isDigit = b) : u.decimal c = b := by
  rw [u.decimal_ascii c h.left, h.right]

theorem same_eq (h : c.toNat < 128 ∧ d.toNat < 128 ∧ (c.toLower == d.toLower) = b) :
    u.sameLetter c d = b := by
  rw [u.same_ascii c d h.left h.right.left, h.right.right]

theorem lower_nil : u.lower [] = [] := u.lower_ascii [] fun _ h => absurd h List.not_mem_nil

theorem space_newline : u.space '\n' = true := space_eq (by decide)

theorem space_blank : u.space ' ' = true := space_eq (by decide)

theorem space_stop : u.space '.' = false := space_eq (by decide)

theorem space_comma : u.space ',' = false := space_eq (by decide)

theorem toNat_lt_of_isAlpha (h : c.isAlpha = true) : c.toNat < 128 := by
  have hbounds := PyUnicode.isAlpha_iff.mp h
  omega

theorem word_of_isAlpha (h : c.isAlpha = true) : u.word c = true := by
  rw [u.word_ascii c (toNat_lt_of_isAlpha h), Char.isAlphanum, h]
  rfl

theorem isAlpha_of_space (h : u.space c = true) : c.isAlpha = false := by
  rw [Bool.eq_false_iff]
  intro halpha
  rw [u.space_ascii c (toNat_lt_of_isAlpha halpha)] at h
  rw [(PyUnicode.asciiSpace_apart h).left] at halpha
  cases halpha

theorem isAlpha_of_decimal (h : u.decimal c = true) : c.isAlpha = false := by
  rw [Bool.eq_false_iff]
  intro halpha
  rw [u.decimal_ascii c (toNat_lt_of_isAlpha halpha), PyUnicode.isDigit_iff] at h
  have hbounds := PyUnicode.isAlpha_iff.mp halpha
  omega

end Characters
end ChatDoc
