import ChatDoc.Eval.Normalize
import Mathlib.Data.List.Find

/-!
# Scale phrases

The normalizer looks for scale words in the whole answer and `scale_multiplier`
in the bare phrase; both find the same word.
-/

namespace ChatDoc

open Foundation

section ScalePhrase

variable {u : PyUnicode}

/-!
# Texts without letters
-/

def Letterless (text : List Char) : Prop := forall c, c ∈ text -> c.isAlpha = false

theorem letterless_append {l l' : List Char} :
    Letterless (l ++ l') <-> Letterless l ∧ Letterless l' :=
  List.forall_mem_append

theorem UnsignedNumeral.letterless (d : UnsignedNumeral u) : Letterless d.text := by
  intro c hc
  rcases d.mem_text hc with hdecimal | rfl | rfl
  · exact isAlpha_of_decimal hdecimal
  · rfl
  · rfl

theorem scaleWords_lower {entry : String × Rat} (h : entry ∈ scaleWords) :
    entry.1.toList ≠ [] ∧ forall c, c ∈ entry.1.toList -> c.isLower = true := by
  have hall : scaleWords.all (fun entry =>
      entry.1.toList != [] && entry.1.toList.all Char.isLower) = true := by
    decide +kernel
  have hentry := List.all_eq_true.mp hall entry h
  rw [Bool.and_eq_true, bne_iff_ne, List.all_eq_true] at hentry
  exact hentry

/-!
# Where a scale word stands
-/

structure Lettered (w : String) : Prop where
  nonempty : w.toList ≠ []
  letters : forall c, c ∈ w.toList -> c.isAlpha = true

theorem lettered_of_mem {entry : String × Rat} (h : entry ∈ scaleWords) :
    Lettered entry.1 where
  nonempty := (scaleWords_lower h).left
  letters := by
    intro c hc
    exact Bool.or_eq_true_iff.mpr (.inr ((scaleWords_lower h).right c hc))

theorem match_word_iff {w : String} {text pre post : List Char} :
    (wordPattern u.toPyText w).Match none text pre post <->
      text = pre ++ (w.toList ++ post) ∧
        pre.getLast?.any u.word ≠ (w.toList ++ post).head?.any u.word ∧
          (pre ++ w.toList).getLast?.any u.word ≠ post.head?.any u.word := by
  constructor
  · intro h
    rcases h with ⟨hsplit, hstart, hstop⟩
    rw [Option.or_none] at hstart hstop
    exact ⟨hsplit, bne_iff_ne.mp hstart, bne_iff_ne.mp hstop⟩
  · intro h
    rcases h with ⟨hsplit, hstart, hstop⟩
    refine ⟨hsplit, ?_, ?_⟩
    · rw [Option.or_none]
      exact bne_iff_ne.mpr hstart
    · rw [Option.or_none]
      exact bne_iff_ne.mpr hstop

theorem last_any_append {front back : List Char}
    (hlast : forall c, front.getLast? = some c -> u.word c = false) :
    (front ++ back).getLast?.any u.word = back.getLast?.any u.word := by
  cases back with
  | nil =>
      rw [List.append_nil]
      cases hfront : front.getLast? with
      | none => rfl
      | some c => exact hlast c hfront
  | cons c back => rw [List.getLast?_append_of_ne_nil _ (List.cons_ne_nil _ _)]

/-- No word stands in or across a front part without letters that does not end
within a word. -/
theorem search_front {w : String} (hw : Lettered w) {front tail : List Char}
    (hfront : Letterless front)
    (hlast : forall c, front.getLast? = some c -> u.word c = false) :
    (wordPattern u.toPyText w).search (front ++ tail) =
      (wordPattern u.toPyText w).search tail := by
  rw [Bool.eq_iff_iff, Pattern.search_iff, Pattern.search_iff]
  have hmatch {a post : List Char} :
      (wordPattern u.toPyText w).Match none (front ++ tail) (front ++ a) post <->
        (wordPattern u.toPyText w).Match none tail a post := by
    rw [match_word_iff, match_word_iff, List.append_assoc front, List.append_assoc front,
      last_any_append hlast, last_any_append hlast, List.append_cancel_left_eq]
  constructor
  · intro h
    rcases h with ⟨pre, post, hfound⟩
    have hbeyond : exists a, pre = front ++ a := by
      rcases List.exists_cons_of_ne_nil hw.nonempty with ⟨x, rest, hword⟩
      have hsplit : front ++ tail = pre ++ x :: (rest ++ post) := by
        rw [hfound.split]
        change pre ++ (w.toList ++ post) = _
        rw [hword, List.cons_append]
      have hx : x ∉ front := by
        intro hin
        have halpha := hw.letters x (by rw [hword]; exact List.mem_cons_self)
        rw [hfront x hin] at halpha
        cases halpha
      rcases split_behind hx hsplit with ⟨a, hpre, _⟩
      exact ⟨a, hpre⟩
    rcases hbeyond with ⟨a, rfl⟩
    exact ⟨a, post, hmatch.mp hfound⟩
  · intro h
    rcases h with ⟨a, post, hfound⟩
    exact ⟨front ++ a, post, hmatch.mpr hfound⟩

theorem search_back {w : String} (hw : Lettered w) {text : List Char} {c : Char}
    (hletter : c.isAlpha = false) (hword : u.word c = false) :
    (wordPattern u.toPyText w).search (text ++ [c]) =
      (wordPattern u.toPyText w).search text := by
  have hnot : c ∉ w.toList := by
    intro hin
    rw [hw.letters c hin] at hletter
    cases hletter
  have hhead (post post' : List Char) :
      (w.toList ++ post).head?.any u.word = (w.toList ++ post').head?.any u.word := by
    rw [List.head?_append_of_ne_nil _ hw.nonempty, List.head?_append_of_ne_nil _ hw.nonempty]
  have hnext (post : List Char) : (post ++ [c]).head?.any u.word = post.head?.any u.word := by
    cases post with
    | nil => exact hword
    | cons x post => rfl
  rw [Bool.eq_iff_iff, Pattern.search_iff, Pattern.search_iff]
  constructor
  · intro h
    rcases h with ⟨pre, post, hfound⟩
    rcases match_word_iff.mp hfound with ⟨hsplit, hstart, hstop⟩
    rcases split_beside hnot hsplit with ⟨post', htext, rfl⟩ | ⟨a, _, hnil⟩
    · refine ⟨pre, post', match_word_iff.mpr ⟨htext, ?_, ?_⟩⟩
      · rw [hhead post' (post' ++ [c])]
        exact hstart
      · rw [← hnext]
        exact hstop
    · have hempty := List.append_eq_nil_iff.mp hnil.symm
      exact absurd (List.append_eq_nil_iff.mp hempty.right).left hw.nonempty
  · intro h
    rcases h with ⟨pre, post, hfound⟩
    rcases match_word_iff.mp hfound with ⟨hsplit, hstart, hstop⟩
    refine ⟨pre, post ++ [c], match_word_iff.mpr ⟨?_, ?_, ?_⟩⟩
    · rw [hsplit]
      simp
    · rw [hhead (post ++ [c]) post]
      exact hstart
    · rw [hnext]
      exact hstop

theorem search_letterless {w : String} (hw : Lettered w) {text : List Char}
    (htext : Letterless text) : (wordPattern u.toPyText w).search text = false := by
  rw [Bool.eq_false_iff]
  intro h
  rcases Pattern.search_iff.mp h with ⟨pre, post, hfound⟩
  rcases List.exists_mem_of_ne_nil _ hw.nonempty with ⟨c, hc⟩
  have hin : c ∈ text := by
    rw [hfound.split]
    exact List.mem_append_right _ (List.mem_append_left _ hc)
  have halpha := hw.letters c hc
  rw [htext c hin] at halpha
  cases halpha

theorem search_self {w : String} (hw : Lettered w) :
    (wordPattern u.toPyText w).search w.toList = true := by
  rw [Pattern.search_iff]
  refine ⟨[], [], match_word_iff.mpr ⟨?_, ?_, ?_⟩⟩
  · rw [List.append_nil, List.nil_append]
  · rw [List.append_nil, List.head?_eq_some_head hw.nonempty]
    change false ≠ u.word _
    rw [word_of_isAlpha (hw.letters _ (List.head_mem hw.nonempty))]
    exact Bool.false_ne_true
  · rw [List.nil_append, List.getLast?_eq_some_getLast hw.nonempty]
    change u.word _ ≠ false
    rw [word_of_isAlpha (hw.letters _ (List.getLast_mem hw.nonempty))]
    exact Bool.false_ne_true.symm

theorem scaleIn_congr {text text' : List Char}
    (h : forall w : String, Lettered w -> (wordPattern u.toPyText w).search text =
      (wordPattern u.toPyText w).search text') : scaleIn u text = scaleIn u text' := by
  rw [scaleIn, scaleIn]
  rw [List.find?_congr fun entry hin => h entry.1 (lettered_of_mem hin)]

theorem scaleIn_front {front tail : List Char} (hfront : Letterless front)
    (hlast : forall c, front.getLast? = some c -> u.word c = false) :
    scaleIn u (front ++ tail) = scaleIn u tail :=
  scaleIn_congr fun _ hw => search_front hw hfront hlast

theorem scaleIn_back {text : List Char} {c : Char} (hletter : c.isAlpha = false)
    (hword : u.word c = false) : scaleIn u (text ++ [c]) = scaleIn u text :=
  scaleIn_congr fun _ hw => search_back hw hletter hword

theorem scaleIn_letterless {text text' : List Char} (h : Letterless text)
    (h' : Letterless text') : scaleIn u text = scaleIn u text' :=
  scaleIn_congr fun _ hw => (search_letterless hw h).trans (search_letterless hw h').symm

/-- The extra equality test of `scale_multiplier` finds nothing more. -/
theorem scaleMultiplier_eq (w : String) :
    scaleMultiplier u.toPyText (some w) = scaleIn u (u.lower (u.strip w.toList)) := by
  rw [scaleMultiplier]
  split
  · rename_i hempty
    subst hempty
    change 1 = scaleIn u (u.lower [])
    rw [lower_nil, scaleIn]
    have hnone : scaleWords.find? (fun entry => (wordPattern u.toPyText entry.1).search []) =
        none := by
      rw [List.find?_eq_none]
      intro entry hin
      rw [search_letterless (lettered_of_mem hin) (fun _ h => absurd h List.not_mem_nil)]
      exact Bool.false_ne_true
    rw [hnone]
  · have hsame : scaleWords.find? (fun entry =>
        entry.1.toList == u.lower (u.strip w.toList) ||
          (wordPattern u.toPyText entry.1).search (u.lower (u.strip w.toList))) =
        scaleWords.find? fun entry =>
          (wordPattern u.toPyText entry.1).search (u.lower (u.strip w.toList)) := by
      apply List.find?_congr
      intro entry hin
      cases heq : entry.1.toList == u.lower (u.strip w.toList) with
      | false => rfl
      | true =>
          rw [← beq_iff_eq.mp heq, search_self (lettered_of_mem hin)]
          rfl
    dsimp only
    rw [hsame]
    rfl

/-!
# Lower case
-/

theorem map_toLower_eq {l : List Char} (h : forall c, c ∈ l -> c.isUpper = false) :
    l.map Char.toLower = l := by
  have hid : l.map Char.toLower = l.map id :=
    List.map_congr_left fun c hc => PyUnicode.toLower_of_not_isUpper (h c hc)
  rw [hid, List.map_id]

theorem lower_plain_append {l : List Char} (pre : List Char)
    (hpre : forall c, c ∈ pre -> c.toNat < 128 ∧ c.isUpper = false)
    (hl : forall c, c ∈ l -> u.decimal c = true ∨ c.toNat < 128 ∧ c.isUpper = false) :
    u.lower (pre ++ l) = pre ++ l := by
  have hlower : u.lower pre = pre := by
    rw [u.lower_ascii pre fun c hc => (hpre c hc).left]
    exact map_toLower_eq fun c hc => (hpre c hc).right
  induction l generalizing pre with
  | nil =>
      rw [List.append_nil]
      exact hlower
  | cons c l ih =>
      have hrest : forall c, c ∈ l ->
          u.decimal c = true ∨ c.toNat < 128 ∧ c.isUpper = false :=
        fun c hc => hl c (List.mem_cons_of_mem _ hc)
      rcases hl c List.mem_cons_self with hdecimal | hascii
      · have hl := ih [] (fun _ h => absurd h List.not_mem_nil) hrest lower_nil
        rw [List.nil_append] at hl
        rw [u.lower_apart pre l c (.inr hdecimal), hlower, hl]
      · have hnext : forall x, x ∈ pre ++ [c] -> x.toNat < 128 ∧ x.isUpper = false := by
          intro x hx
          rcases List.mem_append.mp hx with hin | hlast
          · exact hpre x hin
          · rw [List.mem_singleton.mp hlast]
            exact hascii
        have hlower : u.lower (pre ++ [c]) = pre ++ [c] := by
          rw [u.lower_ascii (pre ++ [c]) fun x hx => (hnext x hx).left]
          exact map_toLower_eq fun x hx => (hnext x hx).right
        have hl := ih (pre ++ [c]) hnext hrest hlower
        rw [List.append_assoc, List.singleton_append] at hl
        exact hl

theorem lower_plain {l : List Char}
    (h : forall c, c ∈ l -> u.decimal c = true ∨ c.toNat < 128 ∧ c.isUpper = false) :
    u.lower l = l :=
  lower_plain_append [] (fun _ h => absurd h List.not_mem_nil) h

theorem lower_spaces {front l : List Char} (h : forall c, c ∈ front -> u.space c = true) :
    u.lower (front ++ l) = front ++ u.lower l := by
  induction front with
  | nil => rfl
  | cons c front ih =>
      have hc := u.lower_apart [] (front ++ l) c (.inl (h c List.mem_cons_self))
      rw [List.nil_append, lower_nil, List.nil_append,
        ih fun x hx => h x (List.mem_cons_of_mem _ hx)] at hc
      exact hc

theorem UnsignedNumeral.lower_text (d : UnsignedNumeral u) : u.lower d.text = d.text := by
  apply lower_plain
  intro c hc
  rcases d.mem_text hc with hdecimal | rfl | rfl
  · exact .inl hdecimal
  · exact .inr (by decide)
  · exact .inr (by decide)

/-!
# An answer with a scale phrase
-/

theorem strip_split (l : List Char) : exists front back,
    (forall c, c ∈ front -> u.space c = true) ∧ (forall c, c ∈ back -> u.space c = true) ∧
      l = front ++ (u.strip l ++ back) := by
  refine ⟨l.takeWhile u.space, (l.dropWhile u.space).rtakeWhile u.space, ?_, ?_, ?_⟩
  · intro c hc
    exact List.mem_takeWhile_imp hc
  · intro c hc
    exact List.mem_rtakeWhile_imp hc
  · rw [PyText.strip, List.rdropWhile_append_rtakeWhile, List.takeWhile_append_dropWhile]

variable (d : UnsignedNumeral u)

theorem UnsignedNumeral.space_text {c : Char} (h : c ∈ d.text) : u.space c = false := by
  rw [Bool.eq_false_iff]
  intro hspace
  rcases d.mem_text h with hdecimal | rfl | rfl
  · rw [u.space_decimal c hspace] at hdecimal
    cases hdecimal
  · rw [space_comma] at hspace
    cases hspace
  · rw [space_stop] at hspace
    cases hspace

theorem UnsignedNumeral.head_append (rest : List Char) (c : Char)
    (hc : (d.text ++ rest).head? = some c) : u.space c = false := by
  rw [List.head?_append_of_ne_nil _ d.text_ne_nil] at hc
  exact d.space_text (List.mem_of_head? hc)

theorem strip_phrase (w : List Char) : exists front,
    (forall c, c ∈ front -> u.space c = true) ∧
      u.strip (d.text ++ ' ' :: w) =
        if u.strip w = [] then d.text else d.text ++ ' ' :: (front ++ u.strip w) := by
  rcases strip_split (u := u) w with ⟨front, back, hfront, hback, hw⟩
  refine ⟨front, hfront, ?_⟩
  have hdrop : (d.text ++ ' ' :: w).dropWhile u.space = d.text ++ ' ' :: w :=
    @dropWhile_append_eq u.space [] _ (fun _ h => absurd h List.not_mem_nil)
      (d.head_append _)
  rw [PyText.strip, hdrop]
  split
  · rename_i hblank
    apply rdropWhile_append_eq
    · intro c hc
      rcases List.mem_cons.mp hc with rfl | hin
      · exact space_blank
      · exact strip_eq_nil_iff.mp hblank c hin
    · intro c hc
      exact d.space_text (List.mem_of_getLast? hc)
  · rename_i hword
    have hsplit : d.text ++ ' ' :: w = (d.text ++ ' ' :: (front ++ u.strip w)) ++ back := by
      conv_lhs => rw [hw]
      simp
    rw [hsplit]
    apply rdropWhile_append_eq hback
    intro c hc
    rw [List.getLast?_append_of_ne_nil _ (List.cons_ne_nil _ _), List.getLast?_cons,
      List.getLast?_append_of_ne_nil _ hword] at hc
    rcases (strip_ends hword).right with ⟨last, hlast, hspace⟩
    rw [hlast] at hc
    rw [← Option.some.inj hc]
    exact hspace

theorem scaleIn_phrase {front core : List Char}
    (hfront : forall c, c ∈ front -> u.space c = true) :
    scaleIn u (u.lower (d.text ++ ' ' :: (front ++ core))) = scaleIn u (u.lower core) := by
  have hspaces : forall c, c ∈ ' ' :: front -> u.space c = true := by
    intro c hc
    rcases List.mem_cons.mp hc with rfl | hin
    · exact space_blank
    · exact hfront c hin
  have hlower : u.lower (d.text ++ ' ' :: (front ++ core)) =
      (d.text ++ ' ' :: front) ++ u.lower core := by
    rw [u.lower_apart _ _ ' ' (.inl space_blank), d.lower_text, lower_spaces hfront]
    simp
  rw [hlower]
  apply scaleIn_front
  · apply letterless_append.mpr
    exact ⟨d.letterless, fun c hc => isAlpha_of_space (hspaces c hc)⟩
  · intro c hc
    rw [List.getLast?_append_of_ne_nil _ (List.cons_ne_nil _ _)] at hc
    exact u.space_word c (hspaces c (List.mem_of_getLast? hc))

/-- An answer of a numeral and a phrase has the numeral's value times the
phrase's multiplier. -/
theorem normalize_scale_phrase (w : String)
    (hdecimal : forall c, c ∈ w.toList -> u.decimal c = false) (hpercent : '%' ∉ w.toList) :
    exists x, readFloat u (ungrouped d.text) = some x ∧
      normalizeNumericAnswer u (d.text ++ ' ' :: w.toList) =
        some { value := x.mulBy (scaleMultiplier u.toPyText (some w)), isPercent := false } := by
  refine ⟨d.float, d.readFloat_text, ?_⟩
  rcases strip_phrase d w.toList with ⟨front, hfront, hstrip⟩
  have hafter : exists after, u.strip (d.text ++ ' ' :: w.toList) = d.text ++ after ∧
      NumeralEnding u [] after ∧ '%' ∉ after ∧
        scaleIn u (u.lower (d.text ++ after)) = scaleMultiplier u.toPyText (some w) := by
    rw [scaleMultiplier_eq, hstrip]
    split
    · rename_i hblank
      refine ⟨[], (List.append_nil _).symm, ?_, List.not_mem_nil, ?_⟩
      · apply ending_open
        · intro c hc
          cases hc
        · intro c hc
          cases hc
      · rw [hblank, List.append_nil, d.lower_text, lower_nil]
        exact scaleIn_letterless d.letterless fun _ h => absurd h List.not_mem_nil
    · refine ⟨' ' :: (front ++ u.strip w.toList), rfl, ?_, ?_, scaleIn_phrase d hfront⟩
      · apply ending_open
        · intro c hc
          rw [← Option.some.inj hc]
          decide
        · intro c hc
          rcases List.mem_cons.mp hc with rfl | hin
          · exact u.space_decimal ' ' space_blank
          · rcases List.mem_append.mp hin with hspace | hword
            · exact u.space_decimal c (hfront c hspace)
            · exact hdecimal c ((infix_strip _).mem hword)
      · intro hin
        rcases List.mem_cons.mp hin with heq | hin
        · revert heq
          decide
        · rcases List.mem_append.mp hin with hspace | hword
          · have hpercentSpace : u.space '%' = false := space_eq (by decide)
            rw [hfront '%' hspace] at hpercentSpace
            cases hpercentSpace
          · exact hpercent ((infix_strip _).mem hword)
  rcases hafter with ⟨after, hstripped, hending, hnone, hscale⟩
  have hfront : forall pre post, ([] : List Char) = pre ++ post -> post ≠ [] ->
      Blocked u (post ++ ([] ++ (d.text ++ ([] ++ after)))) := by
    intro pre post hsplit hpost
    exact absurd (List.append_eq_nil_iff.mp hsplit.symm).right hpost
  have hfind := findall_signed d List.mem_cons_self hending hfront
  have hne : d.text ++ ' ' :: w.toList ≠ [] :=
    List.append_ne_nil_of_left_ne_nil d.text_ne_nil _
  have hcontains : (d.text ++ after).contains '%' = false := by
    rw [Bool.eq_false_iff, ne_eq, List.contains_iff_mem, List.mem_append, not_or]
    exact ⟨d.not_mem_text (by decide) (by decide), hnone⟩
  rw [normalize_of_findall d hne hstripped List.mem_cons_self List.mem_cons_self hfind,
    hcontains, hscale, signedFloat_unsigned]
  rfl

def UnsignedNumeral.ofDigit (c : Char) (h : u.decimal c = true) : UnsignedNumeral u where
  lead := c
  group := []
  fraction := none
  lead_decimal := h
  group_decimal := fun _ h => absurd h List.not_mem_nil
  fraction_decimal := by
    intro fs h
    cases h

theorem normalize_scale_phrase_millions :
    exists x, readFloat PyUnicode.ascii (ungrouped ['5']) = some x ∧
      normalizeNumericAnswer PyUnicode.ascii "5 Million of thousands".toList =
        some { value := x.mulBy
                 (scaleMultiplier PyUnicode.ascii.toPyText (some "Million of thousands"))
               isPercent := false } := by
  have hdigits : "Million of thousands".toList.all (fun c => !c.isDigit) = true := by decide
  have hdecimal : forall c, c ∈ "Million of thousands".toList ->
      PyUnicode.ascii.decimal c = false := by
    intro c hc
    exact (Bool.not_eq_true' _).mp (List.all_eq_true.mp hdigits c hc)
  exact normalize_scale_phrase (UnsignedNumeral.ofDigit '5' rfl) "Million of thousands"
    hdecimal (by decide)

end ScalePhrase
end ChatDoc
