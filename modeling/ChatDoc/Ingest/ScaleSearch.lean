import ChatDoc.Foundation.RegexLocal
import ChatDoc.Ingest.Coverage

/-!
# Scale phrases in a text that goes on

What `_SCALE_RE` and `_CURRENCY_RE` find in lines of text, and how much of it depends
on the lines that follow.
-/

namespace ChatDoc

open Foundation
open Foundation.Regex

section ScaleSearch

variable {u : PyUnicode} {prev : Option Char} {text more : List Char}

/-!
# Words
-/

def InLetters (word : String) : Prop := forall c, c ∈ word.toList -> c.isAlpha = true

theorem same_self {c : Char} (h : c.isAlpha = true) : u.sameLetter c c = true := by
  rw [u.same_ascii c c (toNat_lt_of_isAlpha h) (toNat_lt_of_isAlpha h)]
  exact beq_self_eq_true _

theorem space_of_isAlpha {c : Char} (h : c.isAlpha = true) : u.space c = false := by
  rw [Bool.eq_false_iff]
  intro hspace
  rw [isAlpha_of_space hspace] at h
  cases h

theorem blank_spaces : forall c, c ∈ [' '] -> u.space c = true := by
  rw [List.forall_mem_singleton]
  exact space_blank

theorem first_ignoringCase_self {word : String} (h : InLetters word) (prev : Option Char)
    (rest : List Char) :
    (ignoringCase u word).first prev (word.toList ++ rest) = some ⟨word.toList, [], rest⟩ :=
  first_literal_self (fun c hc => same_self (h c hc)) prev rest

theorem stays_ignoringCase {word : String} (h : InLetters word) :
    (ignoringCase u word).Stays '\n' :=
  stays_literal fun c hc => u.space_same c '\n' (h c hc) space_newline

theorem inLetters_of_all {word : String} (h : word.toList.all Char.isAlpha = true) :
    InLetters word := List.all_eq_true.mp h

theorem inLetters_in : InLetters "in" := inLetters_of_all (by decide)

theorem inLetters_thousands : InLetters "thousands" := inLetters_of_all (by decide)

theorem inLetters_millions : InLetters "millions" := inLetters_of_all (by decide)

theorem inLetters_billions : InLetters "billions" := inLetters_of_all (by decide)

theorem inLetters_except : InLetters "except" := inLetters_of_all (by decide)

theorem inLetters_dollars : InLetters "dollars" := inLetters_of_all (by decide)

/-!
# The phrase
-/

/-- `(thousands|millions|billions)\b`. -/
def scaleWord (u : PyUnicode) : Regex :=
  .seq
    (.group (.alt (ignoringCase u "thousands")
      (.alt (ignoringCase u "millions") (ignoringCase u "billions"))))
    (wordBoundary u)

theorem stays_scaleWord : (scaleWord u).Stays '\n' :=
  ⟨⟨stays_ignoringCase inLetters_thousands, stays_ignoringCase inLetters_millions,
    stays_ignoringCase inLetters_billions⟩, True.intro⟩

theorem first_scaleWord_of_neg {c : Char} (rest : List Char)
    (hc : forall d : Char, d ∈ ['t', 'm', 'b'] -> u.sameLetter d c = false) :
    (scaleWord u).first prev (c :: rest) = none := by
  have hrun (word : String) (d : Char) (tail : List Char) (hword : word.toList = d :: tail)
      (hd : d ∈ ['t', 'm', 'b']) : (ignoringCase u word).run prev (c :: rest) = [] := by
    rw [ignoringCase, hword]
    exact run_literal_of_neg tail rest (hc d hd)
  rw [first_eq_none, scaleWord, run, run, run, run,
    hrun "thousands" 't' _ rfl (by decide), hrun "millions" 'm' _ rfl (by decide),
    hrun "billions" 'b' _ rfl (by decide)]
  rfl

theorem first_scaleWord_of_space {c : Char} (rest : List Char) (hc : u.space c = true) :
    (scaleWord u).first prev (c :: rest) = none := by
  apply first_scaleWord_of_neg
  intro d hd
  have halpha : d.isAlpha = true := by
    have hall : ['t', 'm', 'b'].all Char.isAlpha = true := by decide
    exact List.all_eq_true.mp hall d hd
  exact u.space_same d c halpha hc

def afterIn (u : PyUnicode) (prev : Option Char) (hit : Hit) : Option Hit :=
  if 1 ≤ (hit.rest.takeWhile u.space).length then
    ((scaleWord u).andThen (hit.last prev)
      ⟨hit.rest.takeWhile u.space, [], hit.rest.dropWhile u.space⟩).map hit.before
  else none

theorem first_scaleCore :
    (scaleCore u).first prev text =
      ((ignoringCase u "in").first prev text).bind (afterIn u prev) := by
  have hcore : scaleCore u =
      .seq (ignoringCase u "in") (.seq (.many u.space 1 none) (scaleWord u)) := rfl
  have hsingle : ((ignoringCase u "in").run prev text).length ≤ 1 := run_literal_length _ _
  rw [hcore, first_seq_of_single hsingle]
  congr 1
  funext hit
  rw [andThen, first_many_seq 1 fun _ c rest hc => first_scaleWord_of_space rest hc, afterIn]
  split <;> rfl

/-- An "in" at the very end of the lines, which the text behind them may complete. -/
def InPending (u : PyUnicode) (prev : Option Char) (text : List Char) : Prop :=
  exists hit, (ignoringCase u "in").first prev text = some hit ∧ hit.rest.all u.space = true

theorem afterIn_extend {hit : Hit} (hlast : hit.rest.getLast? = some '\n')
    (hshown : hit.rest.all u.space = false) :
    afterIn u prev (hit.extend more) = (afterIn u prev hit).map fun h => h.extend more := by
  have hrest : (hit.extend more).rest = hit.rest ++ more := rfl
  have hword (p : Option Char) : (scaleWord u).first p (hit.rest.dropWhile u.space ++ more) =
      ((scaleWord u).first p (hit.rest.dropWhile u.space)).map fun h => h.extend more :=
    first_of_stays stays_scaleWord p more (getLast?_dropWhile hlast hshown)
  rw [afterIn, afterIn, hrest, takeWhile_append_of_not_all hshown,
    dropWhile_append_of_not_all hshown]
  split
  · rw [andThen, andThen, hword, Option.map_map, Option.map_map, Option.map_map, Option.map_map]
    rfl
  · rfl

theorem first_scaleCore_append (hlast : text.getLast? = some '\n')
    (hpending : ¬ InPending u prev text) (more : List Char) :
    (scaleCore u).first prev (text ++ more) =
      ((scaleCore u).first prev text).map fun hit => hit.extend more := by
  rw [first_scaleCore, first_scaleCore,
    first_of_stays (stays_ignoringCase inLetters_in) prev more hlast]
  cases hin : (ignoringCase u "in").first prev text with
  | none => rfl
  | some hit =>
      have hshown : hit.rest.all u.space = false := by
        rw [Bool.eq_false_iff]
        intro hall
        exact hpending ⟨hit, hin, hall⟩
      exact afterIn_extend (getLast?_rest (stays_ignoringCase inLetters_in) hlast hin) hshown

theorem first_scaleCore_of_pending (h : InPending u prev text) :
    (scaleCore u).first prev text = none := by
  rcases h with ⟨hit, hin, hall⟩
  have hnil : hit.rest.dropWhile u.space = [] := dropWhile_eq_nil_iff_all.mpr hall
  rw [first_scaleCore, hin, Option.bind_some, afterIn, hnil]
  split
  · rfl
  · rfl

theorem searchFrom_scaleCore_of_space (h : text.all u.space = true) :
    (scaleCore u).searchFrom prev text = none := by
  induction text generalizing prev with
  | nil => rfl
  | cons c rest ih =>
      rw [List.all_cons, Bool.and_eq_true] at h
      have hin : (ignoringCase u "in").first prev (c :: rest) = none :=
        first_literal_of_neg _ _ (u.space_same 'i' c (by decide) h.left)
      rw [searchFrom, first_scaleCore, hin, Option.bind_none, Option.none_or]
      exact ih h.right

theorem searchFrom_scaleCore_of_pending {c : Char} {rest : List Char}
    (h : InPending u prev (c :: rest)) (prev' : Option Char) :
    (scaleCore u).searchFrom prev' rest = none := by
  rcases h with ⟨hit, hin, hall⟩
  have hword : ignoringCase u "in" = .literal u.sameLetter ['i', 'n'] := rfl
  rw [hword, first_literal_cons] at hin
  split at hin
  · cases rest with
    | nil =>
        rw [first_literal_nil] at hin
        cases hin
    | cons d spaces =>
        rw [first_literal_cons] at hin
        split at hin
        · cases hin
          have hspaces : spaces.all u.space = true := hall
          have hsecond : (ignoringCase u "in").first prev' (d :: spaces) = none := by
            rw [hword, first_literal_cons]
            split
            · cases spaces with
              | nil => rfl
              | cons e spaces =>
                  rw [List.all_cons, Bool.and_eq_true] at hspaces
                  rw [first_literal_of_neg _ _ (u.space_same 'n' e (by decide) hspaces.left)]
                  rfl
            · rfl
          rw [searchFrom, first_scaleCore, hsecond, Option.bind_none, Option.none_or]
          exact searchFrom_scaleCore_of_space hspaces
        · cases hin
  · cases hin

/-- A phrase that the lines hold is the one found, whatever follows them. -/
theorem searchFrom_scaleCore_append {hit : Hit} (hlast : text.getLast? = some '\n')
    (h : (scaleCore u).searchFrom prev text = some hit) (more : List Char) :
    (scaleCore u).searchFrom prev (text ++ more) = some (hit.extend more) := by
  induction text generalizing prev with
  | nil => cases hlast
  | cons c rest ih =>
      rw [searchFrom] at h
      rw [List.cons_append, searchFrom, ← List.cons_append]
      cases hfirst : (scaleCore u).first prev (c :: rest) with
      | some found =>
          have hpending : ¬ InPending u prev (c :: rest) := by
            intro hpending
            rw [first_scaleCore_of_pending hpending] at hfirst
            cases hfirst
          rw [hfirst, Option.some_or] at h
          cases h
          rw [first_scaleCore_append hlast hpending, hfirst]
          rfl
      | none =>
          rw [hfirst, Option.none_or] at h
          have hpending : ¬ InPending u prev (c :: rest) := by
            intro hpending
            rw [searchFrom_scaleCore_of_pending hpending] at h
            cases h
          cases rest with
          | nil => cases h
          | cons d rest =>
              rw [List.getLast?_cons_cons] at hlast
              rw [first_scaleCore_append (by rwa [List.getLast?_cons_cons]) hpending, hfirst]
              exact ih hlast h

/-- Where the lines hold none, the search goes on behind them, unless the text there
completes a pending "in". -/
theorem searchFrom_scaleCore_skip {c : Char} {rest : List Char}
    (hlast : text.getLast? = some '\n') (h : (scaleCore u).searchFrom prev text = none)
    (hspace : u.space c = false)
    (hc : forall d : Char, d ∈ ['t', 'm', 'b'] -> u.sameLetter d c = false) :
    (scaleCore u).searchFrom prev (text ++ c :: rest) =
      (scaleCore u).searchFrom (some '\n') (c :: rest) := by
  induction text generalizing prev with
  | nil => cases hlast
  | cons d text ih =>
      rw [searchFrom, Option.or_eq_none_iff] at h
      have hfirst : (scaleCore u).first prev (d :: text ++ c :: rest) = none := by
        by_cases hpending : InPending u prev (d :: text)
        · rcases hpending with ⟨hit, hin, hall⟩
          have hdrop : (hit.rest ++ c :: rest).dropWhile u.space = c :: rest :=
            dropWhile_stop (List.all_eq_true.mp hall) hspace
          have hrest : (hit.extend (c :: rest)).rest = hit.rest ++ c :: rest := rfl
          rw [first_scaleCore, first_of_stays (stays_ignoringCase inLetters_in) prev _ hlast,
            hin, Option.map_some, Option.bind_some, afterIn, hrest, hdrop, andThen]
          split
          · rw [first_scaleWord_of_neg rest hc]
            rfl
          · rfl
        · rw [first_scaleCore_append hlast hpending, h.left]
          rfl
      rw [List.cons_append] at hfirst ⊢
      rw [searchFrom, hfirst, Option.none_or]
      cases text with
      | nil =>
          have hd : d = '\n' := Option.some.inj hlast
          rw [hd]
          rfl
      | cons e text =>
          rw [List.getLast?_cons_cons] at hlast
          exact ih hlast h.right

/-!
# A line with the phrase
-/

theorem boundary_line_end {c : Char} (h : c.isAlpha = true)
    (rest : List Char) :
    Assertion.boundary u.word (some c) ('\n' :: rest).head? = true := by
  have hword : u.word '\n' = false := u.space_word '\n' space_newline
  rw [Assertion.boundary, Option.any_some, word_of_isAlpha h, List.head?_cons,
    Option.any_some, hword]
  rfl

theorem first_scaleWord_line {word : String} (hletters : InLetters word)
    (hne : word.toList ≠ [])
    (hword : forall prev rest,
      (Regex.alt (ignoringCase u "thousands")
        (.alt (ignoringCase u "millions") (ignoringCase u "billions"))).first prev
          (word.toList ++ rest) = some ⟨word.toList, [], rest⟩)
    (prev : Option Char) (rest : List Char) :
    (scaleWord u).first prev (word.toList ++ '\n' :: rest) =
      some ⟨word.toList, [word.toList], '\n' :: rest⟩ := by
  have hgroup : (Regex.group (.alt (ignoringCase u "thousands")
      (.alt (ignoringCase u "millions") (ignoringCase u "billions")))).first prev
        (word.toList ++ '\n' :: rest) = some ⟨word.toList, [word.toList], '\n' :: rest⟩ := by
    rw [first_group, hword]
    rfl
  apply first_seq_of_first hgroup
  rcases List.getLast?_isSome.mpr hne |> Option.isSome_iff_exists.mp with ⟨c, hc⟩
  have halpha : c.isAlpha = true := hletters c (List.mem_of_getLast? hc)
  have hlast : Hit.last prev ⟨word.toList, [word.toList], '\n' :: rest⟩ = some c := by
    rw [Hit.last, hc]
    rfl
  rw [andThen, wordBoundary, first_assertion, hlast, if_pos (boundary_line_end halpha rest)]
  rw [Option.map_some, Hit.before, Hit.fallen, List.append_nil, List.append_nil]

theorem first_scaleWord_thousands (prev : Option Char) (rest : List Char) :
    (scaleWord u).first prev ("thousands".toList ++ '\n' :: rest) =
      some ⟨"thousands".toList, ["thousands".toList], '\n' :: rest⟩ := by
  apply first_scaleWord_line inLetters_thousands (List.cons_ne_nil _ _)
  intro prev rest
  rw [first_alt, first_ignoringCase_self inLetters_thousands]
  rfl

theorem first_scaleWord_millions (prev : Option Char) (rest : List Char) :
    (scaleWord u).first prev ("millions".toList ++ '\n' :: rest) =
      some ⟨"millions".toList, ["millions".toList], '\n' :: rest⟩ := by
  apply first_scaleWord_line inLetters_millions (List.cons_ne_nil _ _)
  intro prev rest
  have hother : (ignoringCase u "thousands").first prev ("millions".toList ++ rest) = none := by
    have hsame : u.sameLetter 't' 'm' = false := same_eq (by decide)
    exact first_literal_of_neg _ _ hsame
  rw [first_alt, first_alt, hother, first_ignoringCase_self inLetters_millions]
  rfl

theorem first_scaleCore_line {word : String} {c : Char} {tail : List Char}
    (hcons : word.toList = c :: tail) (hc : u.space c = false) (rest : List Char)
    (hword : forall prev, (scaleWord u).first prev (word.toList ++ '\n' :: rest) =
      some ⟨word.toList, [word.toList], '\n' :: rest⟩)
    (prev : Option Char) :
    (scaleCore u).first prev ("in ".toList ++ word.toList ++ '\n' :: rest) =
      some ⟨"in ".toList ++ word.toList, [word.toList], '\n' :: rest⟩ := by
  have hin : (ignoringCase u "in").first prev
      ("in ".toList ++ word.toList ++ '\n' :: rest) =
        some ⟨"in".toList, [], ' ' :: (word.toList ++ '\n' :: rest)⟩ :=
    first_ignoringCase_self inLetters_in prev (' ' :: (word.toList ++ '\n' :: rest))
  have htake : (' ' :: (word.toList ++ '\n' :: rest)).takeWhile u.space = [' '] := by
    rw [hcons, List.cons_append]
    exact takeWhile_stop blank_spaces hc
  have hdrop : (' ' :: (word.toList ++ '\n' :: rest)).dropWhile u.space =
      word.toList ++ '\n' :: rest := by
    rw [hcons, List.cons_append]
    exact dropWhile_stop blank_spaces hc
  have hone : 1 ≤ [' '].length := Nat.le_refl 1
  rw [first_scaleCore, hin, Option.bind_some, afterIn, htake, hdrop, if_pos hone, andThen,
    hword]
  rfl

/-!
# The note
-/

/-- `except\s+([^.\n]{0,80})`. -/
def exceptBody (u : PyUnicode) : Regex :=
  .seq (ignoringCase u "except")
    (.seq (.many u.space 1 none)
      (.group (.many (fun c => c != '.' && c != '\n') 0 (some 80))))

/-- The white space, with a comma in it, that `\s*,?\s*` takes, and the rest. -/
def noteLead (u : PyUnicode) (text : List Char) : List Char × List Char :=
  match text.dropWhile u.space with
  | ',' :: rest =>
      (text.takeWhile u.space ++ ',' :: rest.takeWhile u.space, rest.dropWhile u.space)
  | rest => (text.takeWhile u.space, rest)

theorem blind_exceptBody : (exceptBody u).Blind :=
  blind_seq (blind_literal _ _) (blind_seq (blind_many _ _ _) (blind_group (blind_many _ _ _)))

theorem blind_exceptPart : (exceptPart u).Blind :=
  blind_seq (blind_many _ _ _) (blind_seq (blind_maybe (blind_one _))
    (blind_seq (blind_many _ _ _) blind_exceptBody))

theorem first_exceptBody_of_neg {c : Char} (rest : List Char)
    (hc : u.sameLetter 'e' c = false) : (exceptBody u).first prev (c :: rest) = none := by
  have hword : (ignoringCase u "except").run prev (c :: rest) = [] :=
    run_literal_of_neg _ _ hc
  rw [first_eq_none, exceptBody, run, hword]
  rfl

theorem first_spaces_exceptBody :
    (Regex.seq (.many u.space 0 none) (exceptBody u)).first prev text =
      (exceptBody u).andThen prev ⟨text.takeWhile u.space, [], text.dropWhile u.space⟩ := by
  rw [first_many_seq 0 fun _ c rest hc =>
    first_exceptBody_of_neg rest (u.space_same 'e' c (by decide) hc), if_pos (Nat.zero_le _)]

theorem same_e_comma : u.sameLetter 'e' ',' = false := same_eq (by decide)

def commaPart (u : PyUnicode) : Regex :=
  .seq (.maybe (.one fun c => c == ',')) (.seq (.many u.space 0 none) (exceptBody u))

def bodyAt (u : PyUnicode) (text : List Char) : Option Hit := (exceptBody u).first none text

theorem first_commaPart_comma (rest : List Char) :
    (commaPart u).first prev (',' :: rest) =
      (bodyAt u (rest.dropWhile u.space)).map
        (Hit.before ⟨',' :: rest.takeWhile u.space, [], rest.dropWhile u.space⟩) := by
  have hnone : (Regex.seq (.many u.space 0 none) (exceptBody u)).first prev (',' :: rest) =
      none := by
    have hdrop : (',' :: rest).dropWhile u.space = ',' :: rest :=
      List.dropWhile_cons_of_neg (Bool.eq_false_iff.mp space_comma)
    rw [first_spaces_exceptBody, andThen, hdrop, first_exceptBody_of_neg rest same_e_comma]
    rfl
  rw [commaPart, first_maybe_one_seq, hnone, Option.or_none, if_pos (beq_self_eq_true ','),
    andThen, first_spaces_exceptBody, andThen, blind_exceptBody.first _ none, bodyAt,
    Option.map_map]
  cases (exceptBody u).first none (rest.dropWhile u.space) with
  | none => rfl
  | some hit => rfl

theorem first_commaPart_of_ne (h : text.head? ≠ some ',') :
    (commaPart u).first prev text =
      (bodyAt u (text.dropWhile u.space)).map
        (Hit.before ⟨text.takeWhile u.space, [], text.dropWhile u.space⟩) := by
  have hspaces : (commaPart u).first prev text =
      (Regex.seq (.many u.space 0 none) (exceptBody u)).first prev text := by
    cases text with
    | nil => rfl
    | cons c rest =>
        have hc : (c == ',') = false := by
          rw [beq_eq_false_iff_ne]
          intro heq
          rw [heq] at h
          exact h rfl
        rw [commaPart, first_maybe_one_seq, hc]
        rfl
  rw [hspaces, first_spaces_exceptBody, andThen, blind_exceptBody.first _ none, bodyAt]

theorem first_exceptPart :
    (exceptPart u).first prev text =
      (bodyAt u (noteLead u text).2).map
        (Hit.before ⟨(noteLead u text).1, [], (noteLead u text).2⟩) := by
  have hpart : exceptPart u = .seq (.many u.space 0 none) (commaPart u) := rfl
  have hidem : (text.dropWhile u.space).dropWhile u.space = text.dropWhile u.space :=
    List.dropWhile_idempotent u.space text
  rw [hpart, first_many_seq_greedy, andThen]
  · rw [noteLead]
    split
    · rename_i rest heq
      rw [heq, first_commaPart_comma, Option.map_map]
      cases bodyAt u (rest.dropWhile u.space) with
      | none => rfl
      | some hit =>
          dsimp only [Option.map_some, Function.comp_apply, Hit.before]
          rw [List.append_assoc, List.nil_append]
    · rename_i rest hcomma
      have hhead : (text.dropWhile u.space).head? ≠ some ',' := by
        intro hhead
        rcases List.head?_eq_some_iff.mp hhead with ⟨tail, htail⟩
        exact hcomma tail htail
      have htake : (text.dropWhile u.space).takeWhile u.space = [] := by
        have hsplit :=
          List.takeWhile_append_dropWhile (p := u.space) (l := text.dropWhile u.space)
        rw [hidem] at hsplit
        exact List.append_left_eq_self.mp hsplit
      dsimp only
      rw [first_commaPart_of_ne hhead, hidem, htake, Option.map_map]
      cases bodyAt u (text.dropWhile u.space) with
      | none => rfl
      | some hit =>
          dsimp only [Option.map_some, Function.comp_apply, Hit.before]
          rw [List.nil_append, List.nil_append]
  · intro hnone prev' c rest hc hdrop
    have hcomma : (c :: rest).head? ≠ some ',' := by
      intro hhead
      cases hhead
      rw [space_comma] at hc
      cases hc
    rw [first_commaPart_of_ne hcomma, hdrop, Option.map_eq_none_iff]
    by_cases hhead : (text.dropWhile u.space).head? = some ','
    · rcases List.head?_eq_some_iff.mp hhead with ⟨tail, htail⟩
      rw [htail]
      exact first_exceptBody_of_neg tail same_e_comma
    · rw [first_commaPart_of_ne hhead, hidem, Option.map_eq_none_iff] at hnone
      exact hnone

theorem noteLead_append (text : List Char) :
    (noteLead u text).1 ++ (noteLead u text).2 = text := by
  rw [noteLead]
  split
  · rename_i rest heq
    dsimp only
    rw [List.append_assoc, List.cons_append, List.takeWhile_append_dropWhile, ← heq,
      List.takeWhile_append_dropWhile]
  · exact List.takeWhile_append_dropWhile

theorem getLast?_noteLead (h : (noteLead u text).2 ≠ []) {c : Char}
    (hlast : text.getLast? = some c) : (noteLead u text).2.getLast? = some c := by
  rw [← noteLead_append (u := u) text, List.getLast?_append_of_ne_nil _ h] at hlast
  exact hlast

theorem noteLead_of_comma {rest : List Char} (h : text.dropWhile u.space = ',' :: rest) :
    noteLead u text =
      (text.takeWhile u.space ++ ',' :: rest.takeWhile u.space, rest.dropWhile u.space) := by
  rw [noteLead, h]
  rfl

theorem noteLead_of_ne (h : (text.dropWhile u.space).head? ≠ some ',') :
    noteLead u text = (text.takeWhile u.space, text.dropWhile u.space) := by
  rw [noteLead]
  split
  · rename_i rest heq
    rw [heq] at h
    exact absurd rfl h
  · rfl

theorem noteLead_extend (h : (noteLead u text).2 ≠ []) (more : List Char) :
    noteLead u (text ++ more) = ((noteLead u text).1, (noteLead u text).2 ++ more) := by
  by_cases hcomma : (text.dropWhile u.space).head? = some ','
  · rcases List.head?_eq_some_iff.mp hcomma with ⟨rest, hrest⟩
    have hall : text.all u.space = false := by
      apply dropWhile_ne_nil_iff.mp
      rw [hrest]
      exact List.cons_ne_nil _ _
    have hdrop : (text ++ more).dropWhile u.space = ',' :: (rest ++ more) := by
      rw [dropWhile_append_of_not_all hall, hrest, List.cons_append]
    rw [noteLead_of_comma hrest] at h ⊢
    have hrestAll : rest.all u.space = false := dropWhile_ne_nil_iff.mp h
    rw [noteLead_of_comma hdrop, takeWhile_append_of_not_all hall,
      takeWhile_append_of_not_all hrestAll, dropWhile_append_of_not_all hrestAll]
  · rw [noteLead_of_ne hcomma] at h ⊢
    have hall : text.all u.space = false := dropWhile_ne_nil_iff.mp h
    have hdrop : (text ++ more).dropWhile u.space = text.dropWhile u.space ++ more :=
      dropWhile_append_of_not_all hall
    have hhead : ((text ++ more).dropWhile u.space).head? ≠ some ',' := by
      rw [hdrop, List.head?_append_of_ne_nil _ h]
      exact hcomma
    rw [noteLead_of_ne hhead, hdrop, takeWhile_append_of_not_all hall]

theorem noteLead_open (h : (noteLead u text).2 = []) {c : Char} (rest : List Char)
    (hspace : u.space c = false) (hcomma : c ≠ ',') :
    noteLead u (text ++ c :: rest) = (text, c :: rest) := by
  have hwhole : (noteLead u text).1 = text := by
    have happend := noteLead_append (u := u) text
    rwa [h, List.append_nil] at happend
  by_cases hhead : (text.dropWhile u.space).head? = some ','
  · rcases List.head?_eq_some_iff.mp hhead with ⟨tail, htail⟩
    have hall : text.all u.space = false := by
      apply dropWhile_ne_nil_iff.mp
      rw [htail]
      exact List.cons_ne_nil _ _
    have hdrop : (text ++ c :: rest).dropWhile u.space = ',' :: (tail ++ c :: rest) := by
      rw [dropWhile_append_of_not_all hall, htail, List.cons_append]
    rw [noteLead_of_comma htail] at h hwhole
    have htailAll : forall d, d ∈ tail -> u.space d = true := List.dropWhile_eq_nil_iff.mp h
    rw [noteLead_of_comma hdrop, takeWhile_append_of_not_all hall,
      takeWhile_stop htailAll hspace, dropWhile_stop htailAll hspace]
    rw [List.takeWhile_eq_self_iff.mpr htailAll] at hwhole
    exact congrArg (·, c :: rest) hwhole
  · rw [noteLead_of_ne hhead] at h
    have hall : forall d, d ∈ text -> u.space d = true := List.dropWhile_eq_nil_iff.mp h
    have hdrop : (text ++ c :: rest).dropWhile u.space = c :: rest :=
      dropWhile_stop hall hspace
    have hne : ((text ++ c :: rest).dropWhile u.space).head? ≠ some ',' := by
      rw [hdrop]
      intro heq
      exact hcomma (Option.some.inj heq)
    rw [noteLead_of_ne hne, hdrop, takeWhile_stop hall hspace]

def clauseChar (c : Char) : Bool := c != '.' && c != '\n'

def clause : Regex := .group (.many clauseChar 0 (some 80))

theorem total_clause : clause.Total := by
  intro prev text h
  rw [clause, first_group, Option.map_eq_none_iff] at h
  exact total_many _ _ _ _ h

theorem stays_clause : clause.Stays '\n' := by
  rw [clause, Stays, Stays]
  decide

theorem blind_clause : clause.Blind := blind_group (blind_many _ _ _)

def afterExcept (u : PyUnicode) (rest : List Char) : Option Hit :=
  if 1 ≤ (rest.takeWhile u.space).length then
    (clause.first none (rest.dropWhile u.space)).map
      (Hit.before ⟨rest.takeWhile u.space, [], rest.dropWhile u.space⟩)
  else none

theorem bodyAt_eq (text : List Char) :
    bodyAt u text =
      ((ignoringCase u "except").first none text).bind fun hit =>
        (afterExcept u hit.rest).map hit.before := by
  have hbody : exceptBody u =
      .seq (ignoringCase u "except") (.seq (.many u.space 1 none) clause) := rfl
  have hsingle : ((ignoringCase u "except").run none text).length ≤ 1 := run_literal_length _ _
  rw [bodyAt, hbody, first_seq_of_single hsingle]
  congr 1
  funext hit
  rw [andThen, first_seq_of_total total_clause, first_many, drop_greedy, afterExcept]
  have hgreedy : greedy u.space none hit.rest = hit.rest.takeWhile u.space := rfl
  rw [hgreedy]
  split
  · rw [Option.bind_some, andThen, blind_clause.first _ none]
  · rfl

theorem afterExcept_extend {rest : List Char} (hlast : rest.getLast? = some '\n')
    (hshown : rest.all u.space = false) (more : List Char) :
    afterExcept u (rest ++ more) = (afterExcept u rest).map fun hit => hit.extend more := by
  have hclause : clause.first none (rest.dropWhile u.space ++ more) =
      (clause.first none (rest.dropWhile u.space)).map fun hit => hit.extend more :=
    first_of_stays stays_clause none more (getLast?_dropWhile hlast hshown)
  rw [afterExcept, afterExcept, takeWhile_append_of_not_all hshown,
    dropWhile_append_of_not_all hshown]
  split
  · rw [hclause, Option.map_map, Option.map_map]
    rfl
  · rfl

theorem afterExcept_open {rest : List Char} (hne : rest ≠ []) (hall : rest.all u.space = true)
    {c : Char} (tail : List Char) (hspace : u.space c = false) :
    afterExcept u (rest ++ c :: tail) =
      (clause.first none (c :: tail)).map (Hit.before ⟨rest, [], c :: tail⟩) := by
  rw [List.all_eq_true] at hall
  have hsome : 1 ≤ rest.length := List.length_pos_iff.mpr hne
  rw [afterExcept, takeWhile_stop hall hspace, dropWhile_stop hall hspace, if_pos hsome]

/-- Nothing in the lines says where the note ends: they end in white space after the
phrase, perhaps with a comma, or after an "except". -/
def noteOpen (u : PyUnicode) (text : List Char) : Bool :=
  (noteLead u text).2.isEmpty ||
    ((ignoringCase u "except").first none (noteLead u text).2).any fun hit =>
      hit.rest.all u.space

def noteAfter (u : PyUnicode) (text : List Char) : Hit :=
  ((exceptPart u).first none text).getD (Hit.fallen text)

theorem noteAfter_eq (text : List Char) :
    noteAfter u text =
      ((bodyAt u (noteLead u text).2).map
        (Hit.before ⟨(noteLead u text).1, [], (noteLead u text).2⟩)).getD (Hit.fallen text) := by
  rw [noteAfter, first_exceptPart]

theorem noteAfter_of_shut (hlast : text.getLast? = some '\n') (hopen : noteOpen u text = false)
    (more : List Char) : noteAfter u (text ++ more) = (noteAfter u text).extend more := by
  rw [noteOpen, Bool.or_eq_false_iff] at hopen
  rcases hopen with ⟨hempty, hexcept⟩
  have hne : (noteLead u text).2 ≠ [] := List.isEmpty_eq_false_iff.mp hempty
  have hafter := getLast?_noteLead hne hlast
  have hbody : bodyAt u ((noteLead u text).2 ++ more) =
      (bodyAt u (noteLead u text).2).map fun hit => hit.extend more := by
    rw [bodyAt_eq, bodyAt_eq,
      first_of_stays (stays_ignoringCase inLetters_except) none more hafter]
    cases hword : (ignoringCase u "except").first none (noteLead u text).2 with
    | none => rfl
    | some hit =>
        rw [hword, Option.any_some] at hexcept
        have hrest := getLast?_rest (stays_ignoringCase inLetters_except) hafter hword
        have hextend : (hit.extend more).rest = hit.rest ++ more := rfl
        rw [Option.map_some, Option.bind_some, Option.bind_some, hextend,
          afterExcept_extend hrest hexcept, Option.map_map, Option.map_map]
        rfl
  rw [noteAfter_eq, noteAfter_eq, noteLead_extend hne, hbody]
  cases bodyAt u (noteLead u text).2 with
  | none => rfl
  | some hit => rfl

/-- An open note ends where the text behind the lines lets it end: nowhere in them if it
starts with no clause, or where its clause does. -/
theorem noteAfter_of_open (hlast : text.getLast? = some '\n') (hopen : noteOpen u text = true)
    {c : Char} (rest : List Char) (hspace : u.space c = false) (hcomma : c ≠ ',') :
    noteAfter u (text ++ c :: rest) =
        ((bodyAt u (c :: rest)).map (Hit.before ⟨text, [], c :: rest⟩)).getD
          (Hit.fallen (text ++ c :: rest)) ∨
      exists groups more, clause.first none (c :: rest) = some more ∧
        noteAfter u (text ++ c :: rest) = ⟨text ++ more.taken, groups, more.rest⟩ := by
  by_cases hempty : (noteLead u text).2 = []
  · left
    rw [noteAfter_eq, noteLead_open hempty rest hspace hcomma]
  · right
    have hafter := getLast?_noteLead hempty hlast
    rw [noteOpen, List.isEmpty_eq_false_iff.mpr hempty, Bool.false_or] at hopen
    cases hword : (ignoringCase u "except").first none (noteLead u text).2 with
    | none =>
        rw [hword] at hopen
        cases hopen
    | some hit =>
        rw [hword, Option.any_some] at hopen
        have hrest := getLast?_rest (stays_ignoringCase inLetters_except) hafter hword
        have hne : hit.rest ≠ [] := by
          intro hnil
          rw [hnil] at hrest
          cases hrest
        rcases Option.ne_none_iff_exists'.mp (total_clause none (c :: rest)) with ⟨more, hmore⟩
        have hextend : (hit.extend (c :: rest)).rest = hit.rest ++ c :: rest := rfl
        have hbody : bodyAt u ((noteLead u text).2 ++ c :: rest) =
            some ((hit.extend (c :: rest)).before
              (Hit.before ⟨hit.rest, [], c :: rest⟩ more)) := by
          rw [bodyAt_eq, first_of_stays (stays_ignoringCase inLetters_except) none _ hafter,
            hword, Option.map_some, Option.bind_some, hextend,
            afterExcept_open hne hopen rest hspace, hmore]
          rfl
        have htext : text = (noteLead u text).1 ++ (hit.taken ++ hit.rest) := by
          rw [taken_append_rest (List.mem_of_mem_head? hword), noteLead_append]
        refine ⟨hit.groups ++ more.groups, more, hmore, ?_⟩
        rw [noteAfter_eq, noteLead_extend hempty, hbody, Option.map_some, Option.getD_some]
        conv_rhs => rw [htext]
        simp only [Hit.before, Hit.extend, List.nil_append, List.append_assoc]

/-!
# The search
-/

theorem search_scaleRe (text : List Char) :
    (scaleRe u).search text =
      ((scaleCore u).search text).map fun hit => hit.before (noteAfter u hit.rest) := by
  have hnote (rest : List Char) :
      (exceptPart u).maybe.first none rest = some (noteAfter u rest) := by
    rw [first_maybe, noteAfter]
    cases (exceptPart u).first none rest <;> rfl
  rw [search, scaleRe, searchFrom_seq (total_maybe _) (blind_maybe blind_exceptPart), ← search]
  cases (scaleCore u).search text with
  | none => rfl
  | some hit =>
      rw [Option.bind_some, hnote]
      rfl

theorem detectScale_of_some {hit : Hit} (h : (scaleCore u).search text = some hit) :
    (detectScale u text).scale =
        (hit.groups ++ (noteAfter u hit.rest).groups).head?.map u.lower ∧
      (detectScale u text).note = some (hit.taken ++ (noteAfter u hit.rest).taken) := by
  rw [detectScale, search_scaleRe, h]
  exact ⟨rfl, rfl⟩

theorem getLast?_afterIn {hit out : Hit} (hlast : hit.rest.getLast? = some '\n')
    (h : afterIn u prev hit = some out) : out.rest.getLast? = some '\n' := by
  rw [afterIn] at h
  split at h
  · rcases Option.map_eq_some_iff.mp h with ⟨next, hnext, rfl⟩
    rcases Option.map_eq_some_iff.mp hnext with ⟨word, hword, rfl⟩
    have hshown : hit.rest.all u.space = false := by
      rw [← dropWhile_ne_nil_iff]
      intro hnil
      rw [hnil] at hword
      cases hword
    have hword' : word.rest.getLast? = some '\n' :=
      getLast?_rest stays_scaleWord (getLast?_dropWhile hlast hshown) hword
    exact hword'
  · cases h

theorem getLast?_searchFrom_scaleCore {hit : Hit} (hlast : text.getLast? = some '\n')
    (h : (scaleCore u).searchFrom prev text = some hit) : hit.rest.getLast? = some '\n' := by
  induction text generalizing prev with
  | nil => cases hlast
  | cons c rest ih =>
      rw [searchFrom] at h
      cases hfirst : (scaleCore u).first prev (c :: rest) with
      | some found =>
          rw [hfirst, Option.some_or] at h
          cases h
          rw [first_scaleCore] at hfirst
          rcases Option.bind_eq_some_iff.mp hfirst with ⟨start, hin, hafter⟩
          have hstart := getLast?_rest (stays_ignoringCase inLetters_in) hlast hin
          exact getLast?_afterIn hstart hafter
      | none =>
          rw [hfirst, Option.none_or] at h
          cases rest with
          | nil => cases h
          | cons d rest =>
              rw [List.getLast?_cons_cons] at hlast
              exact ih hlast h

theorem detectScale_of_shut {hit : Hit} (hlast : text.getLast? = some '\n')
    (h : (scaleCore u).search text = some hit) (hopen : noteOpen u hit.rest = false)
    (more : List Char) :
    (detectScale u (text ++ more)).scale = (detectScale u text).scale ∧
      (detectScale u (text ++ more)).note = (detectScale u text).note := by
  have hmore : (scaleCore u).search (text ++ more) = some (hit.extend more) :=
    searchFrom_scaleCore_append hlast h more
  have hnote : noteAfter u (hit.rest ++ more) = (noteAfter u hit.rest).extend more :=
    noteAfter_of_shut (getLast?_searchFrom_scaleCore hlast h) hopen more
  rcases detectScale_of_some h with ⟨hscale, htaken⟩
  rcases detectScale_of_some hmore with ⟨hscale', htaken'⟩
  have hrest : (hit.extend more).rest = hit.rest ++ more := rfl
  rw [hrest, hnote] at hscale' htaken'
  rw [hscale, hscale', htaken, htaken']
  exact ⟨rfl, rfl⟩

/-!
# Lines that are told apart
-/

theorem scale_of_line {word : String} {c : Char} {tail : List Char}
    (hlast : text.getLast? = some '\n') (h : (scaleCore u).search text = none)
    (hcons : word.toList = c :: tail) (hc : u.space c = false)
    (hlower : u.lower word.toList = word.toList) (rest : List Char)
    (hword : forall prev, (scaleWord u).first prev (word.toList ++ '\n' :: rest) =
      some ⟨word.toList, [word.toList], '\n' :: rest⟩) :
    (detectScale u (text ++ ("in ".toList ++ word.toList ++ '\n' :: rest))).scale =
      some word.toList := by
  have hspace : u.space 'i' = false := space_of_isAlpha (by decide)
  have hother : forall d : Char, d ∈ ['t', 'm', 'b'] -> u.sameLetter d 'i' = false := by
    intro d hd
    have hall : ['t', 'm', 'b'].all (fun d =>
        decide (d.toNat < 128 ∧ 'i'.toNat < 128 ∧ (d.toLower == 'i'.toLower) = false)) =
          true := by
      decide
    exact same_eq (of_decide_eq_true (List.all_eq_true.mp hall d hd))
  have hline := first_scaleCore_line (u := u) hcons hc rest hword (some '\n')
  have hsearch : (scaleCore u).search
      (text ++ ("in ".toList ++ word.toList ++ '\n' :: rest)) =
        some ⟨"in ".toList ++ word.toList, [word.toList], '\n' :: rest⟩ := by
    have hi : "in ".toList ++ word.toList ++ '\n' :: rest =
        'i' :: ("n ".toList ++ word.toList ++ '\n' :: rest) := rfl
    rw [hi] at hline ⊢
    rw [search, searchFrom_scaleCore_skip hlast h hspace hother, searchFrom, hline]
    rfl
  rw [(detectScale_of_some hsearch).left]
  dsimp only
  rw [List.cons_append, List.head?_cons, Option.map_some, hlower]

theorem first_clause_line {line : List Char} (hline : line.all clauseChar = true)
    (hshort : line.length ≤ 80) (prev : Option Char) (rest : List Char) :
    clause.first prev (line ++ '\n' :: rest) = some ⟨line, [line], '\n' :: rest⟩ := by
  have htake : (line ++ '\n' :: rest).takeWhile clauseChar = line :=
    takeWhile_stop (List.all_eq_true.mp hline) (by decide)
  have hgreedy : greedy clauseChar (some 80) (line ++ '\n' :: rest) = line := by
    rw [greedy, htake, List.take_of_length_le hshort]
  rw [clause, first_group, first_many, if_pos (Nat.zero_le _), hgreedy, List.drop_left]
  rfl

theorem bodyAt_except (rest : List Char) :
    bodyAt u ("except a".toList ++ '\n' :: rest) =
      some ⟨"except a".toList, [['a']], '\n' :: rest⟩ := by
  have ha : u.space 'a' = false := space_of_isAlpha (by decide)
  have htake : (' ' :: 'a' :: '\n' :: rest).takeWhile u.space = [' '] :=
    takeWhile_stop blank_spaces ha
  have hdrop : (' ' :: 'a' :: '\n' :: rest).dropWhile u.space = 'a' :: '\n' :: rest :=
    dropWhile_stop blank_spaces ha
  have hword : (ignoringCase u "except").first none ("except a".toList ++ '\n' :: rest) =
      some ⟨"except".toList, [], ' ' :: 'a' :: '\n' :: rest⟩ :=
    first_ignoringCase_self inLetters_except none (' ' :: 'a' :: '\n' :: rest)
  have hclause : clause.first none ('a' :: '\n' :: rest) =
      some ⟨['a'], [['a']], '\n' :: rest⟩ := by
    have hchars : ['a'].all clauseChar = true := by decide
    exact first_clause_line hchars (by decide) none rest
  have hone : 1 ≤ [' '].length := Nat.le_refl 1
  rw [bodyAt_eq, hword, Option.bind_some, afterExcept, htake, hdrop, if_pos hone, hclause]
  rfl

theorem note_of_except {hit : Hit} (hlast : text.getLast? = some '\n')
    (h : (scaleCore u).search text = some hit) (hopen : noteOpen u hit.rest = true)
    (rest : List Char) :
    (detectScale u (text ++ ("except a".toList ++ '\n' :: rest))).note =
      some (hit.taken ++ (hit.rest ++ "except a".toList)) := by
  have hmore : (scaleCore u).search (text ++ ("except a".toList ++ '\n' :: rest)) =
      some (hit.extend ("except a".toList ++ '\n' :: rest)) :=
    searchFrom_scaleCore_append hlast h _
  have hafter : (noteAfter u (hit.rest ++ ("except a".toList ++ '\n' :: rest))).taken =
      hit.rest ++ "except a".toList := by
    rcases noteAfter_of_open (c := 'e') (getLast?_searchFrom_scaleCore hlast h) hopen
      ("xcept a".toList ++ '\n' :: rest) (space_of_isAlpha (by decide)) (by decide) with
      hbody | ⟨groups, more, hclause, hnote⟩
    · have hline : 'e' :: ("xcept a".toList ++ '\n' :: rest) =
          "except a".toList ++ '\n' :: rest := rfl
      rw [hline, bodyAt_except] at hbody
      rw [hbody]
      rfl
    · have hline : clause.first none ("except a".toList ++ '\n' :: rest) =
          some ⟨"except a".toList, ["except a".toList], '\n' :: rest⟩ :=
        first_clause_line (by decide) (by decide) none rest
      have hmore : more.taken = "except a".toList := by
        rw [show 'e' :: ("xcept a".toList ++ '\n' :: rest) =
          "except a".toList ++ '\n' :: rest from rfl, hline] at hclause
        rw [← Option.some.inj hclause]
      rw [hmore] at hnote
      exact congrArg Hit.taken hnote
  have hrest : (hit.extend ("except a".toList ++ '\n' :: rest)).rest =
      hit.rest ++ ("except a".toList ++ '\n' :: rest) := rfl
  rw [(detectScale_of_some hmore).right, hrest, hafter]
  rfl

theorem note_of_stop {hit : Hit} (hlast : text.getLast? = some '\n')
    (h : (scaleCore u).search text = some hit) (hopen : noteOpen u hit.rest = true)
    (rest : List Char) :
    exists note, (detectScale u (text ++ '.' :: rest)).note = some (hit.taken ++ note) ∧
      (note = [] ∨ note = hit.rest) := by
  have hmore : (scaleCore u).search (text ++ '.' :: rest) = some (hit.extend ('.' :: rest)) :=
    searchFrom_scaleCore_append hlast h _
  have hsame : u.sameLetter 'e' '.' = false := same_eq (by decide)
  have hrest : (hit.extend ('.' :: rest)).rest = hit.rest ++ '.' :: rest := rfl
  refine ⟨(noteAfter u (hit.rest ++ '.' :: rest)).taken, ?_, ?_⟩
  · rw [(detectScale_of_some hmore).right, hrest]
    rfl
  · rcases noteAfter_of_open (getLast?_searchFrom_scaleCore hlast h) hopen rest
      space_stop (by decide) with hbody | ⟨groups, more, hclause, hnote⟩
    · left
      rw [hbody, bodyAt, first_exceptBody_of_neg rest hsame]
      rfl
    · right
      have hnil : more.taken = [] := by
        have hgreedy : greedy clauseChar (some 80) ('.' :: rest) = [] :=
          greedy_cons_of_neg (some 80) (by decide)
        rw [clause, first_group, first_many, hgreedy, if_pos (Nat.zero_le _)] at hclause
        rw [← Option.some.inj hclause]
        rfl
      rw [hnote, hnil]
      exact List.append_nil _

end ScaleSearch
end ChatDoc
