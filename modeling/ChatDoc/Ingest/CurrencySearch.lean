import ChatDoc.Ingest.ScaleSearch

/-!
# Currencies in lines of text

`_CURRENCY_RE` finds nothing across a line that starts with a full stop, so that what it
finds in lines before one is there whatever follows them.
-/

namespace ChatDoc

open Foundation
open Foundation.Regex

section CurrencySearch

variable {u : PyUnicode} {prev : Option Char} {text more tail : List Char} {hit : Hit}

def currencyName (u : PyUnicode) : Regex :=
  .alt (ignoringCase u "USD")
    (.alt (.seq (ignoringCase u "US") (.one fun c => c == '$'))
      (.seq (ignoringCase u "U")
        (.seq (.one fun c => c == '.')
          (.seq (ignoringCase u "S")
            (.seq (.one fun c => c == '.')
              (.seq (.many u.space 0 none) (ignoringCase u "dollars")))))))

theorem mem_run_currencyRe :
    hit ∈ (currencyRe u).run prev text ->
      exists h, h ∈ (currencyName u).run prev text ∧ h.rest = hit.rest := by
  intro h
  rcases mem_run_seq.mp h with ⟨start, hstart, named, hnamed, rfl⟩
  rcases mem_run_assertion.mp hstart with ⟨_, rfl⟩
  rcases mem_run_seq.mp hnamed with ⟨name, hname, stop, hstop, rfl⟩
  rcases mem_run_group.mp hname with ⟨inner, hinner, rfl⟩
  rcases mem_run_assertion.mp hstop with ⟨_, rfl⟩
  exact ⟨inner, hinner, rfl⟩

theorem first_currencyRe_of_neg {c : Char} (rest : List Char)
    (hc : u.sameLetter 'U' c = false) : (currencyRe u).first prev (c :: rest) = none := by
  rw [first_eq_none]
  apply List.eq_nil_iff_forall_not_mem.mpr
  intro hit hin
  rcases mem_run_currencyRe hin with ⟨name, hname, _⟩
  have hword (word : String) (chars : List Char) (hcons : word.toList = 'U' :: chars) :
      (ignoringCase u word).run prev (c :: rest) = [] := by
    rw [ignoringCase, hcons]
    exact run_literal_of_neg chars rest hc
  rcases mem_run_alt.mp hname with husd | hothers
  · rw [hword "USD" _ rfl] at husd
    cases husd
  · rcases mem_run_alt.mp hothers with hdollar | hpoints
    · rcases mem_run_seq.mp hdollar with ⟨letters, hletters, _⟩
      rw [hword "US" _ rfl] at hletters
      cases hletters
    · rcases mem_run_seq.mp hpoints with ⟨letter, hletter, _⟩
      rw [hword "U" _ rfl] at hletter
      cases hletter

theorem rest_in_lines {r : Regex} (hstays : r.Stays '\n') (hlast : text.getLast? = some '\n')
    (h : hit ∈ r.run prev (text ++ tail)) :
    exists lines, lines.getLast? = some '\n' ∧ hit.rest = lines ++ tail := by
  rcases List.getLast?_eq_some_iff.mp hlast with ⟨front, rfl⟩
  rw [← List.append_cons] at h
  rcases rest_of_stays hstays h with ⟨front', _, hrest⟩
  refine ⟨front' ++ ['\n'], List.getLast?_concat, ?_⟩
  rw [hrest, List.append_cons]

theorem spaces_before_stop {spaces rest : List Char}
    (hspaces : forall c, c ∈ spaces -> u.space c = true)
    (h : spaces ++ rest = text ++ '.' :: tail) :
    exists lines, text = spaces ++ lines ∧ rest = lines ++ '.' :: tail := by
  apply split_behind _ h
  intro hin
  have hstop := hspaces '.' hin
  rw [space_stop] at hstop
  cases hstop

theorem rest_of_currencyName (hlast : text.getLast? = some '\n')
    (h : hit ∈ (currencyName u).run prev (text ++ '.' :: tail)) :
    exists lines, lines.getLast? = some '\n' ∧ hit.rest = lines ++ '.' :: tail := by
  have hletters (word : String) (hword : InLetters word) : (ignoringCase u word).Stays '\n' :=
    stays_ignoringCase hword
  have hpoint : (Regex.one fun c => c == '.').Stays '\n' := by
    rw [Stays]
    decide
  rcases mem_run_alt.mp h with husd | hothers
  · exact rest_in_lines (hletters "USD" (inLetters_of_all (by decide))) hlast husd
  · rcases mem_run_alt.mp hothers with hdollar | hpoints
    · have hstays : (Regex.seq (ignoringCase u "US") (.one fun c => c == '$')).Stays '\n' := by
        constructor
        · exact hletters "US" (inLetters_of_all (by decide))
        · rw [Stays]
          decide
      exact rest_in_lines hstays hlast hdollar
    · rcases mem_run_seq.mp hpoints with ⟨h1, hr1, h1', hs1, rfl⟩
      rcases rest_in_lines (hletters "U" (inLetters_of_all (by decide))) hlast hr1 with
        ⟨lines1, hlast1, hrest1⟩
      rw [hrest1] at hs1
      rcases mem_run_seq.mp hs1 with ⟨h2, hr2, h2', hs2, rfl⟩
      rcases rest_in_lines hpoint hlast1 hr2 with ⟨lines2, hlast2, hrest2⟩
      rw [hrest2] at hs2
      rcases mem_run_seq.mp hs2 with ⟨h3, hr3, h3', hs3, rfl⟩
      rcases rest_in_lines (hletters "S" (inLetters_of_all (by decide))) hlast2 hr3 with
        ⟨lines3, hlast3, hrest3⟩
      rw [hrest3] at hs3
      rcases mem_run_seq.mp hs3 with ⟨h4, hr4, h4', hs4, rfl⟩
      rcases rest_in_lines hpoint hlast3 hr4 with ⟨lines4, hlast4, hrest4⟩
      rw [hrest4] at hs4
      rcases mem_run_seq.mp hs4 with ⟨h5, hr5, h5', hs5, rfl⟩
      rcases mem_run_many.mp hr5 with ⟨_, _, htext, hspaces, _⟩
      rcases spaces_before_stop hspaces htext with ⟨lines5, hlines, hrest5⟩
      rw [hrest5] at hs5
      cases lines5 with
      | nil =>
          -- the full stop is not the first letter of "dollars"
          have hnone : (ignoringCase u "dollars").run (h5.last (h4.last (h3.last (h2.last
              (h1.last prev))))) ('.' :: tail) = [] :=
            run_literal_of_neg _ _ (same_eq (by decide))
          rw [List.nil_append, hnone] at hs5
          cases hs5
      | cons c lines =>
          rw [hlines, List.getLast?_append_of_ne_nil _ (List.cons_ne_nil c lines)] at hlast4
          have hdollars := rest_in_lines (hletters "dollars" inLetters_dollars) hlast4 hs5
          exact hdollars

theorem first_currencyRe_of_stop (hlast : text.getLast? = some '\n')
    (h : (currencyRe u).first prev (text ++ '.' :: tail) ≠ none) (more : List Char) :
    (currencyRe u).first prev (text ++ more) ≠ none := by
  rcases Option.ne_none_iff_exists'.mp h with ⟨hit, hhit⟩
  have hin := List.mem_of_mem_head? hhit
  rcases mem_run_currencyRe hin with ⟨name, hname, hsame⟩
  rcases rest_of_currencyName hlast hname with ⟨lines, hlines, hrest⟩
  have hne : lines ≠ [] := by
    intro hnil
    rw [hnil] at hlines
    cases hlines
  rw [hsame] at hrest
  rw [eq_extend hrest] at hin
  let found : Hit := ⟨hit.taken, hit.groups, lines⟩
  have hlocal (more : List Char) : found.extend more ∈ (currencyRe u).run prev (text ++ more) <->
      found ∈ (currencyRe u).run prev text := mem_run_append hne
  have hmore := (hlocal more).mpr ((hlocal ('.' :: tail)).mp hin)
  intro hnone
  rw [first_eq_none.mp hnone] at hmore
  cases hmore

theorem first_currencyRe_line (rest : List Char) :
    (currencyRe u).first (some '\n') ("USD".toList ++ '\n' :: rest) =
      some ⟨"USD".toList, ["USD".toList], '\n' :: rest⟩ := by
  have hstart : (wordBoundary u).first (some '\n') ("USD".toList ++ '\n' :: rest) =
      some (Hit.fallen ("USD".toList ++ '\n' :: rest)) := by
    have hbefore : u.word '\n' = false := u.space_word '\n' space_newline
    have hU : u.word 'U' = true := word_of_isAlpha (by decide)
    have hboundary : Assertion.boundary u.word (some '\n') (some 'U') = true := by
      rw [Assertion.boundary, Option.any_some, Option.any_some, hbefore, hU]
      rfl
    rw [wordBoundary, first_assertion]
    exact if_pos hboundary
  have hname : (Regex.group (currencyName u)).first (some '\n')
      ("USD".toList ++ '\n' :: rest) =
        some ⟨"USD".toList, ["USD".toList], '\n' :: rest⟩ := by
    have hletters : InLetters "USD" := inLetters_of_all (by decide)
    rw [first_group, currencyName, first_alt, first_ignoringCase_self hletters]
    rfl
  have hstop : (wordBoundary u).first (some 'D') ('\n' :: rest) =
      some (Hit.fallen ('\n' :: rest)) := by
    rw [wordBoundary, first_assertion]
    exact if_pos (boundary_line_end (by decide) rest)
  have hnamed : (Regex.seq (.group (currencyName u)) (wordBoundary u)).first (some '\n')
      ("USD".toList ++ '\n' :: rest) =
        some ⟨"USD".toList, ["USD".toList], '\n' :: rest⟩ := by
    apply first_seq_of_first hname
    change ((wordBoundary u).first (some 'D') ('\n' :: rest)).map _ = _
    rw [hstop]
    rfl
  apply first_seq_of_first hstart
  rw [andThen_fallen]
  exact hnamed

theorem search_currencyRe_line (hlast : text.getLast? = some '\n') (rest : List Char) :
    ((currencyRe u).search (text ++ ("USD".toList ++ '\n' :: rest))).isSome = true := by
  apply searchFrom_isSome_append
  apply searchFrom_isSome_of_first
  rw [hlast, Option.some_or, first_currencyRe_line]
  exact Option.some_ne_none _

theorem searchFrom_currencyRe_stop (prev : Option Char) (rest : List Char) :
    (currencyRe u).searchFrom prev ('.' :: '\n' :: rest) =
      (currencyRe u).searchFrom (some '\n') rest := by
  rw [searchFrom, first_currencyRe_of_neg _ (same_eq (by decide)),
    Option.none_or, searchFrom,
    first_currencyRe_of_neg _ (u.space_same 'U' '\n' (by decide) space_newline), Option.none_or]

end CurrencySearch
end ChatDoc
