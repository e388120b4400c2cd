import ChatDoc.Foundation.Search

/-!
# Backtracking regular expressions

A matcher in the manner of `re`: all ways to match at a place, the preferred one
first.  Repetition is greedy and of single characters only, which is all that
the expressions of this development need.
-/

namespace Foundation

/-- One way to match: what it took, the groups in it, and the text after it. -/
structure Hit where
  taken : List Char
  groups : List (List Char)
  rest : List Char
deriving DecidableEq

namespace Hit

def fallen (text : List Char) : Hit := ⟨[], [], text⟩

def last (prev : Option Char) (hit : Hit) : Option Char := hit.taken.getLast?.or prev

def before (hit next : Hit) : Hit :=
  ⟨hit.taken ++ next.taken, hit.groups ++ next.groups, next.rest⟩

def grouped (hit : Hit) : Hit := { hit with groups := hit.taken :: hit.groups }

end Hit

/-- `many p least most` is `[p]{least,most}`. -/
inductive Regex where
  | assertion (a : Assertion)
  | one (p : Char -> Bool)
  | many (p : Char -> Bool) (least : Nat) (most : Option Nat)
  | seq (r s : Regex)
  | alt (r s : Regex)
  | group (r : Regex)

/-- The ways to split off characters of a kind, the longest first. -/
def splits (p : Char -> Bool) :
    Option Nat -> List Char -> List (List Char × List Char)
  | some 0, text => [([], text)]
  | _, [] => [([], [])]
  | most, c :: rest =>
      if p c then
        (splits p (most.map (· - 1)) rest).map
          (fun split => (c :: split.1, split.2)) ++ [([], c :: rest)]
      else [([], c :: rest)]

namespace Regex

def empty : Regex := .assertion fun _ _ => true

def maybe (r : Regex) : Regex := .alt r .empty

def literal (same : Char -> Char -> Bool) : List Char -> Regex
  | [] => .empty
  | c :: rest => .seq (.one (same c)) (literal same rest)

/-- All ways to match at the front of a text that stands after `prev`. -/
def run : Regex -> Option Char -> List Char -> List Hit
  | .assertion a, prev, text => if a prev text.head? then [Hit.fallen text] else []
  | .one p, _, text =>
      match text with
      | [] => []
      | c :: rest => if p c then [⟨[c], [], rest⟩] else []
  | .many p least most, _, text =>
      ((splits p most text).filter fun split => least ≤ split.1.length).map
        fun split => ⟨split.1, [], split.2⟩
  | .seq r s, prev, text =>
      (r.run prev text).flatMap fun hit =>
        (s.run (hit.last prev) hit.rest).map hit.before
  | .alt r s, prev, text => r.run prev text ++ s.run prev text
  | .group r, prev, text => (r.run prev text).map Hit.grouped

/-- `match` at the front of a text. -/
def first (r : Regex) (prev : Option Char) (text : List Char) : Option Hit :=
  (r.run prev text).head?

/-- `search`, in a text that stands after `prev`. -/
def searchFrom (r : Regex) : Option Char -> List Char -> Option Hit
  | prev, [] => r.first prev []
  | prev, c :: rest => (r.first prev (c :: rest)).or (searchFrom r (some c) rest)

def search (r : Regex) (text : List Char) : Option Hit := r.searchFrom none text

/-- `findall`, for an expression that matches no empty text: the scan goes on
after a match where that match ends. -/
def findallFrom (r : Regex) : Nat -> Option Char -> List Char -> List (List Char)
  | _, _, [] => []
  | skip + 1, _, c :: rest => findallFrom r skip (some c) rest
  | 0, prev, c :: rest =>
      match r.first prev (c :: rest) with
      | some hit =>
          hit.taken :: findallFrom r (hit.taken.length - 1) (some c) rest
      | none => findallFrom r 0 (some c) rest

def findall (r : Regex) (text : List Char) : List (List Char) :=
  r.findallFrom 0 none text

/-!
# The first match of each form
-/

variable {r s : Regex} {prev : Option Char} {text : List Char}

theorem first_assertion (a : Assertion) :
    (Regex.assertion a).first prev text =
      if a prev text.head? then some (Hit.fallen text) else none := by
  rw [first, run]
  split <;> rfl

theorem first_empty : empty.first prev text = some (Hit.fallen text) := rfl

theorem first_one_cons (p : Char -> Bool) (c : Char) (rest : List Char) :
    (Regex.one p).first prev (c :: rest) =
      if p c then some ⟨[c], [], rest⟩ else none := by
  rw [first, run]
  split <;> rfl

theorem first_alt : (r.alt s).first prev text = (r.first prev text).or (s.first prev text) := by
  rw [first, run, List.head?_append]
  rfl

theorem first_maybe :
    r.maybe.first prev text = (r.first prev text).or (some (Hit.fallen text)) := by
  rw [maybe, first_alt, first_empty]

theorem first_group : r.group.first prev text = (r.first prev text).map Hit.grouped := by
  rw [first, run, List.head?_map]
  rfl

theorem first_eq_none : r.first prev text = none <-> r.run prev text = [] := by
  rw [first, List.head?_eq_none_iff]

def andThen (s : Regex) (prev : Option Char) (hit : Hit) : Option Hit :=
  (s.first (hit.last prev) hit.rest).map hit.before

theorem first_seq :
    (r.seq s).first prev text = (r.run prev text).findSome? (s.andThen prev) := by
  rw [first, run, List.head?_flatMap]
  congr 1
  funext hit
  rw [List.head?_map]
  rfl

theorem first_seq_of_first {hit out : Hit} (h : r.first prev text = some hit)
    (hnext : s.andThen prev hit = some out) : (r.seq s).first prev text = some out := by
  rw [first] at h
  rcases List.head?_eq_some_iff.mp h with ⟨hits, hrun⟩
  rw [first_seq, hrun, List.findSome?_cons, hnext]

theorem andThen_fallen (s : Regex) (prev : Option Char) (text : List Char) :
    s.andThen prev (Hit.fallen text) = s.first prev text := by
  change (s.first prev text).map (Hit.fallen text).before = _
  cases s.first prev text <;> rfl

def Total (r : Regex) : Prop := forall prev text, r.first prev text ≠ none

theorem first_seq_of_total (hs : s.Total) :
    (r.seq s).first prev text = (r.first prev text).bind (s.andThen prev) := by
  rw [first_seq, first]
  cases r.run prev text with
  | nil => rfl
  | cons hit hits =>
      rw [List.findSome?_cons, List.head?_cons, Option.bind_some]
      cases hnext : s.andThen prev hit with
      | some _ => rfl
      | none =>
          rw [andThen, Option.map_eq_none_iff] at hnext
          exact absurd hnext (hs _ _)

theorem total_maybe (r : Regex) : r.maybe.Total := by
  intro prev text h
  rw [first_maybe, Option.or_eq_none_iff] at h
  cases h.right

theorem total_seq (hr : r.Total) (hs : s.Total) : (r.seq s).Total := by
  intro prev text h
  rw [first_seq_of_total hs] at h
  cases hfirst : r.first prev text with
  | none => exact hr prev text hfirst
  | some hit =>
      rw [hfirst, Option.bind_some, andThen, Option.map_eq_none_iff] at h
      exact hs _ _ h

theorem first_seq_of_single (hr : (r.run prev text).length ≤ 1) :
    (r.seq s).first prev text = (r.first prev text).bind (s.andThen prev) := by
  rw [first_seq, first]
  cases hrun : r.run prev text with
  | nil => rfl
  | cons hit hits =>
      rw [hrun, List.length_cons] at hr
      have hnil : hits = [] := List.length_eq_zero_iff.mp (by omega)
      rw [hnil, List.findSome?_singleton, List.head?_cons, Option.bind_some]

theorem run_one_length (p : Char -> Bool) : ((Regex.one p).run prev text).length ≤ 1 := by
  cases text with
  | nil => exact Nat.zero_le 1
  | cons c rest =>
      rw [run]
      split
      · exact Nat.le_refl 1
      · exact Nat.zero_le 1

theorem run_assertion_length (a : Assertion) :
    ((Regex.assertion a).run prev text).length ≤ 1 := by
  rw [run]
  split
  · exact Nat.le_refl 1
  · exact Nat.zero_le 1

/-!
# Repetition
-/

variable {p : Char -> Bool}

def greedy (p : Char -> Bool) (most : Option Nat) (text : List Char) : List Char :=
  match most with
  | none => text.takeWhile p
  | some n => (text.takeWhile p).take n

theorem greedy_cons_of_neg (most : Option Nat) {c : Char} {rest : List Char}
    (hc : p c = false) : greedy p most (c :: rest) = [] := by
  have hnil : (c :: rest).takeWhile p = [] := by
    rw [List.takeWhile_cons, hc]
    rfl
  cases most with
  | none => exact hnil
  | some n =>
      rw [greedy, hnil, List.take_nil]

theorem greedy_cons_of_pos {most : Option Nat} {c : Char} {rest : List Char}
    (hmost : most ≠ some 0) (hc : p c = true) :
    greedy p most (c :: rest) = c :: greedy p (most.map (· - 1)) rest := by
  have hcons : (c :: rest).takeWhile p = c :: rest.takeWhile p := by
    rw [List.takeWhile_cons, hc]
    rfl
  cases most with
  | none => exact hcons
  | some n =>
      cases n with
      | zero => exact absurd rfl hmost
      | succ n =>
          rw [greedy, hcons, List.take_succ_cons]
          rfl

theorem splits_nil (most : Option Nat) : splits p most [] = [([], [])] := by
  cases most with
  | none => rfl
  | some n => cases n <;> rfl

theorem splits_cons {most : Option Nat} {c : Char} {rest : List Char}
    (hmost : most ≠ some 0) :
    splits p most (c :: rest) =
      if p c then
        (splits p (most.map (· - 1)) rest).map
          (fun split => (c :: split.1, split.2)) ++ [([], c :: rest)]
      else [([], c :: rest)] := by
  rw [splits]
  exact hmost

/-- The first split is the longest.  Where there is no bound, the kind goes on
after all the others. -/
theorem splits_eq (p : Char -> Bool) (most : Option Nat) (text : List Char) :
    exists shorter,
    splits p most text =
      (greedy p most text, text.drop (greedy p most text).length) :: shorter ∧
      forall split, split ∈ shorter ->
        split.1.length ≤ (greedy p most text).length ∧
          (most = none -> exists c rest, split.2 = c :: rest ∧ p c = true) := by
  induction text generalizing most with
  | nil =>
      refine ⟨[], ?_, ?_⟩
      · rw [splits_nil]
        cases most <;> simp [greedy]
      · intro split hin
        cases hin
  | cons c rest ih =>
      by_cases hmost : most = some 0
      · subst hmost
        refine ⟨[], ?_, ?_⟩
        · rw [splits, greedy, List.take_zero]
          rfl
        · intro split hin
          cases hin
      · rw [splits_cons hmost]
        cases hc : p c with
        | false =>
            rw [greedy_cons_of_neg most hc]
            refine ⟨[], rfl, ?_⟩
            intro split hin
            cases hin
        | true =>
            rcases ih (most.map (· - 1)) with ⟨shorter, hsplits, hshorter⟩
            rw [greedy_cons_of_pos hmost hc, if_pos rfl, hsplits]
            refine ⟨shorter.map (fun split => (c :: split.1, split.2)) ++
              [([], c :: rest)], rfl, ?_⟩
            intro split hin
            rcases List.mem_append.mp hin with hmap | hlast
            · rcases List.mem_map.mp hmap with ⟨inner, hinner, rfl⟩
              rcases hshorter inner hinner with ⟨hlength, hnext⟩
              constructor
              · exact Nat.succ_le_succ hlength
              · intro hnone
                apply hnext
                rw [hnone]
                rfl
            · rw [List.mem_singleton.mp hlast]
              constructor
              · exact Nat.zero_le _
              · intro _
                exact ⟨c, rest, rfl, hc⟩

theorem first_many (least : Nat) (most : Option Nat) :
    (Regex.many p least most).first prev text =
      if least ≤ (greedy p most text).length then
        some ⟨greedy p most text, [], text.drop (greedy p most text).length⟩
      else none := by
  rcases splits_eq p most text with ⟨shorter, hsplits, hshorter⟩
  rw [first, run, hsplits, List.filter_cons]
  split
  · rename_i hleast
    rw [if_pos (of_decide_eq_true hleast), List.map_cons, List.head?_cons]
  · rename_i hleast
    have hless : ¬ least ≤ (greedy p most text).length :=
      fun h => hleast (decide_eq_true h)
    have hnil : shorter.filter (fun split => decide (least ≤ split.1.length)) = [] := by
      rw [List.filter_eq_nil_iff]
      intro split hin hle
      exact hless (Nat.le_trans (of_decide_eq_true hle) (hshorter split hin).left)
    rw [if_neg hless, hnil]
    rfl

theorem total_many (p : Char -> Bool) (most : Option Nat) : (Regex.many p 0 most).Total := by
  intro prev text h
  rw [first_many, if_pos (Nat.zero_le _)] at h
  cases h

theorem drop_greedy : text.drop (greedy p none text).length = text.dropWhile p := by
  calc text.drop (text.takeWhile p).length
      = (text.takeWhile p ++ text.dropWhile p).drop (text.takeWhile p).length := by
        rw [List.takeWhile_append_dropWhile]
    _ = text.dropWhile p := List.drop_left

theorem first_many_seq (least : Nat)
    (hs : forall prev c rest, p c = true -> s.first prev (c :: rest) = none) :
    ((Regex.many p least none).seq s).first prev text =
      if least ≤ (text.takeWhile p).length then
        s.andThen prev ⟨text.takeWhile p, [], text.dropWhile p⟩
      else none := by
  rcases splits_eq p none text with ⟨shorter, hsplits, hshorter⟩
  rw [drop_greedy] at hsplits
  change splits p none text = (text.takeWhile p, text.dropWhile p) :: shorter at hsplits
  rw [first_seq, run, hsplits]
  have hrest : ((shorter.filter fun split => decide (least ≤ split.1.length)).map
      fun split => (⟨split.1, [], split.2⟩ : Hit)).findSome? (s.andThen prev) = none := by
    rw [List.findSome?_eq_none_iff]
    intro hit hin
    rcases List.mem_map.mp hin with ⟨split, hsplit, rfl⟩
    rcases (hshorter split (List.mem_filter.mp hsplit).left).right rfl with
      ⟨c, rest, heq, hc⟩
    rw [andThen, heq, hs _ _ _ hc]
    rfl
  rw [List.filter_cons]
  split
  · rename_i hleast
    rw [if_pos (of_decide_eq_true hleast), List.map_cons, List.findSome?_cons, hrest]
    cases s.andThen prev ⟨text.takeWhile p, [], text.dropWhile p⟩ <;> rfl
  · rename_i hleast
    rw [if_neg (fun h => hleast (decide_eq_true h))]
    exact hrest

theorem first_many_append {front back : List Char} (hfront : forall c, c ∈ front -> p c = true)
    (hback : forall c, back.head? = some c -> p c = false) :
    (Regex.many p 0 none).first prev (front ++ back) = some ⟨front, [], back⟩ := by
  have hnil : back.takeWhile p = [] := by
    cases back with
    | nil => rfl
    | cons c back =>
        rw [List.takeWhile_cons, hback c rfl]
        rfl
  have hgreedy : greedy p none (front ++ back) = front := by
    rw [greedy, List.takeWhile_append_of_pos hfront, hnil, List.append_nil]
  rw [first_many, if_pos (Nat.zero_le _), hgreedy, List.drop_left]

theorem first_maybe_one_of_pos {c : Char} {rest : List Char} (hc : p c = true) :
    (Regex.one p).maybe.first prev (c :: rest) = some ⟨[c], [], rest⟩ := by
  rw [first_maybe, first_one_cons, if_pos hc]
  rfl

theorem first_maybe_one_of_neg (h : forall c, text.head? = some c -> p c = false) :
    (Regex.one p).maybe.first prev text = some (Hit.fallen text) := by
  rw [first_maybe]
  cases text with
  | nil => rfl
  | cons c rest =>
      rw [first_one_cons, h c rfl]
      rfl

theorem first_maybe_one_seq (s : Regex) (prev : Option Char) (c : Char)
    (rest : List Char) :
    ((Regex.one p).maybe.seq s).first prev (c :: rest) =
      (if p c then s.andThen prev ⟨[c], [], rest⟩ else none).or
        (s.first prev (c :: rest)) := by
  rw [first_seq, maybe, run, run, List.findSome?_append]
  have hempty : (empty.run prev (c :: rest)).findSome? (s.andThen prev) =
      s.first prev (c :: rest) := by
    change List.findSome? (s.andThen prev) [Hit.fallen (c :: rest)] = _
    rw [List.findSome?_singleton, andThen_fallen]
  rw [hempty]
  cases p c with
  | true =>
      rw [if_pos rfl, if_pos rfl, List.findSome?_singleton]
  | false => rfl

/-!
# Literals
-/

section Literal

variable {same : Char -> Char -> Bool}

theorem run_literal_length (same : Char -> Char -> Bool) (word : List Char) :
    ((literal same word).run prev text).length ≤ 1 := by
  induction word generalizing prev text with
  | nil => exact run_assertion_length _
  | cons c word ih =>
      cases text with
      | nil => exact Nat.zero_le 1
      | cons d rest =>
          rw [literal, run, run]
          cases same c d with
          | false => exact Nat.zero_le 1
          | true =>
              rw [if_pos rfl, List.flatMap_singleton, List.length_map]
              exact ih

theorem first_literal_nil (same : Char -> Char -> Bool) (c : Char) (word : List Char) :
    (literal same (c :: word)).first prev [] = none := rfl

theorem run_literal_of_neg {c d : Char} (word rest : List Char) (h : same c d = false) :
    (literal same (c :: word)).run prev (d :: rest) = [] := by
  rw [literal, run, run, h]
  rfl

theorem first_literal_of_neg {c d : Char} (word rest : List Char) (h : same c d = false) :
    (literal same (c :: word)).first prev (d :: rest) = none :=
  first_eq_none.mpr (run_literal_of_neg word rest h)

theorem first_literal_cons {c d : Char} (word rest : List Char) :
    (literal same (c :: word)).first prev (d :: rest) =
      if same c d then
        ((literal same word).first (some d) rest).map (Hit.before ⟨[d], [], rest⟩)
      else none := by
  cases h : same c d with
  | false => exact first_literal_of_neg word rest h
  | true =>
      rw [literal, first_seq_of_single (run_one_length _), first_one_cons, h]
      rfl

theorem first_literal_self {word : List Char} (h : forall c, c ∈ word -> same c c = true)
    (prev : Option Char) (rest : List Char) :
    (literal same word).first prev (word ++ rest) = some ⟨word, [], rest⟩ := by
  induction word generalizing prev with
  | nil => rfl
  | cons c word ih =>
      rw [List.forall_mem_cons] at h
      rw [List.cons_append, first_literal_cons, h.left, if_pos rfl, ih h.right]
      rfl

end Literal

/-!
# All matches
-/

theorem findallFrom_skip (r : Regex) (taken rest : List Char) (prev : Option Char) :
    r.findallFrom taken.length prev (taken ++ rest) =
      r.findallFrom 0 (taken.getLast?.or prev) rest := by
  induction taken generalizing prev with
  | nil => rfl
  | cons c taken ih =>
      rw [List.cons_append, List.length_cons, findallFrom, ih, List.getLast?_cons]
      cases taken.getLast? <;> rfl

theorem findallFrom_of_none {c : Char} {rest : List Char}
    (h : r.first prev (c :: rest) = none) :
    r.findallFrom 0 prev (c :: rest) = r.findallFrom 0 (some c) rest := by
  rw [findallFrom, h]

theorem findallFrom_of_some {c : Char} {taken rest : List Char} {groups : List (List Char)}
    (h : r.first prev (c :: taken ++ rest) = some ⟨c :: taken, groups, rest⟩) :
    r.findallFrom 0 prev (c :: taken ++ rest) =
      (c :: taken) :: r.findallFrom 0 (taken.getLast?.or (some c)) rest := by
  rw [List.cons_append] at h ⊢
  rw [findallFrom, h]
  dsimp only
  rw [List.length_cons, Nat.add_sub_cancel, findallFrom_skip]

theorem findallFrom_eq_nil
    (h : forall pre post, text = pre ++ post -> forall prev, r.first prev post = none) :
    r.findallFrom 0 prev text = [] := by
  induction text generalizing prev with
  | nil => rfl
  | cons c rest ih =>
      rw [findallFrom_of_none (h [] (c :: rest) rfl prev)]
      apply ih
      intro pre post hsplit
      exact h (c :: pre) post (by rw [hsplit, List.cons_append])

end Regex
end Foundation
