import Mathlib.Data.List.Basic

/-!
# Searching a text

A pattern is a literal with one assertion about the place where it starts and
one about the place where it ends.  An assertion looks at the characters on the
two sides of its place; at an end of the text there is none.
-/

namespace Foundation

abbrev Assertion := Option Char -> Option Char -> Bool

namespace Assertion

def notAfter (p : Char -> Bool) : Assertion := fun prev _ => !prev.any p

def notBefore (p : Char -> Bool) : Assertion := fun _ next => !next.any p

def boundary (p : Char -> Bool) : Assertion :=
  fun prev next => prev.any p != next.any p

end Assertion

structure Pattern where
  start : Assertion
  literal : List Char
  stop : Assertion

namespace Pattern

variable (pat : Pattern)

def standsAt (prev : Option Char) (text : List Char) : Bool :=
  pat.literal.isPrefixOf text && pat.start prev text.head? &&
    pat.stop (pat.literal.getLast?.or prev) (text.drop pat.literal.length).head?

def searchFrom : Option Char -> List Char -> Bool
  | prev, [] => pat.standsAt prev []
  | prev, c :: rest =>
      pat.standsAt prev (c :: rest) || searchFrom (some c) rest

def search (text : List Char) : Bool := pat.searchFrom none text

structure Match (prev : Option Char) (text pre post : List Char) : Prop where
  split : text = pre ++ (pat.literal ++ post)
  start : pat.start (pre.getLast?.or prev) (pat.literal ++ post).head? = true
  stop : pat.stop ((pre ++ pat.literal).getLast?.or prev) post.head? = true

variable {pat : Pattern} {prev : Option Char}

theorem standsAt_iff {text : List Char} :
    pat.standsAt prev text = true <-> exists post, pat.Match prev text [] post := by
  unfold standsAt
  rw [Bool.and_eq_true, Bool.and_eq_true, List.isPrefixOf_iff_prefix]
  constructor
  · intro hall
    rcases hall with ⟨⟨⟨post, rfl⟩, hstart⟩, hstop⟩
    rw [List.drop_left] at hstop
    exact ⟨post, rfl, hstart, hstop⟩
  · intro hall
    rcases hall with ⟨post, rfl, hstart, hstop⟩
    rw [List.nil_append, List.drop_left]
    exact ⟨⟨⟨post, rfl⟩, hstart⟩, hstop⟩

theorem match_cons {c : Char} {rest pre post : List Char} :
    pat.Match prev (c :: rest) (c :: pre) post <->
      pat.Match (some c) rest pre post := by
  have hlast (l : List Char) :
      (c :: l).getLast?.or prev = l.getLast?.or (some c) := by
    rw [List.getLast?_cons]
    cases l.getLast? <;> rfl
  constructor
  · intro hall
    rcases hall with ⟨hsplit, hstart, hstop⟩
    rw [hlast] at hstart
    rw [List.cons_append, hlast] at hstop
    exact ⟨List.tail_eq_of_cons_eq hsplit, hstart, hstop⟩
  · intro hall
    rcases hall with ⟨hsplit, hstart, hstop⟩
    refine ⟨?_, ?_, ?_⟩
    · rw [hsplit, List.cons_append]
    · rw [hlast]
      exact hstart
    · rw [List.cons_append, hlast]
      exact hstop

theorem searchFrom_iff {text : List Char} :
    pat.searchFrom prev text = true <->
      exists pre post, pat.Match prev text pre post := by
  induction text generalizing prev with
  | nil =>
      rw [searchFrom, standsAt_iff]
      constructor
      · intro hall
        rcases hall with ⟨post, hmatch⟩
        exact ⟨[], post, hmatch⟩
      · intro hall
        rcases hall with ⟨pre, post, hmatch⟩
        have hpre : pre = [] := (List.append_eq_nil_iff.mp hmatch.split.symm).1
        exact ⟨post, hpre ▸ hmatch⟩
  | cons c rest ih =>
      rw [searchFrom, Bool.or_eq_true, standsAt_iff, ih]
      constructor
      · intro hcases
        rcases hcases with ⟨post, hmatch⟩ | ⟨pre, post, hmatch⟩
        · exact ⟨[], post, hmatch⟩
        · exact ⟨c :: pre, post, match_cons.mpr hmatch⟩
      · intro hall
        rcases hall with ⟨pre, post, hmatch⟩
        cases pre with
        | nil => exact .inl ⟨post, hmatch⟩
        | cons d pre =>
            have hhead : c = d := List.head_eq_of_cons_eq hmatch.split
            subst hhead
            exact .inr ⟨pre, post, match_cons.mp hmatch⟩

theorem search_iff {text : List Char} :
    pat.search text = true <-> exists pre post, pat.Match none text pre post :=
  searchFrom_iff

end Pattern

/-!
# Places in a text
-/

section Places

variable {α : Type} {p : α -> Prop}

theorem split_behind {x : α} {front tail l r : List α} (hx : x ∉ front)
    (h : front ++ tail = l ++ x :: r) :
    exists d, l = front ++ d ∧ tail = d ++ x :: r := by
  rcases List.append_eq_append_iff.mp h with ⟨d, hl, htail⟩ | ⟨d, hfront, hrest⟩
  · exact ⟨d, hl, htail⟩
  · cases d with
    | nil =>
        rw [List.append_nil] at hfront
        exact ⟨[], by rw [hfront, List.append_nil], hrest.symm⟩
    | cons c d =>
        rw [List.cons_append, List.cons.injEq] at hrest
        rcases hrest with ⟨rfl, _⟩
        exact absurd (hfront ▸ List.mem_append_right _ List.mem_cons_self) hx

theorem split_beside {x : α} {l r a v b : List α} (hx : x ∉ v)
    (h : l ++ x :: r = a ++ (v ++ b)) :
    (exists b', l = a ++ (v ++ b') ∧ b = b' ++ x :: r) ∨
      exists a', a = l ++ x :: a' ∧ r = a' ++ (v ++ b) := by
  rcases List.append_eq_append_iff.mp h with ⟨d, ha, hrest⟩ | ⟨d, hl, hrest⟩
  · cases d with
    | nil =>
        rw [List.append_nil] at ha
        rcases split_behind (l := []) hx hrest.symm with ⟨b', hv, hb⟩
        exact .inl ⟨b', by rw [ha, ← hv, List.append_nil], hb⟩
    | cons c d =>
        rw [List.cons_append, List.cons.injEq] at hrest
        rcases hrest with ⟨rfl, hr⟩
        exact .inr ⟨d, ha, hr⟩
  · rcases split_behind hx hrest with ⟨b', hd, hb⟩
    exact .inl ⟨b', by rw [hl, hd], hb⟩

/-- A run of characters of one kind that touches `body` lies within it, when
`body` has no such character next to it. -/
theorem exists_within {pre body post pre' v post' : List α}
    (h : pre ++ (body ++ post) = pre' ++ (v ++ post')) (hv : forall c, c ∈ v -> p c)
    (hpre : forall c, pre.getLast? = some c -> ¬ p c)
    (hpost : forall c, post.head? = some c -> ¬ p c)
    (hleft : pre.length < pre'.length + v.length)
    (hright : pre'.length < pre.length + body.length) :
    exists a b, body = a ++ (v ++ b) ∧ pre' = pre ++ a ∧ post' = b ++ post := by
  have hstart : exists a, pre' = pre ++ a ∧ body ++ post = a ++ (v ++ post') := by
    rcases List.append_eq_append_iff.mp h with ⟨a, ha, hrest⟩ | ⟨d, hd, hrest⟩
    · exact ⟨a, ha, hrest⟩
    · rcases List.eq_nil_or_concat d with rfl | ⟨d, c, rfl⟩
      · rw [List.append_nil] at hd
        exact ⟨[], by rw [hd, List.append_nil], hrest.symm⟩
      · rcases List.append_eq_append_iff.mp hrest with ⟨e, he, _⟩ | ⟨e, he, _⟩
        · have hlength := congrArg List.length hd
          have hlength' := congrArg List.length he
          rw [List.length_append] at hlength hlength'
          omega
        · have hlast : pre.getLast? = some c := by
            rw [hd]
            simp
          have hmem : c ∈ v := by
            rw [he]
            simp
          exact absurd (hv c hmem) (hpre c hlast)
  rcases hstart with ⟨a, ha, hrest⟩
  rw [← List.append_assoc] at hrest
  rcases List.append_eq_append_iff.mp hrest with ⟨d, hd, htail⟩ | ⟨b, hb, htail⟩
  · cases d with
    | nil =>
        rw [List.append_nil] at hd
        exact ⟨a, [], by rw [List.append_nil, hd], ha, htail.symm⟩
    | cons c d =>
        have hmem : c ∈ v := by
          rcases List.append_eq_append_iff.mp hd with ⟨e, _, he⟩ | ⟨e, he, _⟩
          · rw [he]
            simp
          · have hlength := congrArg List.length ha
            have hlength' := congrArg List.length he
            rw [List.length_append] at hlength hlength'
            omega
        have hhead : post.head? = some c := by
          rw [htail]
          rfl
        exact absurd (hv c hmem) (hpost c hhead)
  · exact ⟨a, b, by rw [hb, List.append_assoc], ha, htail⟩

end Places
end Foundation
