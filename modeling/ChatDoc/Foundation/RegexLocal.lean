import Mathlib.Data.List.TakeWhile
import ChatDoc.Foundation.Regex

/-!
# How far an expression looks

Whether a hit is one does not depend on the text behind the character after it, and
an expression that never takes some character never looks behind the next of it.
-/

namespace Foundation

def Hit.extend (hit : Hit) (more : List Char) : Hit := { hit with rest := hit.rest ++ more }

namespace Regex

variable {r s : Regex} {prev : Option Char} {text more : List Char} {hit : Hit}

/-!
# Hits by the form of the expression
-/

theorem nil_mem_splits {p : Char -> Bool} {most : Option Nat} {back : List Char} :
    ([], back) ∈ splits p most text <-> back = text := by
  cases text with
  | nil => simp [splits_nil]
  | cons c rest =>
      by_cases hmost : most = some 0
      · rw [hmost, splits]
        simp
      · rw [splits_cons hmost]
        split
        · simp
        · simp

theorem cons_mem_splits {p : Char -> Bool} {most : Option Nat} {c : Char}
    {front back : List Char} :
    (c :: front, back) ∈ splits p most text <->
      exists rest, text = c :: rest ∧ p c = true ∧ most ≠ some 0 ∧
        (front, back) ∈ splits p (most.map (· - 1)) rest := by
  cases text with
  | nil => simp [splits_nil]
  | cons d rest =>
      by_cases hmost : most = some 0
      · rw [hmost, splits]
        simp
      · rw [splits_cons hmost]
        cases hd : p d with
        | false =>
            rw [if_neg Bool.false_ne_true, List.mem_singleton]
            constructor
            · intro h
              cases h
            · intro h
              rcases h with ⟨rest', htext, hc, _⟩
              rw [← (List.cons.inj htext).left, hd] at hc
              cases hc
        | true =>
            rw [if_pos rfl, List.mem_append, List.mem_singleton, List.mem_map]
            constructor
            · intro h
              rcases h with ⟨split, hsplit, heq⟩ | hnil
              · cases heq
                exact ⟨rest, rfl, hd, hmost, hsplit⟩
              · cases hnil
            · intro h
              rcases h with ⟨rest', htext, _, _, hsplit⟩
              cases htext
              exact .inl ⟨(front, back), hsplit, rfl⟩

theorem length_cons_le_iff {most : Option Nat} {c : Char} {front : List Char} :
    (forall n, most = some n -> (c :: front).length <= n) <->
      most ≠ some 0 ∧ forall n, most.map (· - 1) = some n -> front.length <= n := by
  cases most with
  | none => simp
  | some n =>
      cases n with
      | zero => simp
      | succ n => simp

theorem mem_splits {p : Char -> Bool} {most : Option Nat} {split : List Char × List Char} :
    split ∈ splits p most text <->
      split.1 ++ split.2 = text ∧ (forall c, c ∈ split.1 -> p c = true) ∧
        forall n, most = some n -> split.1.length <= n := by
  rcases split with ⟨front, back⟩
  dsimp only
  induction front generalizing most text with
  | nil =>
      rw [nil_mem_splits, List.nil_append]
      simp
  | cons c front ih =>
      rw [cons_mem_splits, List.forall_mem_cons, length_cons_le_iff, List.cons_append]
      constructor
      · intro h
        rcases h with ⟨rest, htext, hc, hmost, hsplit⟩
        rcases ih.mp hsplit with ⟨hrest, hall, hlength⟩
        rw [hrest]
        exact ⟨htext.symm, ⟨hc, hall⟩, hmost, hlength⟩
      · intro h
        rcases h with ⟨htext, ⟨hc, hall⟩, hmost, hlength⟩
        exact ⟨front ++ back, htext.symm, hc, hmost, ih.mpr ⟨rfl, hall, hlength⟩⟩

theorem mem_run_assertion {a : Assertion} :
    hit ∈ (Regex.assertion a).run prev text <->
      a prev text.head? = true ∧ hit = Hit.fallen text := by
  rw [run]
  split
  · rename_i ha
    rw [List.mem_singleton]
    exact ⟨fun h => ⟨ha, h⟩, And.right⟩
  · rename_i ha
    constructor
    · intro h
      cases h
    · intro h
      exact absurd h.left ha

theorem mem_run_one {p : Char -> Bool} :
    hit ∈ (Regex.one p).run prev text <->
      exists c, p c = true ∧ text = c :: hit.rest ∧ hit = ⟨[c], [], hit.rest⟩ := by
  cases text with
  | nil =>
      rw [run]
      constructor
      · intro h
        cases h
      · intro h
        rcases h with ⟨c, _, htext, _⟩
        cases htext
  | cons d rest =>
      rw [run]
      constructor
      · intro h
        split at h
        · rename_i hd
          rw [List.mem_singleton] at h
          rw [h]
          exact ⟨d, hd, rfl, rfl⟩
        · cases h
      · intro h
        rcases h with ⟨c, hc, htext, hhit⟩
        rcases List.cons.inj htext with ⟨rfl, hrest⟩
        rw [if_pos hc, List.mem_singleton, hrest]
        exact hhit

theorem mem_run_many {p : Char -> Bool} {least : Nat} {most : Option Nat} :
    hit ∈ (Regex.many p least most).run prev text <->
      hit.groups = [] ∧ least <= hit.taken.length ∧ hit.taken ++ hit.rest = text ∧
        (forall c, c ∈ hit.taken -> p c = true) ∧
          forall n, most = some n -> hit.taken.length <= n := by
  rw [run, List.mem_map]
  constructor
  · intro h
    rcases h with ⟨split, hsplit, rfl⟩
    rcases List.mem_filter.mp hsplit with ⟨hin, hleast⟩
    exact ⟨rfl, of_decide_eq_true hleast, mem_splits.mp hin⟩
  · intro h
    rcases h with ⟨hgroups, hleast, hsplit⟩
    refine ⟨(hit.taken, hit.rest), ?_, ?_⟩
    · rw [List.mem_filter]
      exact ⟨mem_splits.mpr hsplit, decide_eq_true hleast⟩
    · rw [← hgroups]

theorem mem_run_seq :
    hit ∈ (r.seq s).run prev text <->
      exists h, h ∈ r.run prev text ∧
        exists h', h' ∈ s.run (h.last prev) h.rest ∧ hit = h.before h' := by
  rw [run, List.mem_flatMap]
  constructor
  · intro hseq
    rcases hseq with ⟨h, hr, hmap⟩
    rcases List.mem_map.mp hmap with ⟨h', hs, heq⟩
    exact ⟨h, hr, h', hs, heq.symm⟩
  · intro hseq
    rcases hseq with ⟨h, hr, h', hs, heq⟩
    exact ⟨h, hr, List.mem_map.mpr ⟨h', hs, heq.symm⟩⟩

theorem mem_run_alt :
    hit ∈ (r.alt s).run prev text <-> hit ∈ r.run prev text ∨ hit ∈ s.run prev text := by
  rw [run, List.mem_append]

theorem mem_run_group :
    hit ∈ r.group.run prev text <-> exists h, h ∈ r.run prev text ∧ h.grouped = hit := by
  rw [run, List.mem_map]

theorem taken_append_rest (h : hit ∈ r.run prev text) : hit.taken ++ hit.rest = text := by
  induction r generalizing prev text hit with
  | assertion a =>
      rw [(mem_run_assertion.mp h).right]
      rfl
  | one p =>
      rcases mem_run_one.mp h with ⟨c, _, htext, hhit⟩
      rw [hhit, htext]
      rfl
  | many p least most => exact (mem_run_many.mp h).2.2.1
  | seq r s ihr ihs =>
      rcases mem_run_seq.mp h with ⟨h1, hr, h2, hs, rfl⟩
      dsimp only [Hit.before]
      rw [List.append_assoc, ihs hs, ihr hr]
  | alt r s ihr ihs =>
      rcases mem_run_alt.mp h with hr | hs
      · exact ihr hr
      · exact ihs hs
  | group r ih =>
      rcases mem_run_group.mp h with ⟨h1, hr, rfl⟩
      exact @ih prev text h1 hr

/-!
# Locality
-/

theorem eq_extend {rest : List Char} (h : hit.rest = rest ++ more) :
    hit = (⟨hit.taken, hit.groups, rest⟩ : Hit).extend more := by
  rw [Hit.extend, ← h]

theorem mem_run_append (hrest : hit.rest ≠ []) :
    hit.extend more ∈ r.run prev (text ++ more) <-> hit ∈ r.run prev text := by
  induction r generalizing prev text hit with
  | assertion a =>
      rw [mem_run_assertion, mem_run_assertion]
      have hsame : hit.extend more = Hit.fallen (text ++ more) <-> hit = Hit.fallen text := by
        rcases hit with ⟨taken, groups, rest⟩
        simp [Hit.extend, Hit.fallen]
      rw [hsame]
      apply and_congr_left
      intro hhit
      have hne : text ≠ [] := by
        rw [hhit] at hrest
        exact hrest
      rw [List.head?_append_of_ne_nil _ hne]
  | one p =>
      rw [mem_run_one, mem_run_one]
      apply exists_congr
      intro c
      rcases hit with ⟨taken, groups, rest⟩
      dsimp only [Hit.extend]
      rw [← List.cons_append, List.append_left_inj]
      simp
  | many p least most =>
      rw [mem_run_many, mem_run_many]
      dsimp only [Hit.extend]
      rw [← List.append_assoc, List.append_left_inj]
  | seq r s ihr ihs =>
      rw [mem_run_seq, mem_run_seq]
      constructor
      · intro h
        rcases h with ⟨h1, hr, h2, hs, heq⟩
        have hlast : h2.rest = hit.rest ++ more := (congrArg Hit.rest heq).symm
        have hmiddle : h1.rest = (h2.taken ++ hit.rest) ++ more := by
          rw [List.append_assoc, ← hlast]
          exact (taken_append_rest hs).symm
        have hne : h2.taken ++ hit.rest ≠ [] := List.append_ne_nil_of_right_ne_nil _ hrest
        let first : Hit := ⟨h1.taken, h1.groups, h2.taken ++ hit.rest⟩
        let second : Hit := ⟨h2.taken, h2.groups, hit.rest⟩
        have hfirst : first ∈ r.run prev text := by
          rw [eq_extend hmiddle] at hr
          exact (@ihr prev text first hne).mp hr
        have hsecond : second ∈ s.run (first.last prev) first.rest := by
          rw [hmiddle, eq_extend hlast] at hs
          exact (@ihs (first.last prev) first.rest second hrest).mp hs
        refine ⟨first, hfirst, second, hsecond, ?_⟩
        rcases hit with ⟨taken, groups, rest⟩
        have htaken : taken = h1.taken ++ h2.taken := congrArg Hit.taken heq
        have hgroups : groups = h1.groups ++ h2.groups := congrArg Hit.groups heq
        rw [htaken, hgroups]
        rfl
      · intro h
        rcases h with ⟨h1, hr, h2, hs, heq⟩
        have hlast : h2.rest = hit.rest := (congrArg Hit.rest heq).symm
        have hne : h1.rest ≠ [] := by
          rw [← taken_append_rest hs, hlast]
          exact List.append_ne_nil_of_right_ne_nil _ hrest
        refine ⟨h1.extend more, (ihr hne).mpr hr, h2.extend more, ?_, ?_⟩
        · exact (ihs (hlast ▸ hrest)).mpr hs
        · rw [heq]
          rfl
  | alt r s ihr ihs =>
      rw [mem_run_alt, mem_run_alt, ihr hrest, ihs hrest]
  | group r ih =>
      rw [mem_run_group, mem_run_group]
      constructor
      · intro h
        rcases h with ⟨h1, hr, heq⟩
        have hlast : h1.rest = hit.rest ++ more := congrArg Hit.rest heq
        rw [eq_extend hlast] at hr
        refine ⟨_, (@ih prev text ⟨h1.taken, h1.groups, hit.rest⟩ hrest).mp hr, ?_⟩
        rcases hit with ⟨taken, groups, rest⟩
        have htaken : h1.taken = taken := congrArg Hit.taken heq
        have hgroups : h1.taken :: h1.groups = groups := congrArg Hit.groups heq
        rw [Hit.grouped, ← htaken, ← hgroups]
      · intro h
        rcases h with ⟨h1, hr, rfl⟩
        exact ⟨h1.extend more, (@ih prev text h1 hrest).mpr hr, rfl⟩

/-!
# Expressions that stop
-/

def Stays (stop : Char) : Regex -> Prop
  | .assertion _ => True
  | .one p => p stop = false
  | .many p _ _ => p stop = false
  | .seq r s => Stays stop r ∧ Stays stop s
  | .alt r s => Stays stop r ∧ Stays stop s
  | .group r => Stays stop r

variable {stop : Char} {front : List Char}

theorem not_mem_taken (hstays : r.Stays stop) (h : hit ∈ r.run prev text) :
    stop ∉ hit.taken := by
  induction r generalizing prev text hit with
  | assertion a =>
      rw [(mem_run_assertion.mp h).right]
      exact List.not_mem_nil
  | one p =>
      rcases mem_run_one.mp h with ⟨c, hc, _, hhit⟩
      rw [hhit, List.mem_singleton]
      intro heq
      have hstop : p stop = false := hstays
      rw [heq, hc] at hstop
      cases hstop
  | many p least most =>
      intro hin
      have hp := (mem_run_many.mp h).2.2.2.1 stop hin
      rw [Stays, hp] at hstays
      cases hstays
  | seq r s ihr ihs =>
      rcases mem_run_seq.mp h with ⟨h1, hr, h2, hs, rfl⟩
      dsimp only [Hit.before]
      rw [List.mem_append, not_or]
      exact ⟨ihr hstays.left hr, ihs hstays.right hs⟩
  | alt r s ihr ihs =>
      rcases mem_run_alt.mp h with hr | hs
      · exact ihr hstays.left hr
      · exact ihs hstays.right hs
  | group r ih =>
      rcases mem_run_group.mp h with ⟨h1, hr, rfl⟩
      exact @ih prev text h1 hstays hr

theorem rest_of_stays (hstays : r.Stays stop) (h : hit ∈ r.run prev (front ++ stop :: more)) :
    exists front', front = hit.taken ++ front' ∧ hit.rest = front' ++ stop :: more :=
  split_behind (not_mem_taken hstays h) (taken_append_rest h)

theorem splits_stop {p : Char -> Bool} (hp : p stop = false) (most : Option Nat)
    (front : List Char) :
    splits p most (front ++ stop :: more) =
      (splits p most (front ++ [stop])).map fun split => (split.1, split.2 ++ more) := by
  have htext (front : List Char) : front ++ stop :: more = front ++ [stop] ++ more :=
    List.append_cons _ _ _
  induction front generalizing most with
  | nil =>
      by_cases hmost : most = some 0
      · rw [hmost]
        rfl
      · rw [List.nil_append, List.nil_append, splits_cons hmost, splits_cons hmost, hp]
        rfl
  | cons c front ih =>
      by_cases hmost : most = some 0
      · rw [hmost, splits, splits, htext]
        rfl
      · rw [List.cons_append, List.cons_append, splits_cons hmost, splits_cons hmost, ih]
        cases p c with
        | false =>
            rw [htext]
            rfl
        | true =>
            rw [if_pos rfl, if_pos rfl, htext, List.map_append, List.map_map, List.map_map]
            rfl

/-- What such an expression does before the character does not depend on the text
behind it. -/
theorem run_of_stays (hstays : r.Stays stop) (prev : Option Char) (front : List Char) :
    r.run prev (front ++ stop :: more) =
      (r.run prev (front ++ [stop])).map fun hit => hit.extend more := by
  induction r generalizing prev front with
  | assertion a =>
      have hhead : (front ++ stop :: more).head? = (front ++ [stop]).head? := by
        cases front <;> rfl
      rw [run, run, hhead]
      split
      · rw [List.map_singleton, Hit.extend, Hit.fallen, Hit.fallen, List.append_assoc]
        rfl
      · rfl
  | one p =>
      cases front with
      | nil =>
          rw [List.nil_append, List.nil_append, run, run]
          rw [hstays]
          rfl
      | cons c front =>
          rw [List.cons_append, List.cons_append, run, run]
          cases p c with
          | false => rfl
          | true =>
              rw [if_pos rfl, if_pos rfl, List.map_singleton, Hit.extend, List.append_assoc]
              rfl
  | many p least most =>
      rw [run, run, splits_stop hstays, List.filter_map, List.map_map, List.map_map]
      rfl
  | seq r s ihr ihs =>
      rw [run, run, ihr hstays.left, List.flatMap_map, List.map_flatMap]
      apply List.flatMap_congr
      intro h1 hr
      rcases rest_of_stays hstays.left hr with ⟨front', _, hrest⟩
      have hmore : (h1.extend more).rest = front' ++ stop :: more := by
        rw [Hit.extend, hrest, List.append_assoc]
        rfl
      rw [hmore, hrest, ihs hstays.right, List.map_map, List.map_map]
      rfl
  | alt r s ihr ihs =>
      rw [run, run, ihr hstays.left, ihs hstays.right, List.map_append]
  | group r ih =>
      rw [run, run, ih hstays, List.map_map, List.map_map]
      rfl

theorem first_of_stays (hstays : r.Stays stop) (prev : Option Char) (more : List Char)
    (hlast : text.getLast? = some stop) :
    r.first prev (text ++ more) = (r.first prev text).map fun hit => hit.extend more := by
  rcases List.getLast?_eq_some_iff.mp hlast with ⟨front, rfl⟩
  rw [← List.append_cons, first, first, run_of_stays hstays, List.head?_map]

theorem getLast?_rest (hstays : r.Stays stop) (hlast : text.getLast? = some stop)
    (h : r.first prev text = some hit) : hit.rest.getLast? = some stop := by
  rcases List.getLast?_eq_some_iff.mp hlast with ⟨front, rfl⟩
  rcases rest_of_stays hstays (List.mem_of_mem_head? h) with ⟨front', _, hrest⟩
  rw [hrest]
  exact List.getLast?_concat

theorem stays_literal {same : Char -> Char -> Bool} {word : List Char}
    (h : forall c, c ∈ word -> same c stop = false) : (literal same word).Stays stop := by
  induction word with
  | nil => exact True.intro
  | cons c word ih =>
      rw [List.forall_mem_cons] at h
      exact ⟨h.left, ih h.right⟩

/-!
# Repetitions in a text that goes on
-/

section Repetitions

variable {p : Char -> Bool} {c : Char} {rest : List Char}

theorem takeWhile_stop (h : forall d, d ∈ text -> p d = true) (hc : p c = false) :
    (text ++ c :: rest).takeWhile p = text := by
  rw [List.takeWhile_append_of_pos h, List.takeWhile_cons_of_neg (Bool.eq_false_iff.mp hc),
    List.append_nil]

theorem dropWhile_stop (h : forall d, d ∈ text -> p d = true) (hc : p c = false) :
    (text ++ c :: rest).dropWhile p = c :: rest := by
  rw [List.dropWhile_append_of_pos h, List.dropWhile_cons_of_neg (Bool.eq_false_iff.mp hc)]

theorem dropWhile_eq_nil_iff_all : text.dropWhile p = [] <-> text.all p = true := by
  rw [List.dropWhile_eq_nil_iff, List.all_eq_true]

theorem dropWhile_ne_nil_iff : text.dropWhile p ≠ [] <-> text.all p = false := by
  rw [Ne, dropWhile_eq_nil_iff_all, Bool.not_eq_true]

theorem takeWhile_append_of_not_all (h : text.all p = false) :
    (text ++ more).takeWhile p = text.takeWhile p := by
  rw [List.takeWhile_append, if_neg]
  intro hlength
  have hall : text.takeWhile p = text :=
    List.IsPrefix.eq_of_length (List.takeWhile_prefix p) hlength
  rw [List.takeWhile_eq_self_iff, ← List.all_eq_true, h] at hall
  cases hall

theorem dropWhile_append_of_not_all (h : text.all p = false) :
    (text ++ more).dropWhile p = text.dropWhile p ++ more := by
  rw [List.dropWhile_append, if_neg]
  rw [List.isEmpty_iff]
  exact dropWhile_ne_nil_iff.mpr h

theorem getLast?_dropWhile (hlast : text.getLast? = some c) (h : text.all p = false) :
    (text.dropWhile p).getLast? = some c := by
  rw [← List.takeWhile_append_dropWhile (p := p) (l := text),
    List.getLast?_append_of_ne_nil _ (dropWhile_ne_nil_iff.mpr h)] at hlast
  exact hlast

end Repetitions

/-!
# Repetition before any part
-/

theorem first_many_seq_greedy {p : Char -> Bool}
    (hs : s.first ((text.takeWhile p).getLast?.or prev) (text.dropWhile p) = none ->
      forall prev' c rest, p c = true -> (c :: rest).dropWhile p = text.dropWhile p ->
        s.first prev' (c :: rest) = none) :
    ((Regex.many p 0 none).seq s).first prev text =
      s.andThen prev ⟨text.takeWhile p, [], text.dropWhile p⟩ := by
  rcases splits_eq p none text with ⟨shorter, hsplits, hshorter⟩
  rw [drop_greedy] at hsplits
  change splits p none text = (text.takeWhile p, text.dropWhile p) :: shorter at hsplits
  have hall : (splits p none text).filter (fun split => decide (0 ≤ split.1.length)) =
      splits p none text := by
    rw [List.filter_eq_self]
    intro split _
    exact decide_eq_true (Nat.zero_le _)
  rw [first_seq, run, hall, hsplits, List.map_cons, List.findSome?_cons]
  cases hgreedy : s.andThen prev ⟨text.takeWhile p, [], text.dropWhile p⟩ with
  | some out => rfl
  | none =>
      rw [andThen, Option.map_eq_none_iff] at hgreedy
      dsimp only
      rw [List.findSome?_eq_none_iff]
      intro hit hin
      rcases List.mem_map.mp hin with ⟨split, hsplit, rfl⟩
      have hmem : split ∈ splits p none text := by
        rw [hsplits]
        exact List.mem_cons_of_mem _ hsplit
      rcases mem_splits.mp hmem with ⟨htext, hrun, _⟩
      rcases (hshorter split hsplit).right rfl with ⟨c, rest, heq, hc⟩
      have hdrop : (c :: rest).dropWhile p = text.dropWhile p := by
        rw [← htext, heq, List.dropWhile_append_of_pos hrun]
      rw [andThen, Option.map_eq_none_iff, heq]
      exact hs hgreedy _ c rest hc hdrop

/-!
# Searching
-/

def Blind (r : Regex) : Prop := forall prev prev' text, r.run prev text = r.run prev' text

theorem blind_one (p : Char -> Bool) : (Regex.one p).Blind := fun _ _ _ => rfl

theorem blind_many (p : Char -> Bool) (least : Nat) (most : Option Nat) :
    (Regex.many p least most).Blind := fun _ _ _ => rfl

theorem blind_empty : empty.Blind := fun _ _ _ => rfl

theorem blind_seq (hr : r.Blind) (hs : s.Blind) : (r.seq s).Blind := by
  intro prev prev' text
  rw [run, run, hr prev prev']
  apply List.flatMap_congr
  intro hit _
  rw [hs (hit.last prev) (hit.last prev')]

theorem blind_alt (hr : r.Blind) (hs : s.Blind) : (r.alt s).Blind := by
  intro prev prev' text
  rw [run, run, hr prev prev', hs prev prev']

theorem blind_maybe (hr : r.Blind) : r.maybe.Blind := blind_alt hr blind_empty

theorem blind_group (hr : r.Blind) : r.group.Blind := by
  intro prev prev' text
  rw [run, run, hr prev prev']

theorem blind_literal (same : Char -> Char -> Bool) (word : List Char) :
    (literal same word).Blind := by
  induction word with
  | nil => exact blind_empty
  | cons c word ih => exact blind_seq (blind_one _) ih

theorem Blind.first (hr : r.Blind) (prev prev' : Option Char) (text : List Char) :
    r.first prev text = r.first prev' text := by
  rw [Regex.first, Regex.first, hr prev prev']

theorem searchFrom_seq (hs : s.Total) (hblind : s.Blind) :
    (r.seq s).searchFrom prev text =
      (r.searchFrom prev text).bind fun hit => (s.first none hit.rest).map hit.before := by
  have hfirst (prev : Option Char) (text : List Char) : (r.seq s).first prev text =
      (r.first prev text).bind fun hit => (s.first none hit.rest).map hit.before := by
    rw [first_seq_of_total hs]
    congr 1
    funext hit
    rw [andThen, first, first, hblind (hit.last prev) none]
  induction text generalizing prev with
  | nil => exact hfirst prev []
  | cons c rest ih =>
      rw [searchFrom, searchFrom, hfirst, ih]
      cases hr : r.first prev (c :: rest) with
      | none => rfl
      | some hit =>
          rw [Option.bind_some, Option.some_or, Option.bind_some]
          cases hnext : s.first none hit.rest with
          | none => exact absurd hnext (hs _ _)
          | some _ => rfl

theorem searchFrom_isSome_of_first (h : r.first prev text ≠ none) :
    (r.searchFrom prev text).isSome = true := by
  rw [← Option.isSome_iff_ne_none] at h
  cases text with
  | nil => exact h
  | cons c rest =>
      rw [searchFrom, Option.isSome_or, h]
      rfl

theorem searchFrom_isSome_append (front : List Char)
    (h : (r.searchFrom (front.getLast?.or prev) text).isSome = true) :
    (r.searchFrom prev (front ++ text)).isSome = true := by
  induction front generalizing prev with
  | nil => exact h
  | cons c front ih =>
      rw [List.cons_append, searchFrom, Option.isSome_or, Bool.or_eq_true]
      right
      apply ih
      rw [List.getLast?_cons] at h
      cases hlast : front.getLast? with
      | none =>
          rw [hlast] at h
          exact h
      | some d =>
          rw [hlast] at h
          exact h

/-- A text has a hit in its front, behind which anything may stand, or in its back. -/
theorem searchFrom_append_cases (front : List Char)
    (h : (r.searchFrom prev (front ++ text)).isSome = true) :
    (exists pre post, front = pre ++ post ∧ post ≠ [] ∧
        r.first (pre.getLast?.or prev) (post ++ text) ≠ none) ∨
      (r.searchFrom (front.getLast?.or prev) text).isSome = true := by
  induction front generalizing prev with
  | nil => exact .inr h
  | cons c front ih =>
      rw [List.cons_append, searchFrom, Option.isSome_or, Bool.or_eq_true] at h
      rcases h with hfirst | hrest
      · exact .inl ⟨[], c :: front, rfl, List.cons_ne_nil _ _,
          Option.isSome_iff_ne_none.mp hfirst⟩
      · have hprev (l : List Char) : (c :: l).getLast?.or prev = l.getLast?.or (some c) := by
          rw [List.getLast?_cons]
          cases l.getLast? <;> rfl
        rcases ih hrest with ⟨pre, post, hsplit, hne, hfirst⟩ | hback
        · left
          refine ⟨c :: pre, post, ?_, hne, ?_⟩
          · rw [hsplit, List.cons_append]
          · rw [hprev]
            exact hfirst
        · right
          rw [hprev]
          exact hback

end Regex
end Foundation
