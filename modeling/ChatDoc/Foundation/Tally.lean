import Mathlib.Algebra.BigOperators.Group.List.Basic
import Mathlib.Data.List.Nodup

/-!
# Tallies

Votes with weights are added up in a table with one row for each key, as with a
dictionary: a new key comes at the end, and the last vote for a key is kept
beside its total.
-/

namespace Foundation

variable {vote key total : Type} [DecidableEq key]

section Arithmetic

variable (keyOf : vote -> key) (add : total -> total -> total) (zero : total)

def tallyAdd (table : List (vote × total)) (v : vote) (weight : total) :
    List (vote × total) :=
  if table.any fun row => keyOf row.1 = keyOf v then
    table.map fun row => if keyOf row.1 = keyOf v then (v, add row.2 weight) else row
  else table ++ [(v, add zero weight)]

def tally (table : List (vote × total)) (votes : List (vote × total)) :
    List (vote × total) :=
  votes.foldl (fun table v => tallyAdd keyOf add zero table v.1 v.2) table

def keysOf (table : List (vote × total)) : List key := table.map fun row => keyOf row.1

variable {keyOf add zero} {table : List (vote × total)}

theorem any_key_iff {v : vote} :
    (table.any fun row => keyOf row.1 = keyOf v) = true <-> keyOf v ∈ keysOf keyOf table := by
  rw [List.any_eq_true, keysOf, List.mem_map]
  constructor
  · intro h
    rcases h with ⟨row, hrow, heq⟩
    exact ⟨row, hrow, of_decide_eq_true heq⟩
  · intro h
    rcases h with ⟨row, hrow, heq⟩
    exact ⟨row, hrow, decide_eq_true heq⟩

theorem keysOf_tallyAdd (v : vote) (weight : total) :
    keysOf keyOf (tallyAdd keyOf add zero table v weight) =
      if keyOf v ∈ keysOf keyOf table then keysOf keyOf table
      else keysOf keyOf table ++ [keyOf v] := by
  rw [tallyAdd]
  by_cases hin : keyOf v ∈ keysOf keyOf table
  · rw [if_pos (any_key_iff.mpr hin), if_pos hin, keysOf, keysOf, List.map_map]
    apply List.map_congr_left
    intro row _
    dsimp only [Function.comp_apply]
    split
    · rename_i heq
      exact heq.symm
    · rfl
  · rw [if_neg (fun h => hin (any_key_iff.mp h)), if_neg hin]
    exact List.map_append

theorem nodup_keysOf_tallyAdd (v : vote) (weight : total)
    (h : (keysOf keyOf table).Nodup) :
    (keysOf keyOf (tallyAdd keyOf add zero table v weight)).Nodup := by
  rw [keysOf_tallyAdd]
  split
  · exact h
  · rename_i hout
    rw [List.nodup_append]
    refine ⟨h, List.nodup_singleton _, ?_⟩
    intro k hk k' hk' heq
    rw [List.mem_singleton.mp hk'] at heq
    exact hout (heq ▸ hk)

theorem mem_keysOf_tallyAdd {v : vote} {weight : total} {k : key} :
    k ∈ keysOf keyOf (tallyAdd keyOf add zero table v weight) <->
      k ∈ keysOf keyOf table ∨ k = keyOf v := by
  rw [keysOf_tallyAdd]
  split
  · rename_i hin
    constructor
    · exact .inl
    · intro h
      rcases h with hold | rfl
      · exact hold
      · exact hin
  · rw [List.mem_append, List.mem_singleton]

theorem keysOf_tally (add : total -> total -> total) (zero : total)
    (votes : List (vote × total)) (h : (keysOf keyOf table).Nodup) :
    (keysOf keyOf (tally keyOf add zero table votes)).Nodup ∧
      forall k, k ∈ keysOf keyOf (tally keyOf add zero table votes) <->
        k ∈ keysOf keyOf table ∨ k ∈ keysOf keyOf votes := by
  induction votes generalizing table with
  | nil =>
      refine ⟨h, ?_⟩
      intro k
      constructor
      · exact .inl
      · intro hcases
        rcases hcases with hold | hnone
        · exact hold
        · cases hnone
  | cons v votes ih =>
      rcases ih (nodup_keysOf_tallyAdd v.1 v.2 h) with ⟨hnodup, hmem⟩
      refine ⟨hnodup, ?_⟩
      intro k
      have hcons : k ∈ keysOf keyOf (v :: votes) <-> k = keyOf v.1 ∨ k ∈ keysOf keyOf votes :=
        List.mem_cons
      rw [tally, List.foldl_cons]
      refine (hmem k).trans ?_
      rw [mem_keysOf_tallyAdd, hcons, or_assoc]

end Arithmetic

/-!
# Exact totals
-/

section Exact

variable [AddCommMonoid total] (keyOf : vote -> key)

def weightOf (votes : List (vote × total)) (k : key) : total :=
  ((votes.filter fun v => keyOf v.1 = k).map Prod.snd).sum

structure Tallied (table : List (vote × total)) (totals : key -> total) : Prop where
  nodup : (keysOf keyOf table).Nodup
  row : forall row, row ∈ table -> row.2 = totals (keyOf row.1)
  absent : forall k, k ∉ keysOf keyOf table -> totals k = 0

variable {keyOf} {table : List (vote × total)} {totals : key -> total}

omit [DecidableEq key] in
theorem tallied_nil : Tallied keyOf ([] : List (vote × total)) fun _ => 0 where
  nodup := List.nodup_nil
  row := by
    intro row h
    cases h
  absent := fun _ _ => rfl

theorem Tallied.add (h : Tallied keyOf table totals) (v : vote) (weight : total) :
    Tallied keyOf (tallyAdd keyOf (· + ·) 0 table v weight)
      fun k => totals k + if keyOf v = k then weight else 0 where
  nodup := nodup_keysOf_tallyAdd v weight h.nodup
  row := by
    intro row hrow
    rw [tallyAdd] at hrow
    split at hrow
    · rcases List.mem_map.mp hrow with ⟨old, hold, rfl⟩
      split
      · rename_i heq
        dsimp only
        rw [if_pos rfl, h.row old hold, heq]
      · rename_i hne
        rw [if_neg (fun heq => hne heq.symm), add_zero]
        exact h.row old hold
    · rename_i hnone
      rcases List.mem_append.mp hrow with hold | hnew
      · have hne : keyOf v ≠ keyOf row.1 := by
          intro heq
          apply hnone
          rw [any_key_iff, heq]
          exact List.mem_map_of_mem hold
        rw [if_neg hne, add_zero]
        exact h.row row hold
      · rw [List.mem_singleton.mp hnew]
        dsimp only
        rw [if_pos rfl, h.absent (keyOf v) (fun hin => hnone (any_key_iff.mpr hin))]
  absent := by
    intro k hk
    rw [mem_keysOf_tallyAdd, not_or] at hk
    rw [h.absent k hk.left, if_neg (fun heq => hk.right heq.symm), add_zero]

theorem Tallied.tally (h : Tallied keyOf table totals) (votes : List (vote × total)) :
    Tallied keyOf (Foundation.tally keyOf (· + ·) 0 table votes)
      fun k => totals k + weightOf keyOf votes k := by
  induction votes generalizing table totals with
  | nil =>
      simp only [weightOf, List.filter_nil, List.map_nil, List.sum_nil, add_zero]
      exact h
  | cons v votes ih =>
      have hnext := ih (h.add v.1 v.2)
      have htotals : (fun k => totals k + (if keyOf v.1 = k then v.2 else 0) +
          weightOf keyOf votes k) = fun k => totals k + weightOf keyOf (v :: votes) k := by
        funext k
        rw [weightOf, weightOf, List.filter_cons, add_assoc]
        by_cases heq : keyOf v.1 = k
        · rw [if_pos heq, if_pos (decide_eq_true heq), List.map_cons, List.sum_cons]
        · rw [if_neg heq, if_neg (fun hin => heq (of_decide_eq_true hin)), zero_add]
      rw [htotals] at hnext
      exact hnext

end Exact
end Foundation
