import ChatDoc.Service.Ranking
import Mathlib.Algebra.Order.BigOperators.Group.List

/-!
# Rank fusion

`rrf_fuse` over exact arithmetic: its scores are the sums of the formula of
Reciprocal Rank Fusion, and they order the chunks as dominance does.
-/

namespace ChatDoc

open Foundation

/-- `rrf_fuse` in exact arithmetic. -/
def exactFuse (rankedLists : List (List RetrievedChunk)) (k : Nat) :
    List (RetrievedChunk × Rat) :=
  fuseWith (· + ·) (· / ·) rankedLists k

/-!
# The formula
-/

def rankIn (id : Int) (ranked : List RetrievedChunk) : Option Nat :=
  ((idsOf ranked).idxOf? id).map (· + 1)

/-- The sum of `1 / (k + rank)` over the lists that the id is in. -/
def rrfScore (rankedLists : List (List RetrievedChunk)) (k : Nat) (id : Int) : Rat :=
  ((rankedLists.filterMap (rankIn id)).map fun (rank : Nat) => 1 / ((k : Rat) + rank)).sum

section Score

variable {k : Nat} {id : Int}

def listScore (k : Nat) (id : Int) (ranked : List RetrievedChunk) : Rat :=
  match rankIn id ranked with
  | some rank => 1 / (k + rank)
  | none => 0

theorem rrfScore_eq (rankedLists : List (List RetrievedChunk)) :
    rrfScore rankedLists k id = (rankedLists.map (listScore k id)).sum := by
  induction rankedLists with
  | nil => rfl
  | cons ranked rankedLists ih =>
      rw [List.map_cons, List.sum_cons, ← ih, rrfScore, rrfScore, List.filterMap_cons,
        listScore]
      cases rankIn id ranked with
      | none => exact (zero_add _).symm
      | some rank => rw [List.map_cons, List.sum_cons]

theorem weightOf_zipIdx {ranked : List RetrievedChunk} (h : (idsOf ranked).Nodup)
    (weight : Nat -> Rat) (n : Nat) :
    weightOf RetrievedChunk.chunkId ((ranked.zipIdx n).map fun r => (r.1, weight r.2)) id =
      match (idsOf ranked).idxOf? id with
      | some i => weight (n + i)
      | none => 0 := by
  induction ranked generalizing n with
  | nil => rfl
  | cons chunk ranked ih =>
      have hcons : idsOf (chunk :: ranked) = chunk.chunkId :: idsOf ranked := rfl
      rw [hcons, List.nodup_cons] at h
      rw [hcons, List.idxOf?_cons, List.zipIdx_cons, List.map_cons, weightOf, List.filter_cons]
      have hrest := ih h.right (n + 1)
      rw [weightOf] at hrest
      by_cases heq : chunk.chunkId = id
      · -- the id is not in the rest, which gives nothing more
        have hnone : (idsOf ranked).idxOf? id = none :=
          List.idxOf?_eq_none_iff.mpr (heq ▸ h.left)
        rw [hnone] at hrest
        rw [if_pos (decide_eq_true heq), List.map_cons, List.sum_cons, hrest, heq,
          beq_self_eq_true]
        exact add_zero _
      · rw [if_neg (fun hin => heq (of_decide_eq_true hin)), hrest, beq_false_of_ne heq]
        cases (idsOf ranked).idxOf? id with
        | none => rfl
        | some i => exact congrArg weight (Nat.add_right_comm n 1 i)

theorem weightOf_flatMap (votes : List RetrievedChunk -> List (RetrievedChunk × Rat))
    (rankedLists : List (List RetrievedChunk)) :
    weightOf RetrievedChunk.chunkId (rankedLists.flatMap votes) id =
      (rankedLists.map fun ranked =>
        weightOf RetrievedChunk.chunkId (votes ranked) id).sum := by
  induction rankedLists with
  | nil => rfl
  | cons ranked rankedLists ih =>
      rw [List.flatMap_cons, List.map_cons, List.sum_cons, ← ih, weightOf, weightOf, weightOf,
        List.filter_append, List.map_append, List.sum_append]

theorem listScore_of_some {ranked : List RetrievedChunk} {rank : Nat}
    (h : rankIn id ranked = some rank) : listScore k id ranked = 1 / ((k : Rat) + rank) := by
  rw [listScore, h]

theorem listScore_of_none {ranked : List RetrievedChunk} (h : rankIn id ranked = none) :
    listScore k id ranked = 0 := by
  rw [listScore, h]

theorem rank_pos {ranked : List RetrievedChunk} {rank : Nat}
    (h : rankIn id ranked = some rank) : 0 < rank := by
  rw [rankIn, Option.map_eq_some_iff] at h
  rcases h with ⟨i, _, rfl⟩
  exact Nat.succ_pos i

theorem score_pos {rank : Nat} (h : 0 < rank) : (0 : Rat) < 1 / ((k : Rat) + rank) := by
  positivity

end Score

/-!
# Dominance
-/

section Dominance

variable (a b : Int) (ranked : List RetrievedChunk)

/-- `a` is in the list if `b` is, and not ranked below it. -/
def NotBelow : Prop :=
  forall rank, rankIn b ranked = some rank ->
    exists rank', rankIn a ranked = some rank' ∧ rank' <= rank

/-- `a` is in the list, and `b` is behind it or not there. -/
def Ahead : Prop :=
  exists rank, rankIn a ranked = some rank ∧
    forall rank', rankIn b ranked = some rank' -> rank < rank'

structure Dominates (rankedLists : List (List RetrievedChunk)) : Prop where
  notBelow : forall ranked, ranked ∈ rankedLists -> NotBelow a b ranked
  ahead : exists ranked, ranked ∈ rankedLists ∧ Ahead a b ranked

variable {a b ranked} {k : Nat} {rankedLists : List (List RetrievedChunk)}

theorem Ahead.notBelow (h : Ahead a b ranked) : NotBelow a b ranked := by
  rcases h with ⟨rank, hrank, hbehind⟩
  intro rank' hrank'
  exact ⟨rank, hrank, le_of_lt (hbehind rank' hrank')⟩

theorem NotBelow.score_le (h : NotBelow a b ranked) :
    listScore k b ranked <= listScore k a ranked := by
  cases hb : rankIn b ranked with
  | none =>
      rw [listScore_of_none hb]
      cases ha : rankIn a ranked with
      | none => rw [listScore_of_none ha]
      | some rank =>
          rw [listScore_of_some ha]
          exact le_of_lt (score_pos (rank_pos ha))
  | some rank =>
      rcases h rank hb with ⟨rank', ha, hle⟩
      have hpos : 0 < rank' := rank_pos ha
      rw [listScore_of_some hb, listScore_of_some ha]
      gcongr

theorem Ahead.score_lt (h : Ahead a b ranked) :
    listScore k b ranked < listScore k a ranked := by
  rcases h with ⟨rank, ha, hbehind⟩
  have hpos : 0 < rank := rank_pos ha
  rw [listScore_of_some ha]
  cases hb : rankIn b ranked with
  | none =>
      rw [listScore_of_none hb]
      exact score_pos hpos
  | some rank' =>
      have hlt : rank < rank' := hbehind rank' hb
      rw [listScore_of_some hb]
      gcongr

theorem Dominates.score_lt (h : Dominates a b rankedLists) :
    rrfScore rankedLists k b < rrfScore rankedLists k a := by
  rw [rrfScore_eq, rrfScore_eq]
  apply List.sum_lt_sum
  · intro ranked hranked
    exact (h.notBelow ranked hranked).score_le
  · rcases h.ahead with ⟨ranked, hranked, hahead⟩
    exact ⟨ranked, hranked, hahead.score_lt⟩

theorem Dominates.mem (h : Dominates a b rankedLists) :
    exists ranked, ranked ∈ rankedLists ∧ a ∈ idsOf ranked := by
  rcases h.ahead with ⟨ranked, hranked, rank, hrank, _⟩
  refine ⟨ranked, hranked, ?_⟩
  rw [rankIn, Option.map_eq_some_iff] at hrank
  rcases hrank with ⟨i, hi, _⟩
  by_contra hout
  rw [List.idxOf?_eq_none_iff.mpr hout] at hi
  cases hi

end Dominance

/-!
# What the fusion returns
-/

section Fused

variable (rankedLists : List (List RetrievedChunk)) (k : Nat)

theorem sorted_fuseWith (add divide : Rat -> Rat -> Rat) :
    (fuseWith add divide rankedLists k).Pairwise fun e e' => e'.2 <= e.2 := by
  have htrans : forall e e' e'' : RetrievedChunk × Rat, decide (e'.2 <= e.2) = true ->
      decide (e''.2 <= e'.2) = true -> decide (e''.2 <= e.2) = true := by
    intro e e' e'' h h'
    exact decide_eq_true (le_trans (of_decide_eq_true h') (of_decide_eq_true h))
  have htotal : forall e e' : RetrievedChunk × Rat,
      (decide (e'.2 <= e.2) || decide (e.2 <= e'.2)) = true := by
    intro e e'
    rw [Bool.or_eq_true, decide_eq_true_iff, decide_eq_true_iff]
    exact le_total e'.2 e.2
  exact (List.pairwise_mergeSort htrans htotal _).imp of_decide_eq_true

variable {rankedLists} {k} {e : RetrievedChunk × Rat}

theorem score_exactFuse (h : forall ranked, ranked ∈ rankedLists -> (idsOf ranked).Nodup)
    (he : e ∈ exactFuse rankedLists k) : e.2 = rrfScore rankedLists k e.1.chunkId := by
  rw [exactFuse, fuseWith, List.mem_mergeSort] at he
  have hnone : Tallied RetrievedChunk.chunkId ([] : List (RetrievedChunk × Rat)) fun _ => 0 :=
    tallied_nil
  have htallied := hnone.tally (votesWith (· / ·) rankedLists k)
  rw [htallied.row e he, zero_add, votesWith, weightOf_flatMap, rrfScore_eq]
  congr 1
  apply List.map_congr_left
  intro ranked hranked
  rw [weightOf_zipIdx (h ranked hranked) (fun rank => 1 / ((k : Rat) + (rank : Rat))) 1,
    listScore, rankIn]
  cases (idsOf ranked).idxOf? e.1.chunkId with
  | none => rfl
  | some i =>
      dsimp only [Option.map_some]
      rw [Nat.add_comm 1 i]

/-- A chunk that dominates another one is placed before it. -/
theorem placed_exactFuse (h : forall ranked, ranked ∈ rankedLists -> (idsOf ranked).Nodup)
    {a b : Int} (hdominates : Dominates a b rankedLists) :
    (fusedIds (exactFuse rankedLists k)).idxOf a <
      (fusedIds (exactFuse rankedLists k)).idxOf b := by
  have hsorted : (fusedIds (exactFuse rankedLists k)).Pairwise fun a b =>
      rrfScore rankedLists k b <= rrfScore rankedLists k a := by
    rw [fusedIds, List.pairwise_map]
    apply (sorted_fuseWith rankedLists k (· + ·) (· / ·)).imp_of_mem
    intro e e' he he' hle
    rw [← score_exactFuse h he, ← score_exactFuse h he']
    exact hle
  have ha : a ∈ fusedIds (exactFuse rankedLists k) :=
    ((ids_fuseWith rankedLists k (· + ·) (· / ·)).right a).mpr hdominates.mem
  exact idxOf_lt_of_pairwise hsorted ha hdominates.score_lt

theorem rrfScore_perm {other : List (List RetrievedChunk)} (h : other.Perm rankedLists)
    (id : Int) : rrfScore other k id = rrfScore rankedLists k id := by
  rw [rrfScore_eq, rrfScore_eq]
  exact (h.map _).sum_eq

end Fused

/-- Without repetitions within a list, `rrf_fuse` is Reciprocal Rank Fusion: each id
once, by its score, where dominance decides; the order of the lists does not count. -/
theorem exactFuse_ranks (k : Nat) (rankedLists : List (List RetrievedChunk))
    (h : forall ranked, ranked ∈ rankedLists -> (idsOf ranked).Nodup) :
    (fusedIds (exactFuse rankedLists k)).Nodup ∧
      (forall id, id ∈ fusedIds (exactFuse rankedLists k) <->
        exists ranked, ranked ∈ rankedLists ∧ id ∈ idsOf ranked) ∧
      (forall e, e ∈ exactFuse rankedLists k ->
        e.2 = rrfScore rankedLists k e.1.chunkId) ∧
      (exactFuse rankedLists k).Pairwise (fun e e' => e'.2 <= e.2) ∧
      (forall a b, Dominates a b rankedLists ->
        (fusedIds (exactFuse rankedLists k)).idxOf a <
          (fusedIds (exactFuse rankedLists k)).idxOf b) ∧
      forall other : List (List RetrievedChunk), other.Perm rankedLists ->
        forall e e', e ∈ exactFuse rankedLists k -> e' ∈ exactFuse other k ->
          e.1.chunkId = e'.1.chunkId -> e.2 = e'.2 := by
  rcases ids_fuseWith rankedLists k (· + ·) (· / ·) with ⟨hnodup, hmem⟩
  refine ⟨hnodup, hmem, fun e he => score_exactFuse h he, sorted_fuseWith rankedLists k _ _,
    fun a b hdominates => placed_exactFuse h hdominates, ?_⟩
  intro other hperm e e' he he' heq
  have hother : forall ranked, ranked ∈ other -> (idsOf ranked).Nodup := by
    intro ranked hranked
    exact h ranked (hperm.mem_iff.mp hranked)
  rw [score_exactFuse h he, score_exactFuse hother he', rrfScore_perm hperm, heq]

/-- Chunk 2 is in both lists, and ahead of chunk 3 where that one is. -/
theorem exactFuse_ranks_two :
    let chunk (id : Int) : RetrievedChunk := ⟨id, 1, "", none, none, none, none, none⟩
    let rankedLists := [[chunk 1, chunk 2], [chunk 2, chunk 3]]
    (fusedIds (exactFuse rankedLists 60)).idxOf 2 <
      (fusedIds (exactFuse rankedLists 60)).idxOf 3 := by
  intro chunk rankedLists
  have hnodup : forall ranked, ranked ∈ rankedLists -> (idsOf ranked).Nodup := by
    intro ranked hranked
    rcases List.mem_pair.mp hranked with rfl | rfl
    · exact of_decide_eq_true rfl
    · exact of_decide_eq_true rfl
  have hsecond : Ahead 2 3 [chunk 2, chunk 3] := by
    refine ⟨1, rfl, ?_⟩
    intro rank hrank
    cases hrank
    exact Nat.lt_succ_self 1
  have hdominates : Dominates 2 3 rankedLists := by
    constructor
    · intro ranked hranked
      rcases List.mem_pair.mp hranked with rfl | rfl
      · intro rank hrank
        cases hrank
      · exact hsecond.notBelow
    · exact ⟨[chunk 2, chunk 3], List.mem_pair.mpr (.inr rfl), hsecond⟩
  exact (exactFuse_ranks 60 rankedLists hnodup).2.2.2.2.1 2 3 hdominates

end ChatDoc
