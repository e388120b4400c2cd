import ChatDoc.Foundation.Tally
import ChatDoc.Foundation.Ranking
import ChatDoc.Service.Retrieval

/-!
# The ranking of a retrieval

`hybrid_retrieve_scored` of `ingest/retrieval.py` returns the best of the fused
candidates.  The dictionaries of `rrf_fuse` have one key for each chunk that a
search has found, whatever their lists share, and the scores of the cross-encoder
meet the candidates place by place.
-/

namespace ChatDoc

open Foundation

/-!
# Keys of the fusion
-/

def fusedIds (fused : List (RetrievedChunk × Rat)) : List Int :=
  fused.map fun e => e.1.chunkId

theorem foldl_rrfAdd_eq (k : Nat) (ranked : List (RetrievedChunk × Nat))
    (fused : List (RetrievedChunk × Rat)) :
    ranked.foldl (rrfAdd k) fused =
      tally RetrievedChunk.chunkId addFloat 0 fused
        (ranked.map fun r => (r.1, divFloat 1 (k + r.2))) := by
  rw [tally, List.foldl_map]
  rfl

section Arithmetic

variable (add divide : Rat -> Rat -> Rat) (rankedLists : List (List RetrievedChunk)) (k : Nat)

/-- What the two loops of `rrf_fuse` add up. -/
def votesWith : List (RetrievedChunk × Rat) :=
  rankedLists.flatMap fun ranked =>
    (ranked.zipIdx 1).map fun r => (r.1, divide 1 (k + r.2))

/-- `rrf_fuse` with its sum and its quotient. -/
def fuseWith : List (RetrievedChunk × Rat) :=
  (tally RetrievedChunk.chunkId add 0 [] (votesWith divide rankedLists k)).mergeSort
    fun a b => b.2 <= a.2

end Arithmetic

theorem rrfFuse_eq_fuseWith (rankedLists : List (List RetrievedChunk)) (k : Nat) :
    rrfFuse rankedLists k = fuseWith addFloat divFloat rankedLists k := by
  have htally : rankedLists.foldl
      (fun fused ranked => (ranked.zipIdx 1).foldl (rrfAdd k) fused) [] =
      tally RetrievedChunk.chunkId addFloat 0 [] (votesWith divFloat rankedLists k) := by
    rw [tally, votesWith, List.foldl_flatMap]
    congr 1
    funext fused ranked
    exact foldl_rrfAdd_eq k (ranked.zipIdx 1) fused
  rw [rrfFuse, htally]
  rfl

def idsOf (ranked : List RetrievedChunk) : List Int := ranked.map RetrievedChunk.chunkId

section Fused

variable (rankedLists : List (List RetrievedChunk)) (k : Nat)

theorem keysOf_votesWith (divide : Rat -> Rat -> Rat) :
    keysOf RetrievedChunk.chunkId (votesWith divide rankedLists k) =
      rankedLists.flatMap idsOf := by
  rw [keysOf, votesWith, List.map_flatMap]
  congr 1
  funext ranked
  conv_rhs => rw [← List.zipIdx_map_fst 1 ranked, idsOf, List.map_map]
  rw [List.map_map]
  rfl

theorem ids_fuseWith (add divide : Rat -> Rat -> Rat) :
    (fusedIds (fuseWith add divide rankedLists k)).Nodup ∧
      forall id, id ∈ fusedIds (fuseWith add divide rankedLists k) <->
        exists ranked, ranked ∈ rankedLists ∧ id ∈ idsOf ranked := by
  have hempty : (keysOf RetrievedChunk.chunkId
    ([] : List (RetrievedChunk × Rat))).Nodup := List.nodup_nil
  rcases keysOf_tally add 0 (votesWith divide rankedLists k) hempty with ⟨hnodup, hmem⟩
  have hperm : (fusedIds (fuseWith add divide rankedLists k)).Perm
      (keysOf RetrievedChunk.chunkId
        (tally RetrievedChunk.chunkId add 0 [] (votesWith divide rankedLists k))) :=
    (List.mergeSort_perm _ _).map _
  constructor
  · exact hperm.nodup_iff.mpr hnodup
  · intro id
    rw [hperm.mem_iff, hmem id, keysOf_votesWith, List.mem_flatMap]
    constructor
    · intro hcases
      rcases hcases with hnone | hin
      · cases hnone
      · exact hin
    · exact .inr

end Fused

theorem fusedIds_rrfFuse (dense sparse : List RetrievedChunk) (k : Nat) :
    (fusedIds (rrfFuse [dense, sparse] k)).Nodup ∧
      forall id, id ∈ fusedIds (rrfFuse [dense, sparse] k) <->
        id ∈ (dense ++ sparse).map RetrievedChunk.chunkId := by
  rw [rrfFuse_eq_fuseWith]
  rcases ids_fuseWith [dense, sparse] k addFloat divFloat with ⟨hnodup, hmem⟩
  refine ⟨hnodup, ?_⟩
  intro id
  rw [hmem, List.map_append, List.mem_append]
  simp [idsOf]

/-!
# What the searches find
-/

section Ranking

variable {score : Type} [LinearOrder score] (B : Backend score) (db : Database)
  (documentId : Nat) (query : String) (denseN sparseN : Nat)

def foundChunks : List RetrievedChunk :=
  denseSearch B db documentId query denseN ++
    sparseSearch B db documentId query sparseN

/-- The candidates that the cross-encoder sees: the first of the fused ranking. -/
def rankedCandidates (rrfTopN : Nat) : List RetrievedChunk :=
  ((rrfFuse [denseSearch B db documentId query denseN,
    sparseSearch B db documentId query sparseN] rrfK).take rrfTopN).map Prod.fst

def crossEncoderScores (rrfTopN : Nat) : List PyFloat :=
  B.rerank query ((rankedCandidates B db documentId query denseN sparseN rrfTopN).map
    RetrievedChunk.text)

/-- `zip(candidates, scores)`. -/
def scoredCandidates (rrfTopN : Nat) : List (RetrievedChunk × PyFloat) :=
  (rankedCandidates B db documentId query denseN sparseN rrfTopN).zip
    (crossEncoderScores B db documentId query denseN sparseN rrfTopN)

variable {B db documentId query denseN sparseN}

theorem isChunkOf_found {chunk : RetrievedChunk}
    (h : chunk ∈ foundChunks B db documentId query denseN sparseN) :
    IsChunkOf db documentId chunk := by
  rcases List.mem_append.mp h with hdense | hsparse
  · exact isChunkOf_dense hdense
  · exact isChunkOf_sparse hsparse

theorem IsChunkOf.eq_of_chunkId {chunk chunk' : RetrievedChunk}
    (h : IsChunkOf db documentId chunk) (h' : IsChunkOf db documentId chunk')
    (heq : chunk.chunkId = chunk'.chunkId) : chunk = chunk' := by
  rcases h with ⟨id, row, hrow, _, rfl⟩
  rcases h' with ⟨id', row', hrow', _, rfl⟩
  have hid : id = id' := Int.ofNat.inj heq
  rw [hid, hrow'] at hrow
  cases hrow
  rw [hid]

theorem nodup_foundIds :
    ((foundChunks B db documentId query denseN sparseN).dedup.map
      RetrievedChunk.chunkId).Nodup := by
  apply (List.nodup_dedup _).map_on
  intro chunk hchunk chunk' hchunk' heq
  exact (isChunkOf_found (List.mem_dedup.mp hchunk)).eq_of_chunkId
    (isChunkOf_found (List.mem_dedup.mp hchunk')) heq

variable (B db documentId query denseN sparseN)

theorem length_rrfFuse :
    (rrfFuse [denseSearch B db documentId query denseN,
        sparseSearch B db documentId query sparseN] rrfK).length =
      (foundChunks B db documentId query denseN sparseN).dedup.length := by
  rcases fusedIds_rrfFuse (denseSearch B db documentId query denseN)
    (sparseSearch B db documentId query sparseN) rrfK with ⟨hnodup, hmem⟩
  have hlength := length_eq_of_nodup hnodup nodup_foundIds fun id => by
    rw [hmem, List.mem_map, List.mem_map]
    simp only [List.mem_dedup]
    rfl
  unfold fusedIds at hlength
  rwa [List.length_map, List.length_map] at hlength

variable (rrfTopN : Nat)

theorem nodup_rankedCandidates :
    ((rankedCandidates B db documentId query denseN sparseN rrfTopN).map
      RetrievedChunk.chunkId).Nodup := by
  have hnodup := (fusedIds_rrfFuse (denseSearch B db documentId query denseN)
    (sparseSearch B db documentId query sparseN) rrfK).1
  unfold rankedCandidates
  rw [List.map_map]
  exact hnodup.sublist ((List.take_sublist _ _).map _)

theorem length_rankedCandidates :
    (rankedCandidates B db documentId query denseN sparseN rrfTopN).length =
      min rrfTopN (foundChunks B db documentId query denseN sparseN).dedup.length := by
  unfold rankedCandidates
  rw [List.length_map, List.length_take, length_rrfFuse]

/-!
# The second sort
-/

variable (rerankTopK : Nat)

/-- Nothing to rank, or the front part of the candidates sorted by their scores. -/
theorem hybridRetrieveScored_eq :
    hybridRetrieveScored B db documentId query denseN sparseN rrfTopN rerankTopK =
      ((scoredCandidates B db documentId query denseN sparseN rrfTopN).mergeSort
        fun a b => !a.2.lt b.2).take rerankTopK := by
  unfold hybridRetrieveScored scoredCandidates crossEncoderScores rankedCandidates
  dsimp only
  split
  next hnil =>
    rw [hnil]
    simp
  next => rfl

/-- The pairs are the best of the candidates, each with the score of its text. -/
structure ExactTop (result : List (RetrievedChunk × PyFloat)) : Prop where
  distinct : (result.map fun e => e.1.chunkId).Nodup
  ofDocument : forall e, e ∈ result -> IsChunkOf db documentId e.1
  searched : forall e, e ∈ result ->
    e.1 ∈ denseSearch B db documentId query denseN ∨
      e.1 ∈ sparseSearch B db documentId query sparseN
  descending : result.Pairwise fun a b => a.2.lt b.2 = false
  length : result.length = min rerankTopK
    (min rrfTopN (foundChunks B db documentId query denseN sparseN).dedup.length)
  paired : forall e, e ∈ result -> exists i : Nat,
    (rankedCandidates B db documentId query denseN sparseN rrfTopN)[i]? = some e.1 ∧
      (crossEncoderScores B db documentId query denseN sparseN rrfTopN)[i]? = some e.2
  leftOut : forall (i : Nat) chunk s,
    (rankedCandidates B db documentId query denseN sparseN rrfTopN)[i]? = some chunk ->
      (crossEncoderScores B db documentId query denseN sparseN rrfTopN)[i]? = some s ->
        chunk ∉ result.map Prod.fst -> forall e, e ∈ result -> e.2.lt s = false

variable {B db documentId query denseN sparseN rrfTopN rerankTopK}

theorem mem_found_of_candidate {chunk : RetrievedChunk}
    (h : chunk ∈ rankedCandidates B db documentId query denseN sparseN rrfTopN) :
    chunk ∈ foundChunks B db documentId query denseN sparseN := by
  rcases List.mem_map.mp h with ⟨e, hfused, rfl⟩
  exact List.mem_append.mpr (mem_rrfFuse (List.mem_of_mem_take hfused))

theorem mem_scoredCandidates {e : RetrievedChunk × PyFloat} :
    e ∈ scoredCandidates B db documentId query denseN sparseN rrfTopN <->
      exists i : Nat,
        (rankedCandidates B db documentId query denseN sparseN rrfTopN)[i]? =
            some e.1 ∧
          (crossEncoderScores B db documentId query denseN sparseN rrfTopN)[i]? =
            some e.2 := by
  unfold scoredCandidates
  rw [List.mem_iff_getElem?]
  simp only [List.getElem?_zip_eq_some]

theorem mem_scored_of_hybridRetrieveScored {e : RetrievedChunk × PyFloat}
    (h : e ∈ hybridRetrieveScored B db documentId query denseN sparseN rrfTopN
      rerankTopK) :
    e ∈ scoredCandidates B db documentId query denseN sparseN rrfTopN := by
  rw [hybridRetrieveScored_eq] at h
  exact List.mem_mergeSort.mp (List.mem_of_mem_take h)

/-- The reranker scores each text of a list, and by a number. -/
structure ScoresTexts (rerank : Reranker) (query : String) : Prop where
  length : forall texts, (rerank query texts).length = texts.length
  number : forall texts s, s ∈ rerank query texts -> s ≠ .nan

theorem map_fst_scoredCandidates (h : ScoresTexts B.rerank query) :
    (scoredCandidates B db documentId query denseN sparseN rrfTopN).map Prod.fst =
      rankedCandidates B db documentId query denseN sparseN rrfTopN := by
  apply List.map_fst_zip
  unfold crossEncoderScores
  rw [h.length, List.length_map]

theorem sorted_candidates (h : ScoresTexts B.rerank query) :
    ((scoredCandidates B db documentId query denseN sparseN rrfTopN).mergeSort
      fun a b => !a.2.lt b.2).Pairwise fun a b => a.2.lt b.2 = false := by
  have hsorted : ((scoredCandidates B db documentId query denseN sparseN
      rrfTopN).mergeSort fun a b => !a.2.lt b.2).Pairwise
        fun a b => (!a.2.lt b.2) = true := by
    apply pairwise_mergeSort_of_mem (P := fun e => e.2 ≠ .nan)
    · intro e he
      exact h.number _ _ (List.of_mem_zip he).2
    · intro a b c _ hb _ hab hbc
      rw [Bool.not_eq_true'] at *
      exact PyFloat.not_lt_trans hb hbc hab
    · intro a b _ _
      rw [Bool.or_eq_true, Bool.not_eq_true', Bool.not_eq_true']
      by_cases hlt : a.2.lt b.2 = true
      · exact .inr (PyFloat.lt_asymm hlt)
      · exact .inl (Bool.eq_false_iff.mpr hlt)
  apply hsorted.imp
  intro a b hle
  rwa [Bool.not_eq_true'] at hle

theorem descending_hybridRetrieveScored (h : ScoresTexts B.rerank query) :
    (hybridRetrieveScored B db documentId query denseN sparseN rrfTopN
      rerankTopK).Pairwise fun a b => a.2.lt b.2 = false := by
  rw [hybridRetrieveScored_eq]
  exact (sorted_candidates h).sublist (List.take_sublist _ _)

theorem nodup_hybridRetrieveScored (h : ScoresTexts B.rerank query) :
    ((hybridRetrieveScored B db documentId query denseN sparseN rrfTopN
      rerankTopK).map fun e => e.1.chunkId).Nodup := by
  have hids := nodup_rankedCandidates B db documentId query denseN sparseN rrfTopN
  rw [← map_fst_scoredCandidates h, List.map_map] at hids
  have hsorted := ((List.mergeSort_perm (scoredCandidates B db documentId query denseN
    sparseN rrfTopN) fun a b => !a.2.lt b.2).map _).nodup_iff.mpr hids
  rw [hybridRetrieveScored_eq]
  exact hsorted.sublist ((List.take_sublist _ _).map _)

theorem length_hybridRetrieveScored (h : ScoresTexts B.rerank query) :
    (hybridRetrieveScored B db documentId query denseN sparseN rrfTopN
      rerankTopK).length = min rerankTopK
        (min rrfTopN (foundChunks B db documentId query denseN sparseN).dedup.length) := by
  rw [hybridRetrieveScored_eq, List.length_take, List.length_mergeSort,
    ← length_rankedCandidates, ← map_fst_scoredCandidates h, List.length_map]

theorem lt_false_of_leftOut (h : ScoresTexts B.rerank query)
    {e left : RetrievedChunk × PyFloat}
    (he : e ∈ hybridRetrieveScored B db documentId query denseN sparseN rrfTopN
      rerankTopK)
    (hleft : left ∈ scoredCandidates B db documentId query denseN sparseN rrfTopN)
    (hout : left ∉ hybridRetrieveScored B db documentId query denseN sparseN rrfTopN
      rerankTopK) : e.2.lt left.2 = false := by
  rw [hybridRetrieveScored_eq] at he hout
  exact rel_of_take (sorted_candidates h) he (List.mem_mergeSort.mpr hleft) hout

end Ranking

/-- Whatever the numbers of rows asked for, a retrieval returns the exact top of
the fused candidates. -/
theorem exactTop_hybridRetrieveScored {score : Type} [LinearOrder score]
    (B : Backend score) (db : Database) (documentId : Nat) (query : String)
    (denseN sparseN rrfTopN rerankTopK : Nat) (h : ScoresTexts B.rerank query) :
    ExactTop B db documentId query denseN sparseN rrfTopN rerankTopK
      (hybridRetrieveScored B db documentId query denseN sparseN rrfTopN
        rerankTopK) where
  distinct := nodup_hybridRetrieveScored h
  ofDocument := by
    intro e he
    have hzip := List.of_mem_zip (mem_scored_of_hybridRetrieveScored he)
    exact isChunkOf_found (mem_found_of_candidate hzip.1)
  searched := by
    intro e he
    have hzip := List.of_mem_zip (mem_scored_of_hybridRetrieveScored he)
    exact List.mem_append.mp (mem_found_of_candidate hzip.1)
  descending := descending_hybridRetrieveScored h
  length := length_hybridRetrieveScored h
  paired := by
    intro e he
    exact mem_scoredCandidates.mp (mem_scored_of_hybridRetrieveScored he)
  leftOut := by
    intro i chunk s hchunk hs hout e he
    exact lt_false_of_leftOut h he (mem_scoredCandidates.mpr ⟨i, hchunk, hs⟩)
      fun hkept => hout (List.mem_map.mpr ⟨(chunk, s), hkept, rfl⟩)

/-!
# Two chunks with one score

Both searches find both chunks, and the cross-encoder cannot tell them apart.
-/

theorem length_textLengths (texts : List String) :
    (texts.map fun text => [(text.length : Rat)]).length = texts.length :=
  List.length_map _

def lengthBackend : Backend Nat where
  tie := ⟨id, Function.injective_id⟩
  embedding := ⟨fun texts => texts.map fun text => [text.length], length_textLengths⟩
  distance := fun v w => (v.zip w).countP fun c => c.1 ≠ c.2
  tsMatches := fun _ _ => true
  tsRank := fun text _ => text.length
  u := .ascii
  rerank := fun _ documents => documents.map fun text => .finite text.length
  generate := fun prompt => ⟨[prompt], .finished⟩
  parse := fun _ => none

def proseRow (text : String) : ChunkRow where
  documentId := 1
  chunkIndex := 0
  chunk := ⟨1, .prose, text, none, none, none, none, none⟩
  embedding := [text.length]

def oneDocument : Database :=
  Database.empty.insertDocument (.inserted 0 "a" "a.pdf" 1) rfl

def twoChunks : Database :=
  ((oneDocument.insertChunk (proseRow "577")).2.insertChunk (proseRow "578")).2

theorem scoresTexts_lengthBackend (query : String) :
    ScoresTexts lengthBackend.rerank query where
  length := by
    intro texts
    exact List.length_map _
  number := by
    intro texts s hs
    rcases List.mem_map.mp hs with ⟨text, _, rfl⟩
    exact PyFloat.noConfusion

theorem exactTop_twoChunks :
    ExactTop lengthBackend twoChunks 1 "q" 30 30 20 1
      (hybridRetrieveScored lengthBackend twoChunks 1 "q" 30 30 20 1) :=
  exactTop_hybridRetrieveScored lengthBackend twoChunks 1 "q" 30 30 20 1
    (scoresTexts_lengthBackend "q")

end ChatDoc
