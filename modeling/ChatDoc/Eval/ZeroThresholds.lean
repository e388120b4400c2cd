import ChatDoc.Eval.Replay
import ChatDoc.Eval.Sweep
import ChatDoc.Service.Ranking

/-!
# Thresholds of zero

Zero stands for "off" in two layers of the gate: as the threshold of the retrieval
margin and as the one of the prose support.  Neither quantity is non-negative by
its construction, since the scores of the cross-encoder are raw logits.  With two
chunks the margin is the difference of the two highest scores; with one chunk it is
a score, and the prose support is always one.
-/

namespace ChatDoc

open Foundation

namespace PyFloat

theorem sub_zero (a : PyFloat) : a.sub (.finite 0) = a := by
  cases a with
  | finite q => exact congrArg PyFloat.finite (by ring)
  | inf negative => rfl
  | nan => rfl

theorem sub_not_lt_zero {a b : PyFloat} (h : a.lt b = false) :
    (a.sub b).lt (.finite 0) = false := by
  cases a with
  | finite p =>
      cases b with
      | finite q => simpa [lt, sub] using h
      | inf negative => simpa [lt, sub] using h
      | nan => rfl
  | inf negative =>
      cases b with
      | finite q => simpa [lt, sub] using h
      | inf negative' =>
          cases negative <;> cases negative' <;> first | rfl | cases h
      | nan => rfl
  | nan => rfl

theorem maximum_lt_iff {first t : PyFloat} {rest : List PyFloat}
    (hnumber : forall s, s ∈ rest -> s ≠ .nan) :
    (first.maximum rest).lt t = true <->
      forall s, s ∈ first :: rest -> s.lt t = true := by
  induction rest generalizing first with
  | nil => simp [maximum]
  | cons s rest ih =>
      rw [List.forall_mem_cons] at hnumber
      have hfold : first.maximum (s :: rest) =
          (if first.lt s then s else first).maximum rest := rfl
      rw [hfold, ih hnumber.2, List.forall_mem_cons, List.forall_mem_cons,
        List.forall_mem_cons, ← and_assoc]
      apply and_congr_left'
      cases hlt : first.lt s with
      | true =>
          rw [if_pos rfl]
          exact ⟨fun hs => ⟨lt_trans hlt hs, hs⟩, And.right⟩
      | false =>
          rw [if_neg Bool.false_ne_true]
          refine ⟨fun hfirst => ⟨hfirst, ?_⟩, And.left⟩
          by_contra hs
          rw [Bool.not_eq_true] at hs
          rw [not_lt_trans hnumber.1 hs hlt] at hfirst
          cases hfirst

/-- `max(scores) if scores else 0.0`. -/
def best : List PyFloat -> PyFloat
  | [] => .finite 0
  | first :: rest => first.maximum rest

theorem best_lt_iff {scores : List PyFloat} {t : PyFloat} (hsome : scores ≠ [])
    (hnumber : forall s, s ∈ scores -> s ≠ .nan) :
    (best scores).lt t = true <-> forall s, s ∈ scores -> s.lt t = true := by
  cases scores with
  | nil => exact absurd rfl hsome
  | cons first rest =>
      exact maximum_lt_iff fun s hs => hnumber s (List.mem_cons_of_mem _ hs)

end PyFloat

/-!
# The prose support
-/

def citedTexts (answer : GateAnswer) (ctx : GateContext) : List String :=
  answer.citations.filterMap fun c => ctx.chunkTextById c.chunkId

section Prose

variable {u : PyText} {rerank : Reranker} {answer : GateAnswer} {ctx : GateContext}
  {threshold : PyFloat}

theorem checkL3bProse_passed :
    (checkL3bProse u rerank answer ctx threshold).passed = true <->
      forall text, orElse answer.answerText none = some text ->
        citedTexts answer ctx ≠ [] ∧
          (PyFloat.best (rerank text (citedTexts answer ctx))).lt threshold = false := by
  unfold checkL3bProse
  split
  next hnone => simp [hnone]
  next text htext =>
    rw [htext]
    simp only [Option.some.injEq, forall_eq']
    by_cases hcited : answer.citations = []
    · rw [if_pos hcited]
      simp [citedTexts, hcited]
    · rw [if_neg hcited]
      change (if citedTexts answer ctx = [] then GateResult.fail _
        else if (PyFloat.best (rerank text (citedTexts answer ctx))).lt threshold = true
          then GateResult.fail _ else GateResult.pass).passed = true <-> _
      by_cases hnil : citedTexts answer ctx = []
      · rw [if_pos hnil]
        simp [hnil]
      · rw [if_neg hnil]
        cases (PyFloat.best (rerank text (citedTexts answer ctx))).lt threshold with
        | true => simp
        | false => simp [hnil]

theorem checkL3bProse_passed_iff (hscores : forall query, ScoresTexts rerank query) :
    (checkL3bProse u rerank answer ctx threshold).passed = true <->
      forall text, orElse answer.answerText none = some text ->
        citedTexts answer ctx ≠ [] ∧
          exists s, s ∈ rerank text (citedTexts answer ctx) ∧ s.lt threshold = false := by
  rw [checkL3bProse_passed]
  refine forall_congr' fun text => imp_congr_right fun _ => and_congr_right fun hsome => ?_
  have hne : rerank text (citedTexts answer ctx) ≠ [] := by
    apply List.ne_nil_of_length_pos
    rw [(hscores text).length]
    exact List.length_pos_iff.mpr hsome
  rw [Bool.eq_false_iff, ne_eq,
    PyFloat.best_lt_iff hne ((hscores text).number (citedTexts answer ctx))]
  simp

end Prose

/-!
# Zero as a threshold
-/

def SingleBelowZero (ctx : RetrievalContext) : Prop :=
  exists chunk s, ctx.scored = [(chunk, s)] ∧ s.lt (.finite 0) = true

def CitedBelowZero (rerank : Reranker) (ctx : RetrievalContext) (answer : GateAnswer) :
    Prop :=
  exists text, orElse answer.answerText none = some text ∧
    citedTexts answer ctx.gateContext ≠ [] ∧
      forall s, s ∈ rerank text (citedTexts answer ctx.gateContext) ->
        s.lt (.finite 0) = true

/-- What it means for the generation that zero switches the two checks off. -/
structure ZeroIsOff (u : PyText) (rerank : Reranker) (ctx : RetrievalContext)
    (answer : GateAnswer) : Prop where
  margin : (checkL1Margin u ctx.top1Top2Scores.1 ctx.top1Top2Scores.2
    (.finite 0)).passed = true
  prose : orElse answer.answerText none ≠ none ->
    (exists c, c ∈ answer.citations ∧ c.chunkId ∈ ctx.chunkIds) ->
      (checkL3bProse u rerank answer ctx.gateContext
        defaultL3bThreshold).passed = true
  configs : forall docName result, result.parsed = answer ->
    (generateForRecord docName ctx result).reloaded.decide u rerank [.l1, .l2, .l3]
        defaultL3bThreshold (.finite 0) =
      (generateForRecord docName ctx result).reloaded.decide u rerank [.l2, .l3]
        defaultL3bThreshold (.finite 0)
  live : forall l1Margin, Passes (applyGate u rerank answer ctx.gateContext liveGateLayers
      (.finite 0) l1Margin (.finite 0)) <->
    (checkL2 answer ctx.gateContext).passed = true ∧
      Passes (checkL3aNumeric u answer ctx.gateContext) ∧
        (orElse answer.answerText none ≠ none ->
          exists c, c ∈ answer.citations ∧ c.chunkId ∈ ctx.chunkIds)

section Zero

variable {u : PyText} {rerank : Reranker} {ctx : RetrievalContext} {answer : GateAnswer}

theorem mem_chunkIds_of_text {id : Int} {text : String}
    (h : ctx.textById id = some text) : id ∈ ctx.chunkIds := by
  rcases Option.map_eq_some_iff.mp h with ⟨chunk, hchunk, _⟩
  have hmem := List.mem_of_find?_eq_some hchunk
  have hid := List.find?_some hchunk
  rw [decide_eq_true_eq] at hid
  exact List.mem_map.mpr ⟨chunk, List.mem_reverse.mp hmem, hid⟩

theorem citedTexts_ne_nil :
    citedTexts answer ctx.gateContext ≠ [] <->
      exists c, c ∈ answer.citations ∧ c.chunkId ∈ ctx.chunkIds := by
  unfold citedTexts
  constructor
  · intro hsome
    rcases List.exists_mem_of_ne_nil _ hsome with ⟨text, htext⟩
    rcases List.mem_filterMap.mp htext with ⟨c, hc, htext⟩
    exact ⟨c, hc, mem_chunkIds_of_text htext⟩
  · intro hall
    rcases hall with ⟨c, hc, hid⟩
    rcases Option.isSome_iff_exists.mp (chunksById_isSome hid) with ⟨chunk, hchunk⟩
    have htext : ctx.gateContext.chunkTextById c.chunkId = some chunk.text := by
      change (ctx.chunksById c.chunkId).map RetrievedChunk.text = _
      rw [hchunk]
      rfl
    exact List.ne_nil_of_mem (List.mem_filterMap.mpr ⟨c, hc, htext⟩)

/-- In a descending list only a single score can make the margin negative. -/
theorem margin_passed_iff (hfound : ctx.scored ≠ [])
    (hsorted : ctx.scored.Pairwise fun a b => a.2.lt b.2 = false) :
    (checkL1Margin u ctx.top1Top2Scores.1 ctx.top1Top2Scores.2 (.finite 0)).passed =
        true <-> ¬ SingleBelowZero ctx := by
  rw [checkL1Margin_passed]
  unfold SingleBelowZero RetrievalContext.top1Top2Scores
  rcases hscored : ctx.scored with _ | ⟨top1, rest⟩
  · exact absurd hscored hfound
  · rw [hscored, List.pairwise_cons] at hsorted
    cases rest with
    | nil =>
        dsimp only [Option.getD_none]
        rw [PyFloat.sub_zero, Bool.eq_false_iff, not_iff_not]
        constructor
        · intro hlow
          exact ⟨top1.1, top1.2, rfl, hlow⟩
        · intro hall
          rcases hall with ⟨_, _, hsingle, hlow⟩
          cases hsingle
          exact hlow
    | cons top2 rest =>
        have hmargin := PyFloat.sub_not_lt_zero (hsorted.1 top2 List.mem_cons_self)
        constructor
        · intro _ hall
          rcases hall with ⟨_, _, hsingle, _⟩
          cases hsingle
        · intro _
          exact hmargin

theorem prose_passed_iff (hscores : forall query, ScoresTexts rerank query) :
    (orElse answer.answerText none ≠ none ->
      (exists c, c ∈ answer.citations ∧ c.chunkId ∈ ctx.chunkIds) ->
        (checkL3bProse u rerank answer ctx.gateContext (.finite 0)).passed = true) <->
      ¬ CitedBelowZero rerank ctx answer := by
  rw [checkL3bProse_passed_iff hscores, ← citedTexts_ne_nil]
  unfold CitedBelowZero
  rcases orElse answer.answerText none with _ | text
  · simp
  · simp only [ne_eq, Option.some.injEq, reduceCtorEq, not_false_eq_true, forall_eq',
      true_imp_iff, exists_eq_left', not_and, not_forall]
    refine imp_congr_right fun hsome => ?_
    simp [hsome]

theorem applyGate_of_checkL1 {l3bThreshold l1Threshold : PyFloat}
    {l1Margin : Option (PyFloat × Option PyFloat)} {gateContext : GateContext}
    (h : (checkL1 u l1Margin l1Threshold).passed = true) :
    applyGate u rerank answer gateContext [.l1, .l2, .l3] l3bThreshold l1Margin
        l1Threshold =
      applyGate u rerank answer gateContext [.l2, .l3] l3bThreshold l1Margin
        l1Threshold := by
  have hfirst (next : Except Exn GateResult) :
      runLayer true (.ok (checkL1 u l1Margin l1Threshold)) next = next := by
    unfold runLayer
    rw [if_pos rfl]
    change (if !(checkL1 u l1Margin l1Threshold).passed then _ else next) = next
    rw [h]
    rfl
  unfold applyGate
  exact hfirst _

theorem zeroIsOff_iff_of_sorted (hfound : ctx.scored ≠ [])
    (hsorted : ctx.scored.Pairwise fun a b => a.2.lt b.2 = false)
    (hscores : forall query, ScoresTexts rerank query) :
    ZeroIsOff u rerank ctx answer <->
      ¬ SingleBelowZero ctx ∧ ¬ CitedBelowZero rerank ctx answer := by
  constructor
  · intro h
    exact ⟨(margin_passed_iff hfound hsorted).mp h.margin,
      (prose_passed_iff hscores).mp h.prose⟩
  · intro hall
    rcases hall with ⟨hsingle, hcited⟩
    have hmargin := (margin_passed_iff (u := u) hfound hsorted).mpr hsingle
    have hprose := (prose_passed_iff (u := u) hscores).mpr hcited
    refine ⟨hmargin, hprose, ?_, ?_⟩
    · intro docName result _
      rw [decide_reloaded _ _ _ _ _ _ hfound, decide_reloaded _ _ _ _ _ _ hfound]
      exact applyGate_of_checkL1 hmargin
    · intro l1Margin
      rw [passes_applyGate]
      refine and_congr_right fun _ => and_congr_right fun _ => ?_
      constructor
      · intro hpassed htext
        rcases Option.ne_none_iff_exists'.mp htext with ⟨text, hsome⟩
        exact citedTexts_ne_nil.mp (checkL3bProse_passed.mp hpassed text hsome).1
      · intro hcites
        by_cases htext : orElse answer.answerText none = none
        · rw [checkL3bProse_passed, htext]
          intro text hsome
          cases hsome
        · exact hprose htext (hcites htext)

end Zero

/-- Zero switches the two checks off for a generation exactly when its retrieval is
not a single chunk with a negative score and the cross-encoder does not score all
that its text cites below zero. -/
theorem zeroIsOff_hybridRetrieveScored_iff {score : Type} [LinearOrder score]
    (B : Backend score) (db : Database) (documentId : Nat) (query : String)
    (denseN sparseN rrfTopN rerankTopK : Nat) (answer : GateAnswer)
    (hscores : forall query, ScoresTexts B.rerank query)
    (hfound : hybridRetrieveScored B db documentId query denseN sparseN rrfTopN
      rerankTopK ≠ []) :
    ZeroIsOff B.u B.rerank ⟨hybridRetrieveScored B db documentId query denseN sparseN
        rrfTopN rerankTopK⟩ answer <->
      ¬ SingleBelowZero ⟨hybridRetrieveScored B db documentId query denseN sparseN
          rrfTopN rerankTopK⟩ ∧
        ¬ CitedBelowZero B.rerank ⟨hybridRetrieveScored B db documentId query denseN
          sparseN rrfTopN rerankTopK⟩ answer :=
  zeroIsOff_iff_of_sorted hfound (descending_hybridRetrieveScored (hscores query))
    hscores

/-!
# One chunk below zero
-/

def negativeBackend : Backend Nat :=
  { lengthBackend with
    tsMatches := fun _ _ => false
    rerank := fun _ documents => documents.map fun _ => .finite (-1) }

def oneChunk : Database := (oneDocument.insertChunk (proseRow "577")).2

theorem scoresTexts_negativeBackend (query : String) :
    ScoresTexts negativeBackend.rerank query where
  length := by
    intro texts
    exact List.length_map _
  number := by
    intro texts s hs
    rcases List.mem_map.mp hs with ⟨text, _, rfl⟩
    exact PyFloat.noConfusion

theorem hybridRetrieveScored_oneChunk :
    hybridRetrieveScored negativeBackend oneChunk 1 "q" 30 30 20 10 =
      [(⟨1, 1, "577", none, none, none, none, none⟩, .finite (-1))] := by
  decide +kernel

theorem found_oneChunk :
    hybridRetrieveScored negativeBackend oneChunk 1 "q" 30 30 20 10 ≠ [] := by
  rw [hybridRetrieveScored_oneChunk]
  exact List.cons_ne_nil _ _

theorem zeroIsOff_oneChunk_iff :
    ZeroIsOff negativeBackend.u negativeBackend.rerank
        ⟨hybridRetrieveScored negativeBackend oneChunk 1 "q" 30 30 20 10⟩
        singleResult.parsed <->
      ¬ SingleBelowZero
          ⟨hybridRetrieveScored negativeBackend oneChunk 1 "q" 30 30 20 10⟩ ∧
        ¬ CitedBelowZero negativeBackend.rerank
          ⟨hybridRetrieveScored negativeBackend oneChunk 1 "q" 30 30 20 10⟩
          singleResult.parsed :=
  zeroIsOff_hybridRetrieveScored_iff negativeBackend oneChunk 1 "q" 30 30 20 10
    singleResult.parsed scoresTexts_negativeBackend found_oneChunk

theorem exists_not_zeroIsOff :
    ¬ forall (B : Backend Nat) (db : Database) (documentId : Nat) (query : String)
        (denseN sparseN rrfTopN rerankTopK : Nat) (answer : GateAnswer),
      (forall query, ScoresTexts B.rerank query) ->
        hybridRetrieveScored B db documentId query denseN sparseN rrfTopN rerankTopK ≠
            [] ->
          ZeroIsOff B.u B.rerank ⟨hybridRetrieveScored B db documentId query denseN
            sparseN rrfTopN rerankTopK⟩ answer := by
  intro hall
  have hmargin := (hall negativeBackend oneChunk 1 "q" 30 30 20 10 singleResult.parsed
    scoresTexts_negativeBackend found_oneChunk).margin
  rw [hybridRetrieveScored_oneChunk] at hmargin
  revert hmargin
  decide +kernel

end ChatDoc
