import ChatDoc.Eval.Cache

/-!
# Offline replay

`decide` of `eval/ablation.py` applies the gate to a generation that was stored.
A stored generation keeps only the chunks that its answer cites, and the gate
looks at no others, so the verdict is the one of the live gate.
-/

namespace ChatDoc

open Foundation

/-!
# The gate on two contexts
-/

/-- Two contexts that the gate cannot tell apart by the chunks of some ids. -/
structure GateContext.AgreeOn (ids : List Int) (ctx ctx' : GateContext) : Prop where
  retrieved : ctx.retrievedChunkIds = ctx'.retrievedChunkIds
  text : forall id, id ∈ ids -> ctx.chunkTextById id = ctx'.chunkTextById id
  scale : forall id, id ∈ ids -> ctx.chunkScaleById id = ctx'.chunkScaleById id

section agreement

variable {u : PyText} {rerank : Reranker} {answer : GateAnswer}
  {ctx ctx' : GateContext}

theorem citation_cited {c : Citation} (h : c ∈ answer.citations) :
    c.chunkId ∈ citedIds answer :=
  List.mem_append_left _ (List.mem_map_of_mem h)

theorem operand_cited {op : Operand} (h : op ∈ answer.operands) :
    op.citationChunkId ∈ citedIds answer :=
  List.mem_append_right _ (List.mem_map_of_mem h)

theorem checkL2_congr (h : GateContext.AgreeOn (citedIds answer) ctx ctx') :
    checkL2 answer ctx = checkL2 answer ctx' := by
  unfold checkL2
  rw [h.retrieved]

theorem checkOperands_congr {ids : List Int} (h : GateContext.AgreeOn ids ctx ctx')
    {ops : List Operand} (hops : forall op, op ∈ ops -> op.citationChunkId ∈ ids) :
    checkOperands u ctx ops = checkOperands u ctx' ops := by
  induction ops with
  | nil => rfl
  | cons op rest ih =>
      have hop := hops op List.mem_cons_self
      have hrest := ih fun op' hop' => hops op' (List.mem_cons_of_mem _ hop')
      unfold checkOperands
      rw [h.text _ hop, h.scale _ hop, hrest]

theorem checkCitations_congr {ids : List Int} (h : GateContext.AgreeOn ids ctx ctx')
    (scale : Option String) (value : PyFloat) {cs : List Citation}
    (hcs : forall c, c ∈ cs -> c.chunkId ∈ ids) :
    checkCitations u ctx scale value cs = checkCitations u ctx' scale value cs := by
  induction cs with
  | nil => rfl
  | cons c rest ih =>
      have hc := hcs c List.mem_cons_self
      have hrest := ih fun c' hc' => hcs c' (List.mem_cons_of_mem _ hc')
      unfold checkCitations
      rw [h.text _ hc, h.scale _ hc, hrest]

theorem checkL3aNumeric_congr (h : GateContext.AgreeOn (citedIds answer) ctx ctx') :
    checkL3aNumeric u answer ctx = checkL3aNumeric u answer ctx' := by
  unfold checkL3aNumeric
  rw [checkOperands_congr h fun op hop => operand_cited hop]
  cases answer.value with
  | none => rfl
  | some value =>
      dsimp only
      rw [checkCitations_congr h answer.scale value fun c hc => citation_cited hc]

theorem checkL3bProse_congr (h : GateContext.AgreeOn (citedIds answer) ctx ctx')
    (threshold : PyFloat) :
    checkL3bProse u rerank answer ctx threshold =
      checkL3bProse u rerank answer ctx' threshold := by
  have htexts : (answer.citations.filterMap fun c => ctx.chunkTextById c.chunkId) =
      answer.citations.filterMap fun c => ctx'.chunkTextById c.chunkId :=
    List.filterMap_congr fun c hc => h.text _ (citation_cited hc)
  unfold checkL3bProse
  rw [htexts]

theorem applyGate_congr (h : GateContext.AgreeOn (citedIds answer) ctx ctx')
    (layers : List Layer) (l3bThreshold : PyFloat)
    (l1Margin : Option (PyFloat × Option PyFloat)) (l1Threshold : PyFloat) :
    applyGate u rerank answer ctx layers l3bThreshold l1Margin l1Threshold =
      applyGate u rerank answer ctx' layers l3bThreshold l1Margin l1Threshold := by
  unfold applyGate
  rw [checkL2_congr h, checkL3aNumeric_congr h, checkL3bProse_congr h]

end agreement

/-!
# The decision
-/

namespace RawGeneration

/-- The keyword arguments of `apply_gate` in `decide`. -/
def gateContext (raw : RawGeneration String) : Except Exn GateContext := do
  let chunkTextById ← intKeys raw.chunkTextById
  let chunkScaleById ← intKeys raw.chunkScaleById
  return {
    retrievedChunkIds := raw.retrievedChunkIds
    chunkTextById := dictGet chunkTextById
    chunkScaleById := fun id => (dictGet chunkScaleById id).join }

def l1Margin (raw : RawGeneration String) : Option (PyFloat × Option PyFloat) :=
  raw.top1Score.map fun top1 => (top1, raw.top2Score)

protected def decide (u : PyText) (rerank : Reranker) (raw : RawGeneration String)
    (layers : List Layer) (l3bThreshold l1Threshold : PyFloat) :
    Except Exn GateResult := do
  let ctx ← raw.gateContext
  applyGate u rerank raw.parsed ctx layers l3bThreshold raw.l1Margin l1Threshold

end RawGeneration

/-!
# The decision on what was stored
-/

section replay

variable {docName : String} {ctx : RetrievalContext} {result : StructuredResult}

def storedContext (ctx : RetrievalContext) (answer : GateAnswer) : GateContext where
  retrievedChunkIds := ctx.chunkIds
  chunkTextById := dictGet (citedChunks ctx answer RetrievedChunk.text)
  chunkScaleById := fun id =>
    (dictGet (citedChunks ctx answer RetrievedChunk.unitScale) id).join

theorem gateContext_reloaded :
    (generateForRecord docName ctx result).reloaded.gateContext =
      .ok (storedContext ctx result.parsed) := by
  have htext := intKeys_stringKeys (citedChunks ctx result.parsed RetrievedChunk.text)
  have hscale :=
    intKeys_stringKeys (citedChunks ctx result.parsed RetrievedChunk.unitScale)
  unfold RawGeneration.gateContext RawGeneration.reloaded generateForRecord
  dsimp only
  rw [htext, hscale]
  rfl

theorem storedContext_agrees (answer : GateAnswer) :
    GateContext.AgreeOn (citedIds answer) (storedContext ctx answer)
      ctx.gateContext where
  retrieved := rfl
  text := by
    intro id hid
    exact dictGet_citedChunks RetrievedChunk.text hid
  scale := by
    intro id hid
    have hget : dictGet (citedChunks ctx answer RetrievedChunk.unitScale) id =
        (ctx.chunksById id).map RetrievedChunk.unitScale :=
      dictGet_citedChunks RetrievedChunk.unitScale hid
    unfold storedContext RetrievalContext.gateContext RetrievalContext.scaleById
    dsimp only
    rw [hget]
    cases ctx.chunksById id <;> rfl

theorem l1Margin_reloaded (h : ctx.scored ≠ []) :
    (generateForRecord docName ctx result).reloaded.l1Margin =
      some ctx.top1Top2Scores := by
  unfold RawGeneration.l1Margin RawGeneration.reloaded generateForRecord
    RetrievalContext.top1Top2Scores
  cases hscored : ctx.scored with
  | nil => exact absurd hscored h
  | cons top1 rest =>
      cases rest with
      | nil => rfl
      | cons top2 rest => rfl

theorem decide_reloaded (u : PyText) (rerank : Reranker) (layers : List Layer)
    (l3bThreshold l1Threshold : PyFloat) (docName : String) {ctx : RetrievalContext}
    {result : StructuredResult} (hscored : ctx.scored ≠ []) :
    (generateForRecord docName ctx result).reloaded.decide u rerank layers
        l3bThreshold l1Threshold =
      applyGate u rerank result.parsed ctx.gateContext layers l3bThreshold
        (some ctx.top1Top2Scores) l1Threshold := by
  unfold RawGeneration.decide
  rw [gateContext_reloaded, l1Margin_reloaded hscored]
  exact applyGate_congr (storedContext_agrees result.parsed) layers l3bThreshold
    (some ctx.top1Top2Scores) l1Threshold

end replay

/-- Whatever layers and thresholds an ablation asks for, the generation that it
reads back gets the verdict of the gate on the whole retrieval. -/
theorem decide_stored_eq_applyGate (u : PyText) (rerank : Reranker)
    (cache : GenerationCache (RawGeneration String)) (runId questionId docName : String)
    (ctx : RetrievalContext) (result : StructuredResult) (layers : List Layer)
    (l3bThreshold l1Threshold : PyFloat) (hscored : ctx.scored ≠ []) :
    exists raw,
      (cache.record runId questionId
        (generateForRecord docName ctx result).reloaded).getRunResult
          runId questionId = some raw ∧
      raw.decide u rerank layers l3bThreshold l1Threshold =
        applyGate u rerank result.parsed ctx.gateContext layers l3bThreshold
          (some ctx.top1Top2Scores) l1Threshold := by
  refine ⟨_, GenerationCache.getRunResult_record_self _ _ _ _, ?_⟩
  exact decide_reloaded u rerank layers l3bThreshold l1Threshold docName hscored

def singleContext : RetrievalContext :=
  ⟨[(⟨7, 1, "577", none, none, none, none, none⟩, .finite 1)]⟩

def singleResult : StructuredResult where
  text := ""
  parsed :=
    { sufficient := true
      value := some (.finite 577)
      unit := none
      scale := none
      operands := []
      answerText := none
      citations := [⟨7, "577"⟩, ⟨9, "577"⟩] }
  promptTokens := none
  completionTokens := none
  latencyMs := .finite 0

theorem decide_stored_single :
    exists raw,
      (GenerationCache.empty.record "n1" "q"
        (generateForRecord "doc" singleContext singleResult).reloaded).getRunResult
          "n1" "q" = some raw ∧
      raw.decide .ascii (fun _ _ => []) [.l1, .l2, .l3] (.finite 0) (.finite 0) =
        applyGate .ascii (fun _ _ => []) singleResult.parsed singleContext.gateContext
          [.l1, .l2, .l3] (.finite 0) (some singleContext.top1Top2Scores)
          (.finite 0) :=
  decide_stored_eq_applyGate .ascii (fun _ _ => []) .empty "n1" "q" "doc"
    singleContext singleResult [.l1, .l2, .l3] (.finite 0) (.finite 0) (by decide)

end ChatDoc
