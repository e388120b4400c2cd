import ChatDoc.Gate.Verdicts

/-!
# Layers and thresholds

The gate runs the checks of the layers that are requested, so a verdict is the
conjunction of theirs.  With more layers fewer answers pass, and with a higher
threshold for the retrieval margin fewer pass the first layer.
-/

namespace ChatDoc

open Foundation

variable {u : PyText} {rerank : Reranker} {answer : GateAnswer}
  {ctx : GateContext} {layers layers' : List Layer} {l3bThreshold : PyFloat}
  {l1Threshold : PyFloat} {l1Margin : Option (PyFloat × Option PyFloat)}

structure LayersPass (u : PyText) (rerank : Reranker) (answer : GateAnswer)
    (ctx : GateContext) (layers : List Layer) (l3bThreshold : PyFloat)
    (l1Margin : Option (PyFloat × Option PyFloat)) (l1Threshold : PyFloat) : Prop where
  l1 : .l1 ∈ layers -> (checkL1 u l1Margin l1Threshold).passed = true
  l2 : .l2 ∈ layers -> (checkL2 answer ctx).passed = true
  numeric : .l3 ∈ layers -> Passes (checkL3aNumeric u answer ctx)
  prose : .l3 ∈ layers ->
    (checkL3bProse u rerank answer ctx l3bThreshold).passed = true

theorem passes_applyGate_iff :
    Passes (applyGate u rerank answer ctx layers l3bThreshold l1Margin l1Threshold) <->
      LayersPass u rerank answer ctx layers l3bThreshold l1Margin l1Threshold := by
  unfold applyGate
  simp only [passes_runLayer, passes_ok, pass_passed, and_true, decide_eq_true_eq]
  constructor
  · intro hall
    rcases hall with ⟨hl1, hl2, hnumeric, hprose⟩
    exact ⟨hl1, hl2, hnumeric, hprose⟩
  · intro hall
    exact ⟨hall.l1, hall.l2, hall.numeric, hall.prose⟩

theorem LayersPass.mono (hlayers : layers ⊆ layers')
    (h : LayersPass u rerank answer ctx layers' l3bThreshold l1Margin l1Threshold) :
    LayersPass u rerank answer ctx layers l3bThreshold l1Margin l1Threshold where
  l1 := fun hmem => h.l1 (hlayers hmem)
  l2 := fun hmem => h.l2 (hlayers hmem)
  numeric := fun hmem => h.numeric (hlayers hmem)
  prose := fun hmem => h.prose (hlayers hmem)

/-!
# The retrieval margin
-/

theorem checkL1Margin_passed {top1 : PyFloat} {top2 : Option PyFloat} :
    (checkL1Margin u top1 top2 l1Threshold).passed = true <->
      (top1.sub (top2.getD (.finite 0))).lt l1Threshold = false := by
  unfold checkL1Margin
  dsimp only
  split
  next hlow => simp [hlow]
  next hhigh => simpa using hhigh

/-- The threshold `t` asks for no more than `t'`. -/
def AtMost (t t' : PyFloat) : Prop := t = t' ∨ t.lt t' = true

theorem checkL1_antitone {t t' : PyFloat} (hle : AtMost t t')
    (h : (checkL1 u l1Margin t').passed = true) :
    (checkL1 u l1Margin t).passed = true := by
  cases l1Margin with
  | none => cases h
  | some scores =>
      rcases hle with rfl | hlt
      · exact h
      · replace h : (checkL1Margin u scores.1 scores.2 t').passed = true := h
        change (checkL1Margin u scores.1 scores.2 t).passed = true
        rw [checkL1Margin_passed] at h ⊢
        rw [Bool.eq_false_iff] at h ⊢
        intro hlow
        exact h (PyFloat.lt_trans hlow hlt)

theorem LayersPass.antitone {t t' : PyFloat} (hle : AtMost t t')
    (h : LayersPass u rerank answer ctx layers l3bThreshold l1Margin t') :
    LayersPass u rerank answer ctx layers l3bThreshold l1Margin t where
  l1 := fun hmem => checkL1_antitone hle (h.l1 hmem)
  l2 := h.l2
  numeric := h.numeric
  prose := h.prose

/-!
# An answer without evidence
-/

theorem not_hasContent_of_nothing_retrieved (hnone : ctx.retrievedChunkIds = [])
    (hl2 : (checkL2 answer ctx).passed = true)
    (hnumeric : Passes (checkL3aNumeric u answer ctx))
    (hprose : (checkL3bProse u rerank answer ctx l3bThreshold).passed = true) :
    answer.value = none ∧ orElse answer.answerText none = none := by
  have hcited : forall id, id ∉ citedIds answer := by
    intro id hid
    have hretrieved := (checkL2_passed.mp hl2).2 id hid
    rw [hnone] at hretrieved
    cases hretrieved
  have hcitations : answer.citations = [] := by
    rw [List.eq_nil_iff_forall_not_mem]
    intro c hc
    exact hcited c.chunkId (List.mem_append_left _ (List.mem_map_of_mem hc))
  have hoperands : answer.operands = [] := by
    rw [List.eq_nil_iff_forall_not_mem]
    intro op hop
    exact hcited op.citationChunkId (List.mem_append_right _ (List.mem_map_of_mem hop))
  constructor
  · rw [Option.eq_none_iff_forall_ne_some]
    intro value hvalue
    rcases (passes_checkL3aNumeric.mp hnumeric).value hoperands value hvalue with
      ⟨c, hc, _⟩
    rw [hcitations] at hc
    cases hc
  · rcases htext : orElse answer.answerText none with _ | text
    · rfl
    · unfold checkL3bProse at hprose
      rw [htext] at hprose
      dsimp only at hprose
      rw [if_pos hcitations] at hprose
      cases hprose

end ChatDoc
