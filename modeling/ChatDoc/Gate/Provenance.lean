import ChatDoc.Gate.Verdicts

/-!
# The two provenance paths

A figure is looked up as the value of a direct answer or as an operand of a
derived one.  Both lookups divide it by a multiplier first.  For an operand it is
that of the chunk alone; for a value it is that of the chunk or else that of the
answer.
-/

namespace ChatDoc

open Foundation

/-- The answer that states `value` and cites one chunk for it. -/
def directAnswer (base : GateAnswer) (value : PyFloat) (c : Citation) : GateAnswer :=
  { base with value := some value, operands := [], citations := [c] }

/-- The answer that derives its result from `value`, cited to the same chunk. -/
def derivedAnswer (base : GateAnswer) (value : PyFloat) (c : Citation) : GateAnswer :=
  { base with operands := [⟨value, c.chunkId⟩], citations := [c] }

def Detected (scale : Option String) : Prop := exists s, scale = some s ∧ s ≠ ""

def Spelt (u : PyText) (raw : Rat) (text : List Char) : Prop :=
  exists v, v ∈ searched raw ∧ 2 ≤ digitCount v ∧
    exists pre post, Bounded u v text pre post

/-- The text of a chunk without a scale of its own spells the figure as it is
and the figure divided by the multiplier of the answer, or neither.  Without a scale the
figure is divided by 1. -/
def SpeltAlike (u : PyText) (answerScale : Option String) (value : PyFloat)
    (text : String) : Prop :=
  forall q, value = .finite q ->
    (Spelt u (unscaled u q answerScale) text.toList <->
      Spelt u (unscaled u q none) text.toList)

variable {u : PyText} {ctx : GateContext} {base : GateAnswer} {value : PyFloat}
  {c : Citation}

theorem findable_iff_spelt {q : Rat} {scale : Option String} {text : String} :
    Findable u (.finite q) scale text <->
      Spelt u (unscaled u q scale) text.toList := by
  unfold Findable Spelt
  constructor
  · intro hall
    rcases hall with ⟨_, hq, hspelt⟩
    cases hq
    exact hspelt
  · intro hspelt
    exact ⟨q, rfl, hspelt⟩

theorem bounded_exactly {v text pre post : List Char} :
    Bounded u.exactly v text pre post <-> Bounded u v text pre post :=
  ⟨fun h => ⟨h.split, h.before, h.after⟩, fun h => ⟨h.split, h.before, h.after⟩⟩

theorem spelt_exactly {raw : Rat} {text : List Char} :
    Spelt u.exactly raw text <-> Spelt u raw text := by
  unfold Spelt
  simp only [bounded_exactly]

theorem orElse_detected {scale other : Option String} (h : Detected scale) :
    orElse scale other = scale := by
  rcases h with ⟨s, rfl, hs⟩
  exact if_neg hs

theorem orElse_undetected {scale other : Option String} (h : ¬ Detected scale) :
    orElse scale other = other := by
  cases scale with
  | none => rfl
  | some s =>
      apply if_pos
      by_contra hs
      exact h ⟨s, rfl, hs⟩

theorem scaleMultiplier_undetected {scale : Option String} (h : ¬ Detected scale) :
    scaleMultiplier u scale = 1 := by
  cases scale with
  | none => rfl
  | some s =>
      apply if_pos
      by_contra hs
      exact h ⟨s, rfl, hs⟩

theorem unscaled_undetected {scale : Option String} (h : ¬ Detected scale) (q : Rat) :
    unscaled u q scale = unscaled u q none := by
  unfold unscaled
  rw [scaleMultiplier_undetected h]
  rfl

theorem passes_directAnswer :
    Passes (checkL3aNumeric u (directAnswer base value c) ctx) <->
      ValueFindable u ctx base.scale value c := by
  change Passes (checkCitations u ctx base.scale value [c]) <-> _
  rw [passes_checkCitations]
  simp

theorem passes_derivedAnswer :
    Passes (checkL3aNumeric u (derivedAnswer base value c) ctx) <->
      OperandFindable u ctx ⟨value, c.chunkId⟩ := by
  change Passes (checkOperands u ctx [⟨value, c.chunkId⟩]) <-> _
  rw [passes_checkOperands]
  simp

/-- On a chunk with a scale of its own the two paths read the same figure. -/
theorem findable_detected (h : Detected (ctx.chunkScaleById c.chunkId)) :
    ValueFindable u ctx base.scale value c <->
      OperandFindable u ctx ⟨value, c.chunkId⟩ := by
  unfold ValueFindable OperandFindable
  rw [orElse_detected h]

/-- On any other chunk the value is read by the scale of the answer and the
operand as it is. -/
theorem findable_undetected {text : String}
    (h : ¬ Detected (ctx.chunkScaleById c.chunkId))
    (htext : ctx.chunkTextById c.chunkId = some text) :
    (ValueFindable u ctx base.scale value c <->
        OperandFindable u ctx ⟨value, c.chunkId⟩) <->
      SpeltAlike u base.scale value text := by
  unfold ValueFindable OperandFindable SpeltAlike
  rw [orElse_undetected h, htext]
  simp only [Option.some.injEq, exists_eq_left']
  cases value with
  | finite q =>
      rw [findable_iff_spelt, findable_iff_spelt, unscaled_undetected h]
      constructor
      · intro hagree q' hq'
        cases hq'
        exact hagree
      · intro halike
        exact halike q rfl
  | inf negative => simp [Findable]
  | nan => simp [Findable]

/-- A figure is verified alike on the two paths exactly when its chunk has a
scale of its own or spells the figure alike before and after the division. -/
theorem passes_direct_iff_derived (u : PyText) (ctx : GateContext)
    (base : GateAnswer) (value : PyFloat) (c : Citation) :
    (Passes (checkL3aNumeric u (directAnswer base value c) ctx) <->
        Passes (checkL3aNumeric u (derivedAnswer base value c) ctx)) <->
      (Detected (ctx.chunkScaleById c.chunkId) ∨
        forall text, ctx.chunkTextById c.chunkId = some text ->
          SpeltAlike u base.scale value text) := by
  rw [passes_directAnswer, passes_derivedAnswer]
  by_cases hscale : Detected (ctx.chunkScaleById c.chunkId)
  · simp [findable_detected hscale, hscale]
  · rcases htext : ctx.chunkTextById c.chunkId with _ | text
    · simp [ValueFindable, OperandFindable, htext]
    · rw [findable_undetected hscale htext]
      simp [hscale]

/-- An answer that states no scale reads every chunk alike. -/
theorem speltAlike_of_unscaled {answerScale : Option String} {text : String}
    (h : scaleMultiplier u answerScale = 1) :
    SpeltAlike u answerScale value text := by
  intro q _
  unfold unscaled
  rw [h]
  rfl

/-!
# A prose chunk

The chunk prints "1,577" without a scale, and the model answers in millions.
-/

def proseContext : GateContext where
  retrievedChunkIds := [7]
  chunkTextById := fun id => if id = 7 then some "Revenue was $1,577 million." else none
  chunkScaleById := fun _ => none

def proseAnswer : GateAnswer where
  sufficient := true
  value := none
  unit := some "USD"
  scale := some "millions"
  operands := []
  answerText := none
  citations := []

theorem exists_direct_not_derived :
    ¬ forall (u : PyText) (ctx : GateContext) (base : GateAnswer) (value : PyFloat)
        (c : Citation),
      (Passes (checkL3aNumeric u (directAnswer base value c) ctx) <->
        Passes (checkL3aNumeric u (derivedAnswer base value c) ctx)) := by
  intro hagree
  have hdirect : checkL3aNumeric .ascii
      (directAnswer proseAnswer (.finite 1577000000) ⟨7, "$1,577 million"⟩)
      proseContext = .ok .pass := by
    decide +kernel
  have hderived : checkL3aNumeric .ascii
      (derivedAnswer proseAnswer (.finite 1577000000) ⟨7, "$1,577 million"⟩)
      proseContext = .ok (.fail "operand value 1577000000.0 not found in cited chunk 7") := by
    decide +kernel
  have hpasses := (hagree .ascii proseContext proseAnswer (.finite 1577000000)
    ⟨7, "$1,577 million"⟩).mp (hdirect ▸ passes_ok.mpr rfl)
  rw [hderived, passes_ok] at hpasses
  cases hpasses

end ChatDoc
