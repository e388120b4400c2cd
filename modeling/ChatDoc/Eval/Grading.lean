import ChatDoc.Eval.Replay
import ChatDoc.Service.Streaming

/-!
# Answers, live and graded

`grade_one` of `eval/ablation.py` counts a generation as answered when the gate
passes and there is something in it.  The live route asks only the gate.
-/

namespace ChatDoc

open Foundation

/-!
# Grading
-/

/-- `numbers_match` of `eval/normalize.py`, in exact arithmetic; the quotient of
two infinities is no number. -/
def numbersMatch : PyFloat -> PyFloat -> Bool
  | .finite a, .finite b =>
      decide (a = b) ||
        decide (|a - b| / max (max |a| |b|) (1 / 1000000000) ≤ 1 / 100)
  | .inf negative, .inf negative' => negative == negative'
  | _, _ => false

/-- `parsed.value is not None or bool(parsed.answer_text)`. -/
def GateAnswer.hasContent (answer : GateAnswer) : Bool :=
  answer.value.isSome || (orElse answer.answerText none).isSome

/-- The row of `grade_one`; gold has `correct` and a negative `hallucinated`. -/
structure GradedRow where
  financebenchId : String
  answered : Bool
  refusalReason : Option String
  correct : Option Bool
  hallucinated : Option Bool
deriving DecidableEq

def gradeOne (record : EvalRecord) (raw : RawGeneration String) (gate : GateResult)
    (isGold : Bool) : Except Exn GradedRow :=
  let answered := gate.passed && raw.parsed.hasContent
  let row (correct hallucinated : Option Bool) : GradedRow :=
    ⟨record.financebenchId, answered, gate.reason, correct, hallucinated⟩
  if isGold then
    match answered, raw.parsed.value with
    | true, some value =>
        match record.goldValue with
        | some gold => .ok (row (some (numbersMatch gold value)) none)
        | none => .error (.exception "'gold_value'")
    | _, _ => .ok (row (some false) none)
  else .ok (row none (some answered))

theorem gradeOne_answered {record : EvalRecord} {isGold : Bool} (gate : GateResult)
    (raw : RawGeneration String) (hgold : isGold = true ->
      record.goldValue ≠ none) :
    exists row, gradeOne record raw gate isGold = .ok row ∧
      row.answered = (gate.passed && raw.parsed.hasContent) := by
  unfold gradeOne
  cases isGold with
  | false => exact ⟨_, rfl, rfl⟩
  | true =>
      rw [if_pos rfl]
      rcases hrecord : record.goldValue with _ | gold
      · exact absurd hrecord (hgold rfl)
      · dsimp only
        split
        · exact ⟨_, rfl, rfl⟩
        · exact ⟨_, rfl, rfl⟩

/-!
# Answer events
-/

namespace Frame

def isAnswer : Frame -> Bool
  | .answer _ _ _ _ _ => true
  | _ => false

/-- The frame shows something, and every one of its citations, of which there is
at least one, leads to the page of a retrieved chunk. -/
def Cited (ctx : RetrievalContext) : Frame -> Prop
  | .answer value _ _ answerText citations =>
      (value ≠ none ∨ orElse answerText none ≠ none) ∧ citations ≠ [] ∧
        forall c, c ∈ citations -> exists chunk, chunk ∈ ctx.chunks ∧
          chunk.chunkId = c.chunkId ∧ c.page = some chunk.pageNum
  | _ => True

theorem isAnswer_of_progress {f : Frame} (h : f.progress = true) :
    f.isAnswer = false := by
  cases f with
  | delta chars => rfl
  | heartbeat => rfl
  | _ => cases h

end Frame

/-- A request whose retrieval found something and whose model output parses. -/
structure AnsweredQuery where
  run : QueryRun
  ctx : RetrievalContext
  answer : GateAnswer
  retrieved : run.retrieved = .ok ctx
  found : ctx.chunks ≠ []
  finished : run.generation.ending = .finished
  parsed : run.parse (String.join run.generation.deltas) = some answer

namespace AnsweredQuery

variable (a : AnsweredQuery)

def emitsAnswer (turns : List Turn) : Prop :=
  exists f, f ∈ (a.run.eventStream turns).frames ∧ f.isAnswer = true

def AnswersCited : Prop :=
  forall turns f, f ∈ (a.run.eventStream turns).frames -> f.isAnswer = true ->
    f.Cited a.ctx

/-- The generation, stored, replayed under L2 and L3 and graded, counts as
answered. -/
def MarkedAnswered (record : EvalRecord) (raw : RawGeneration String)
    (isGold : Bool) : Prop :=
  exists gate row,
    raw.decide a.run.u a.run.rerank [.l2, .l3] (.finite 0) (.finite 0) = .ok gate ∧
      gradeOne record raw gate isGold = .ok row ∧ row.answered = true

/-- A stream that comes to its end has an answer event exactly when the grading
counts the generation as answered. -/
def AgreesWithGrading : Prop :=
  forall docName result record isGold, result.parsed = a.answer ->
    (isGold = true -> record.goldValue ≠ none) ->
      forall turns, Connected turns ->
        (workerMessages a.run.u a.run.generation).length ≤ arrivals turns ->
          (a.emitsAnswer turns <->
            a.MarkedAnswered record (generateForRecord docName a.ctx result).reloaded
              isGold)

/-- Everything that is there holds, but no text is there, and either no value or
no citation. -/
structure NothingToShow : Prop where
  sufficient : a.answer.sufficient = true
  retrievedOnly : forall id, id ∈ citedIds a.answer -> id ∈ a.ctx.chunkIds
  operands : forall op, op ∈ a.answer.operands ->
    OperandFindable a.run.u a.ctx.gateContext op
  noText : orElse a.answer.answerText none = none
  lacking : a.answer.value = none ∨
    (a.answer.operands ≠ [] ∧ a.answer.citations = [])

/-!
# The verdict
-/

def answerFrame : Frame :=
  .answer a.answer.value a.answer.unit a.answer.scale a.answer.answerText
    (a.answer.citations.map (answerCitation a.ctx))

def gatePasses : Prop := Passes (a.run.gateResult a.ctx a.answer)

theorem gatePasses_iff :
    a.gatePasses <->
      (checkL2 a.answer a.ctx.gateContext).passed = true ∧
        EachFigure (fun _ => Findable a.run.u) a.ctx.gateContext a.answer ∧
          (checkL3bProse a.run.u a.run.rerank a.answer a.ctx.gateContext
            (.finite 0)).passed = true := by
  unfold gatePasses QueryRun.gateResult
  rw [passes_applyGate, passes_checkL3aNumeric]

theorem gatePasses_of_nothingToShow (h : a.NothingToShow) : a.gatePasses := by
  rw [gatePasses_iff, checkL2_passed]
  refine ⟨⟨h.sufficient, h.retrievedOnly⟩, ⟨h.operands, ?_⟩, ?_⟩
  · intro hnil value hvalue
    rcases h.lacking with hnone | ⟨hops, _⟩
    · rw [hnone] at hvalue
      cases hvalue
    · exact absurd hnil hops
  · unfold checkL3bProse
    rw [h.noText]
    rfl

theorem citations_of_text (h : a.gatePasses)
    (htext : orElse a.answer.answerText none ≠ none) : a.answer.citations ≠ [] := by
  have hprose := (a.gatePasses_iff.mp h).2.2
  intro hnil
  unfold checkL3bProse at hprose
  rcases hsome : orElse a.answer.answerText none with _ | text
  · exact htext hsome
  · rw [hsome] at hprose
    dsimp only at hprose
    rw [if_pos hnil] at hprose
    cases hprose

theorem content_of_gatePasses (h : a.gatePasses) (hsome : ¬ a.NothingToShow) :
    (a.answer.value ≠ none ∨ orElse a.answer.answerText none ≠ none) ∧
      a.answer.citations ≠ [] := by
  rcases a.gatePasses_iff.mp h with ⟨hl2, hfigure, _⟩
  rcases checkL2_passed.mp hl2 with ⟨hsufficient, hretrieved⟩
  by_cases htext : orElse a.answer.answerText none = none
  · have hlacking : ¬ (a.answer.value = none ∨
        (a.answer.operands ≠ [] ∧ a.answer.citations = [])) := by
      intro hlacking
      exact hsome ⟨hsufficient, hretrieved, hfigure.operands, htext, hlacking⟩
    rw [not_or, not_and] at hlacking
    rcases hlacking with ⟨hvalue, hcited⟩
    refine ⟨.inl hvalue, ?_⟩
    by_cases hops : a.answer.operands = []
    · rcases Option.ne_none_iff_exists'.mp hvalue with ⟨value, hvalue⟩
      rcases hfigure.value hops value hvalue with ⟨c, hc, _⟩
      exact List.ne_nil_of_mem hc
    · exact hcited hops
  · exact ⟨.inr htext, a.citations_of_text h htext⟩

theorem hasContent_iff :
    a.answer.hasContent = true <->
      a.answer.value ≠ none ∨ orElse a.answer.answerText none ≠ none := by
  unfold GateAnswer.hasContent
  rw [Bool.or_eq_true, Option.isSome_iff_ne_none, Option.isSome_iff_ne_none]

theorem cited_answerFrame (h : a.gatePasses) (hsome : ¬ a.NothingToShow) :
    a.answerFrame.Cited a.ctx := by
  rcases a.content_of_gatePasses h hsome with ⟨hcontent, hcited⟩
  have hretrieved := (checkL2_passed.mp (a.gatePasses_iff.mp h).1).2
  refine ⟨hcontent, by simpa using hcited, ?_⟩
  intro shown hshown
  rcases List.mem_map.mp hshown with ⟨c, hc, rfl⟩
  have hid := hretrieved c.chunkId (citation_cited hc)
  rcases Option.isSome_iff_exists.mp (chunksById_isSome hid) with ⟨chunk, hchunk⟩
  have hmem := List.mem_of_find?_eq_some hchunk
  have hsame := List.find?_some hchunk
  rw [decide_eq_true_eq] at hsame
  refine ⟨chunk, List.mem_reverse.mp hmem, hsame, ?_⟩
  unfold answerCitation
  rw [hchunk]
  rfl

/-!
# The stream
-/

theorem answer_of_verify {f : Frame} (text : String)
    (hparse : a.run.parse text = some a.answer)
    (hf : f ∈ (a.run.verify a.ctx text).frames) (hanswer : f.isAnswer = true) :
    f = a.answerFrame ∧ a.gatePasses := by
  unfold QueryRun.verify at hf
  rw [hparse] at hf
  dsimp only at hf
  rcases hgate : a.run.gateResult a.ctx a.answer with exc | result
  · rw [hgate] at hf
    cases hf
  · rw [hgate] at hf
    dsimp only at hf
    cases hpassed : result.passed with
    | false =>
        rw [hpassed, if_pos (by decide)] at hf
        simp only [List.mem_cons, List.not_mem_nil, or_false] at hf
        rcases hf with rfl | rfl <;> cases hanswer
    | true =>
        rw [hpassed, if_neg (by decide)] at hf
        simp only [List.mem_cons, List.not_mem_nil, or_false] at hf
        rcases hf with rfl | rfl
        · exact ⟨rfl, result, hgate, hpassed⟩
        · cases hanswer

theorem verify_of_gatePasses (h : a.gatePasses) {text : String}
    (hparse : a.run.parse text = some a.answer) :
    a.answerFrame ∈ (a.run.verify a.ctx text).frames := by
  rcases h with ⟨result, hgate, hpassed⟩
  unfold QueryRun.verify
  rw [hparse]
  dsimp only
  rw [hgate]
  dsimp only
  rw [hpassed, if_neg (by decide)]
  exact List.mem_cons_self

theorem drained :
    drain a.run.polling.queue a.run.polling.fullText =
      some (.ended (String.join a.run.generation.deltas)) := by
  have hdrain := drain_workerMessages a.run.u a.run.generation
  have hexit : generationExit a.run.u a.run.generation =
      .ended (String.join a.run.generation.deltas) :=
    generationExit_ended.mpr ⟨a.finished, rfl⟩
  rw [hexit] at hdrain
  exact hdrain

/-- An answer event is the one of a passed verdict. -/
theorem answer_of_eventStream {turns : List Turn} {f : Frame}
    (hf : f ∈ (a.run.eventStream turns).frames) (hanswer : f.isAnswer = true) :
    f = a.answerFrame ∧ a.gatePasses := by
  rw [eventStream_found a.retrieved a.found] at hf
  rcases List.mem_append.mp hf with hloop | hfinish
  · simp only [List.mem_cons] at hloop
    rcases hloop with rfl | rfl | hloop
    · cases hanswer
    · cases hanswer
    · have hno := Frame.isAnswer_of_progress (loop_progress a.run.polling turns f hloop)
      rw [hno] at hanswer
      cases hanswer
  · rcases loop_exit_cases a.run.polling turns with hexit | hexit | hexit
    · rw [hexit] at hfinish
      cases hfinish
    · rw [hexit] at hfinish
      cases hfinish
    · rw [hexit, a.drained] at hfinish
      exact a.answer_of_verify _ a.parsed hfinish hanswer

theorem emitsAnswer_of_gatePasses (h : a.gatePasses) {turns : List Turn}
    (hconnected : Connected turns)
    (harrive : (workerMessages a.run.u a.run.generation).length ≤ arrivals turns) :
    a.answerFrame ∈ (a.run.eventStream turns).frames := by
  have hexit := loop_exit_of_arrivals a.run.polling hconnected harrive a.drained
  rw [eventStream_found a.retrieved a.found, hexit]
  exact List.mem_append_right _ (a.verify_of_gatePasses h a.parsed)

/-!
# The grading
-/

theorem markedAnswered_iff {docName : String} {result : StructuredResult}
    {record : EvalRecord} {isGold : Bool} (hresult : result.parsed = a.answer)
    (hgold : isGold = true -> record.goldValue ≠ none) :
    a.MarkedAnswered record (generateForRecord docName a.ctx result).reloaded
        isGold <->
      a.gatePasses ∧ a.answer.hasContent = true := by
  have hscored : a.ctx.scored ≠ [] := by
    intro hnil
    apply a.found
    unfold RetrievalContext.chunks
    rw [hnil]
    rfl
  have hgate : (generateForRecord docName a.ctx result).reloaded.decide a.run.u
      a.run.rerank [.l2, .l3] (.finite 0) (.finite 0) =
        a.run.gateResult a.ctx a.answer := by
    rw [decide_reloaded _ _ _ _ _ _ hscored, hresult]
    rfl
  have hparsed : (generateForRecord docName a.ctx result).reloaded.parsed =
      a.answer := hresult
  unfold MarkedAnswered gatePasses Passes
  rw [hgate]
  constructor
  · intro hall
    rcases hall with ⟨gate, row, hdecide, hrow, hanswered⟩
    rcases gradeOne_answered gate
      (generateForRecord docName a.ctx result).reloaded hgold with
      ⟨row', hrow', hanswered'⟩
    rw [hrow] at hrow'
    cases hrow'
    rw [hanswered, hparsed, eq_comm, Bool.and_eq_true] at hanswered'
    exact ⟨⟨gate, hdecide, hanswered'.1⟩, hanswered'.2⟩
  · intro hall
    rcases hall with ⟨⟨gate, hdecide, hpassed⟩, hcontent⟩
    rcases gradeOne_answered gate
      (generateForRecord docName a.ctx result).reloaded hgold with
      ⟨row, hrow, hanswered⟩
    rw [hparsed, hpassed, hcontent] at hanswered
    exact ⟨gate, row, hdecide, hrow, hanswered⟩

/-- The live route and the grading agree, and what the route shows is a cited
answer, exactly when the model did not leave out everything there is to show. -/
theorem answersCited_and_agrees_iff :
    (a.AnswersCited ∧ a.AgreesWithGrading) <-> ¬ a.NothingToShow := by
  constructor
  · intro hall hnothing
    have hpasses := a.gatePasses_of_nothingToShow hnothing
    have hframe := a.emitsAnswer_of_gatePasses hpasses (connected_promptly a.run)
      (arrivals_promptly a.run).ge
    rcases hall.1 _ _ hframe rfl with ⟨hcontent, hcited, _⟩
    rcases hnothing.lacking with hvalue | ⟨_, hnil⟩
    · rcases hcontent with hcontent | hcontent
      · exact hcontent hvalue
      · exact hcontent hnothing.noText
    · apply hcited
      rw [hnil]
      rfl
  · intro hsome
    constructor
    · intro turns f hf hanswer
      rcases a.answer_of_eventStream hf hanswer with ⟨rfl, hpasses⟩
      exact a.cited_answerFrame hpasses hsome
    · intro docName result record isGold hresult hgold turns hconnected harrive
      rw [a.markedAnswered_iff hresult hgold]
      constructor
      · intro hemits
        rcases hemits with ⟨f, hf, hanswer⟩
        have hpasses := (a.answer_of_eventStream hf hanswer).2
        exact ⟨hpasses, a.hasContent_iff.mpr
          (a.content_of_gatePasses hpasses hsome).1⟩
      · intro hall
        exact ⟨_, a.emitsAnswer_of_gatePasses hall.1 hconnected harrive, rfl⟩

end AnsweredQuery

/-!
# An empty answer

The model says that the evidence suffices, and nothing else.
-/

def emptyAnswer : GateAnswer where
  sufficient := true
  value := none
  unit := none
  scale := none
  operands := []
  answerText := none
  citations := []

def emptyQuery : AnsweredQuery where
  run :=
    { u := .ascii
      rerank := fun _ _ => []
      parse := fun text =>
        if text = "\x7b\"sufficient\": true\x7d" then some emptyAnswer else none
      retrieved := .ok ⟨[(⟨7, 1, "577", none, none, none, none, none⟩, .finite 1)]⟩
      generation := ⟨["\x7b\"sufficient\": true\x7d"], .finished⟩
      startClock := 0 }
  ctx := ⟨[(⟨7, 1, "577", none, none, none, none, none⟩, .finite 1)]⟩
  answer := emptyAnswer
  retrieved := rfl
  found := by decide
  finished := rfl
  parsed := by decide +kernel

theorem eventStream_empty :
    (emptyQuery.run.eventStream [.message, .message]).frames =
      [.padding, .retrieval [⟨7, 1⟩], .delta 20,
        .answer none none none none [], .done] := by
  decide +kernel

theorem exists_answer_of_nothing :
    ¬ forall a : AnsweredQuery, a.AnswersCited ∧ a.AgreesWithGrading := by
  intro hall
  have hcited := (hall emptyQuery).1 [.message, .message]
    (.answer none none none none [])
  rw [eventStream_empty] at hcited
  exact (hcited (by decide) rfl).2.1 rfl

end ChatDoc
