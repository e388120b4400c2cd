import ChatDoc.Gate.Answer
import ChatDoc.Store.Statements

/-!
# The grounding gate

The checks of `eval/gate.py`.  A check is a pure function of the parsed answer
and of what retrieval found; it may raise, since `round` does on a float that
is not finite.
-/

namespace ChatDoc

open Foundation

structure GateResult where
  passed : Bool
  reason : Option String
deriving DecidableEq

namespace GateResult

def pass : GateResult where
  passed := true
  reason := none

def fail (reason : String) : GateResult where
  passed := false
  reason := some reason

end GateResult

/-- What the checks know of the retrieval: the keyword arguments of
`apply_gate`. -/
structure GateContext where
  retrievedChunkIds : List Int
  chunkTextById : Int -> Option String
  chunkScaleById : Int -> Option String

/-- The relevance score for each document, in the order of the documents. -/
abbrev Reranker := String -> List String -> List PyFloat

inductive Layer where
  | l1
  | l2
  | l3
deriving DecidableEq

/-- `LIVE_GATE_LAYERS` of `api/routes_query.py`. -/
def liveGateLayers : List Layer := [.l2, .l3]

/-!
# The search for a figure
-/

/-- `{raw, round(raw), round(raw, 2)}`. -/
def candidates : PyFloat -> Except Exn (List Rat)
  | .finite q => .ok [q, halfEven q, halfEven (q * 100) / 100]
  | .inf _ => .error (.exception "cannot convert float infinity to integer")
  | .nan => .error (.exception "cannot convert float NaN to integer")

def variantsOf (v : Rat) : List (List Char) :=
  let s := rstrip '.' (rstrip '0' (fixedGrouped 2 v))
  let sInt := fixedGrouped 0 v
  [s, ungrouped s, sInt, ungrouped sInt]

/-- The length of `re.sub(r"[^0-9]", "", v)`. -/
def digitCount (v : List Char) : Nat := (v.filter Char.isDigit).length

/-- The regular expression `(?<!\d)v(?!\d)`. -/
def figurePattern (u : PyText) (v : List Char) : Pattern where
  start := .notAfter u.decimal
  literal := v
  stop := .notBefore u.decimal

/-- `_value_found_in_text` of the source. -/
def valueFoundInText (u : PyText) (value : PyFloat) (scale : Option String)
    (text : String) : Except Exn Bool := do
  let mult := scaleMultiplier u scale
  let raw := if mult ≠ 0 then value.divBy u.arithmetic mult else value
  let cs ← candidates raw
  let variants := cs.flatMap variantsOf
  return variants.any fun v =>
    !decide (digitCount v < 2) && (figurePattern u v).search text.toList

/-!
# The checks
-/

def citedIds (answer : GateAnswer) : List Int :=
  answer.citations.map Citation.chunkId ++
    answer.operands.map Operand.citationChunkId

def checkL2 (answer : GateAnswer) (ctx : GateContext) : GateResult :=
  if !answer.sufficient then .fail "model reported insufficient evidence"
  else
    let unknown := (citedIds answer).filter fun id => id ∉ ctx.retrievedChunkIds
    if unknown ≠ [] then
      .fail s!"citation references unretrieved chunk_id(s): {unknown.dedup.mergeSort}"
    else .pass

/-- The loop of `check_l3a_numeric` over the operands. -/
def checkOperands (u : PyText) (ctx : GateContext) :
    List Operand -> Except Exn GateResult
  | [] => .ok .pass
  | op :: rest =>
      match ctx.chunkTextById op.citationChunkId with
      | none => .ok (.fail s!"operand cites unknown chunk_id {op.citationChunkId}")
      | some text => do
          let found ← valueFoundInText u op.value
            (ctx.chunkScaleById op.citationChunkId) text
          if found then checkOperands u ctx rest
          else .ok (.fail
            s!"operand value {u.strFloat op.value} not found in cited chunk {op.citationChunkId}")

/-- Python's `a or b` for an optional string. -/
def orElse (a b : Option String) : Option String :=
  match a with
  | some s => if s = "" then b else some s
  | none => b

/-- The loop of `check_l3a_numeric` over the citations. -/
def checkCitations (u : PyText) (ctx : GateContext) (scale : Option String)
    (value : PyFloat) : List Citation -> Except Exn GateResult
  | [] => .ok (.fail s!"value {u.strFloat value} not found in any cited chunk")
  | c :: rest =>
      match ctx.chunkTextById c.chunkId with
      | none => checkCitations u ctx scale value rest
      | some text => do
          let found ← valueFoundInText u value
            (orElse (ctx.chunkScaleById c.chunkId) scale) text
          if found then .ok .pass else checkCitations u ctx scale value rest

def checkL3aNumeric (u : PyText) (answer : GateAnswer) (ctx : GateContext) :
    Except Exn GateResult :=
  if answer.operands ≠ [] then checkOperands u ctx answer.operands
  else
    match answer.value with
    | some value => checkCitations u ctx answer.scale value answer.citations
    | none => .ok .pass

def checkL3bProse (u : PyText) (rerank : Reranker) (answer : GateAnswer)
    (ctx : GateContext) (threshold : PyFloat) : GateResult :=
  match orElse answer.answerText none with
  | none => .pass
  | some answerText =>
      if answer.citations = [] then
        .fail "prose claim has no citations to support it"
      else
        let texts := answer.citations.filterMap fun c => ctx.chunkTextById c.chunkId
        if texts = [] then .fail "no cited chunk text available to score"
        else
          let best := match rerank answerText texts with
            | [] => .finite 0
            | first :: rest => first.maximum rest
          if best.lt threshold then
            .fail s!"best claim-support score {formatFixed 4 best} below threshold {u.strFloat threshold}"
          else .pass

def checkL1Margin (u : PyText) (top1Score : PyFloat) (top2Score : Option PyFloat)
    (threshold : PyFloat) : GateResult :=
  let margin := top1Score.sub (top2Score.getD (.finite 0))
  if margin.lt threshold then
    .fail s!"retrieval margin {formatFixed 4 margin} below threshold {u.strFloat threshold}"
  else .pass

/-- The check of the layer "L1" with its optional scores. -/
def checkL1 (u : PyText) (l1Margin : Option (PyFloat × Option PyFloat))
    (threshold : PyFloat) : GateResult :=
  match l1Margin with
  | none => .fail "L1 requested but no rerank scores available"
  | some (top1, top2) => checkL1Margin u top1 top2 threshold

/-- A check that runs if its layer is requested, and then the next one if it
passed. -/
def runLayer (requested : Bool) (check next : Except Exn GateResult) :
    Except Exn GateResult :=
  if requested then do
    let result ← check
    if !result.passed then .ok result else next
  else next

def applyGate (u : PyText) (rerank : Reranker) (answer : GateAnswer)
    (ctx : GateContext) (layers : List Layer) (l3bThreshold : PyFloat)
    (l1Margin : Option (PyFloat × Option PyFloat)) (l1Threshold : PyFloat) :
    Except Exn GateResult :=
  runLayer (.l1 ∈ layers) (.ok (checkL1 u l1Margin l1Threshold)) <|
  runLayer (.l2 ∈ layers) (.ok (checkL2 answer ctx)) <|
  runLayer (.l3 ∈ layers) (checkL3aNumeric u answer ctx) <|
  runLayer (.l3 ∈ layers) (.ok (checkL3bProse u rerank answer ctx l3bThreshold)) <|
  .ok .pass

end ChatDoc
