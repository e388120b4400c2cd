import ChatDoc.Foundation.Raising
import ChatDoc.Foundation.Ranking
import ChatDoc.Eval.Grading
import ChatDoc.Eval.Runner
import ChatDoc.Gate.Layers

/-!
# The ablation table and the sweep

`run_ablation_table` and `risk_coverage_sweep` of `eval/ablation.py`.  Both grade
every stored generation of every split again and again: the table once for each
of its configurations, the sweep once for each threshold of the first layer.
Counts, shares and areas are exact.
-/

namespace ChatDoc

open Foundation

/-- `CONFIGS`, in its order. -/
def configs : List (String × List Layer) :=
  [("none", []), ("L2", [.l2]), ("L2+L3", [.l2, .l3]),
    ("L1+L2+L3", [.l1, .l2, .l3])]

def defaultL3bThreshold : PyFloat := .finite 0

/-!
# Splits
-/

abbrev CachedRecord := EvalRecord × RawGeneration String

def loadCached (cache : GenerationCache (RawGeneration String)) (runId : String)
    (records : List EvalRecord) : List CachedRecord :=
  records.filterMap fun r =>
    (cache.getRunResult runId r.financebenchId).map fun raw => (r, raw)

/-- What both functions load first: the answerable split and the negative tiers. -/
structure LoadedSplits where
  gold : List CachedRecord
  negatives : List (Split × List CachedRecord)

structure SweepArguments where
  cache : GenerationCache (RawGeneration String)
  runIds : Split -> Option String
  goldRecords : List EvalRecord
  negRecords : List (Split × List EvalRecord)

namespace SweepArguments

variable (args : SweepArguments)

/-- `load_cached(cache, run_ids[split], records)`. -/
def loadSplit (split : Split) (records : List EvalRecord) :
    Except Exn (List CachedRecord) :=
  match args.runIds split with
  | some runId => .ok (loadCached args.cache runId records)
  | none => .error (keyError split.name)

def load : Except Exn LoadedSplits := do
  let gold ← args.loadSplit .answerable args.goldRecords
  let negatives ← args.negRecords.mapM fun entry => do
    return (entry.1, ← args.loadSplit entry.1 entry.2)
  return ⟨gold, negatives⟩

end SweepArguments

section Grade

variable (u : PyText) (rerank : Reranker)

/-- `decide` and `grade_one` for one record. -/
def gradeCached (layers : List Layer) (l1Threshold : PyFloat) (isGold : Bool)
    (item : CachedRecord) : Except Exn GradedRow := do
  let gate ← item.2.decide u rerank layers defaultL3bThreshold l1Threshold
  gradeOne item.1 item.2 gate isGold

def gradeRows (layers : List Layer) (l1Threshold : PyFloat) (isGold : Bool)
    (cached : List CachedRecord) : Except Exn (List GradedRow) :=
  cached.mapM (gradeCached u rerank layers l1Threshold isGold)

end Grade

/-!
# The table
-/

def answeredCount (rows : List GradedRow) : Nat := rows.countP GradedRow.answered

def correctCount (rows : List GradedRow) : Nat :=
  rows.countP fun row => row.correct = some true

def hallucinatedCount (rows : List GradedRow) : Nat :=
  rows.countP fun row => row.hallucinated = some true

inductive ConfigSummary where
  | empty
  | answerable (n : Nat) (coverage accuracyOnAnswered accuracyOverall : Rat)
  | negative (n : Nat) (hallucinationRate : Rat) (nHallucinated : Nat)
deriving DecidableEq

def summarizeConfig (rows : List GradedRow) (isGold : Bool) : ConfigSummary :=
  let n := rows.length
  if n = 0 then .empty
  else if isGold then
    let nAnswered := answeredCount rows
    let nCorrect := correctCount rows
    .answerable n (nAnswered / n) (if nAnswered ≠ 0 then nCorrect / nAnswered else 0)
      (nCorrect / n)
  else .negative n (hallucinatedCount rows / n) (hallucinatedCount rows)

section Table

variable (u : PyText) (rerank : Reranker)

def LoadedSplits.entry (s : LoadedSplits) (layers : List Layer) :
    Except Exn (List (Split × ConfigSummary)) := do
  let goldRows ← gradeRows u rerank layers (.finite 0) true s.gold
  let negatives ← s.negatives.mapM fun tier => do
    let rows ← gradeRows u rerank layers (.finite 0) false tier.2
    return (tier.1, summarizeConfig rows false)
  return (.answerable, summarizeConfig goldRows true) :: negatives

abbrev AblationTable := List (String × List (Split × ConfigSummary))

def runAblationTable (args : SweepArguments) : Except Exn AblationTable := do
  let s ← args.load
  configs.mapM fun config => do return (config.1, ← s.entry u rerank config.2)

end Table

/-!
# The thresholds
-/

namespace RawGeneration

/-- `raw["top1_score"] - (raw["top2_score"] or 0.0)`, if there is a score. -/
def margin (raw : RawGeneration String) : Option PyFloat :=
  raw.top1Score.map fun top1 => top1.sub (raw.top2Score.getD (.finite 0))

end RawGeneration

namespace LoadedSplits

variable (s : LoadedSplits)

def generations : List (RawGeneration String) :=
  s.gold.map Prod.snd ++ s.negatives.flatMap fun tier => tier.2.map Prod.snd

def margins : List PyFloat :=
  (s.generations.filterMap RawGeneration.margin).dedup.mergeSort fun a b => !b.lt a

def thresholds : List PyFloat :=
  match s.margins with
  | [] => [.finite 0]
  | first :: rest => first.sub (.finite (1 / 1000000)) :: first :: rest

end LoadedSplits

/-!
# The sweep
-/

structure GoldPoint where
  threshold : PyFloat
  coverage : Rat
  risk : Rat

structure NegativePoint where
  threshold : PyFloat
  hallucinationRate : Rat

/-- A share of nothing is zero. -/
def share (count n : Nat) : Rat := if n ≠ 0 then count / n else 0

def goldPoint (threshold : PyFloat) (rows : List GradedRow) : GoldPoint where
  threshold := threshold
  coverage := share (answeredCount rows) rows.length
  risk := share (rows.countP fun row => row.answered && row.correct ≠ some true)
    (answeredCount rows)

def negativePoint (threshold : PyFloat) (rows : List GradedRow) : NegativePoint where
  threshold := threshold
  hallucinationRate := share (answeredCount rows) rows.length

namespace PyFloat

def add : PyFloat -> PyFloat -> PyFloat
  | .finite a, .finite b => .finite (a + b)
  | .finite _, .inf negative => .inf negative
  | .inf negative, .finite _ => .inf negative
  | .inf negative, .inf negative' =>
      if negative = negative' then .inf negative else .nan
  | .nan, _ => .nan
  | _, .nan => .nan

def timesShare (q : Rat) : PyFloat -> PyFloat
  | .finite a => .finite (a * q)
  | .inf negative => if q = 0 then .nan else .inf negative
  | .nan => .nan

end PyFloat

/-- `area_under`: the points sorted by their first coordinate, and the trapezoids
between neighbours. -/
def areaUnder (points : List (PyFloat × Rat)) : PyFloat :=
  let pts := points.mergeSort fun a b => !b.1.lt a.1
  (pts.zip pts.tail).foldl (fun area pair =>
    area.add ((pair.2.1.sub pair.1.1).timesShare ((pair.1.2 + pair.2.2) / 2)))
      (.finite 0)

structure SweepResult where
  goldPoints : List GoldPoint
  aurc : PyFloat
  negatives : List (Split × List NegativePoint × PyFloat)

section Sweep

variable (u : PyText) (rerank : Reranker)

def pointsForGold (thresholds : List PyFloat) (cached : List CachedRecord) :
    Except Exn (List GoldPoint) :=
  thresholds.mapM fun t => do
    return goldPoint t (← gradeRows u rerank [.l1, .l2, .l3] t true cached)

def pointsForNegative (thresholds : List PyFloat) (cached : List CachedRecord) :
    Except Exn (List NegativePoint) :=
  thresholds.mapM fun t => do
    return negativePoint t (← gradeRows u rerank [.l1, .l2, .l3] t false cached)

def riskCoverageSweep (args : SweepArguments) : Except Exn SweepResult := do
  let s ← args.load
  let goldPoints ← pointsForGold u rerank s.thresholds s.gold
  let negatives ← s.negatives.mapM fun tier => do
    let pts ← pointsForNegative u rerank s.thresholds tier.2
    return (tier.1, pts, areaUnder (pts.map fun p => (p.threshold, p.hallucinationRate)))
  return ⟨goldPoints,
    areaUnder (goldPoints.map fun p => (.finite p.coverage, p.risk)), negatives⟩

end Sweep

end ChatDoc
