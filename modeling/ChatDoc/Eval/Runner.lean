import ChatDoc.Eval.Cache
import ChatDoc.Foundation.Transition

/-!
# Evaluation runs

`main` of `eval/runner_v2.py` as a machine: an invocation loads its split and
goes through the records, and the ablation afterwards reads the generations of
the run ids it is given.
-/

namespace ChatDoc

open Foundation

/-!
# Splits
-/

inductive Split where
  | answerable
  | n0
  | n1
  | n2
  | n3
deriving DecidableEq

def Split.name : Split -> String
  | .answerable => "answerable"
  | .n0 => "n0"
  | .n1 => "n1"
  | .n2 => "n2"
  | .n3 => "n3"

/-- The two files under `eval/data`. -/
structure Dataset where
  answerable : List EvalRecord
  negatives : List EvalRecord

def keyError (key : String) : Exn := .exception s!"'{key}'"

def loadSplit (u : PyText) (d : Dataset) : Split -> Except Exn (List EvalRecord)
  | .answerable => .ok d.answerable
  | split =>
      d.negatives.filterM fun n =>
        match n.tier with
        | some tier => .ok (u.lower tier.toList == split.name.toList)
        | none => .error (keyError "tier")

def servedDocAndExclusions (record : EvalRecord) :
    Split -> Except Exn (String × List Int)
  | .answerable =>
      match record.docName with
      | some docName => .ok (docName, [])
      | none => .error (keyError "doc_name")
  | split =>
      match record.servedDocName with
      | none => .error (keyError "served_doc_name")
      | some servedDocName =>
          if split = .n1 then
            match record.ablatedPages with
            | some pages => .ok (servedDocName, pages)
            | none => .error (keyError "ablated_pages")
          else .ok (servedDocName, [])

/-!
# Invocations
-/

structure CachedGeneration where
  record : EvalRecord
  split : Split
  docName : String
  excludedPages : List Int
  raw : RawGeneration String
  served : servedDocAndExclusions record split = .ok (docName, excludedPages)

/-- The arguments of `run-v2` that its loop depends on. -/
structure Invocation where
  split : Split
  runId : Option String
  limit : Option Int
  dryRun : Bool
  today : String

/-- `args.run_id or f"..."`. -/
def Invocation.resolvedRunId (i : Invocation) : String :=
  (orElse i.runId none).getD s!"{i.split.name}-gate-{i.today}"

/-- `records[:limit]`. -/
def sliceTo (limit : Int) (records : List EvalRecord) : List EvalRecord :=
  if 0 ≤ limit then records.take limit.toNat
  else records.take (records.length - limit.natAbs)

def limited (limit : Option Int) (records : List EvalRecord) : List EvalRecord :=
  match limit with
  | some limit => if limit ≠ 0 then sliceTo limit records else records
  | none => records

structure RunLoop where
  split : Split
  runId : String
  dryRun : Bool
  remaining : List EvalRecord

structure EvalState where
  cache : GenerationCache CachedGeneration
  running : Option RunLoop

def EvalState.init : EvalState := ⟨.empty, none⟩

/-- What `guard.call` does for a record: the generation comes out of what
retrieval and the model return, a limit is reached, or something raises. -/
inductive GuardOutcome where
  | returned (ctx : RetrievalContext) (result : StructuredResult)
  | quotaExceeded
  | raised

inductive EvalAction where
  | invoke (i : Invocation)
  | next (outcome : GuardOutcome)
  | killed

def generationOf (split : Split) (record : EvalRecord) (ctx : RetrievalContext)
    (result : StructuredResult) : Option CachedGeneration :=
  match h : servedDocAndExclusions record split with
  | .ok (docName, excludedPages) =>
      some ⟨record, split, docName, excludedPages,
        (generateForRecord docName ctx result).reloaded, h⟩
  | .error _ => none

def RunLoop.round (loop : RunLoop) (cache : GenerationCache CachedGeneration)
    (outcome : GuardOutcome) : EvalState :=
  match loop.remaining with
  | [] => ⟨cache, none⟩
  | record :: rest =>
      let continued : RunLoop := { loop with remaining := rest }
      if cache.alreadyHasRunResult loop.runId record.financebenchId then
        ⟨cache, some continued⟩
      else if loop.dryRun then
        match servedDocAndExclusions record loop.split with
        | .ok _ => ⟨cache, some continued⟩
        | .error _ => ⟨cache, none⟩
      else
        match outcome with
        | .returned ctx result =>
            match generationOf loop.split record ctx result with
            | some generation =>
                ⟨cache.record loop.runId record.financebenchId generation,
                  some continued⟩
            | none => ⟨cache, none⟩
        | .quotaExceeded => ⟨cache, none⟩
        | .raised => ⟨cache, none⟩

/-- The machine, one invocation after the other. -/
def evalAct (u : PyText) (d : Dataset) (s : EvalState) :
    EvalAction -> Option EvalState
  | .invoke i =>
      match s.running with
      | some _ => none
      | none =>
          match loadSplit u d i.split with
          | .error _ => some s
          | .ok records =>
              if limited i.limit records = [] then some s
              else
                some { s with
                  running := some ⟨i.split, i.resolvedRunId, i.dryRun,
                    limited i.limit records⟩ }
  | .next outcome => s.running.map fun loop => loop.round s.cache outcome
  | .killed => some { s with running := none }

/-!
# The ablation
-/

/-- The arguments of the ablation; the overrides are its `--run-ids`. -/
structure Ablation where
  runId : Option String
  overrides : List (Split × String)
  negSplits : List Split

namespace Ablation

variable (a : Ablation)

def resolvedRunId (split : Split) : Except Exn String :=
  match a.overrides.reverse.lookup split, orElse a.runId none with
  | some runId, _ => .ok runId
  | none, some runId => .ok runId
  | none, none => .error (.exception s!"no run_id for split '{split.name}'")

structure Graded where
  split : Split
  runId : String
  record : EvalRecord

def graded (u : PyText) (d : Dataset) : Except Exn (List Graded) := do
  let runIds ← (Split.answerable :: a.negSplits).mapM fun split => do
    return (split, ← a.resolvedRunId split)
  let splits ← runIds.mapM fun entry => do
    return (← loadSplit u d entry.1).map fun record => ⟨entry.1, entry.2, record⟩
  return splits.flatten

/-- `load_cached` for every split: what the table and the sweep are made of. -/
def loadCached (u : PyText) (d : Dataset) (cache : GenerationCache CachedGeneration) :
    Except Exn (List (Graded × CachedGeneration)) := do
  let graded ← a.graded u d
  return graded.filterMap fun g =>
    (cache.getRunResult g.runId g.record.financebenchId).map fun raw => (g, raw)

end Ablation

end ChatDoc
