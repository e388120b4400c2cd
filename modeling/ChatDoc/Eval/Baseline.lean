import ChatDoc.Eval.Runner
import ChatDoc.Foundation.Json
import ChatDoc.Foundation.Program

/-!
# The baseline runner

The loop of `eval/runner.py` with `QuotaGuard.call`, call by call.  A call is one
transaction on the cache file or one request to the model; an invocation may be
killed between any two of them, and the next one starts with the file as it was
left.
-/

namespace ChatDoc

open Foundation

/-!
# The cache file
-/

/-- What `generate` of `eval/gemini_client.py` returns. -/
structure RawText where
  text : String
  promptTokens : Option Int
  completionTokens : Option Int
  latencyMs : PyFloat
deriving DecidableEq

/-- A row of `llm_cache`; `raw` is what its `raw_json` says. -/
structure LlmRow where
  cacheKey : String
  model : String
  prompt : String
  paramsJson : String
  raw : RawText
  latencyMs : PyFloat
  promptTokens : Option Int
  completionTokens : Option Int
deriving DecidableEq

/-- What a row of `eval_generations` holds for its run and question. -/
structure BaselineGeneration where
  cacheKey : String
  raw : RawText
  latencyMs : PyFloat
  promptTokens : Option Int
  completionTokens : Option Int
  cacheHit : Bool
deriving DecidableEq

/-- A row of `call_log`, with the day of its `created_at`. -/
structure CallLogRow where
  runId : String
  questionId : String
  outcome : String
  detail : String
  createdOn : String
deriving DecidableEq

/-- The tables `llm_cache` and `eval_generations`. -/
structure BaselineCache where
  llmCache : List LlmRow
  generations : GenerationCache BaselineGeneration

def BaselineCache.empty : BaselineCache := ⟨[], .empty⟩

structure BaselineFile where
  cache : BaselineCache
  callLog : List CallLogRow

/-!
# The work
-/

/-- The arguments of `record` of the cache besides the run id, the model and its
parameters. -/
structure RecordedCall where
  questionId : String
  prompt : String
  raw : RawText
  cacheHit : Bool
  latencyMs : PyFloat
  promptTokens : Option Int
  completionTokens : Option Int

/-- The work of a run id: what all its invocations have in common.  The texts
that `rank_chunks` puts first for a document without some pages, the digest and
the model's answer to a prompt are functions. -/
structure Baseline where
  split : Split
  runId : String
  model : String
  records : List EvalRecord
  rankedTexts : String -> List Int -> String -> Except Exn (List String)
  sha256 : String -> String
  generate : String -> RawText

/-- `PROMPT_TEMPLATE.format(context=context, question=question)`. -/
def promptTemplate (context question : String) : String :=
  "You are a financial analyst assistant answering a question about " ++
  "a specific SEC filing using ONLY the excerpts below. If the excerpts contain the " ++
  "answer, respond with just the single numeric value (include the unit/scale exactly as " ++
  "shown, e.g. \"$1,577.00 million\" or \"12.4%\"). If the excerpts do not contain enough " ++
  "information to answer, respond with exactly: NOT_FOUND\n\nExcerpts:\n" ++
  context ++ "\n\nQuestion: " ++ question ++ "\n\nAnswer:"

def topK : Nat := 5

namespace Baseline

variable (B : Baseline)

/-- `json.dumps(params, sort_keys=True)`. -/
def paramsJson : String :=
  String.ofList (dumps (.object
    [("model".toList.map codePoint, .string (B.model.toList.map codePoint))]))

def cacheKey (prompt : String) : String :=
  B.sha256 s!"{B.model}\n{B.paramsJson}\n{prompt}"

def buildPrompt (record : EvalRecord) : Except Exn String := do
  let served ← servedDocAndExclusions record B.split
  let ranked ← B.rankedTexts served.1 served.2 record.question
  let context := "\n\n---\n\n".intercalate (ranked.take topK)
  return promptTemplate context record.question

/-- `lookup` of the cache. -/
def lookup (cache : BaselineCache) (prompt : String) : Option RawText :=
  (findByKey LlmRow.cacheKey (B.cacheKey prompt) cache.llmCache).map LlmRow.raw

def stored (cache : BaselineCache) (questionId : String) : Option BaselineGeneration :=
  cache.generations.getRunResult B.runId questionId

/-- The row that `record` inserts into `llm_cache`. -/
def llmRow (r : RecordedCall) : LlmRow where
  cacheKey := B.cacheKey r.prompt
  model := B.model
  prompt := r.prompt
  paramsJson := B.paramsJson
  raw := r.raw
  latencyMs := r.latencyMs
  promptTokens := r.promptTokens
  completionTokens := r.completionTokens

/-- What `record` inserts into `eval_generations`. -/
def rowOf (r : RecordedCall) : BaselineGeneration where
  cacheKey := B.cacheKey r.prompt
  raw := r.raw
  latencyMs := r.latencyMs
  promptTokens := r.promptTokens
  completionTokens := r.completionTokens
  cacheHit := r.cacheHit

/-- `record` of the cache, one transaction. -/
def record (cache : BaselineCache) (r : RecordedCall) : BaselineCache where
  llmCache :=
    if r.cacheHit then cache.llmCache
    else insertOrReplace LlmRow.cacheKey (B.llmRow r) cache.llmCache
  generations := cache.generations.record B.runId r.questionId (B.rowOf r)

end Baseline

/-!
# Calls
-/

inductive BaselineRequest where
  | alreadyHasRunResult (questionId : String)
  | lookup (prompt : String)
  | record (r : RecordedCall)
  | logCall (questionId outcome detail : String)
  | countCallsToday
  | generate (prompt : String)

inductive BaselineFault where
  | quotaExceeded (message : String)
  | rateLimited (message : String)
  | exception (message : String)
  | systemExit (code : Int)

def BaselineFault.message : BaselineFault -> String
  | .quotaExceeded message => message
  | .rateLimited message => message
  | .exception message => message
  | .systemExit code => String.ofList (intText code)

abbrev BaselineRequest.Reply : BaselineRequest -> Type
  | .alreadyHasRunResult _ => Bool
  | .lookup _ => Option RawText
  | .record _ => Unit
  | .logCall _ _ _ => Unit
  | .countCallsToday => Nat
  | .generate _ => RawText

def baselineCalls : Interface where
  Request := BaselineRequest
  Reply := BaselineRequest.Reply
  Fault := BaselineFault

abbrev BaselineProc (alpha : Type) := Program baselineCalls alpha

abbrev send (r : BaselineRequest) : BaselineProc r.Reply :=
  Program.perform (I := baselineCalls) r

/-- How a call comes out: it returns, on some day; the model is rate limited; or
it raises anything else. -/
inductive CallOutcome where
  | returns (today : String)
  | rateLimited (message : String)
  | raises (message : String)

namespace Baseline

variable (B : Baseline)

def exec (today : String) (file : BaselineFile) :
    (r : BaselineRequest) -> r.Reply × BaselineFile
  | .alreadyHasRunResult questionId =>
      (file.cache.generations.alreadyHasRunResult B.runId questionId, file)
  | .lookup prompt => (B.lookup file.cache prompt, file)
  | .record r => ((), { file with cache := B.record file.cache r })
  | .logCall questionId outcome detail =>
      ((), { file with
        callLog := file.callLog ++ [⟨B.runId, questionId, outcome, detail, today⟩] })
  | .countCallsToday =>
      (file.callLog.countP fun row => row.outcome = "api_call" ∧ row.createdOn = today, file)
  | .generate prompt => (B.generate prompt, file)

@[simp] theorem exec_alreadyHasRunResult (today : String) (file : BaselineFile)
    (questionId : String) :
    B.exec today file (.alreadyHasRunResult questionId) =
      (file.cache.generations.alreadyHasRunResult B.runId questionId, file) := rfl

@[simp] theorem exec_lookup (today : String) (file : BaselineFile) (prompt : String) :
    B.exec today file (.lookup prompt) = (B.lookup file.cache prompt, file) := rfl

def answer (file : BaselineFile) :
    CallOutcome -> (r : BaselineRequest) ->
      Option (Except BaselineFault r.Reply × BaselineFile)
  | .returns today, r => some (.ok (B.exec today file r).1, (B.exec today file r).2)
  | .rateLimited message, .generate _ => some (.error (.rateLimited message), file)
  | .rateLimited _, _ => none
  | .raises message, _ => some (.error (.exception message), file)

def sem : Semantics baselineCalls BaselineFile :=
  fun r file reply file' =>
    exists outcome, B.answer file outcome r = some (reply, file')

end Baseline

/-!
# The quota guard
-/

structure BaselineInvocation where
  dailyBudget : Int
  maxCalls : Int
  limit : Option Int
  dryRun : Bool

def maxRetries : Nat := 6

/-- One request to the model, with what to do when it is rate limited. -/
def attemptOnce (questionId prompt : String)
    (onRateLimited : String -> BaselineProc RawText) : BaselineProc RawText :=
  .call (.generate prompt) fun
    | .ok result => do
        send (.logCall questionId "api_call" "")
        pure result
    | .error (.rateLimited message) => onRateLimited message
    | .error e => do
        send (.logCall questionId "error" e.message)
        Program.raise e

/-- The `while True` loop of the guard, while some retries are left. -/
def attemptCall (questionId prompt : String) : Nat -> BaselineProc RawText
  | 0 =>
      attemptOnce questionId prompt fun message => do
        send (.logCall questionId "error" s!"exhausted retries: {message}")
        Program.raise (.rateLimited message)
  | retries + 1 =>
      attemptOnce questionId prompt fun _ => attemptCall questionId prompt retries

namespace BaselineInvocation

variable (i : BaselineInvocation)

/-- `call` of the guard, after some calls of this run. -/
def guardCall (questionId prompt : String) (callsThisRun : Nat) :
    BaselineProc (Option RawText) :=
  if i.dryRun then do
    send (.logCall questionId "dry_run" "planned call, no request sent")
    pure none
  else if i.maxCalls ≤ callsThisRun then do
    send (.logCall questionId "budget_stop" s!"max_calls={i.maxCalls}")
    Program.raise (.quotaExceeded s!"--max-calls={i.maxCalls} reached this run; re-run to continue (resumable — already-answered questions are skipped)")
  else do
    let callsToday ← send .countCallsToday
    if i.dailyBudget ≤ callsToday then do
      send (.logCall questionId "budget_stop" s!"daily_budget={i.dailyBudget}")
      Program.raise (.quotaExceeded s!"daily budget of {i.dailyBudget} calls reached; resume tomorrow — the resumable runner will pick up where it left off")
    else do
      let result ← attemptCall questionId prompt maxRetries
      pure (some result)

/-- `try: guard.call(...) except QuotaExceeded`; there is no result then. -/
def tryCall (questionId prompt : String) (callsThisRun : Nat) :
    BaselineProc (Option (Option RawText)) :=
  (i.guardCall questionId prompt callsThisRun >>= fun result => pure (some result)).handle
    fun
    | .quotaExceeded _ => pure none
    | e => Program.raise e

end BaselineInvocation

/-!
# The loop
-/

inductive LoopEnd where
  | completed
  | stopped
deriving DecidableEq

namespace Baseline

variable (B : Baseline) (i : BaselineInvocation)

def processRecords : List EvalRecord -> Nat -> BaselineProc LoopEnd
  | [], _ => pure .completed
  | record :: rest, callsThisRun => do
      let has ← send (.alreadyHasRunResult record.financebenchId)
      if has then processRecords rest callsThisRun
      else
        match B.buildPrompt record with
        | .error e => Program.raise (.exception e.message)
        | .ok prompt => do
            let cached ← send (.lookup prompt)
            match cached with
            | some raw => do
                send (.record
                  { questionId := record.financebenchId
                    prompt := prompt
                    raw := raw
                    cacheHit := true
                    latencyMs := .finite 0
                    promptTokens := none
                    completionTokens := none })
                processRecords rest callsThisRun
            | none => do
                let result ← i.tryCall record.financebenchId prompt callsThisRun
                match result with
                | none => pure .stopped
                | some none => processRecords rest callsThisRun
                | some (some raw) => do
                    send (.record
                      { questionId := record.financebenchId
                        prompt := prompt
                        raw := raw
                        cacheHit := false
                        latencyMs := raw.latencyMs
                        promptTokens := raw.promptTokens
                        completionTokens := raw.completionTokens })
                    processRecords rest (callsThisRun + 1)

/-- `main` up to the end of the loop. -/
def main : BaselineProc LoopEnd :=
  let records := limited i.limit B.records
  if records = [] then Program.raise (.systemExit 1)
  else B.processRecords i records 0

end Baseline

/-!
# Invocations one after another
-/

structure BaselineState where
  file : BaselineFile
  running : Option (BaselineInvocation × BaselineProc LoopEnd)

inductive BaselineAction where
  | invoke (i : BaselineInvocation)
  | call (outcome : CallOutcome)
  | kill

namespace Baseline

variable (B : Baseline)

def act (s : BaselineState) : BaselineAction -> Option BaselineState
  | .invoke i =>
      match s.running with
      | some _ => none
      | none => some { s with running := some (i, B.main i) }
  | .call outcome =>
      match s.running with
      | some (i, .call r next) =>
          (B.answer s.file outcome r).map fun out =>
            { file := out.2
              running := some (i, next out.1) }
      | _ => none
  | .kill => some { s with running := none }

end Baseline
end ChatDoc
