import ChatDoc.Gate.Checks

/-!
# The query stream

`event_stream` of `api/routes_query.py` with the context of
`api/query_service.py`.  The generator is a machine that takes turns: before
each of them it looks whether the client is still there, and then it waits for
a message of the generation thread or until the wait times out.
-/

namespace ChatDoc

open Foundation

structure RetrievedChunk where
  chunkId : Int
  pageNum : Int
  text : String
  unitScale : Option String
  bboxX0 : Option PyFloat
  bboxY0 : Option PyFloat
  bboxX1 : Option PyFloat
  bboxY1 : Option PyFloat
deriving DecidableEq

/-!
# The context
-/

structure RetrievalContext where
  scored : List (RetrievedChunk × PyFloat)

namespace RetrievalContext

variable (ctx : RetrievalContext)

def chunks : List RetrievedChunk := ctx.scored.map Prod.fst

def chunkIds : List Int := ctx.chunks.map RetrievedChunk.chunkId

/-- `{c.chunk_id: c for c in chunks}`: of two chunks with one id the last. -/
def chunksById (id : Int) : Option RetrievedChunk :=
  ctx.chunks.reverse.find? fun c => c.chunkId = id

def textById (id : Int) : Option String :=
  (ctx.chunksById id).map RetrievedChunk.text

def scaleById (id : Int) : Option String :=
  (ctx.chunksById id).bind RetrievedChunk.unitScale

def top1Top2Scores : PyFloat × Option PyFloat :=
  match ctx.scored with
  | [] => (.finite 0, none)
  | [top1] => (top1.2, none)
  | top1 :: top2 :: _ => (top1.2, some top2.2)

def gateContext : GateContext where
  retrievedChunkIds := ctx.chunkIds
  chunkTextById := ctx.textById
  chunkScaleById := ctx.scaleById

end RetrievalContext

/-!
# Frames
-/

def refusalText : String :=
  "this file does not contain the necessary information to answer the question"

structure SearchedChunk where
  chunkId : Int
  page : Int
deriving DecidableEq

structure AnswerCitation where
  chunkId : Int
  page : Option Int
  quote : String
  bbox : Option (List (Option PyFloat))
deriving DecidableEq

inductive Frame where
  | padding
  | heartbeat
  | retrieval (searched : List SearchedChunk)
  | delta (chars : Nat)
  | error (message : String)
  | refusal (message : String) (reason : Option String)
      (searched : List SearchedChunk)
  | answer (value : Option PyFloat) (unit scale answerText : Option String)
      (citations : List AnswerCitation)
  | done
deriving DecidableEq

/-!
# The generation thread
-/

/-- How `stream_structured` ends: its deltas are over, or it raises. -/
inductive GenerationEnd where
  | finished
  | rateLimited (retryAfterS : Option PyFloat)
  | raised (exc : Exn)

structure Generation where
  deltas : List String
  ending : GenerationEnd

inductive Message where
  | delta (text : String)
  | error (message : String)
  | ended
deriving DecidableEq

/-- What `worker` puts into the queue, in this order. -/
def workerMessages (u : PyText) (g : Generation) : List Message :=
  g.deltas.map .delta ++
    match g.ending with
    | .finished => [.ended]
    | .rateLimited retryAfterS =>
        let retryAfter := (retryAfterS.map u.strFloat).getD "None"
        [.error s!"rate limited, retry after {retryAfter}s", .ended]
    | .raised exc => [.error exc.message, .ended]

/-!
# The loop
-/

def heartbeatSeconds : Rat := 15

/-- What a turn of the loop meets: a client that is gone, a wait that times out
when `time.monotonic()` says `now` (and `sent` once a heartbeat is out), or the
next message. -/
inductive Turn where
  | disconnected
  | timeout (now sent : Rat)
  | message
deriving DecidableEq

structure Polling where
  fullText : String
  lastHeartbeat : Rat
  queue : List Message

inductive LoopExit where
  | disconnected
  | failed (message : String)
  | ended (fullText : String)
deriving DecidableEq

def Polling.turn (s : Polling) : Turn -> List Frame × (Polling ⊕ LoopExit)
  | .disconnected => ([], .inr .disconnected)
  | .timeout now sent =>
      if now - s.lastHeartbeat > heartbeatSeconds then
        ([.heartbeat], .inl { s with lastHeartbeat := sent })
      else ([], .inl s)
  | .message =>
      match s.queue with
      | [] => ([], .inl s)
      | .delta payload :: rest =>
          let fullText := s.fullText ++ payload
          ([.delta fullText.length],
            .inl { s with fullText := fullText, queue := rest })
      | .error message :: _ => ([], .inr (.failed message))
      | .ended :: _ => ([], .inr (.ended s.fullText))

def Polling.loop (s : Polling) : List Turn -> List Frame × Option LoopExit
  | [] => ([], none)
  | t :: rest =>
      match s.turn t with
      | (frames, .inr exit) => (frames, some exit)
      | (frames, .inl s') =>
          let after := s'.loop rest
          (frames ++ after.1, after.2)

/-!
# The stream
-/

inductive Ending where
  | running
  | returned
  | raised (exc : Exn)
deriving DecidableEq

structure StreamRun where
  frames : List Frame
  ending : Ending
deriving DecidableEq

def StreamRun.after (frames : List Frame) (run : StreamRun) : StreamRun where
  frames := frames ++ run.frames
  ending := run.ending

/-- What the request meets: what retrieval and the model return, when, and what
`GateAnswer.model_validate(json.loads(text))` makes of a text, if it does not
raise. -/
structure QueryRun where
  u : PyText
  rerank : Reranker
  parse : String -> Option GateAnswer
  retrieved : Except Exn RetrievalContext
  generation : Generation
  startClock : Rat

def answerCitation (ctx : RetrievalContext) (c : Citation) : AnswerCitation where
  chunkId := c.chunkId
  page := (ctx.chunksById c.chunkId).map RetrievedChunk.pageNum
  quote := c.quote
  bbox :=
    match ctx.chunksById c.chunkId with
    | some chunk =>
        if chunk.bboxX0 ≠ none then
          some [chunk.bboxX0, chunk.bboxY0, chunk.bboxX1, chunk.bboxY1]
        else none
    | none => none

namespace QueryRun

variable (q : QueryRun)

def searched (ctx : RetrievalContext) : List SearchedChunk :=
  ctx.chunks.map fun c => ⟨c.chunkId, c.pageNum⟩

def gateResult (ctx : RetrievalContext) (parsed : GateAnswer) :
    Except Exn GateResult :=
  applyGate q.u q.rerank parsed ctx.gateContext liveGateLayers (.finite 0)
    (some ctx.top1Top2Scores) (.finite 0)

/-- The rest of the generator once the text is complete. -/
def verify (ctx : RetrievalContext) (fullText : String) : StreamRun :=
  match q.parse fullText with
  | none => ⟨[.error "model returned malformed output", .done], .returned⟩
  | some parsed =>
      match q.gateResult ctx parsed with
      | .error exc => ⟨[], .raised exc⟩
      | .ok result =>
          if !result.passed then
            ⟨[.refusal refusalText result.reason (searched ctx), .done], .returned⟩
          else
            ⟨[.answer parsed.value parsed.unit parsed.scale parsed.answerText
                (parsed.citations.map (answerCitation ctx)), .done], .returned⟩

/-- The rest of the generator after its loop. -/
def finish (ctx : RetrievalContext) : Option LoopExit -> StreamRun
  | none => ⟨[], .running⟩
  | some .disconnected => ⟨[], .returned⟩
  | some (.failed message) => ⟨[.error message, .done], .returned⟩
  | some (.ended fullText) => q.verify ctx fullText

def polling : Polling where
  fullText := ""
  lastHeartbeat := q.startClock
  queue := workerMessages q.u q.generation

def eventStream (turns : List Turn) : StreamRun :=
  match q.retrieved with
  | .error exc =>
      ⟨[.padding, .error s!"retrieval failed: {exc.message}", .done], .returned⟩
  | .ok ctx =>
      if ctx.chunks = [] then
        ⟨[.padding, .retrieval (searched ctx),
          .refusal refusalText (some "no chunks retrieved") (searched ctx), .done],
          .returned⟩
      else
        let polled := q.polling.loop turns
        (q.finish ctx polled.2).after
          (.padding :: .retrieval (searched ctx) :: polled.1)

end QueryRun
end ChatDoc
