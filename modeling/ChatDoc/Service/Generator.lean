import ChatDoc.Foundation.Transition
import ChatDoc.Service.Query

/-!
# The generator and its thread

`event_stream` of `api/routes_query.py` as an asynchronous generator: it is
suspended at a `yield` or at an `await`, and there its consumer may ask for the
next frame, close it, or see the task cancelled.  Beside it runs the generation
thread, which pulls chunks off the upstream stream in `stream_structured`.
-/

namespace ChatDoc

open Foundation

/-!
# The generator
-/

inductive Exit where
  | returned
  | raised
  | disconnected
  | closed
  | cancelled
deriving DecidableEq

/-- The three ways in which a consumer stops reading. -/
def Exit.byConsumer : Exit -> Bool
  | .returned => false
  | .raised => false
  | .disconnected => true
  | .closed => true
  | .cancelled => true

/-- How the generator ended, how many upstream chunks had been pulled then, and
whether the thread had been started and had not yet queued its end. -/
structure Departure where
  how : Exit
  pulled : Nat
  unfinished : Bool
deriving DecidableEq

inductive Resumed where
  | retrieve
  | generate (ctx : RetrievalContext)
  | poll
  | beaten
  | frames (rest : List Frame)

inductive Point where
  | fresh
  | yielding (frame : Frame) (next : Resumed)
  | retrieving
  | polling
  | waiting
  | left (d : Departure)

/-!
# The thread
-/

/-- Where `worker` stands: in `stream_structured` before the stream is open, at
its `for`, after a chunk has come, at its `yield` or in its `finally`, then in
the `except` and the `finally` of `worker` itself. -/
inductive ThreadPoint where
  | notStarted
  | opening
  | reading
  | checking (text : String)
  | sending (text : String)
  | closing (error : Option String)
  | reporting (message : String)
  | ending
  | ended
deriving DecidableEq

inductive Upstream where
  | unopened
  | opened
  | closed
deriving DecidableEq

/-- What the upstream does, or the thread going on by itself. -/
inductive ThreadAction where
  | opened
  | failed (message : String)
  | chunk (text : String)
  | exhausted
  | proceed
deriving DecidableEq

/-!
# The machine
-/

structure QueryStream where
  point : Point
  ctx : RetrievalContext
  fullText : String
  lastHeartbeat : Rat
  queue : List Message
  stop : Bool
  thread : ThreadPoint
  upstream : Upstream
  pulled : Nat

inductive StreamAction where
  | next (now : Rat)
  | retrieved
  | polled (disconnected : Bool)
  | received
  | timedOut (now : Rat)
  | close
  | cancel
  | thread (a : ThreadAction)

namespace QueryStream

def init : QueryStream where
  point := .fresh
  ctx := ⟨[]⟩
  fullText := ""
  lastHeartbeat := 0
  queue := []
  stop := false
  thread := .notStarted
  upstream := .unopened
  pulled := 0

def unfinished (s : QueryStream) : Bool :=
  s.thread ≠ .notStarted ∧ s.thread ≠ .ended

def leave (s : QueryStream) (how : Exit) : QueryStream :=
  { s with point := .left ⟨how, s.pulled, s.unfinished⟩ }

def emit (s : QueryStream) : List Frame -> QueryStream
  | [] => s.leave .returned
  | frame :: rest => { s with point := .yielding frame (.frames rest) }

/-- The generator from a `yield` to where it is suspended next. -/
def resume (s : QueryStream) (now : Rat) : Resumed -> QueryStream
  | .retrieve => { s with point := .retrieving }
  | .generate ctx =>
      if ctx.chunks = [] then
        s.emit [.refusal refusalText (some "no chunks retrieved")
          (QueryRun.searched ctx), .done]
      else
        { s with
          point := .polling
          ctx := ctx
          fullText := ""
          lastHeartbeat := now
          thread := .opening }
  | .poll => { s with point := .polling }
  | .beaten => { s with point := .polling, lastHeartbeat := now }
  | .frames rest => s.emit rest

def receive (q : QueryRun) (s : QueryStream) : Message -> QueryStream
  | .delta payload =>
      { s with
        point := .yielding (.delta (s.fullText ++ payload).length) .poll
        fullText := s.fullText ++ payload }
  | .error message => s.emit [.error message, .done]
  | .ended =>
      match q.verify s.ctx s.fullText with
      | ⟨frames, .returned⟩ => s.emit frames
      | _ => s.leave .raised

def threadStep (s : QueryStream) : ThreadPoint -> ThreadAction -> Option QueryStream
  | .opening, .opened => some { s with thread := .reading, upstream := .opened }
  | .opening, .failed message => some { s with thread := .reporting message }
  | .reading, .chunk text =>
      some { s with thread := .checking text, pulled := s.pulled + 1 }
  | .reading, .exhausted => some { s with thread := .closing none }
  | .reading, .failed message => some { s with thread := .closing (some message) }
  | .checking text, .proceed =>
      if s.stop then some { s with thread := .closing none }
      else if text = "" then some { s with thread := .reading }
      else some { s with thread := .sending text }
  | .sending text, .proceed =>
      some { s with thread := .reading, queue := s.queue ++ [.delta text] }
  | .closing none, .proceed => some { s with thread := .ending, upstream := .closed }
  | .closing (some message), .proceed =>
      some { s with thread := .reporting message, upstream := .closed }
  | .reporting message, .proceed =>
      some { s with thread := .ending, queue := s.queue ++ [.error message] }
  | .ending, .proceed =>
      some { s with thread := .ended, queue := s.queue ++ [.ended] }
  | _, _ => none

def act (q : QueryRun) (s : QueryStream) : StreamAction -> Option QueryStream
  | .next now =>
      match s.point with
      | .fresh => some { s with point := .yielding .padding .retrieve }
      | .yielding _ next => some (s.resume now next)
      | _ => none
  | .retrieved =>
      match s.point, q.retrieved with
      | .retrieving, .error exc =>
          some (s.emit [.error s!"retrieval failed: {exc.message}", .done])
      | .retrieving, .ok ctx =>
          some { s with
            point := .yielding (.retrieval (QueryRun.searched ctx)) (.generate ctx) }
      | _, _ => none
  | .polled disconnected =>
      match s.point with
      | .polling =>
          if disconnected then some (leave { s with stop := true } .disconnected)
          else some { s with point := .waiting }
      | _ => none
  | .received =>
      match s.point, s.queue with
      | .waiting, message :: rest => some ({ s with queue := rest }.receive q message)
      | _, _ => none
  | .timedOut now =>
      match s.point with
      | .waiting =>
          if now - s.lastHeartbeat > heartbeatSeconds then
            some { s with point := .yielding .heartbeat .beaten }
          else some { s with point := .polling }
      | _ => none
  | .close =>
      match s.point with
      | .fresh => some (s.leave .closed)
      | .yielding _ _ => some (s.leave .closed)
      | _ => none
  | .cancel =>
      match s.point with
      | .retrieving => some (s.leave .cancelled)
      | .polling => some (s.leave .cancelled)
      | .waiting => some (s.leave .cancelled)
      | _ => none
  | .thread a => s.threadStep s.thread a

/-- A consumer that stops reading while the thread is under way has told it to
stop, so that it pulls at most one more chunk and closes the upstream stream. -/
def TornDown (s : QueryStream) : Prop :=
  forall d, s.point = .left d -> d.how.byConsumer = true -> d.unfinished = true ->
    s.stop = true ∧ s.pulled ≤ d.pulled + 1 ∧
      (s.thread = .ended -> s.upstream ≠ .opened)

def Undisturbed (s : QueryStream) (a : StreamAction) : Prop :=
  a = .close ∨ a = .cancel -> s.unfinished = false

end QueryStream
end ChatDoc
