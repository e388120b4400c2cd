import ChatDoc.Foundation.JsonRoundTrip
import ChatDoc.Foundation.Utf8

/-!
# The event stream on the wire

The frames that `api/routes_query.py` sends, and `streamQuery` of the web client
that reads them.  The client gets the bytes in chunks, cuts the text at blank
lines and parses the data of each event.
-/

namespace ChatDoc

open Foundation

/-!
# The server
-/

inductive EventName where
  | retrieval
  | delta
  | answer
  | refusal
  | error
  | done
deriving DecidableEq

def EventName.text : EventName -> List Char
  | .retrieval => "retrieval".toList
  | .delta => "delta".toList
  | .answer => "answer".toList
  | .refusal => "refusal".toList
  | .error => "error".toList
  | .done => "done".toList

abbrev EventData := List (List CodePoint × PyValue)

def sse (event : List Char) (data : EventData) : List UInt8 :=
  encode ("event: ".toList ++ event ++ "\ndata: ".toList ++ dumps (.object data) ++
    "\n\n".toList)

def paddingFrame : List UInt8 :=
  encode (":".toList ++ List.replicate 2048 ' ' ++ "\n\n".toList)

def heartbeatFrame : List UInt8 := encode ": heartbeat\n\n".toList

inductive WireFrame where
  | padding
  | heartbeat
  | sse (event : EventName) (data : EventData)

def WireFrame.bytes : WireFrame -> List UInt8
  | .padding => paddingFrame
  | .heartbeat => heartbeatFrame
  | .sse event data => ChatDoc.sse event.text data

/-!
# The client
-/

structure QueryEvent where
  event : List Char
  data : JsValue

inductive RawReading where
  | skipped
  | event (e : QueryEvent)
  | thrown

def eventFields (lines : List (List Char)) : List Char × List Char :=
  lines.foldl
    (fun out line =>
      if "event: ".toList.isPrefixOf line then (line.drop 7, out.2)
      else if "data: ".toList.isPrefixOf line then (out.1, line.drop 6)
      else out)
    ("message".toList, [])

def readEvent (rawEvent : List Char) : RawReading :=
  if ":".toList.isPrefixOf rawEvent then .skipped
  else
    let out := eventFields (rawEvent.splitOn '\n')
    if out.2 = [] then .skipped
    else
      match parse out.2 with
      | some data => .event ⟨out.1, data⟩
      | none => .thrown

/-- The text before the first blank line, and the text after it. -/
def cutEvent : List Char -> Option (List Char × List Char)
  | [] => none
  | '\n' :: '\n' :: rest => some ([], rest)
  | c :: rest => (cutEvent rest).map fun out => (c :: out.1, out.2)

/-- The inner loop: the events that are complete, and what is left of the
buffer, or none when an error was thrown.  A cut makes the buffer shorter. -/
def drainBuffer : Nat -> List Char -> List QueryEvent × Option (List Char)
  | 0, buffer => ([], some buffer)
  | fuel + 1, buffer =>
      match cutEvent buffer with
      | none => ([], some buffer)
      | some (rawEvent, rest) =>
          match readEvent rawEvent with
          | .skipped => drainBuffer fuel rest
          | .event e => (e :: (drainBuffer fuel rest).1, (drainBuffer fuel rest).2)
          | .thrown => ([], none)

inductive StreamEnd where
  | returned
  | thrown
deriving DecidableEq

/-- The outer loop over the chunks that are still to come. -/
def readFrom (decoder : TextDecoder) (buffer : List Char) :
    List (List UInt8) -> List QueryEvent × StreamEnd
  | [] => ([], .returned)
  | chunk :: chunks =>
      let out := decoder.decode chunk
      let text := buffer ++ out.2
      match drainBuffer text.length text with
      | (events, none) => (events, .thrown)
      | (events, some rest) =>
          let more := readFrom out.1 rest chunks
          (events ++ more.1, more.2)

/-- What `streamQuery` yields, and how it ends, when the body of the response
comes in these chunks. -/
def streamQuery (chunks : List (List UInt8)) : List QueryEvent × StreamEnd :=
  readFrom .fresh [] chunks

end ChatDoc
