import ChatDoc.Service.Streaming
import ChatDoc.Web.Fragments

/-!
# The turn of the chat page

`onSubmit` of `ChatPage.tsx` fills a turn from the events of `streamQuery`.  The
turn waits until an answer, a refusal or an error has come, and only an event or
a thrown error ends the wait: the end of the stream does not.
-/

namespace ChatDoc

open Foundation

/-!
# The frames as they are sent
-/

def pyText (s : String) : List CodePoint := s.toList.map codePoint

def jsText (s : String) : List CodeUnit := utf16Text (pyText s)

def optionalJson {α : Type} (f : α -> PyValue) : Option α -> PyValue
  | none => .null
  | some a => f a

def stringJson (s : String) : PyValue := .string (pyText s)

def intJson (n : Int) : PyValue := .number (.int n)

def PyFloat.json : PyFloat -> PyValue
  | .finite q => .number (.float (q < 0) |q|)
  | .inf negative => .number (.infinity negative)
  | .nan => .number .nan

def SearchedChunk.json (c : SearchedChunk) : PyValue :=
  .object [(pyText "chunk_id", intJson c.chunkId), (pyText "page", intJson c.page)]

def searchedJson (searched : List SearchedChunk) : PyValue :=
  .array (searched.map SearchedChunk.json)

def AnswerCitation.json (c : AnswerCitation) : PyValue :=
  .object
    [(pyText "chunk_id", intJson c.chunkId),
     (pyText "page", optionalJson intJson c.page),
     (pyText "quote", stringJson c.quote),
     (pyText "bbox", optionalJson
       (fun box => .array (box.map (optionalJson PyFloat.json))) c.bbox)]

def Frame.wire : Frame -> WireFrame
  | .padding => .padding
  | .heartbeat => .heartbeat
  | .retrieval searched => .sse .retrieval [(pyText "searched", searchedJson searched)]
  | .delta chars => .sse .delta [(pyText "chars", intJson chars)]
  | .error message => .sse .error [(pyText "message", stringJson message)]
  | .refusal message reason searched =>
      .sse .refusal
        [(pyText "message", stringJson message),
         (pyText "reason", optionalJson stringJson reason),
         (pyText "searched", searchedJson searched)]
  | .answer value unit scale answerText citations =>
      .sse .answer
        [(pyText "value", optionalJson PyFloat.json value),
         (pyText "unit", optionalJson stringJson unit),
         (pyText "scale", optionalJson stringJson scale),
         (pyText "answer_text", optionalJson stringJson answerText),
         (pyText "citations", .array (citations.map AnswerCitation.json))]
  | .done => .sse .done []

def responseBytes (frames : List Frame) : List UInt8 :=
  (frames.map Frame.wire).flatMap WireFrame.bytes

/-!
# The page
-/

/-- A property of a value; `none` is `undefined`. -/
def jsProperty (key : String) : JsValue -> Option JsValue
  | .object members => members.lookup (jsText key)
  | _ => none

/-- The message of an error turn: what the event says, or that of an exception. -/
inductive ErrorMessage where
  | sent (message : Option JsValue)
  | caught

inductive TurnState where
  | generating (question : String) (charsGenerated : Option JsValue)
  | answer (question : String) (answer : JsValue)
  | refusal (question : String) (refusal : JsValue)
  | error (question : String) (message : ErrorMessage)

def TurnState.isGenerating : TurnState -> Bool
  | .generating _ _ => true
  | _ => false

/-- The body of the loop over the events. -/
def onEvent (q : String) (turn : TurnState) (evt : QueryEvent) : TurnState :=
  if evt.event = "delta".toList then
    match turn with
    | .generating question _ => .generating question (jsProperty "chars" evt.data)
    | _ => turn
  else if evt.event = "answer".toList then .answer q evt.data
  else if evt.event = "refusal".toList then .refusal q evt.data
  else if evt.event = "error".toList then
    .error q (.sent (jsProperty "message" evt.data))
  else turn

/-- The turn once the loop has ended, for a request that is not cancelled. -/
def onSubmit (q : String) (chunks : List (List UInt8)) : TurnState :=
  let out := streamQuery chunks
  let turn := out.1.foldl (onEvent q)
    (.generating q (some (.number (.finite false 0))))
  match out.2 with
  | .returned => turn
  | .thrown => .error q .caught

/-!
# Prefixes of the stream
-/

/-- From a part of the text of some frames the loop reads the events of those
frames that are complete. -/
theorem settle_prefix {frames : List WireFrame}
    (h : forall f, f ∈ frames -> f.Readable) {text : List Char}
    (htext : text <+: framesText frames) :
    exists front rest, front <+: frames ∧
      settle text = (front.filterMap WireFrame.received, some rest) := by
  induction frames generalizing text with
  | nil =>
      rw [List.prefix_nil.mp htext]
      exact ⟨[], [], List.nil_prefix, rfl⟩
  | cons f frames ih =>
      cases hcut : cutEvent text with
      | none => exact ⟨[], text, List.nil_prefix, settle_none hcut⟩
      | some out =>
          rcases out with ⟨rawEvent, rest⟩
          rcases htext with ⟨more, hmore⟩
          have hwhole := cutEvent_append more hcut
          have hframes : framesText (f :: frames) =
              f.body ++ '\n' :: '\n' :: framesText frames := by
            simp [framesText]
          rw [hmore, hframes, cutEvent_body] at hwhole
          have hbody : f.body = rawEvent := congrArg Prod.fst (Option.some.inj hwhole)
          have hrest : framesText frames = rest ++ more :=
            congrArg Prod.snd (Option.some.inj hwhole)
          have hpart : rest <+: framesText frames := ⟨more, hrest.symm⟩
          rcases ih (fun g hg => h g (List.mem_cons_of_mem _ hg)) hpart with
            ⟨front, left, hfront, hsettle⟩
          refine ⟨f :: front, left, List.prefix_cons_inj f |>.mpr hfront, ?_⟩
          rw [← hbody] at hcut
          rw [settle_body (h f List.mem_cons_self) hcut, hsettle, ← List.filterMap_append]
          rfl

theorem cutEvent_take (f : WireFrame) {k : Nat}
    (hk : k < (f.body ++ ['\n', '\n']).length) :
    cutEvent ((f.body ++ ['\n', '\n']).take k) = none := by
  cases hcut : cutEvent ((f.body ++ ['\n', '\n']).take k) with
  | none => rfl
  | some out =>
      rcases out with ⟨rawEvent, rest⟩
      have hwhole := cutEvent_append ((f.body ++ ['\n', '\n']).drop k) hcut
      have hbody := cutEvent_body f []
      rw [List.take_append_drop, hbody] at hwhole
      have hnil : [] = rest ++ (f.body ++ ['\n', '\n']).drop k :=
        congrArg Prod.snd (Option.some.inj hwhole)
      have hdrop := (List.append_eq_nil_iff.mp hnil.symm).2
      rw [List.drop_eq_nil_iff] at hdrop
      omega

/-!
# What an event does to the turn
-/

def WireFrame.waits : WireFrame -> Bool
  | .sse event _ => event = .retrieval ∨ event = .delta
  | _ => true

theorem onEvent_waits {f : WireFrame} {e : QueryEvent} {turn : TurnState} (q : String)
    (hwaits : f.waits = true) (hevent : f.received = some e)
    (hturn : turn.isGenerating = true) : (onEvent q turn e).isGenerating = true := by
  cases f with
  | padding => cases hevent
  | heartbeat => cases hevent
  | sse event data =>
      cases hevent
      rcases of_decide_eq_true hwaits with rfl | rfl
      · exact hturn
      · cases turn with
        | generating question chars => rfl
        | answer question answer => cases hturn
        | refusal question refusal => cases hturn
        | error question message => cases hturn

theorem foldl_waits {frames : List WireFrame} {turn : TurnState} (q : String)
    (hwaits : forall f, f ∈ frames -> f.waits = true) (hturn : turn.isGenerating = true) :
    ((frames.filterMap WireFrame.received).foldl (onEvent q) turn).isGenerating =
      true := by
  induction frames generalizing turn with
  | nil => exact hturn
  | cons f frames ih =>
      have hrest := fun g hg => hwaits g (List.mem_cons_of_mem _ hg)
      cases hevent : f.received with
      | none =>
          rw [List.filterMap_cons_none hevent]
          exact ih hrest hturn
      | some e =>
          rw [List.filterMap_cons_some hevent]
          exact ih hrest (onEvent_waits q (hwaits f List.mem_cons_self) hevent hturn)

theorem onEvent_settles (q : String) (turn : TurnState) {event : EventName}
    (data : JsValue)
    (hevent : event = .answer ∨ event = .refusal ∨ event = .error) :
    (onEvent q turn ⟨event.text, data⟩).isGenerating = false := by
  rcases hevent with rfl | rfl | rfl <;> rfl

/-!
# The frames of the protocol
-/

theorem protocol_shape {frames : List Frame} (h : Protocol frames) :
    exists early last, frames = early ++ [last, .done] ∧
      (forall f, f ∈ early -> f.wire.waits = true) ∧ last.terminal = true := by
  cases h with
  | retrievalFailed message =>
      refine ⟨[.padding], .error message, rfl, ?_, rfl⟩
      intro f hf
      rw [List.mem_singleton.mp hf]
      rfl
  | nothingRetrieved searched message reason =>
      refine ⟨[.padding, .retrieval searched], .refusal message reason searched, rfl,
        ?_, rfl⟩
      intro f hf
      rcases List.mem_cons.mp hf with rfl | hf
      · rfl
      · rw [List.mem_singleton.mp hf]
        rfl
  | generated searched middle last hmiddle hlast =>
      refine ⟨.padding :: .retrieval searched :: middle, last, rfl, ?_, hlast⟩
      intro f hf
      rcases List.mem_cons.mp hf with rfl | hf
      · rfl
      · rcases List.mem_cons.mp hf with rfl | hf
        · rfl
        · have hprogress := hmiddle f hf
          cases f with
          | heartbeat => rfl
          | delta chars => rfl
          | _ => cases hprogress

theorem readable_searchedJson (searched : List SearchedChunk) :
    (searchedJson searched).Readable := by
  have hitems : PyValue.EachItem PyNumber.Finite (searched.map SearchedChunk.json) := by
    induction searched with
    | nil => exact True.intro
    | cons c searched ih =>
        have hkeys : ([pyText "chunk_id", pyText "page"].map utf16Text).Nodup := by
          decide
        exact ⟨⟨hkeys, True.intro, True.intro, True.intro⟩, ih⟩
  exact hitems

theorem readable_waits {f : Frame} (h : f.wire.waits = true) : f.wire.Readable := by
  cases f with
  | padding => exact True.intro
  | heartbeat => exact True.intro
  | retrieval searched =>
      exact ⟨by simp, readable_searchedJson searched, True.intro⟩
  | delta chars => exact ⟨by simp, True.intro, True.intro⟩
  | error message => cases h
  | refusal message reason searched => cases h
  | answer value unit scale answerText citations => cases h
  | done => cases h

theorem terminal_wire {f : Frame} (h : f.terminal = true) :
    exists event data, f.wire = .sse event data ∧
      (event = .answer ∨ event = .refusal ∨ event = .error) := by
  cases f with
  | error message => exact ⟨_, _, rfl, .inr (.inr rfl)⟩
  | refusal message reason searched => exact ⟨_, _, rfl, .inr (.inl rfl)⟩
  | answer value unit scale answerText citations => exact ⟨_, _, rfl, .inl rfl⟩
  | _ => cases h

/-!
# Cut responses
-/

def turnAfter (q : String) (out : List QueryEvent × Option (List Char)) : TurnState :=
  match out.2 with
  | some _ =>
      out.1.foldl (onEvent q) (.generating q (some (.number (.finite false 0))))
  | none => .error q .caught

theorem onSubmit_of_text (q : String) {chunks : List (List UInt8)} {text : List Char}
    (htext : Ascii text) (hchunks : chunks.flatten = encode text) :
    onSubmit q chunks = turnAfter q (settle text) := by
  unfold onSubmit
  rw [streamQuery_flatten, hchunks, decode_encode htext]
  cases hsettle : settle text with
  | mk events left => cases left <;> rfl

theorem length_encode {text : List Char} (h : Ascii text) :
    (encode text).length = text.length := by
  rw [encode_ascii h, List.length_map]

theorem prefix_encode {text : List Char} {bytes : List UInt8} (h : Ascii text)
    (hpart : bytes <+: encode text) : bytes = encode (text.take bytes.length) := by
  have htake : Ascii (text.take bytes.length) :=
    fun c hc => h c (List.mem_of_mem_take hc)
  have hbytes := List.prefix_iff_eq_take.mp hpart
  rw [encode_ascii h, ← List.map_take, ← encode_ascii htake] at hbytes
  exact hbytes

def frameText (f : WireFrame) : List Char := f.body ++ ['\n', '\n']

theorem turnAfter_cut (q : String) {early : List Frame} (last : Frame)
    (rest : List Char) {n : Nat} (hearly : forall f, f ∈ early -> f.wire.waits = true)
    (hn : n < (framesText (early.map Frame.wire) ++ frameText last.wire).length) :
    (turnAfter q (settle ((framesText (early.map Frame.wire) ++
      (frameText last.wire ++ rest)).take n))).isGenerating = true := by
  have hwaits : forall f, f ∈ early.map Frame.wire -> f.waits = true := by
    intro f hf
    rcases List.mem_map.mp hf with ⟨g, hg, rfl⟩
    exact hearly g hg
  have hreadable : forall f, f ∈ early.map Frame.wire -> f.Readable := by
    intro f hf
    rcases List.mem_map.mp hf with ⟨g, hg, rfl⟩
    exact readable_waits (hearly g hg)
  rw [List.length_append] at hn
  rcases Nat.lt_or_ge (framesText (early.map Frame.wire)).length n with hlong | hshort
  · have hcut : cutEvent ((frameText last.wire).take
        (n - (framesText (early.map Frame.wire)).length)) = none :=
      cutEvent_take last.wire (by unfold frameText at hn; omega)
    rw [List.take_append, List.take_of_length_le (Nat.le_of_lt hlong),
      List.take_append_of_le_length (by omega), settle_frames hreadable,
      settle_none hcut, List.append_nil]
    exact foldl_waits q hwaits rfl
  · rw [List.take_append_of_le_length hshort]
    rcases settle_prefix hreadable (List.take_prefix n _) with
      ⟨front, left, hfront, hsettle⟩
    rw [hsettle]
    exact foldl_waits q (fun f hf => hwaits f (hfront.subset hf)) rfl

theorem turnAfter_settled (q : String) {early : List Frame} {last : Frame}
    {rest : List Char} (hearly : forall f, f ∈ early -> f.wire.waits = true)
    (hlast : last.terminal = true)
    (hrest : rest <+: framesText [WireFrame.sse .done []]) :
    (turnAfter q (settle (framesText (early.map Frame.wire) ++
      (frameText last.wire ++ rest)))).isGenerating = false := by
  have hreadable : forall f, f ∈ early.map Frame.wire -> f.Readable := by
    intro f hf
    rcases List.mem_map.mp hf with ⟨g, hg, rfl⟩
    exact readable_waits (hearly g hg)
  have hdone : forall f, f ∈ [WireFrame.sse .done []] -> f.Readable := by
    intro f hf
    rw [List.mem_singleton.mp hf]
    exact ⟨by simp, True.intro⟩
  rcases settle_prefix hdone hrest with ⟨front, left, hfront, hsettle⟩
  rcases terminal_wire hlast with ⟨event, data, hwire, hevent⟩
  have htext : frameText last.wire ++ rest = last.wire.body ++ '\n' :: '\n' :: rest := by
    simp [frameText]
  rw [settle_frames hreadable, htext, settle_cut (cutEvent_body _ _), hsettle, hwire,
    readEvent_sse]
  cases hparse : parse (dumps (.object data)) with
  | none => rfl
  | some v =>
      have hstays (turn : TurnState) :
          (front.filterMap WireFrame.received).foldl (onEvent q) turn = turn := by
        have hshort : front = [] ∨ front = [WireFrame.sse .done []] := by
          rcases List.prefix_cons_iff.mp hfront with hnil | ⟨tail, htail, hpart⟩
          · exact .inl hnil
          · rw [List.prefix_nil.mp hpart] at htail
            exact .inr htail
        rcases hshort with rfl | rfl
        · rfl
        · rfl
      unfold turnAfter afterReading
      dsimp only
      rw [List.foldl_append, List.foldl_cons, hstays]
      exact onEvent_settles q _ v hevent

/-- From a response that breaks off, the turn is settled exactly when the whole
terminal frame has come. -/
theorem settled_iff_terminal_received (q : String) {frames : List Frame}
    (hprotocol : Protocol frames) {chunks : List (List UInt8)}
    (hcut : chunks.flatten <+: responseBytes frames) :
    (onSubmit q chunks).isGenerating = false <->
      (responseBytes frames.dropLast).length ≤ chunks.flatten.length := by
  rcases protocol_shape hprotocol with ⟨early, last, rfl, hearly, hlast⟩
  have hbytes (fs : List Frame) :
      responseBytes fs = encode (framesText (fs.map Frame.wire)) :=
    (encode_framesText _).symm
  have htext : framesText ((early ++ [last, Frame.done]).map Frame.wire) =
      framesText (early.map Frame.wire) ++
        (frameText last.wire ++ framesText [WireFrame.sse .done []]) := by
    simp [framesText, frameText, Frame.wire]
  have hfirst : framesText ((early ++ [last, Frame.done]).dropLast.map Frame.wire) =
      framesText (early.map Frame.wire) ++ frameText last.wire := by
    rw [List.dropLast_append_of_ne_nil (by simp)]
    simp [framesText, frameText]
  have hascii := ascii_framesText ((early ++ [last, Frame.done]).map Frame.wire)
  rw [hbytes] at hcut
  have hreceived := prefix_encode hascii hcut
  rw [onSubmit_of_text q (fun c hc => hascii c (List.mem_of_mem_take hc)) hreceived,
    hbytes, length_encode (ascii_framesText _), hfirst, htext]
  generalize chunks.flatten.length = n
  constructor
  · intro hsettled
    by_contra hshort
    have hwaiting := turnAfter_cut q last (framesText [WireFrame.sse .done []]) hearly
      (Nat.lt_of_not_le hshort)
    rw [hwaiting] at hsettled
    cases hsettled
  · intro hlong
    rw [← List.append_assoc, List.take_append, List.take_of_length_le hlong,
      List.append_assoc]
    exact turnAfter_settled q hearly hlast (List.take_prefix _ _)

/-!
# A connection that drops

The response to a question about an empty context breaks off before its refusal.
-/

def refusedFrames : List Frame :=
  [.padding, .retrieval [], .refusal refusalText (some "no chunks retrieved") [], .done]

theorem protocol_refusedFrames : Protocol refusedFrames :=
  .nothingRetrieved [] refusalText (some "no chunks retrieved")

theorem settled_iff_refusal_received :
    (onSubmit "What was the revenue?" [responseBytes refusedFrames]).isGenerating =
        false <->
      (responseBytes refusedFrames.dropLast).length ≤
        [responseBytes refusedFrames].flatten.length := by
  have hwhole : [responseBytes refusedFrames].flatten = responseBytes refusedFrames :=
    List.flatten_singleton
  have hcut : [responseBytes refusedFrames].flatten <+: responseBytes refusedFrames :=
    ⟨[], by rw [hwhole, List.append_nil]⟩
  exact settled_iff_terminal_received _ protocol_refusedFrames hcut

/-- The padding and the retrieval have come, and then the stream is over. -/
theorem exists_waiting_forever :
    ¬ forall (q : String) (frames : List Frame), Protocol frames ->
      forall chunks : List (List UInt8), chunks.flatten <+: responseBytes frames ->
        (onSubmit q chunks).isGenerating = false := by
  intro hall
  have hearly : forall f, f ∈ [Frame.padding, Frame.retrieval []] ->
      f.wire.waits = true := by
    intro f hf
    rcases List.mem_cons.mp hf with rfl | hf
    · rfl
    · rw [List.mem_singleton.mp hf]
      rfl
  have hbytes : [responseBytes [Frame.padding, Frame.retrieval []]].flatten =
      encode (framesText ([Frame.padding, Frame.retrieval []].map Frame.wire)) := by
    rw [List.flatten_singleton]
    exact (encode_framesText _).symm
  have hcut : [responseBytes [Frame.padding, Frame.retrieval []]].flatten <+:
      responseBytes refusedFrames := by
    rw [List.flatten_singleton]
    exact ⟨responseBytes [.refusal refusalText (some "no chunks retrieved") [], .done],
      by simp [responseBytes, refusedFrames]⟩
  have hsettled := hall "What was the revenue?" refusedFrames protocol_refusedFrames _ hcut
  have hwaiting := turnAfter_cut "What was the revenue?" (Frame.error "")
    [] hearly (n := (framesText ([Frame.padding, Frame.retrieval []].map
      Frame.wire)).length) (by simp [frameText])
  rw [List.take_left] at hwaiting
  rw [onSubmit_of_text _ (ascii_framesText _) hbytes, hwaiting] at hsettled
  cases hsettled

end ChatDoc
