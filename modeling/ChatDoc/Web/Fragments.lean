import ChatDoc.Web.Events

/-!
# Fragments of the event stream

However the bytes are cut into chunks, the client reads what it would read from
all of them at once, and from the frames of the server it reads their events.
-/

namespace ChatDoc

open Foundation

/-!
# Cutting at blank lines
-/

theorem cutEvent_length {text rawEvent rest : List Char}
    (h : cutEvent text = some (rawEvent, rest)) : rest.length < text.length := by
  fun_induction cutEvent text generalizing rawEvent rest with
  | case1 => cases h
  | case2 tail =>
      cases h
      rw [List.length_cons, List.length_cons]
      omega
  | case3 c tail hblank ih =>
      rcases Option.map_eq_some_iff.mp h with ⟨out, hcut, hout⟩
      cases hout
      have hlength := ih hcut
      rw [List.length_cons]
      omega

theorem cutEvent_cons {c : Char} {text : List Char}
    (h : c = '\n' -> text.head? ≠ some '\n') :
    cutEvent (c :: text) = (cutEvent text).map fun out => (c :: out.1, out.2) := by
  rw [cutEvent]
  intro rest hc htext
  subst htext
  exact h hc rfl

theorem cutEvent_append {text rawEvent rest : List Char} (more : List Char)
    (h : cutEvent text = some (rawEvent, rest)) :
    cutEvent (text ++ more) = some (rawEvent, rest ++ more) := by
  fun_induction cutEvent text generalizing rawEvent rest with
  | case1 => cases h
  | case2 tail =>
      cases h
      rfl
  | case3 c tail hblank ih =>
      rcases Option.map_eq_some_iff.mp h with ⟨out, hcut, hout⟩
      cases hout
      have hhead : c = '\n' -> (tail ++ more).head? ≠ some '\n' := by
        intro hc hnewline
        cases tail with
        | nil => cases hcut
        | cons d tail =>
            cases hnewline
            exact hblank tail hc rfl
      rw [List.cons_append, cutEvent_cons hhead, ih hcut, Option.map_some]

/-!
# The inner loop
-/

theorem drainBuffer_enough {fuel fuel' : Nat} {buffer : List Char}
    (h : buffer.length ≤ fuel) (h' : buffer.length ≤ fuel') :
    drainBuffer fuel buffer = drainBuffer fuel' buffer := by
  induction fuel generalizing fuel' buffer with
  | zero =>
      rw [List.length_eq_zero_iff.mp (Nat.le_zero.mp h)]
      cases fuel' <;> rfl
  | succ fuel ih =>
      cases fuel' with
      | zero =>
          rw [List.length_eq_zero_iff.mp (Nat.le_zero.mp h')]
          rfl
      | succ fuel' =>
          rw [drainBuffer, drainBuffer]
          cases hcut : cutEvent buffer with
          | none => rfl
          | some out =>
              rcases out with ⟨rawEvent, rest⟩
              have hlength := cutEvent_length hcut
              have hrest : drainBuffer fuel rest = drainBuffer fuel' rest :=
                ih (by omega) (by omega)
              dsimp only
              rw [hrest]

def settle (buffer : List Char) : List QueryEvent × Option (List Char) :=
  drainBuffer buffer.length buffer

theorem settle_none {buffer : List Char} (h : cutEvent buffer = none) :
    settle buffer = ([], some buffer) := by
  unfold settle
  cases buffer with
  | nil => rfl
  | cons c text =>
      rw [List.length_cons, drainBuffer, h]

def afterReading (out : List QueryEvent × Option (List Char)) :
    RawReading -> List QueryEvent × Option (List Char)
  | .skipped => out
  | .event e => (e :: out.1, out.2)
  | .thrown => ([], none)

theorem settle_cut {buffer rawEvent rest : List Char}
    (h : cutEvent buffer = some (rawEvent, rest)) :
    settle buffer = afterReading (settle rest) (readEvent rawEvent) := by
  have hlength := cutEvent_length h
  cases buffer with
  | nil => cases h
  | cons c text =>
      rw [List.length_cons] at hlength
      have hrest : drainBuffer text.length rest = settle rest :=
        drainBuffer_enough (by omega) le_rfl
      have hstep : settle (c :: text) = drainBuffer (text.length + 1) (c :: text) := rfl
      rw [hstep, drainBuffer, h]
      dsimp only
      rw [hrest]
      cases readEvent rawEvent <;> rfl

theorem cutEvent_settle {buffer rest : List Char} (h : (settle buffer).2 = some rest) :
    cutEvent rest = none := by
  induction hn : buffer.length using Nat.strongRecOn generalizing buffer with
  | ind n ih =>
      cases hcut : cutEvent buffer with
      | none =>
          rw [settle_none hcut] at h
          cases h
          exact hcut
      | some out =>
          rcases out with ⟨rawEvent, tail⟩
          have hlength := cutEvent_length hcut
          rw [settle_cut hcut] at h
          cases hread : readEvent rawEvent with
          | skipped =>
              rw [hread] at h
              exact ih _ (hn ▸ hlength) h rfl
          | event e =>
              rw [hread] at h
              exact ih _ (hn ▸ hlength) h rfl
          | thrown =>
              rw [hread] at h
              cases h

def continued (out : List QueryEvent × Option (List Char)) (more : List Char) :
    List QueryEvent × Option (List Char) :=
  match out.2 with
  | none => (out.1, none)
  | some rest => (out.1 ++ (settle (rest ++ more)).1, (settle (rest ++ more)).2)

/-- To read a text and then some more is to read them together. -/
theorem settle_append (buffer more : List Char) :
    settle (buffer ++ more) = continued (settle buffer) more := by
  induction hn : buffer.length using Nat.strongRecOn generalizing buffer with
  | ind n ih =>
      cases hcut : cutEvent buffer with
      | none =>
          rw [settle_none hcut]
          rfl
      | some out =>
          rcases out with ⟨rawEvent, rest⟩
          have hrest := ih rest.length (hn ▸ cutEvent_length hcut) rest rfl
          rw [settle_cut hcut, settle_cut (cutEvent_append more hcut), hrest]
          cases readEvent rawEvent with
          | skipped => rfl
          | event e =>
              unfold continued afterReading
              dsimp only
              cases (settle rest).2 <;> rfl
          | thrown => rfl

/-!
# Chunks
-/

def finished (out : List QueryEvent × Option (List Char)) :
    List QueryEvent × StreamEnd :=
  (out.1, if out.2 = none then .thrown else .returned)

theorem decode_nil (decoder : TextDecoder) : (decoder.decode []).2 = [] := by
  rcases decoder with ⟨bomSeen, decoder⟩
  cases bomSeen <;> rfl

theorem readFrom_eq {buffer : List Char} (decoder : TextDecoder)
    (hbuffer : cutEvent buffer = none) (chunks : List (List UInt8)) :
    readFrom decoder buffer chunks =
      finished (settle (buffer ++ (decoder.decode chunks.flatten).2)) := by
  induction chunks generalizing decoder buffer with
  | nil =>
      rw [List.flatten_nil, decode_nil, List.append_nil, settle_none hbuffer]
      rfl
  | cons chunk chunks ih =>
      rw [List.flatten_cons, TextDecoder.decode_append, ← List.append_assoc,
        settle_append, readFrom]
      have hdrain : drainBuffer (buffer ++ (decoder.decode chunk).2).length
          (buffer ++ (decoder.decode chunk).2) =
            settle (buffer ++ (decoder.decode chunk).2) := rfl
      dsimp only
      rw [hdrain]
      cases hsettle : settle (buffer ++ (decoder.decode chunk).2) with
      | mk events left =>
          cases left with
          | none => rfl
          | some rest =>
              have hleft : cutEvent rest = none :=
                cutEvent_settle (congrArg Prod.snd hsettle)
              dsimp only
              rw [ih _ hleft]
              rfl

/-- The reader does not see how the body is cut into chunks. -/
theorem streamQuery_flatten (chunks : List (List UInt8)) :
    streamQuery chunks = finished (settle (TextDecoder.fresh.decode chunks.flatten).2) :=
  readFrom_eq .fresh rfl chunks

/-!
# Frames
-/

def WireFrame.body : WireFrame -> List Char
  | .padding => ":".toList ++ List.replicate 2048 ' '
  | .heartbeat => ": heartbeat".toList
  | .sse event data =>
      "event: ".toList ++ event.text ++ "\ndata: ".toList ++ dumps (.object data)

theorem WireFrame.bytes_eq (f : WireFrame) :
    f.bytes = encode (f.body ++ ['\n', '\n']) := by
  cases f <;> rfl

namespace WireFrame

def eventWith (value : PyValue -> JsValue) : WireFrame -> Option QueryEvent
  | .sse event data => some ⟨event.text, value (.object data)⟩
  | _ => none

def queryEvent : WireFrame -> Option QueryEvent := eventWith PyValue.toJs

def received : WireFrame -> Option QueryEvent := eventWith PyValue.read

def Exact : WireFrame -> Prop
  | .sse _ data => PyValue.Exact (.object data)
  | _ => True

def Readable : WireFrame -> Prop
  | .sse _ data => PyValue.Readable (.object data)
  | _ => True

theorem readable_of_exact {f : WireFrame} (h : f.Exact) : f.Readable := by
  cases f with
  | padding => exact True.intro
  | heartbeat => exact True.intro
  | sse event data => exact (readable_and_read h).1

theorem received_of_exact {f : WireFrame} (h : f.Exact) : f.received = f.queryEvent := by
  cases f with
  | padding => rfl
  | heartbeat => rfl
  | sse event data =>
      unfold received queryEvent eventWith
      dsimp only
      rw [(readable_and_read h).2]

end WireFrame

theorem not_newline_of_printable {text : List Char} (h : Printable text) :
    '\n' ∉ text := by
  intro hmem
  exact absurd (h '\n' hmem).1 (by decide)

theorem printable_text (event : EventName) : Printable event.text := by
  cases event <;> exact printable_of_all (by decide)

theorem cutEvent_line {line : List Char} (rest : List Char) (h : '\n' ∉ line) :
    cutEvent (line ++ '\n' :: '\n' :: rest) = some (line, rest) := by
  induction line with
  | nil => rfl
  | cons c line ih =>
      rw [List.mem_cons, not_or] at h
      have hhead : c = '\n' -> (line ++ '\n' :: '\n' :: rest).head? ≠ some '\n' :=
        fun hc => absurd hc.symm h.1
      rw [List.cons_append, cutEvent_cons hhead, ih h.2, Option.map_some]

theorem cutEvent_lines {line next : List Char} (rest : List Char) (h : '\n' ∉ line)
    (hnil : next ≠ []) (hnext : '\n' ∉ next) :
    cutEvent (line ++ '\n' :: (next ++ '\n' :: '\n' :: rest)) =
      some (line ++ '\n' :: next, rest) := by
  induction line with
  | nil =>
      have hhead : '\n' = '\n' ->
          (next ++ '\n' :: '\n' :: rest).head? ≠ some '\n' := by
        intro _ hnewline
        cases next with
        | nil => exact hnil rfl
        | cons d next =>
            cases hnewline
            exact hnext List.mem_cons_self
      rw [List.nil_append, cutEvent_cons hhead, cutEvent_line rest hnext,
        Option.map_some]
      rfl
  | cons c line ih =>
      rw [List.mem_cons, not_or] at h
      have hhead : c = '\n' ->
          (line ++ '\n' :: (next ++ '\n' :: '\n' :: rest)).head? ≠ some '\n' :=
        fun hc => absurd hc.symm h.1
      rw [List.cons_append, cutEvent_cons hhead, ih h.2, Option.map_some]
      rfl

theorem printable_fields (event : EventName) (data : EventData) :
    Printable ("event: ".toList ++ event.text) ∧
      Printable ("data: ".toList ++ dumps (.object data)) := by
  have hevent : Printable "event: ".toList := printable_of_all (by decide)
  have hdata : Printable "data: ".toList := printable_of_all (by decide)
  exact ⟨printable_append.mpr ⟨hevent, printable_text event⟩,
    printable_append.mpr ⟨hdata, printable_dumps _⟩⟩

theorem body_sse (event : EventName) (data : EventData) :
    WireFrame.body (.sse event data) =
      ("event: ".toList ++ event.text) ++ '\n' ::
        ("data: ".toList ++ dumps (.object data)) := by
  have hdata : "\ndata: ".toList = '\n' :: "data: ".toList := rfl
  have hbody : WireFrame.body (.sse event data) =
      ("event: ".toList ++ event.text) ++ "\ndata: ".toList ++ dumps (.object data) := rfl
  rw [hbody, hdata, List.append_assoc, List.cons_append]

theorem cutEvent_body (f : WireFrame) (rest : List Char) :
    cutEvent (f.body ++ '\n' :: '\n' :: rest) = some (f.body, rest) := by
  cases f with
  | padding =>
      apply cutEvent_line
      intro hmem
      rcases List.mem_append.mp hmem with hcolon | hspace
      · exact absurd hcolon (by decide)
      · exact absurd (List.mem_replicate.mp hspace).2 (by decide)
  | heartbeat => exact cutEvent_line rest (by decide)
  | sse event data =>
      rcases printable_fields event data with ⟨hevent, hdata⟩
      rw [body_sse, List.append_assoc, List.cons_append]
      exact cutEvent_lines rest (not_newline_of_printable hevent) (by simp)
        (not_newline_of_printable hdata)

theorem readEvent_sse (event : EventName) (data : EventData) :
    readEvent (WireFrame.body (.sse event data)) =
      match parse (dumps (.object data)) with
      | some v => .event ⟨event.text, v⟩
      | none => .thrown := by
  rcases printable_fields event data with ⟨hevent, hdata⟩
  have hlines : (WireFrame.body (.sse event data)).splitOn '\n' =
      ["event: ".toList ++ event.text, "data: ".toList ++ dumps (.object data)] := by
    rw [body_sse, List.splitOn_append_cons_self_of_not_mem
      (not_newline_of_printable hevent),
      List.splitOn_eq_singleton (not_newline_of_printable hdata)]
  have hfields : eventFields ["event: ".toList ++ event.text,
      "data: ".toList ++ dumps (.object data)] =
        (event.text, dumps (.object data)) := rfl
  have hcolon : ":".toList.isPrefixOf (WireFrame.body (.sse event data)) = false := rfl
  have hnil : dumps (.object data) ≠ [] := by
    rw [dumps]
    exact List.cons_ne_nil _ _
  unfold readEvent
  rw [hcolon, if_neg (by decide), hlines, hfields]
  dsimp only
  refine (if_neg hnil).trans ?_
  cases parse (dumps (.object data)) <;> rfl

def WireFrame.reading (f : WireFrame) : RawReading :=
  match f.received with
  | some e => .event e
  | none => .skipped

theorem readEvent_body {f : WireFrame} (h : f.Readable) :
    readEvent f.body = f.reading := by
  cases f with
  | padding => rfl
  | heartbeat => rfl
  | sse event data =>
      rw [readEvent_sse, parse_dumps h]
      rfl

theorem settle_body {f : WireFrame} {buffer rest : List Char} (h : f.Readable)
    (hcut : cutEvent buffer = some (f.body, rest)) :
    settle buffer =
      ([f].filterMap WireFrame.received ++ (settle rest).1, (settle rest).2) := by
  rw [settle_cut hcut, readEvent_body h]
  unfold WireFrame.reading
  cases hevent : f.received with
  | none =>
      rw [List.filterMap_cons_none hevent]
      rfl
  | some e =>
      rw [List.filterMap_cons_some hevent]
      rfl

def framesText (frames : List WireFrame) : List Char :=
  frames.flatMap fun f => f.body ++ ['\n', '\n']

theorem settle_frames {frames : List WireFrame}
    (h : forall f, f ∈ frames -> f.Readable) (rest : List Char) :
    settle (framesText frames ++ rest) =
      (frames.filterMap WireFrame.received ++ (settle rest).1, (settle rest).2) := by
  induction frames with
  | nil => rfl
  | cons f frames ih =>
      have hrest := ih fun g hg => h g (List.mem_cons_of_mem _ hg)
      have htext : framesText (f :: frames) ++ rest =
          f.body ++ '\n' :: '\n' :: (framesText frames ++ rest) := by
        simp [framesText]
      rw [htext, settle_body (h f List.mem_cons_self) (cutEvent_body f _), hrest,
        ← List.append_assoc, ← List.filterMap_append]
      rfl

theorem ascii_of_printable {text : List Char} (h : Printable text) : Ascii text :=
  fun c hc => (h c hc).2.trans (by decide)

theorem ascii_newline {text : List Char} (h : Ascii text) : Ascii ('\n' :: text) := by
  intro c hc
  rcases List.mem_cons.mp hc with rfl | hc
  · decide
  · exact h c hc

theorem ascii_body (f : WireFrame) : Ascii f.body := by
  cases f with
  | padding =>
      have hspace : Printable (List.replicate 2048 ' ') := by
        intro c hc
        rw [(List.mem_replicate.mp hc).2]
        decide
      exact ascii_of_printable (printable_append.mpr ⟨printable_of_all (by decide), hspace⟩)
  | heartbeat => exact ascii_of_printable (printable_of_all (by decide))
  | sse event data =>
      rcases printable_fields event data with ⟨hevent, hdata⟩
      rw [body_sse, ascii_append]
      exact ⟨ascii_of_printable hevent, ascii_newline (ascii_of_printable hdata)⟩

theorem ascii_framesText (frames : List WireFrame) : Ascii (framesText frames) := by
  intro c hc
  rcases List.mem_flatMap.mp hc with ⟨f, _, hf⟩
  have hframe : Ascii (f.body ++ ['\n', '\n']) :=
    ascii_append.mpr ⟨ascii_body f, ascii_newline (ascii_newline fun _ hnil => nomatch hnil)⟩
  exact hframe c hf

theorem encode_framesText (frames : List WireFrame) :
    encode (framesText frames) = frames.flatMap WireFrame.bytes := by
  unfold encode framesText
  rw [List.flatMap_assoc]
  congr 1
  funext f
  exact f.bytes_eq.symm

/-- From the bytes of frames with exact data, cut into chunks in whatever way,
the client reads the events of the frames, each once and in their order, and
nothing for the comments. -/
theorem streamQuery_frames {frames : List WireFrame} {chunks : List (List UInt8)}
    (hexact : forall f, f ∈ frames -> f.Exact)
    (hchunks : chunks.flatten = frames.flatMap WireFrame.bytes) :
    streamQuery chunks = (frames.filterMap WireFrame.queryEvent, .returned) := by
  have hsettle :=
    settle_frames (fun f hf => WireFrame.readable_of_exact (hexact f hf)) []
  have hevents : frames.filterMap WireFrame.received =
      frames.filterMap WireFrame.queryEvent :=
    List.filterMap_congr fun f hf => WireFrame.received_of_exact (hexact f hf)
  have hempty : settle [] = ([], some []) := rfl
  rw [List.append_nil, hempty, List.append_nil] at hsettle
  rw [streamQuery_flatten, hchunks, ← encode_framesText,
    decode_encode (ascii_framesText frames), hsettle, hevents]
  rfl

def mixedFrames : List WireFrame :=
  [.padding, .sse .delta [([codePoint 'n'], .number (.int 3))], .heartbeat,
    .sse .error [([codePoint 'm'], .string [codePoint '\n',
      codePoint (Char.ofNat 0x1F600)])], .sse .done []]

def mixedChunks : List (List UInt8) :=
  let bytes := mixedFrames.flatMap WireFrame.bytes
  [bytes.take 7, [], (bytes.drop 7).dropLast, (bytes.drop 7).drop
    ((bytes.drop 7).length - 1)]

theorem streamQuery_mixedFrames :
    streamQuery mixedChunks =
      (mixedFrames.filterMap WireFrame.queryEvent, .returned) := by
  have hthree : Representable 3 := ⟨3, 0, by norm_num, by norm_num, by norm_num, by norm_num⟩
  have hexact : forall f, f ∈ mixedFrames -> f.Exact := by
    intro f hf
    unfold mixedFrames at hf
    simp only [List.mem_cons, List.not_mem_nil, or_false] at hf
    rcases hf with rfl | rfl | rfl | rfl | rfl
    · exact True.intro
    · exact ⟨by simp, hthree, True.intro⟩
    · exact True.intro
    · exact ⟨by simp, True.intro, True.intro⟩
    · exact ⟨by simp, True.intro⟩
  have hchunks : mixedChunks.flatten = mixedFrames.flatMap WireFrame.bytes := by
    unfold mixedChunks
    dsimp only
    rw [List.dropLast_eq_take]
    simp
  exact streamQuery_frames hexact hchunks

end ChatDoc
