import ChatDoc.Service.Query
import ChatDoc.Gate.Verdicts

/-!
# The protocol of the stream

While the client stays, a turn of the loop yields progress or leaves the loop
with what the generation thread has said.  Everything after the loop ends in a
terminal frame and `done`, unless the gate raises.
-/

namespace ChatDoc

open Foundation

/-!
# The protocol
-/

namespace Frame

def progress : Frame -> Bool
  | .delta _ => true
  | .heartbeat => true
  | _ => false

def terminal : Frame -> Bool
  | .error _ => true
  | .answer _ _ _ _ _ => true
  | .refusal _ _ _ => true
  | _ => false

end Frame

inductive Protocol : List Frame -> Prop where
  | retrievalFailed (message : String) :
      Protocol [.padding, .error message, .done]
  | nothingRetrieved (searched : List SearchedChunk) (message : String)
      (reason : Option String) :
      Protocol [.padding, .retrieval searched, .refusal message reason searched,
        .done]
  | generated (searched : List SearchedChunk) (middle : List Frame)
      (last : Frame) (hmiddle : forall f, f ∈ middle -> f.progress = true)
      (hlast : last.terminal = true) :
      Protocol (.padding :: .retrieval searched :: (middle ++ [last, .done]))

/-- A running generator may still complete the protocol, and one that has
returned has done so. -/
def Follows (run : StreamRun) : Prop :=
  match run.ending with
  | .running => exists rest, Protocol (run.frames ++ rest)
  | .returned => Protocol run.frames
  | .raised _ => False

def Connected (turns : List Turn) : Prop := .disconnected ∉ turns

def arrivals (turns : List Turn) : Nat := turns.count .message

/-!
# The loop
-/

def drain : List Message -> String -> Option LoopExit
  | [], _ => none
  | .delta payload :: rest, fullText => drain rest (fullText ++ payload)
  | .error message :: _, _ => some (.failed message)
  | .ended :: _, fullText => some (.ended fullText)

theorem turn_cases (s : Polling) {t : Turn} (ht : t ≠ .disconnected) :
    (exists frames s', s.turn t = (frames, .inl s') ∧
      (forall f, f ∈ frames -> f.progress = true) ∧
        drain s'.queue s'.fullText = drain s.queue s.fullText ∧
          s'.queue.length ≤ s.queue.length - [t].count .message) ∨
    (exists exit, s.turn t = ([], .inr exit) ∧
      drain s.queue s.fullText = some exit) := by
  cases t with
  | disconnected => exact absurd rfl ht
  | timeout now sent =>
      left
      unfold Polling.turn
      dsimp only
      split
      · exact ⟨_, _, rfl, by simp [Frame.progress], rfl, by simp⟩
      · exact ⟨_, _, rfl, by simp, rfl, by simp⟩
  | message =>
      rcases s with ⟨fullText, lastHeartbeat, queue⟩
      unfold Polling.turn
      cases queue with
      | nil => exact .inl ⟨_, _, rfl, by simp, rfl, by simp⟩
      | cons first rest =>
          cases first with
          | delta payload =>
              exact .inl ⟨_, _, rfl, by simp [Frame.progress], rfl, by simp⟩
          | error message => exact .inr ⟨_, rfl, rfl⟩
          | ended => exact .inr ⟨_, rfl, rfl⟩

theorem turn_progress (s : Polling) (t : Turn) :
    forall f, f ∈ (s.turn t).1 -> f.progress = true := by
  by_cases ht : t = .disconnected
  · subst ht
    intro f hf
    cases hf
  · rcases turn_cases s ht with ⟨frames, s', hturn, hprogress, _⟩ | ⟨exit, hturn, _⟩
    · rw [hturn]
      exact hprogress
    · rw [hturn]
      intro f hf
      cases hf

theorem loop_progress (s : Polling) (turns : List Turn) :
    forall f, f ∈ (s.loop turns).1 -> f.progress = true := by
  induction turns generalizing s with
  | nil =>
      intro f hf
      cases hf
  | cons t rest ih =>
      have hfirst := turn_progress s t
      rw [Polling.loop]
      rcases hturn : s.turn t with ⟨frames, s' | exit⟩
      · rw [hturn] at hfirst
        intro f hf
        rcases List.mem_append.mp hf with hf | hf
        · exact hfirst f hf
        · exact ih s' f hf
      · rw [hturn] at hfirst
        exact hfirst

theorem loop_exit (s : Polling) {turns : List Turn} (h : Connected turns) :
    (s.loop turns).2 = none ∨
      (s.loop turns).2 = drain s.queue s.fullText := by
  induction turns generalizing s with
  | nil => exact .inl rfl
  | cons t rest ih =>
      rw [Connected, List.mem_cons, not_or] at h
      rw [Polling.loop]
      rcases turn_cases s (Ne.symm h.1) with
        ⟨frames, s', hturn, _, hdrain, _⟩ | ⟨exit, hturn, hdrain⟩
      · rw [hturn, ← hdrain]
        exact ih s' h.2
      · rw [hturn, hdrain]
        exact .inr rfl

theorem loop_exit_cases (s : Polling) (turns : List Turn) :
    (s.loop turns).2 = none ∨ (s.loop turns).2 = some .disconnected ∨
      (s.loop turns).2 = drain s.queue s.fullText := by
  induction turns generalizing s with
  | nil => exact .inl rfl
  | cons t rest ih =>
      rw [Polling.loop]
      by_cases ht : t = .disconnected
      · subst ht
        exact .inr (.inl rfl)
      · rcases turn_cases s ht with
          ⟨frames, s', hturn, _, hdrain, _⟩ | ⟨exit, hturn, hdrain⟩
        · rw [hturn, ← hdrain]
          exact ih s'
        · rw [hturn, hdrain]
          exact .inr (.inr rfl)

/-- Once every message has arrived, the loop is left. -/
theorem loop_exit_of_arrivals (s : Polling) {turns : List Turn}
    (h : Connected turns) (harrive : s.queue.length ≤ arrivals turns)
    {exit : LoopExit} (hdrain : drain s.queue s.fullText = some exit) :
    (s.loop turns).2 = some exit := by
  induction turns generalizing s with
  | nil =>
      have hnil : s.queue = [] := List.length_eq_zero_iff.mp (Nat.le_zero.mp harrive)
      rw [hnil] at hdrain
      cases hdrain
  | cons t rest ih =>
      rw [Connected, List.mem_cons, not_or] at h
      have hcount : arrivals (t :: rest) = [t].count .message + arrivals rest := by
        unfold arrivals
        rw [← List.count_append, List.singleton_append]
      rw [hcount] at harrive
      rw [Polling.loop]
      rcases turn_cases s (Ne.symm h.1) with
        ⟨frames, s', hturn, _, hsame, hlength⟩ | ⟨exit', hturn, hexit⟩
      · rw [hturn]
        exact ih s' h.2 (by omega) (hsame.trans hdrain)
      · rw [hturn]
        exact hexit.symm.trans hdrain

def generationExit (u : PyText) (g : Generation) : LoopExit :=
  match g.ending with
  | .finished => .ended (String.join g.deltas)
  | .rateLimited retryAfterS =>
      let retryAfter := (retryAfterS.map u.strFloat).getD "None"
      .failed s!"rate limited, retry after {retryAfter}s"
  | .raised exc => .failed exc.message

theorem drain_deltas (deltas : List String) (messages : List Message)
    (fullText : String) :
    drain (deltas.map .delta ++ messages) fullText =
      drain messages (deltas.foldl (fun text delta => text ++ delta) fullText) := by
  induction deltas generalizing fullText with
  | nil => rfl
  | cons delta rest ih =>
      rw [List.map_cons, List.cons_append, drain, ih, List.foldl_cons]

theorem drain_workerMessages (u : PyText) (g : Generation) :
    drain (workerMessages u g) "" = some (generationExit u g) := by
  unfold workerMessages generationExit
  rw [drain_deltas]
  cases g.ending with
  | finished => rfl
  | rateLimited retryAfterS => rfl
  | raised exc => rfl

/-!
# The verdict
-/

theorem chunksById_isSome {ctx : RetrievalContext} {id : Int}
    (h : id ∈ ctx.chunkIds) : (ctx.chunksById id).isSome := by
  rcases List.mem_map.mp h with ⟨chunk, hchunk, rfl⟩
  unfold RetrievalContext.chunksById
  rw [List.find?_isSome]
  exact ⟨chunk, List.mem_reverse.mpr hchunk, decide_eq_true rfl⟩

/-- The numeric check comes to a figure that cannot be rounded: an operand after
operands that are found, or the value of an answer that cites something. -/
def ReachesUnroundable (u : PyText) (ctx : GateContext) (answer : GateAnswer) :
    Prop :=
  (exists before op after, answer.operands = before ++ op :: after ∧
    (forall earlier, earlier ∈ before -> OperandFindable u ctx earlier) ∧
      op.value.toRat? = none) ∨
  (answer.operands = [] ∧ answer.citations ≠ [] ∧
    exists value, answer.value = some value ∧ value.toRat? = none)

theorem raises_gateResult {q : QueryRun} {ctx : RetrievalContext}
    {parsed : GateAnswer} :
    Raises (q.gateResult ctx parsed) <->
      (checkL2 parsed ctx.gateContext).passed = true ∧
        ReachesUnroundable q.u ctx.gateContext parsed := by
  unfold QueryRun.gateResult
  rw [raises_applyGate, raises_checkL3aNumeric]
  apply and_congr_right
  intro hl2
  have htext (id : Int) (hid : id ∈ citedIds parsed) :
      (ctx.gateContext.chunkTextById id).isSome := by
    have hsome := chunksById_isSome ((checkL2_passed.mp hl2).2 id hid)
    exact (Option.isSome_map).trans hsome
  unfold citedIds at htext
  unfold ReachesUnroundable
  constructor
  · intro hcases
    rcases hcases with
      ⟨before, op, after, hsplit, hbefore, _, hvalue⟩ |
      ⟨hops, value, hsome, hvalue, c, hc, _⟩
    · exact .inl ⟨before, op, after, hsplit, hbefore, hvalue⟩
    · exact .inr ⟨hops, List.ne_nil_of_mem hc, value, hsome, hvalue⟩
  · intro hcases
    rcases hcases with
      ⟨before, op, after, hsplit, hbefore, hvalue⟩ | ⟨hops, hcited, value, hsome, hvalue⟩
    · have hop : op ∈ parsed.operands := by
        rw [hsplit]
        exact List.mem_append_right _ List.mem_cons_self
      exact .inl ⟨before, op, after, hsplit, hbefore,
        htext _ (List.mem_append_right _ (List.mem_map_of_mem hop)), hvalue⟩
    · rcases List.exists_mem_of_ne_nil _ hcited with ⟨c, hc⟩
      exact .inr ⟨hops, value, hsome, hvalue, c, hc,
        htext _ (List.mem_append_left _ (List.mem_map_of_mem hc))⟩

def VerifyRaises (q : QueryRun) (ctx : RetrievalContext) (fullText : String) :
    Prop :=
  exists parsed, q.parse fullText = some parsed ∧
    Raises (q.gateResult ctx parsed)

theorem finish_cases (q : QueryRun) (ctx : RetrievalContext) {exit : LoopExit}
    (h : exit ≠ .disconnected) :
    (exists exc, q.finish ctx (some exit) = ⟨[], .raised exc⟩ ∧
      exists fullText, exit = .ended fullText ∧ VerifyRaises q ctx fullText) ∨
    (exists last, q.finish ctx (some exit) = ⟨[last, .done], .returned⟩ ∧
      last.terminal = true ∧
        forall fullText, exit = .ended fullText -> ¬ VerifyRaises q ctx fullText) := by
  cases exit with
  | disconnected => exact absurd rfl h
  | failed message => exact .inr ⟨_, rfl, rfl, by simp⟩
  | ended fullText =>
      unfold QueryRun.finish QueryRun.verify VerifyRaises
      dsimp only
      rcases hparse : q.parse fullText with _ | parsed
      · exact .inr ⟨_, rfl, rfl, by simp [hparse]⟩
      · rcases hgate : q.gateResult ctx parsed with exc | result
        · refine .inl ⟨exc, ?_, fullText, rfl, parsed, hparse, exc, hgate⟩
          dsimp only
          rw [hgate]
        · right
          dsimp only
          rw [hgate]
          dsimp only
          split
          · exact ⟨_, rfl, rfl, by simp [hparse, hgate]⟩
          · exact ⟨_, rfl, rfl, by simp [hparse, hgate]⟩

/-!
# The stream
-/

/-- The model's text is complete, parses and reaches a figure that cannot be
rounded. -/
def Unroundable (q : QueryRun) : Prop :=
  exists ctx parsed, q.retrieved = .ok ctx ∧ ctx.chunks ≠ [] ∧
    q.generation.ending = .finished ∧
      q.parse (String.join q.generation.deltas) = some parsed ∧
        (checkL2 parsed ctx.gateContext).passed = true ∧
          ReachesUnroundable q.u ctx.gateContext parsed

theorem generationExit_ended {u : PyText} {g : Generation} {fullText : String} :
    generationExit u g = .ended fullText <->
      g.ending = .finished ∧ String.join g.deltas = fullText := by
  unfold generationExit
  cases g.ending <;> simp

theorem generationExit_ne_disconnected (u : PyText) (g : Generation) :
    generationExit u g ≠ .disconnected := by
  unfold generationExit
  cases g.ending <;> simp

theorem unroundable_iff {q : QueryRun} :
    Unroundable q <->
      exists ctx, q.retrieved = .ok ctx ∧ ctx.chunks ≠ [] ∧
        exists fullText, generationExit q.u q.generation = .ended fullText ∧
          VerifyRaises q ctx fullText := by
  unfold Unroundable VerifyRaises
  simp only [generationExit_ended, raises_gateResult]
  constructor
  · intro hall
    rcases hall with ⟨ctx, parsed, hctx, hchunks, hfinished, hparse, hgate⟩
    exact ⟨ctx, hctx, hchunks, _, ⟨hfinished, rfl⟩, parsed, hparse, hgate⟩
  · intro hall
    rcases hall with ⟨ctx, hctx, hchunks, _, ⟨hfinished, rfl⟩, parsed, hparse, hgate⟩
    exact ⟨ctx, parsed, hctx, hchunks, hfinished, hparse, hgate⟩

theorem follows_running (searched : List SearchedChunk) {middle : List Frame}
    (hmiddle : forall f, f ∈ middle -> f.progress = true) :
    Follows (StreamRun.after (.padding :: .retrieval searched :: middle)
      ⟨[], .running⟩) := by
  refine ⟨[.error "", .done], ?_⟩
  have hprotocol := Protocol.generated searched middle (.error "") hmiddle rfl
  simpa [StreamRun.after] using hprotocol

theorem follows_returned (searched : List SearchedChunk) {middle : List Frame}
    (hmiddle : forall f, f ∈ middle -> f.progress = true) {last : Frame}
    (hlast : last.terminal = true) :
    Follows (StreamRun.after (.padding :: .retrieval searched :: middle)
      ⟨[last, .done], .returned⟩) :=
  Protocol.generated searched middle last hmiddle hlast

theorem not_follows_raised (frames : List Frame) (exc : Exn) :
    ¬ Follows (StreamRun.after frames ⟨[], .raised exc⟩) := fun h => h

theorem eventStream_found {q : QueryRun} {ctx : RetrievalContext}
    (hctx : q.retrieved = .ok ctx) (hchunks : ctx.chunks ≠ [])
    (turns : List Turn) :
    q.eventStream turns =
      (q.finish ctx (q.polling.loop turns).2).after
        (.padding :: .retrieval (QueryRun.searched ctx) ::
          (q.polling.loop turns).1) := by
  unfold QueryRun.eventStream
  rw [hctx]
  dsimp only
  rw [if_neg hchunks]

def promptly (q : QueryRun) : List Turn :=
  List.replicate (workerMessages q.u q.generation).length .message

theorem connected_promptly (q : QueryRun) : Connected (promptly q) := by
  intro hmem
  cases List.eq_of_mem_replicate hmem

theorem arrivals_promptly (q : QueryRun) :
    arrivals (promptly q) = (workerMessages q.u q.generation).length :=
  List.count_replicate_self

/-- A loop that was left is followed by a terminal frame and `done`. -/
theorem follows_of_left {q : QueryRun} {ctx : RetrievalContext}
    {turns : List Turn} (hctx : q.retrieved = .ok ctx) (hchunks : ctx.chunks ≠ [])
    (hround : ¬ Unroundable q)
    (hleft : (q.polling.loop turns).2 = some (generationExit q.u q.generation)) :
    Follows (q.eventStream turns) ∧ (q.eventStream turns).ending ≠ .running := by
  rw [unroundable_iff] at hround
  rw [eventStream_found hctx hchunks, hleft]
  rcases finish_cases q ctx (generationExit_ne_disconnected q.u q.generation) with
    ⟨_, _, fullText, hended, hraises⟩ | ⟨last, hfinish, hlast, _⟩
  · exact absurd ⟨ctx, hctx, hchunks, fullText, hended, hraises⟩ hround
  · rw [hfinish]
    constructor
    · exact follows_returned _ (loop_progress q.polling _) hlast
    · intro hrunning
      cases hrunning

theorem not_follows_promptly {q : QueryRun} (h : Unroundable q) :
    ¬ Follows (q.eventStream (promptly q)) := by
  rcases unroundable_iff.mp h with
    ⟨ctx, hctx, hchunks, fullText, hended, hraises⟩
  have hleft := loop_exit_of_arrivals q.polling (connected_promptly q)
    (arrivals_promptly q).ge (drain_workerMessages q.u q.generation)
  rw [eventStream_found hctx hchunks, hleft]
  rcases finish_cases q ctx (generationExit_ne_disconnected q.u q.generation) with
    ⟨exc, hfinish, _⟩ | ⟨last, _, _, hnone⟩
  · rw [hfinish]
    exact not_follows_raised _ exc
  · exact absurd hraises (hnone fullText hended)

theorem follows_of_not_unroundable {q : QueryRun} {turns : List Turn}
    (hround : ¬ Unroundable q) (hconnected : Connected turns) :
    Follows (q.eventStream turns) ∧
      ((workerMessages q.u q.generation).length ≤ arrivals turns ->
        (q.eventStream turns).ending ≠ .running) := by
  have hexit := drain_workerMessages q.u q.generation
  rcases hctx : q.retrieved with exc | ctx
  · unfold QueryRun.eventStream
    rw [hctx]
    exact ⟨Protocol.retrievalFailed _, fun _ hrunning => by cases hrunning⟩
  · by_cases hchunks : ctx.chunks = []
    · unfold QueryRun.eventStream
      rw [hctx]
      dsimp only
      rw [if_pos hchunks]
      exact ⟨Protocol.nothingRetrieved _ _ _, fun _ hrunning => by cases hrunning⟩
    · constructor
      · rcases loop_exit q.polling hconnected with hrunning | hleft
        · rw [eventStream_found hctx hchunks, hrunning]
          exact follows_running _ (loop_progress q.polling _)
        · exact (follows_of_left hctx hchunks hround
            (hleft.trans hexit)).1
      · intro harrive
        have hleft := loop_exit_of_arrivals q.polling hconnected harrive hexit
        exact (follows_of_left hctx hchunks hround hleft).2

/-- The stream follows its protocol, whatever the timing, exactly when the gate
comes to no figure that cannot be rounded. -/
theorem eventStream_follows_iff (q : QueryRun) :
    (forall turns, Connected turns ->
      Follows (q.eventStream turns) ∧
        ((workerMessages q.u q.generation).length ≤ arrivals turns ->
          (q.eventStream turns).ending ≠ .running)) <->
      ¬ Unroundable q := by
  constructor
  · intro hfollows hunroundable
    exact not_follows_promptly hunroundable
      (hfollows (promptly q) (connected_promptly q)).1
  · intro hround turns hconnected
    exact follows_of_not_unroundable hround hconnected

/-!
# An infinite value

The value of the answer is `Infinity`, which `json.loads` and the schema accept.
The stream breaks off after the deltas.
-/

def infiniteText : String :=
  "\x7b\"sufficient\": true, \"value\": Infinity, \"citations\": [\x7b\"chunk_id\": 7, \"quote\": \"577\"\x7d]\x7d"

def infiniteAnswer : GateAnswer where
  sufficient := true
  value := some (.inf false)
  unit := none
  scale := none
  operands := []
  answerText := none
  citations := [⟨7, "577"⟩]

def infiniteQuery : QueryRun where
  u := .ascii
  rerank := fun _ _ => []
  parse := fun text => if text = infiniteText then some infiniteAnswer else none
  retrieved := .ok ⟨[(⟨7, 1, "577", none, none, none, none, none⟩, .finite 1)]⟩
  generation := ⟨[infiniteText], .finished⟩
  startClock := 0

theorem eventStream_infinite :
    infiniteQuery.eventStream [.message, .message] =
      ⟨[.padding, .retrieval [⟨7, 1⟩], .delta infiniteText.length],
        .raised (.exception "cannot convert float infinity to integer")⟩ := by
  decide +kernel

theorem exists_eventStream_breaks_off :
    ¬ forall (q : QueryRun) (turns : List Turn), Connected turns ->
      Follows (q.eventStream turns) ∧
        ((workerMessages q.u q.generation).length ≤ arrivals turns ->
          (q.eventStream turns).ending ≠ .running) := by
  intro hfollows
  have hrun := (hfollows infiniteQuery [.message, .message]
    (by simp [Connected])).1
  rw [eventStream_infinite] at hrun
  exact hrun

end ChatDoc
