import ChatDoc.Service.Deployment
import ChatDoc.Service.Noninterference
import ChatDoc.Service.Streaming

/-!
# Two users

The chunks that a question of a user reaches belong to documents of that user, and
what the service answers to the user does not depend on anybody else.
-/

namespace ChatDoc

open Foundation
open Foundation.Handler

/-!
# The chunks that a stream names
-/

def Frame.chunkIds : Frame -> List Int
  | .retrieval searched => searched.map SearchedChunk.chunkId
  | .refusal _ _ searched => searched.map SearchedChunk.chunkId
  | .answer _ _ _ _ citations => citations.map AnswerCitation.chunkId
  | _ => []

def Names (ctx : RetrievalContext) (frames : List Frame) : Prop :=
  forall frame id, frame ∈ frames -> id ∈ frame.chunkIds -> id ∈ ctx.chunkIds

section Frames

variable {q : QueryRun} {ctx : RetrievalContext}

theorem names_nil : Names ctx [] := by
  intro frame id hframe
  cases hframe

theorem names_cons {frame : Frame} {frames : List Frame}
    (hframe : forall id, id ∈ frame.chunkIds -> id ∈ ctx.chunkIds)
    (hframes : Names ctx frames) : Names ctx (frame :: frames) := by
  intro frame' id hin hid
  rcases List.mem_cons.mp hin with rfl | hrest
  · exact hframe id hid
  · exact hframes frame' id hrest hid

theorem names_quiet {frame : Frame} {frames : List Frame} (h : frame.chunkIds = [])
    (hframes : Names ctx frames) : Names ctx (frame :: frames) :=
  names_cons (fun _ hid => absurd (h ▸ hid) List.not_mem_nil) hframes

theorem names_append {frames frames' : List Frame} (h : Names ctx frames)
    (h' : Names ctx frames') : Names ctx (frames ++ frames') := by
  intro frame id hin hid
  rcases List.mem_append.mp hin with hold | hnew
  · exact h frame id hold hid
  · exact h' frame id hnew hid

theorem names_progress {frames : List Frame}
    (h : forall f, f ∈ frames -> f.progress = true) : Names ctx frames := by
  intro frame id hin hid
  have hprogress := h frame hin
  cases frame with
  | delta chars => cases hid
  | heartbeat => cases hid
  | _ => cases hprogress

theorem mem_searched {id : Int}
    (h : id ∈ (QueryRun.searched ctx).map SearchedChunk.chunkId) :
    id ∈ ctx.chunkIds := by
  unfold QueryRun.searched at h
  rw [List.map_map] at h
  exact h

theorem mem_cited {parsed : GateAnswer} {result : GateResult}
    (hresult : q.gateResult ctx parsed = .ok result) (hpassed : result.passed = true)
    {id : Int}
    (h : id ∈ (parsed.citations.map (answerCitation ctx)).map AnswerCitation.chunkId) :
    id ∈ ctx.chunkIds := by
  have hpasses : Passes (q.gateResult ctx parsed) := ⟨result, hresult, hpassed⟩
  have hcited := (checkL2_passed.mp (passes_applyGate.mp hpasses).1).2
  rw [List.map_map] at h
  exact hcited id (List.mem_append_left _ h)

theorem names_verify (fullText : String) : Names ctx (q.verify ctx fullText).frames := by
  unfold QueryRun.verify
  split
  next =>
    exact names_quiet rfl (names_quiet rfl names_nil)
  next parsed _ =>
    split
    next => exact names_nil
    next result hresult =>
      split
      next =>
        refine names_cons ?_ (names_quiet rfl names_nil)
        intro id hid
        exact mem_searched hid
      next hpassed =>
        rw [Bool.not_eq_true', Bool.not_eq_false] at hpassed
        refine names_cons ?_ (names_quiet rfl names_nil)
        intro id hid
        exact mem_cited hresult hpassed hid

theorem names_finish (exit : Option LoopExit) : Names ctx (q.finish ctx exit).frames := by
  cases exit with
  | none => exact names_nil
  | some exit =>
      cases exit with
      | disconnected => exact names_nil
      | failed message =>
          exact names_quiet rfl (names_quiet rfl names_nil)
      | ended fullText => exact names_verify fullText

theorem names_eventStream (turns : List Turn)
    (h : forall found, q.retrieved = .ok found -> found = ctx) :
    Names ctx (q.eventStream turns).frames := by
  unfold QueryRun.eventStream
  split
  next =>
    exact names_quiet rfl (names_quiet rfl (names_quiet rfl names_nil))
  next found hfound =>
    cases h found hfound
    split
    next =>
      refine names_quiet rfl
        (names_cons (fun id hid => mem_searched hid)
          (names_cons (fun id hid => mem_searched hid)
            (names_quiet rfl names_nil)))
    next =>
      refine names_append ?_ (names_finish _)
      exact names_quiet rfl
        (names_cons (fun id hid => mem_searched hid)
          (names_progress (loop_progress q.polling turns)))

end Frames

/-!
# The chunks that a question reaches
-/

/-- The stream answers from chunks of a document of the user: its prompt is built
from them, and its frames name no others. -/
def FromOwnChunks {score : Type} (B : Backend score) (s : Site) (userId : Nat)
    (body : QueryRequest) (schedule : Schedule) (run : StreamRun) : Prop :=
  exists ctx : RetrievalContext,
    run = (queryRun B schedule body.question ctx).eventStream schedule.turns ∧
      (forall chunk, chunk ∈ ctx.chunks ->
        exists id row, s.world.db.chunks.lookup id = some row ∧
          s.world.holds (fun owner => owner = some userId) row.documentId = true ∧
            chunk = retrievedChunk (id, row)) ∧
        Names ctx run.frames

theorem getCurrentUserId_world (http : HttpRequest) (s : Site) :
    (getCurrentUserId http s).2.world = s.world := by
  cases hcookie : http.sessionCookie with
  | none =>
      unfold getCurrentUserId
      rw [hcookie]
      rfl
  | some token =>
      cases hrow : s.sessions token with
      | none => rw [getCurrentUserId_missing hcookie hrow]
      | some row =>
          by_cases hexpired : AuthState.expired row s.world.now = true
          · rw [getCurrentUserId_expired hcookie hrow hexpired]
            rfl
          · rw [getCurrentUserId_live hcookie hrow hexpired]
            rfl

section Questions

variable {score : Type} [LinearOrder score] (B : Backend score) {http : HttpRequest}
  {userId : Nat} {token : Token}

theorem query_stream {body : QueryRequest} {schedule : Schedule} {s t : Site}
    {run : StreamRun}
    (h : query B http userId body schedule s = (.ok (.stream run), t)) :
    s.world.holds (fun owner => owner = some userId) body.documentId = true ∧
      run = (queryRun B schedule body.question
        (retrieve B s.world.db body.documentId body.question)).eventStream
          schedule.turns := by
  rcases bind_eq_ok h with ⟨_, s', hcsrf, h⟩
  have hs : s = s' := congrArg Prod.snd hcsrf
  subst hs
  rcases bind_eq_ok h with ⟨doc, s', hdoc, h⟩
  cases hdoc
  cases hrow : (s.own userId).documents body.documentId with
  | none =>
      rw [show s.world.db.getDocument userId body.documentId = none from hrow] at h
      cases h
  | some doc =>
      rw [show s.world.db.getDocument userId body.documentId = some doc from hrow] at h
      dsimp only at h
      split at h
      next => cases h
      next =>
        cases h
        exact ⟨holds_of_own hrow, rfl⟩

theorem serve_query {body : QueryRequest} {schedule : Schedule} {s : Site}
    {run : StreamRun} (hcookie : http.sessionCookie = some token)
    (hunique : s.KeysUnique) (hsession : s.SessionOf userId token)
    (h : (serve B http (.query body schedule) s).1 = .ok (.stream run)) :
    FromOwnChunks B s userId body schedule run := by
  rcases hserve : serve B http (.query body schedule) s with ⟨answer, t⟩
  rw [hserve] at h
  cases h
  rcases bind_eq_ok hserve with ⟨v, s', huser, hquery⟩
  have hv := (privateTo_getCurrentUserId hcookie).meets s v s' ⟨hunique, hsession⟩ huser
  rw [hv.1] at hquery
  rcases query_stream B hquery with ⟨hholds, hrun⟩
  have hworld := getCurrentUserId_world http s
  rw [huser] at hworld
  rw [show s'.world = s.world from hworld] at hholds hrun
  refine ⟨retrieve B s.world.db body.documentId body.question, hrun, ?_, ?_⟩
  · intro chunk hchunk
    rcases isChunkOf_retrieve hchunk with ⟨id, row, hrow, hdocument, hretrieved⟩
    exact ⟨id, row, hrow, hdocument ▸ hholds, hretrieved⟩
  · rw [hrun]
    apply names_eventStream schedule.turns
    intro found hfound
    unfold queryRun at hfound
    cases hfault : schedule.fault with
    | none =>
        rw [hfault] at hfound
        cases hfound
        rfl
    | some exc =>
        rw [hfault] at hfound
        cases hfound

end Questions

/-!
# Noninterference
-/

theorem keysUnique_deleteDocumentRow {s : Site} (documentId : Nat) (h : s.KeysUnique) :
    (s.deleteDocumentRow documentId).KeysUnique := by
  intro id id' d d' hd hd' hkey
  rw [lookup_deleteDocumentRow] at hd hd'
  split at hd
  next => cases hd
  next =>
    split at hd'
    next => cases hd'
    next => exact h id id' d d' hd hd' hkey

/-- In two states with the same part of a user, a request with a session of the
user gets the same response, leaves the same part, and changes nothing of the
others.  A document of somebody else could as well not be there, and a question is
answered from chunks of the user's own documents. -/
theorem crossUser_noninterference {score : Type} [LinearOrder score]
    (B : Backend score) {http : HttpRequest} {userId : Nat} {token : Token}
    (hcookie : http.sessionCookie = some token) (endpoint : Endpoint) {s s' : Site}
    (hunique : s.KeysUnique) (hunique' : s'.KeysUnique)
    (hsession : s.SessionOf userId token) (hown : s.own userId = s'.own userId) :
    (serve B http endpoint s).1 = (serve B http endpoint s').1 ∧
      (serve B http endpoint s).2.own userId = (serve B http endpoint s').2.own userId ∧
      (serve B http endpoint s).2.others userId = s.others userId ∧
      (serve B http endpoint s').2.others userId = s'.others userId ∧
      (forall documentId, endpoint.documentId = some documentId ->
        s.world.holds (fun owner => owner = some userId) documentId = false ->
          (serve B http endpoint s).1 =
            (serve B http endpoint (s.deleteDocumentRow documentId)).1) ∧
      forall body schedule run, endpoint = .query body schedule ->
        (serve B http endpoint s).1 = .ok (.stream run) ->
          FromOwnChunks B s userId body schedule run := by
  have hserve : PrivateTo userId (fun s => s.KeysUnique ∧ s.SessionOf userId token)
      (serve B http endpoint) fun _ _ => True := privateTo_serve B endpoint hcookie
  have hsession' : s'.SessionOf userId token := by
    rcases hsession with ⟨row, hrow, huser⟩
    exact ⟨row, own_row hown hrow huser, huser⟩
  refine ⟨?_, ?_, ?_, ?_, ?_, ?_⟩
  · exact hserve.result s s' ⟨hunique, hsession⟩ ⟨hunique', hsession'⟩ hown
  · exact hserve.kept s s' ⟨hunique, hsession⟩ ⟨hunique', hsession'⟩ hown
  · exact hserve.frame s ⟨hunique, hsession⟩
  · exact hserve.frame s' ⟨hunique', hsession'⟩
  · intro documentId _ hforeign
    refine hserve.result s (s.deleteDocumentRow documentId) ⟨hunique, hsession⟩
      ⟨keysUnique_deleteDocumentRow documentId hunique, hsession⟩ ?_
    show s.own userId = (s.deleteDocumentRow documentId).own userId
    unfold Site.own
    rw [part_deleteDocumentRow, deleteDocument_absent hforeign]
  · rintro body schedule run rfl hstream
    exact serve_query B hcookie hunique hsession hstream

def twoUsers : Site where
  world :=
    { db := (Database.empty.insertDocument
        (.pending 0 1 "user1_a" "a.pdf" "user1_a.pdf") rfl).insertDocument
          (.pending 0 2 "user2_b" "b.pdf" "user2_b.pdf") rfl
      blobs := fun _ => some ⟨[]⟩
      now := 0 }
  sessions := fun token => if token = "t" then some ⟨1, 0, 1⟩ else none

def plainBackend : Backend Nat where
  tie := ⟨id, Function.injective_id⟩
  embedding := Deployment.lengthModel
  distance := fun v w => (v.zip w).countP fun c => c.1 ≠ c.2
  tsMatches := fun text query => text = query
  tsRank := fun text _ => text.length
  u := .ascii
  rerank := fun _ documents => documents.map fun text => .finite text.length
  generate := fun prompt => ⟨[prompt], .finished⟩
  parse := fun _ => none

theorem keysUnique_twoUsers : twoUsers.KeysUnique := by
  intro id id' d d' hd hd' hkey
  rw [SerialTable.lookup_eq_some_iff] at hd hd'
  have hrows : twoUsers.world.db.documents.rows =
      [(1, .pending 0 1 "user1_a" "a.pdf" "user1_a.pdf"),
        (2, .pending 0 2 "user2_b" "b.pdf" "user2_b.pdf")] := rfl
  rw [hrows] at hd hd'
  simp only [List.mem_cons, Prod.mk.injEq, List.not_mem_nil, or_false] at hd hd'
  rcases hd with ⟨rfl, rfl⟩ | ⟨rfl, rfl⟩
  · rcases hd' with ⟨rfl, rfl⟩ | ⟨rfl, rfl⟩
    · rfl
    · exact absurd hkey (by decide)
  · rcases hd' with ⟨rfl, rfl⟩ | ⟨rfl, rfl⟩
    · exact absurd hkey (by decide)
    · rfl

/-- The first user asks for the document of the second one. -/
theorem crossUser_noninterference_twoUsers :
    (serve plainBackend ⟨some "t", none, none⟩ (.getDoc 2) twoUsers).1 =
        (serve plainBackend ⟨some "t", none, none⟩ (.getDoc 2)
          (twoUsers.deleteDocumentRow 2)).1 ∧
      (serve plainBackend ⟨some "t", none, none⟩ (.getDoc 2) twoUsers).2.others 1 =
        twoUsers.others 1 := by
  have hforeign : twoUsers.world.holds (fun owner => owner = some 1) 2 = false := rfl
  have hown : twoUsers.own 1 = (twoUsers.deleteDocumentRow 2).own 1 := by
    unfold Site.own
    rw [part_deleteDocumentRow, deleteDocument_absent hforeign]
  have hall := @crossUser_noninterference Nat _ plainBackend ⟨some "t", none, none⟩ 1 "t"
    rfl (.getDoc 2) twoUsers (twoUsers.deleteDocumentRow 2) keysUnique_twoUsers
    (keysUnique_deleteDocumentRow 2 keysUnique_twoUsers) ⟨⟨1, 0, 1⟩, rfl, rfl⟩ hown
  exact ⟨hall.1, hall.2.2.1⟩

end ChatDoc
