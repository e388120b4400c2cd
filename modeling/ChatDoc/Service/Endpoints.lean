import ChatDoc.Foundation.Handler
import ChatDoc.Service.Retrieval
import ChatDoc.Service.Routes
import ChatDoc.Service.Sessions

/-!
# Requests of a signed-in user

The endpoints of `api/routes_documents.py` and `api/routes_query.py` behind
`get_current_user_id` of `api/deps.py`, each run to its end.  Uploading is a program
of its own.
-/

namespace ChatDoc

open Foundation

structure Site where
  world : World
  sessions : Token -> Option SessionRow

abbrev Route (alpha : Type) := Handler Site Exn alpha

/-- The cookies and the header that the endpoints look at. -/
structure HttpRequest where
  sessionCookie : Option Token
  csrfCookie : Option String
  csrfHeader : Option String

/-!
# The session
-/

def Site.setSession (s : Site) (token : Token) (row : Option SessionRow) : Site :=
  { s with sessions := fun t => if t = token then row else s.sessions t }

def getSessionUser (token : Token) : Route (Option Nat) := fun s =>
  match s.sessions token with
  | none => (.ok none, s)
  | some row =>
      if AuthState.expired row s.world.now then (.ok none, s.setSession token none)
      else (.ok (some row.userId), s)

def SessionRow.touched (now : Time) (row : SessionRow) : SessionRow :=
  { row with
    expiresAt := min (now + sessionTtl) (row.createdAt + absoluteSessionTtl) }

@[simp] theorem touched_userId (now : Time) (row : SessionRow) :
    (row.touched now).userId = row.userId := by
  cases row with
  | mk userId createdAt expiresAt =>
      show (SessionRow.touched now ⟨userId, createdAt, expiresAt⟩).userId = userId
      rfl

def touchSession (token : Token) : Route Unit := fun s =>
  (.ok (), match s.sessions token with
    | none => s
    | some row => s.setSession token (some (row.touched s.world.now)))

def getCurrentUserId (http : HttpRequest) : Route Nat :=
  match http.sessionCookie with
  | none => Handler.raise (.http 401 "not authenticated")
  | some token => do
      let userId ← getSessionUser token
      match userId with
      | none => Handler.raise (.http 401 "session expired")
      | some userId => do
          touchSession token
          pure userId

/-- The statements of a request that nobody interrupts. -/
def AuthState.proceed : Nat -> AuthState -> AuthPoint -> AuthState × AuthPoint
  | 0, a, point => (a, point)
  | fuel + 1, a, point =>
      match a.next "" point with
      | none => (a, point)
      | some (a', point') => AuthState.proceed fuel a' point'

section Statements

variable {a : AuthState} {s : Site} {http : HttpRequest} {token : Token}

theorem proceed_next {fuel : Nat} {a' : AuthState} {point point' : AuthPoint}
    (h : a.next "" point = some (a', point')) :
    a.proceed (fuel + 1) point = a'.proceed fuel point' := by
  rw [AuthState.proceed, h]

theorem getSessionUser_row {row : SessionRow} (hrow : s.sessions token = some row) :
    getSessionUser token s =
      if AuthState.expired row s.world.now then (.ok none, s.setSession token none)
      else (.ok (some row.userId), s) := by
  unfold getSessionUser
  rw [hrow]

theorem touchSession_row {row : SessionRow} (hrow : s.sessions token = some row) :
    touchSession token s =
      (.ok (), s.setSession token (some (row.touched s.world.now))) := by
  unfold touchSession
  rw [hrow]

theorem getCurrentUserId_live {row : SessionRow}
    (hcookie : http.sessionCookie = some token) (hrow : s.sessions token = some row)
    (hlive : ¬ AuthState.expired row s.world.now = true) :
    getCurrentUserId http s =
      (.ok row.userId, s.setSession token (some (row.touched s.world.now))) := by
  have hfound := getSessionUser_row hrow
  rw [if_neg hlive] at hfound
  unfold getCurrentUserId
  rw [hcookie]
  dsimp only
  rw [Handler.bind_ok hfound]
  exact Handler.bind_ok (touchSession_row hrow)

theorem getCurrentUserId_missing (hcookie : http.sessionCookie = some token)
    (hrow : s.sessions token = none) :
    getCurrentUserId http s = (.error (.http 401 "session expired"), s) := by
  have hfound : getSessionUser token s = (.ok none, s) := by
    unfold getSessionUser
    rw [hrow]
  unfold getCurrentUserId
  rw [hcookie]
  exact Handler.bind_ok hfound

theorem getCurrentUserId_expired {row : SessionRow}
    (hcookie : http.sessionCookie = some token) (hrow : s.sessions token = some row)
    (hexpired : AuthState.expired row s.world.now = true) :
    getCurrentUserId http s =
      (.error (.http 401 "session expired"), s.setSession token none) := by
  have hfound := getSessionUser_row hrow
  rw [if_pos hexpired] at hfound
  unfold getCurrentUserId
  rw [hcookie]
  exact Handler.bind_ok hfound

theorem getCurrentUserId_proceed (hcookie : http.sessionCookie = some token)
    (hsessions : a.sessions = s.sessions) (hnow : a.now = s.world.now) :
    (a.proceed 5 (.selecting token)).2 = .finished ∧
      (a.proceed 5 (.selecting token)).1.sessions =
        (getCurrentUserId http s).2.sessions := by
  have hselect : a.next "" (.selecting token) =
      some (a, .selected token (s.sessions token)) := by
    rw [← hsessions]
    rfl
  rw [proceed_next hselect]
  cases hrow : s.sessions token with
  | none =>
      rw [getCurrentUserId_missing hcookie hrow]
      exact ⟨rfl, hsessions⟩
  | some row =>
      have hselected : a.next "" (.selected token (some row)) =
          if AuthState.expired row s.world.now then some (a, .expiring token)
          else some (a, .touching token) := by
        rw [← hnow]
        rfl
      by_cases hexpired : AuthState.expired row s.world.now = true
      · rw [if_pos hexpired] at hselected
        rw [proceed_next hselected, getCurrentUserId_expired hcookie hrow hexpired]
        refine ⟨rfl, ?_⟩
        show (fun t => if t = token then none else a.sessions t) =
          fun t => if t = token then none else s.sessions t
        rw [hsessions]
      · rw [if_neg hexpired] at hselected
        have htouching : a.next "" (.touching token) =
            some (a, .touchSelected token (some row.createdAt)) := by
          show some (a, AuthPoint.touchSelected token
            ((a.sessions token).map SessionRow.createdAt)) = _
          rw [hsessions, hrow]
          rfl
        have htouchSelected : a.next "" (.touchSelected token (some row.createdAt)) =
            some (a, .updating token (row.touched s.world.now).expiresAt) := by
          rw [← hnow]
          rfl
        rw [proceed_next hselected, proceed_next htouching, proceed_next htouchSelected,
          getCurrentUserId_live hcookie hrow hexpired]
        refine ⟨rfl, ?_⟩
        show (fun t => if t = token then (a.sessions token).map (fun r =>
            { r with expiresAt := (row.touched s.world.now).expiresAt })
          else a.sessions t) =
            fun t => if t = token then some (row.touched s.world.now) else s.sessions t
        rw [hsessions, hrow]
        rfl

end Statements

def truthy (text : Option String) : Option String := text.filter fun s => s ≠ ""

def isAscii (text : String) : Bool := text.toList.all fun c => c.toNat < 128

/-- `secrets.compare_digest` raises a `TypeError` for a text that is not ASCII. -/
def verifyCsrf (http : HttpRequest) : Except Exn Unit :=
  match truthy http.csrfCookie, truthy http.csrfHeader with
  | some cookieToken, some headerToken =>
      if isAscii cookieToken ∧ isAscii headerToken then
        if cookieToken = headerToken then .ok ()
        else .error (.http 403 "csrf token missing or invalid")
      else .error
        (.exception "comparing strings with non-ASCII characters is not supported")
  | _, _ => .error (.http 403 "csrf token missing or invalid")

/-!
# Documents
-/

def call (M : EmbeddingModel) (r : Request) : Route (Reply r) := fun s =>
  ((s.world.exec M r).1, { s with world := (s.world.exec M r).2 })

structure DocumentResponse where
  id : Nat
  docName : String
  displayName : Option String
  pageCount : Nat
  status : DocumentStatus
  error : Option String
  stage : Option Stage
  stageCurrent : Nat
  stageTotal : Nat
  chunkCount : Nat
  createdAt : Time
deriving DecidableEq

/-- `_to_response` of the source. -/
def toResponse (id : Nat) (row : Document) : DocumentResponse where
  id := id
  docName := row.docName
  displayName := row.displayName
  pageCount := row.pageCount
  status := row.status
  error := row.error
  stage := row.stage
  stageCurrent := row.stageCurrent
  stageTotal := row.stageTotal
  chunkCount := row.chunkCount
  createdAt := row.createdAt

inductive Response where
  | documents (rows : List DocumentResponse)
  | document (row : DocumentResponse)
  | file (contents : Pdf)
  | noContent
  | stream (run : StreamRun)
deriving DecidableEq

def Database.listDocuments (db : Database) (tie : TieOrder) (userId : Nat) :
    List (Nat × Document) :=
  db.documents.orderBy (fun r => r.userId = some userId) tie fun r =>
    OrderDual.toDual r.createdAt

section Routes

variable {score : Type} [LinearOrder score] (B : Backend score) (http : HttpRequest)
  (userId : Nat)

def listDocs : Route Response := do
  let rows ← Handler.read fun s => s.world.db.listDocuments B.tie userId
  pure (.documents (rows.map fun entry => toResponse entry.1 entry.2))

def getDoc (documentId : Nat) : Route Response := do
  let row ← call B.embedding (.getDocument userId documentId)
  match row with
  | none => Handler.raise (.http 404 "document not found")
  | some row => pure (.document (toResponse documentId row))

def getDocFile (documentId : Nat) : Route Response := do
  let row ← call B.embedding (.getDocument userId documentId)
  match row with
  | none => Handler.raise (.http 404 "document not found")
  | some row =>
      if row.status ≠ .ready then Handler.raise (.http 404 "document not found")
      else do
        let contents ← Handler.read fun s => s.world.blobs row.sourcePath
        match contents with
        | none => Handler.raise (.http 404 "document file missing in storage")
        | some contents => pure (.file contents)

def deleteDocRoute (documentId : Nat) : Route Response := do
  Handler.ofExcept (verifyCsrf http)
  Handler.ofProgram (call B.embedding) (deleteDoc userId documentId)
  pure .noContent

/-!
# Questions
-/

structure QueryRequest where
  documentId : Nat
  question : String
  length_question : 1 ≤ question.length ∧ question.length ≤ 2000

/-- What the stream of a request meets besides its data: its turns, the clock, and
whether retrieval raises. -/
structure Schedule where
  turns : List Turn
  startClock : Rat
  fault : Option Exn

def DocumentStatus.text : DocumentStatus -> String
  | .processing => "processing"
  | .ready => "ready"
  | .failed => "failed"

def queryRun (schedule : Schedule) (question : String) (ctx : RetrievalContext) :
    QueryRun where
  u := B.u
  rerank := B.rerank
  parse := B.parse
  retrieved :=
    match schedule.fault with
    | some exc => .error exc
    | none => .ok ctx
  generation := B.generate (buildPrompt question ctx.chunks)
  startClock := schedule.startClock

def query (body : QueryRequest) (schedule : Schedule) : Route Response := do
  Handler.ofExcept (verifyCsrf http)
  let doc ← call B.embedding (.getDocument userId body.documentId)
  match doc with
  | none => Handler.raise (.http 404 "document not found")
  | some doc =>
      if doc.status ≠ .ready then
        Handler.raise (.http 409 s!"document is not ready (status: {doc.status.text})")
      else do
        let ctx ← Handler.read fun s =>
          retrieve B s.world.db body.documentId body.question
        pure (.stream ((queryRun B schedule body.question ctx).eventStream
          schedule.turns))

end Routes

/-!
# Dispatch
-/

inductive Endpoint where
  | listDocs
  | getDoc (documentId : Nat)
  | getDocFile (documentId : Nat)
  | deleteDoc (documentId : Nat)
  | query (body : QueryRequest) (schedule : Schedule)

def Endpoint.documentId : Endpoint -> Option Nat
  | .listDocs => none
  | .getDoc documentId => some documentId
  | .getDocFile documentId => some documentId
  | .deleteDoc documentId => some documentId
  | .query body _ => some body.documentId

section Dispatch

variable {score : Type} [LinearOrder score] (B : Backend score) (http : HttpRequest)

def Endpoint.handle (userId : Nat) : Endpoint -> Route Response
  | .listDocs => ChatDoc.listDocs B userId
  | .getDoc documentId => ChatDoc.getDoc B userId documentId
  | .getDocFile documentId => ChatDoc.getDocFile B userId documentId
  | .deleteDoc documentId => deleteDocRoute B http userId documentId
  | .query body schedule => ChatDoc.query B http userId body schedule

def serve (endpoint : Endpoint) : Route Response := do
  let userId ← getCurrentUserId http
  endpoint.handle B http userId

end Dispatch
end ChatDoc
