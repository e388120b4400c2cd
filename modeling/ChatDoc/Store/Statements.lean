import ChatDoc.Store.Schema
import Mathlib.Data.List.MinMax

/-!
# The SQL statements

One function for each statement that `ingest/db.py`, `api/jobs_repo.py`,
`api/documents_repo.py` and `api/worker.py` send to Postgres.  Connections
autocommit, so a statement is one atomic step: it maps the database and the
server's clock to a result and the next database.
-/

namespace ChatDoc

open Foundation

/-- The exceptions that matter to the handlers of the program. -/
inductive Exn where
  | storageError (key : String)
  | exception (message : String)
  | http (statusCode : Nat) (detail : String)
deriving DecidableEq

namespace Exn

/-- The text of `str(exc)`. -/
def message : Exn -> String
  | storageError key => key
  | exception text => text
  | http statusCode detail => s!"{statusCode}: {detail}"

def foreignKeyViolation (table : String) : Exn :=
  .exception s!"insert or update on table {table.quote} violates foreign key constraint"

def uniqueViolation (constraint : String) : Exn :=
  .exception s!"duplicate key value violates unique constraint {constraint.quote}"

end Exn

/-- Python's `text[:n]`. -/
def truncate (n : Nat) (text : String) : String :=
  String.ofList (text.toList.take n)

def visibilityTimeoutS : Nat := 600

def maxQueueDepth : Nat := 20

/-- The default of the column `jobs.max_attempts`. -/
def defaultMaxAttempts : Nat := 3

structure JobRow where
  id : Nat
  documentId : Nat
  docKey : String
  pdfPath : String
  attempts : Nat
deriving DecidableEq

namespace Job

/-- The `WHERE` clause of `claim_job`. -/
def claimable (now : Time) (job : Job) : Bool :=
  (job.status = .queued ∨ (job.status = .processing ∧ job.visibleAt < now)) ∧
    job.attempts < job.maxAttempts

/-- The `WHERE` clause of `_reap_exhausted_jobs`. -/
def reapable (now : Time) (job : Job) : Bool :=
  job.status = .processing ∧ job.visibleAt < now ∧
    job.attempts ≥ job.maxAttempts

def claimed (now : Time) (job : Job) : Job :=
  { job with
    status := .processing
    attempts := job.attempts + 1
    visibleAt := now + seconds visibilityTimeoutS }

def reaped (job : Job) : Job :=
  { job with
    status := .failed
    lastError := some
      "exceeded max_attempts (worker likely crashed before it could report the failure normally, e.g. OOM)" }

def completed (job : Job) : Job :=
  { job with status := .done }

def requeued (now : Time) (error : String) (job : Job) : Job :=
  { job with
    status := .queued
    visibleAt := now
    lastError := some (truncate 1000 error) }

def deadLettered (error : String) (job : Job) : Job :=
  { job with
    status := .failed
    lastError := some (truncate 1000 error) }

/-- The row `enqueue_job` inserts; the other columns have the schema's
defaults. -/
def enqueued (now : Time) (documentId : Nat) (docKey pdfPath : String) : Job where
  documentId := documentId
  docKey := docKey
  pdfPath := pdfPath
  status := .queued
  attempts := 0
  maxAttempts := defaultMaxAttempts
  visibleAt := now
  lastError := none
  createdAt := now

/-- The columns `claim_job` returns, after its update. -/
def toRow (id : Nat) (job : Job) : JobRow where
  id := id
  documentId := job.documentId
  docKey := job.docKey
  pdfPath := job.pdfPath
  attempts := job.attempts

section Columns

variable (now : Time) (error : String) (job : Job)

@[simp] theorem claimed_documentId :
    (job.claimed now).documentId = job.documentId := rfl

@[simp] theorem completed_documentId :
    job.completed.documentId = job.documentId := rfl

@[simp] theorem requeued_documentId :
    (job.requeued now error).documentId = job.documentId := rfl

@[simp] theorem deadLettered_documentId :
    (job.deadLettered error).documentId = job.documentId := rfl

@[simp] theorem reaped_documentId :
    job.reaped.documentId = job.documentId := rfl

end Columns

end Job

namespace Document

/-- The row `create_pending_document` inserts. -/
def pending (now : Time) (userId : Nat)
    (docName displayName sourcePath : String) : Document where
  userId := some userId
  docName := docName
  displayName := some displayName
  sourcePath := sourcePath
  pageCount := 0
  status := .processing
  error := none
  stage := some .queued
  stageCurrent := 0
  stageTotal := 0
  chunkCount := 0
  createdAt := now

/-- The row `upsert_document` inserts; the other columns have the schema's
defaults. -/
def inserted (now : Time) (docName sourcePath : String) (pageCount : Nat) :
    Document where
  userId := none
  docName := docName
  displayName := none
  sourcePath := sourcePath
  pageCount := pageCount
  status := .ready
  error := none
  stage := none
  stageCurrent := 0
  stageTotal := 0
  chunkCount := 0
  createdAt := now

def upserted (sourcePath : String) (pageCount : Nat) (r : Document) : Document :=
  { r with sourcePath := sourcePath, pageCount := pageCount }

def atStage (stage : Stage) (current total : Nat) (r : Document) : Document :=
  { r with stage := some stage, stageCurrent := current, stageTotal := total }

def markedReady (chunkCount : Nat) (r : Document) : Document :=
  { r with
    status := .ready
    error := none
    stage := some .done
    chunkCount := chunkCount }

def markedFailed (error : String) (r : Document) : Document :=
  { r with status := .failed, error := some error }

@[simp] theorem upserted_docName (sourcePath : String) (pageCount : Nat)
    (r : Document) :
    (r.upserted sourcePath pageCount).docName = r.docName := rfl

@[simp] theorem atStage_docName (stage : Stage) (current total : Nat)
    (r : Document) :
    (r.atStage stage current total).docName = r.docName := rfl

@[simp] theorem markedReady_docName (chunkCount : Nat) (r : Document) :
    (r.markedReady chunkCount).docName = r.docName := rfl

@[simp] theorem markedFailed_docName (error : String) (r : Document) :
    (r.markedFailed error).docName = r.docName := rfl

end Document

namespace Database

variable (db : Database)

/-!
# `api/jobs_repo.py`
-/

def enqueueJob (now : Time) (documentId : Nat) (docKey pdfPath : String) :
    Except Exn Nat × Database :=
  if h : (db.documents.lookup documentId).isSome then
    (.ok db.jobs.next,
      db.insertJob (.enqueued now documentId docKey pdfPath) h)
  else
    (.error (.foreignKeyViolation "jobs"), db)

/-- The job the subquery of `claim_job` picks: the oldest claimable one. -/
def claimCandidate (now : Time) : Option (Nat × Job) :=
  (db.jobs.rows.filter fun entry => entry.2.claimable now).argmin
    fun entry => entry.2.createdAt

def claimJob (now : Time) : Option JobRow × Database :=
  match db.claimCandidate now with
  | none => (none, db)
  | some (id, job) =>
      (some ((job.claimed now).toRow id),
        db.updateJob id (Job.claimed now) (Job.claimed_documentId now))

def reapExhaustedJobs (now : Time) : List Nat × Database :=
  ((db.jobs.select fun job => job.reapable now).map Job.documentId,
    db.updateJobs (fun _ job => if job.reapable now then job.reaped else job) (by
      intro _ job
      split <;> rfl))

def completeJob (jobId : Nat) : Database :=
  db.updateJob jobId Job.completed Job.completed_documentId

/-- The `SELECT` of `fail_job`. -/
def readAttempts (jobId : Nat) : Option (Nat × Nat) :=
  (db.jobs.lookup jobId).map fun job => (job.attempts, job.maxAttempts)

/-- The retrying `UPDATE` of `fail_job`. -/
def requeueJob (now : Time) (jobId : Nat) (error : String) : Database :=
  db.updateJob jobId (Job.requeued now error) (Job.requeued_documentId now error)

/-- The dead-lettering `UPDATE` of `fail_job`. -/
def deadLetterJob (jobId : Nat) (error : String) : Database :=
  db.updateJob jobId (Job.deadLettered error) (Job.deadLettered_documentId error)

def queueDepth : Nat :=
  (db.jobs.select fun job =>
    job.status = .queued ∨ job.status = .processing).length

/-!
# `api/documents_repo.py`
-/

def createPendingDocument (now : Time) (userId : Nat)
    (docName displayName sourcePath : String) : Except Exn Nat × Database :=
  if h : db.findDocument docName = none then
    (.ok db.documents.next,
      db.insertDocument (.pending now userId docName displayName sourcePath) h)
  else
    (.error (.uniqueViolation "documents_doc_name_key"), db)

def updateDocumentStage (documentId : Nat) (stage : Stage)
    (current total : Nat) : Database :=
  db.updateDocument documentId (Document.atStage stage current total)
    (Document.atStage_docName stage current total)

def markDocumentReady (documentId chunkCount : Nat) : Database :=
  db.updateDocument documentId (Document.markedReady chunkCount)
    (Document.markedReady_docName chunkCount)

def markDocumentFailed (documentId : Nat) (error : String) : Database :=
  db.updateDocument documentId (Document.markedFailed error)
    (Document.markedFailed_docName error)

def getDocument (userId documentId : Nat) : Option Document :=
  (db.documents.lookup documentId).filter fun r => r.userId = some userId

/-- The number of deleted rows is zero or one; the caller only asks which. -/
def deleteDocument (userId documentId : Nat) : Bool × Database :=
  if (db.getDocument userId documentId).isSome then
    (true, db.deleteDocumentRow documentId)
  else
    (false, db)

/-!
# `api/worker.py` and `ingest/db.py`
-/

def documentExists (documentId : Nat) : Bool :=
  (db.documents.lookup documentId).isSome

def upsertDocument (now : Time) (docName sourcePath : String)
    (pageCount : Nat) : Nat × Database :=
  match h : db.findDocument docName with
  | some (id, _) =>
      (id,
        db.updateDocument id (Document.upserted sourcePath pageCount)
          (Document.upserted_docName sourcePath pageCount))
  | none =>
      (db.documents.next,
        db.insertDocument (.inserted now docName sourcePath pageCount) h)

def deleteChunksForDocument (documentId : Nat) : Database :=
  db.deleteChunkRows fun r => r.documentId = documentId

/-- One iteration of the loop of `insert_chunks`. -/
def insertChunk (row : ChunkRow) : Except Exn Unit × Database :=
  if h : (db.documents.lookup row.documentId).isSome then
    (.ok (), db.insertChunkRow row h)
  else
    (.error (.foreignKeyViolation "chunks"), db)

/-- The chunks of one document in the order they were inserted. -/
def chunksOf (documentId : Nat) : List ChunkRow :=
  db.chunks.select fun r => r.documentId = documentId

theorem chunksOf_eq_nil {db : Database} {id : Nat}
    (h : db.documents.lookup id = none) : db.chunksOf id = [] := by
  rw [List.eq_nil_iff_forall_not_mem]
  intro chunk hchunk
  rcases SerialTable.mem_select.mp hchunk with ⟨_, hlookup, hdocument⟩
  have hsome := db.chunk_document hlookup
  rw [of_decide_eq_true hdocument, h] at hsome
  cases hsome

end Database
end ChatDoc
