import ChatDoc.Ingest.Pipeline

/-!
# The ingest worker

The functions of `api/jobs_repo.py` that send more than one statement, and the
worker of `api/worker.py`: the throttled progress writer, `process_job` with
its exception handlers, and one iteration of the loop of `run_forever`.
-/

namespace ChatDoc

open Foundation

/-!
# The job queue
-/

def markDocumentsFailed : List Nat -> Proc Unit
  | [] => pure ()
  | documentId :: rest => do
      ask (.markDocumentFailed documentId
        "ingest failed repeatedly and was stopped after max attempts")
      markDocumentsFailed rest

def reapExhaustedJobs : Proc Unit := do
  let rows ← ask .reapExhaustedJobs
  markDocumentsFailed rows

def claimJob : Proc (Option JobRow) := do
  let row ← ask .claimJob
  match row with
  | some job => pure (some job)
  | none => do
      reapExhaustedJobs
      pure none

def failJob (jobId : Nat) (error : String) : Proc Bool := do
  let row ← ask (.readAttempts jobId)
  match row with
  | none => pure false
  | some (attempts, maxAttempts) =>
      if attempts < maxAttempts then do
        ask (.requeueJob jobId error)
        pure true
      else do
        ask (.deadLetterJob jobId error)
        pure false

/-!
# The progress writer
-/

/-- The writer's `state` dictionary. -/
structure ProgressState where
  lastWrite : Time
  lastStage : Option Stage
  chunkCount : Nat
deriving DecidableEq

def ProgressState.start : ProgressState where
  lastWrite := 0
  lastStage := none
  chunkCount := 0

/-- `PROGRESS_WRITE_INTERVAL_S`, 0.35 seconds. -/
def progressWriteInterval : Time := 350000

/-- The chunk count is recorded before the throttle looks at the clock. -/
def ProgressState.count (st : ProgressState) (stage : Stage) (total : Nat) :
    ProgressState :=
  if (stage = .embedding ∨ stage = .indexing) ∧ total ≠ 0 then
    { st with chunkCount := total }
  else
    st

def onProgress (documentId : Nat) (st : ProgressState) (stage : Stage)
    (current total : Nat) : Proc ProgressState := do
  let st := st.count stage total
  let now ← ask .monotonic
  if some stage = st.lastStage ∧ now < st.lastWrite + progressWriteInterval then
    pure st
  else do
    let st := { st with lastStage := some stage, lastWrite := now }
    (ask (.updateDocumentStage documentId stage current total)).handle
      fun _ => pure ()
    pure st

/-!
# `process_job`
-/

/-- The context manager `storage.open_local`; leaving it can raise too. -/
def withOpenLocal {alpha : Type} (key : String)
    (body : LocalFile -> Proc alpha) : Proc alpha := do
  let file ← ask (.openLocal key)
  let a ← (body file).handle fun exc => do
    ask .closeLocal
    Program.raise exc
  ask .closeLocal
  pure a

/-- The body of the `with` statement of `process_job`. -/
def ingestFile (job : JobRow) (file : LocalFile) : Proc Nat := do
  let pageCount ← ask (.pymupdfOpen file)
  if pageCount > maxPageCount then
    Program.raise
      (.exception s!"{pageCount} pages exceeds the {maxPageCount}-page limit")
  else do
    let out ← ingestPdf (onProgress job.documentId) file noneExcluded
      job.docKey job.pdfPath ProgressState.start
    pure out.2.chunkCount

/-- The body of the `try` statement of `process_job`. -/
def ingestJob (job : JobRow) : Proc Unit := do
  let chunkCount ← withOpenLocal job.pdfPath (ingestFile job)
  ask (.markDocumentReady job.documentId chunkCount)
  ask (.completeJob job.id)

/-- The two `except` clauses of `process_job`. -/
def ingestFailed (job : JobRow) : Exn -> Proc Unit
  | .storageError _ => do
      let _ ← failJob job.id "source PDF missing from storage"
      pure ()
  | exc => do
      let willRetry ← failJob job.id exc.message
      if willRetry then
        pure ()
      else
        ask (.markDocumentFailed job.documentId (truncate 500 exc.message))

def processJob (job : JobRow) : Proc Unit := do
  ask .getStorage
  let present ← ask (.documentExists job.documentId)
  if present then
    (ingestJob job).handle (ingestFailed job)
  else
    ask (.storageDelete job.pdfPath)

/-- One iteration of `run_forever`; sleeping between polls is left out, the
clock moves on its own. -/
def runForeverBody : Proc Unit := do
  let row ← claimJob
  match row with
  | none => pure ()
  | some job => processJob job

end ChatDoc
