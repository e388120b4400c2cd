import ChatDoc.Service.World

/-!
# Upload and delete requests

The write endpoints of `api/routes_documents.py`.  A request ends by returning
its response or by raising, which the framework turns into an error response.
-/

namespace ChatDoc

open Foundation

def maxFileSizeBytes : Nat := 25 * 1024 * 1024

structure UploadFile where
  contentType : String
  filename : Option String
  size : Nat
  contents : Pdf
deriving DecidableEq

/-- The key under which an upload's document, job and blob are filed; `hex` is
the part drawn from `uuid4`. -/
def docKey (userId : Nat) (hex : String) : String :=
  "user" ++ toString userId ++ "_" ++ hex

def storageKey (docKey : String) : String := docKey ++ ".pdf"

/-- `file.filename or "document.pdf"`. -/
def displayName (file : UploadFile) : String :=
  match file.filename with
  | none => "document.pdf"
  | some name => if name = "" then "document.pdf" else name

def uploadDoc (userId : Nat) (hex : String) (file : UploadFile) :
    Proc Document := do
  if file.contentType ≠ "application/pdf" then
    Program.raise (.http 400 "only application/pdf is accepted")
  else do
    let depth ← ask .queueDepth
    if depth ≥ maxQueueDepth then
      Program.raise (.http 429 "ingest queue is full, try again shortly")
    else if file.size > maxFileSizeBytes then
      Program.raise (.http 413 "file exceeds the 25MB limit")
    else do
      let key := docKey userId hex
      ask .getStorage
      ask (.storageSave (storageKey key) file.contents)
      let documentId ← ask (.createPendingDocument userId key (displayName file)
        (storageKey key))
      let _ ← ask (.enqueueJob documentId key (storageKey key))
      let row ← ask (.getDocument userId documentId)
      match row with
      | some document => pure document
      | none =>
          Program.raise (.exception "'NoneType' object has no attribute 'id'")

def deleteDoc (userId documentId : Nat) : Proc Unit := do
  let row ← ask (.getDocument userId documentId)
  let deleted ← ask (.deleteDocument userId documentId)
  if deleted then
    match row with
    | some document => do
        ask .getStorage
        ask (.storageDelete document.sourcePath)
    | none =>
        Program.raise
          (.exception "'NoneType' object has no attribute 'source_path'")
  else
    Program.raise (.http 404 "document not found")

end ChatDoc
