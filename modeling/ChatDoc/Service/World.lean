import ChatDoc.Foundation.Program
import ChatDoc.Store.Statements

/-!
# What the service talks to

The processes of the service share a Postgres database, a blob store and the
clock.  `Request` lists every call the modelled code makes on them, together
with the local computations that can raise (opening a PDF, resuming the
chunker, embedding a batch).  `World.exec` answers a request; `World.answer`
lets the environment make any call raise instead, without effect.  Calls that raise
after their effect, and files that are written in part, are in `Stops`.
-/

namespace ChatDoc

open Foundation

/-- What `chunk_pdf` finds on one page: whether the text layer has a character
that is not white space, and the page's chunks in order. -/
structure PageContent where
  hasText : Bool
  chunks : List Chunk
deriving DecidableEq

structure Pdf where
  pages : List PageContent
deriving DecidableEq

/-- A PDF that `open_local` made available on the local disk. -/
structure LocalFile where
  path : String
  pdf : Pdf
deriving DecidableEq

/-- The embedding model returns one vector for each text of a batch. -/
structure EmbeddingModel where
  embedTexts : List String -> List Embedding
  length_embedTexts : forall texts, (embedTexts texts).length = texts.length

structure World where
  db : Database
  blobs : String -> Option Pdf
  now : Time

inductive Request where
  | claimJob
  | reapExhaustedJobs
  | completeJob (jobId : Nat)
  | readAttempts (jobId : Nat)
  | requeueJob (jobId : Nat) (error : String)
  | deadLetterJob (jobId : Nat) (error : String)
  | enqueueJob (documentId : Nat) (docKey pdfPath : String)
  | queueDepth
  | createPendingDocument (userId : Nat) (docName displayName sourcePath : String)
  | updateDocumentStage (documentId : Nat) (stage : Stage) (current total : Nat)
  | markDocumentReady (documentId chunkCount : Nat)
  | markDocumentFailed (documentId : Nat) (error : String)
  | getDocument (userId documentId : Nat)
  | deleteDocument (userId documentId : Nat)
  | documentExists (documentId : Nat)
  | upsertDocument (docName sourcePath : String) (pageCount : Nat)
  | deleteChunksForDocument (documentId : Nat)
  | insertChunk (row : ChunkRow)
  | getStorage
  | storageSave (key : String) (data : Pdf)
  | storageDelete (key : String)
  | openLocal (key : String)
  | closeLocal
  | pymupdfOpen (file : LocalFile)
  | nextChunk
  | embedTexts (texts : List String)
  | monotonic

@[reducible] def Reply : Request -> Type
  | .claimJob => Option JobRow
  | .reapExhaustedJobs => List Nat
  | .readAttempts _ => Option (Nat × Nat)
  | .enqueueJob _ _ _ => Nat
  | .queueDepth => Nat
  | .createPendingDocument _ _ _ _ => Nat
  | .getDocument _ _ => Option Document
  | .deleteDocument _ _ => Bool
  | .documentExists _ => Bool
  | .upsertDocument _ _ _ => Nat
  | .openLocal _ => LocalFile
  | .pymupdfOpen _ => Nat
  | .embedTexts _ => List Embedding
  | .monotonic => Time
  | _ => Unit

@[reducible] def service : Interface where
  Request := Request
  Reply := Reply
  Fault := Exn

abbrev Proc (alpha : Type) := Program service alpha

abbrev ask (r : Request) : Proc (Reply r) := Program.perform (I := service) r

namespace World

/-- Entering `open_local` fails with a `StorageError` when the blob is gone. -/
def openLocal (w : World) (key : String) : Except Exn LocalFile :=
  match w.blobs key with
  | some pdf => .ok ⟨key, pdf⟩
  | none => .error (.storageError key)

def exec (M : EmbeddingModel) (w : World) :
    (r : Request) -> Except Exn (Reply r) × World
  | .claimJob =>
      (.ok (w.db.claimJob w.now).1, { w with db := (w.db.claimJob w.now).2 })
  | .reapExhaustedJobs =>
      (.ok (w.db.reapExhaustedJobs w.now).1,
        { w with db := (w.db.reapExhaustedJobs w.now).2 })
  | .completeJob jobId => (.ok (), { w with db := w.db.completeJob jobId })
  | .readAttempts jobId => (.ok (w.db.readAttempts jobId), w)
  | .requeueJob jobId error =>
      (.ok (), { w with db := w.db.requeueJob w.now jobId error })
  | .deadLetterJob jobId error =>
      (.ok (), { w with db := w.db.deadLetterJob jobId error })
  | .enqueueJob documentId docKey pdfPath =>
      ((w.db.enqueueJob w.now documentId docKey pdfPath).1,
        { w with db := (w.db.enqueueJob w.now documentId docKey pdfPath).2 })
  | .queueDepth => (.ok w.db.queueDepth, w)
  | .createPendingDocument userId docName displayName sourcePath =>
      ((w.db.createPendingDocument w.now userId docName displayName sourcePath).1,
        { w with
          db := (w.db.createPendingDocument w.now userId docName displayName
            sourcePath).2 })
  | .updateDocumentStage documentId stage current total =>
      (.ok (),
        { w with db := w.db.updateDocumentStage documentId stage current total })
  | .markDocumentReady documentId chunkCount =>
      (.ok (), { w with db := w.db.markDocumentReady documentId chunkCount })
  | .markDocumentFailed documentId error =>
      (.ok (), { w with db := w.db.markDocumentFailed documentId error })
  | .getDocument userId documentId =>
      (.ok (w.db.getDocument userId documentId), w)
  | .deleteDocument userId documentId =>
      (.ok (w.db.deleteDocument userId documentId).1,
        { w with db := (w.db.deleteDocument userId documentId).2 })
  | .documentExists documentId => (.ok (w.db.documentExists documentId), w)
  | .upsertDocument docName sourcePath pageCount =>
      (.ok (w.db.upsertDocument w.now docName sourcePath pageCount).1,
        { w with
          db := (w.db.upsertDocument w.now docName sourcePath pageCount).2 })
  | .deleteChunksForDocument documentId =>
      (.ok (), { w with db := w.db.deleteChunksForDocument documentId })
  | .insertChunk row =>
      ((w.db.insertChunk row).1, { w with db := (w.db.insertChunk row).2 })
  | .getStorage => (.ok (), w)
  | .storageSave key data =>
      (.ok (),
        { w with blobs := fun k => if k = key then some data else w.blobs k })
  | .storageDelete key =>
      (.ok (), { w with blobs := fun k => if k = key then none else w.blobs k })
  | .openLocal key => (w.openLocal key, w)
  | .closeLocal => (.ok (), w)
  | .pymupdfOpen file => (.ok file.pdf.pages.length, w)
  | .nextChunk => (.ok (), w)
  | .embedTexts texts => (.ok (M.embedTexts texts), w)
  | .monotonic => (.ok w.now, w)

/-- A call either runs, or raises the exception the environment chose and does nothing.  Calls
that raise after their effect, or in the middle of it, are in `Stops`. -/
def answer (M : EmbeddingModel) (fault : Option Exn) (w : World)
    (r : Request) : Except Exn (Reply r) × World :=
  match fault with
  | some e => (.error e, w)
  | none => w.exec M r

def elapse (w : World) (elapsed : Time) : World :=
  { w with now := w.now + elapsed }

/-- The world as a semantics of the service's programs.  Time passes before
every call, and every call may raise. -/
def sem (M : EmbeddingModel) : Semantics service World :=
  fun r w reply w' =>
    exists elapsed fault, (w.elapse elapsed).answer M fault r = (reply, w')

def KeysUnique (w : World) : Prop :=
  forall id id' d d', w.db.documents.lookup id = some d ->
    w.db.documents.lookup id' = some d' -> d.sourcePath = d'.sourcePath -> id = id'

def Unreferenced (w : World) (key : String) : Prop :=
  forall id d, w.db.documents.lookup id = some d -> d.sourcePath ≠ key

theorem unreferenced_of_unique {w w' : World} {documentId : Nat} {d : Document}
    (hunique : w.KeysUnique) (hd : w.db.documents.lookup documentId = some d)
    (hdb : w'.db = w.db.deleteDocumentRow documentId) : w'.Unreferenced d.sourcePath := by
  intro id d' hd' hkey
  rw [hdb, Database.lookup_deleteDocumentRow] at hd'
  split at hd'
  next => cases hd'
  next hid => exact hid (hunique id documentId d' d hd' hd hkey)

@[simp] theorem answer_none (M : EmbeddingModel) (w : World) (r : Request) :
    w.answer M none r = w.exec M r := rfl

@[simp] theorem answer_some (M : EmbeddingModel) (e : Exn) (w : World)
    (r : Request) : w.answer M (some e) r = (.error e, w) := rfl

end World
end ChatDoc
