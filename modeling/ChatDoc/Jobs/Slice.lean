import ChatDoc.Jobs.Attempts

/-!
# The slice of the world that a job works on

A job concerns one document, the chunks of that document, its own row in the
queue and one blob.  `Slice.exec` answers the requests of the job's worker on
these four alone.  Two facts connect it to the world: the worker's requests do
to the world what they do to the slice, and the requests of everybody else
leave the slice alone.
-/

namespace ChatDoc

open Foundation

structure Slice where
  document : Document
  chunks : List ChunkRow
  job : Job
  blob : Pdf

def Own (row : JobRow) : Request -> Prop
  | .getStorage => True
  | .closeLocal => True
  | .pymupdfOpen _ => True
  | .nextChunk => True
  | .embedTexts _ => True
  | .monotonic => True
  | .openLocal key => key = row.pdfPath
  | .documentExists id => id = row.documentId
  | .updateDocumentStage id _ _ _ => id = row.documentId
  | .markDocumentReady id _ => id = row.documentId
  | .markDocumentFailed id _ => id = row.documentId
  | .upsertDocument docName sourcePath _ =>
      docName = row.docKey ∧ sourcePath = row.pdfPath
  | .deleteChunksForDocument id => id = row.documentId
  | .insertChunk chunk => chunk.documentId = row.documentId
  | .completeJob id => id = row.id
  | .readAttempts id => id = row.id
  | .requeueJob id _ => id = row.id
  | .deadLetterJob id _ => id = row.id
  | _ => False

def Foreign (row : JobRow) : Request -> Prop
  | .claimJob => False
  | .reapExhaustedJobs => False
  | .completeJob id => id ≠ row.id
  | .requeueJob id _ => id ≠ row.id
  | .deadLetterJob id _ => id ≠ row.id
  | .updateDocumentStage id _ _ _ => id ≠ row.documentId
  | .markDocumentReady id _ => id ≠ row.documentId
  | .markDocumentFailed id _ => id ≠ row.documentId
  | .deleteDocument _ id => id ≠ row.documentId
  | .upsertDocument docName _ _ => docName ≠ row.docKey
  | .deleteChunksForDocument id => id ≠ row.documentId
  | .insertChunk chunk => chunk.documentId ≠ row.documentId
  | .storageSave key _ => key ≠ row.pdfPath
  | .storageDelete key => key ≠ row.pdfPath
  | _ => True

theorem foreign_of_own {row row' : JobRow} {r : Request} (h : Own row' r)
    (hid : row'.id ≠ row.id) (hdocument : row'.documentId ≠ row.documentId)
    (hkey : row'.docKey ≠ row.docKey) : Foreign row r := by
  cases r with
  | completeJob id => exact fun heq => hid (h.symm.trans heq)
  | requeueJob id error => exact fun heq => hid (h.symm.trans heq)
  | deadLetterJob id error => exact fun heq => hid (h.symm.trans heq)
  | updateDocumentStage id stage current total =>
      exact fun heq => hdocument (h.symm.trans heq)
  | markDocumentReady id chunkCount =>
      exact fun heq => hdocument (h.symm.trans heq)
  | markDocumentFailed id error =>
      exact fun heq => hdocument (h.symm.trans heq)
  | deleteChunksForDocument id =>
      exact fun heq => hdocument (h.symm.trans heq)
  | insertChunk chunk => exact fun heq => hdocument (h.symm.trans heq)
  | upsertDocument docName sourcePath pageCount =>
      exact fun heq => hkey (h.left.symm.trans heq)
  | claimJob => exact h.elim
  | reapExhaustedJobs => exact h.elim
  | enqueueJob documentId docKey pdfPath => exact h.elim
  | createPendingDocument userId docName displayName sourcePath => exact h.elim
  | deleteDocument userId documentId => exact h.elim
  | storageSave key data => exact h.elim
  | storageDelete key => exact h.elim
  | _ => exact True.intro

namespace Slice

/-- Answer a call of the job's own worker.  Any other call is outside the
slice. -/
def exec (M : EmbeddingModel) (row : JobRow) (now : Time) (s : Slice) :
    (r : Request) -> Except Exn (Reply r) × Slice
  | .getStorage => (.ok (), s)
  | .closeLocal => (.ok (), s)
  | .pymupdfOpen file => (.ok file.pdf.pages.length, s)
  | .nextChunk => (.ok (), s)
  | .embedTexts texts => (.ok (M.embedTexts texts), s)
  | .monotonic => (.ok now, s)
  | .openLocal key => (.ok ⟨key, s.blob⟩, s)
  | .documentExists _ => (.ok true, s)
  | .updateDocumentStage _ stage current total =>
      (.ok (), { s with document := s.document.atStage stage current total })
  | .markDocumentReady _ chunkCount =>
      (.ok (), { s with document := s.document.markedReady chunkCount })
  | .markDocumentFailed _ error =>
      (.ok (), { s with document := s.document.markedFailed error })
  | .upsertDocument _ sourcePath pageCount =>
      (.ok row.documentId,
        { s with document := s.document.upserted sourcePath pageCount })
  | .deleteChunksForDocument _ => (.ok (), { s with chunks := [] })
  | .insertChunk chunk => (.ok (), { s with chunks := s.chunks ++ [chunk] })
  | .completeJob _ => (.ok (), { s with job := s.job.completed })
  | .readAttempts _ => (.ok (some (s.job.attempts, s.job.maxAttempts)), s)
  | .requeueJob _ error => (.ok (), { s with job := s.job.requeued now error })
  | .deadLetterJob _ error =>
      (.ok (), { s with job := s.job.deadLettered error })
  | _ => (.error (.exception "outside the job"), s)

def answer (M : EmbeddingModel) (row : JobRow) (now : Time)
    (fault : Option Exn) (s : Slice) (r : Request) :
    Except Exn (Reply r) × Slice :=
  match fault with
  | some e => (.error e, s)
  | none => s.exec M row now r

/-- A restriction on the answers the environment gives. -/
abbrev Allowance := (r : Request) -> Slice -> Except Exn (Reply r) -> Prop

/-- The slice as a semantics of the worker's calls, at any time of the clock,
as far as the allowance goes. -/
def sem (M : EmbeddingModel) (row : JobRow) (allow : Allowance) :
    Semantics service Slice :=
  fun r s reply s' =>
    allow r s reply ∧ exists now fault, s.answer M row now fault r = (reply, s')

end Slice

/-- The world shows a slice in the rows and the blob of its job. -/
structure Shows (w : World) (row : JobRow) (s : Slice) : Prop where
  document : w.db.documents.lookup row.documentId = some s.document
  docName : s.document.docName = row.docKey
  chunks : w.db.chunksOf row.documentId = s.chunks
  job : w.db.jobs.lookup row.id = some s.job
  documentId : s.job.documentId = row.documentId
  blob : w.blobs row.pdfPath = some s.blob

section Simulation

variable {M : EmbeddingModel} {w : World} {row : JobRow} {s : Slice}

theorem shows_unique {s' : Slice} (h : Shows w row s) (h' : Shows w row s') :
    s = s' := by
  rcases s with ⟨document, chunks, job, blob⟩
  rcases s' with ⟨document', chunks', job', blob'⟩
  have hdocument := h.document.symm.trans h'.document
  have hchunks := h.chunks.symm.trans h'.chunks
  have hjob := h.job.symm.trans h'.job
  have hblob := h.blob.symm.trans h'.blob
  simp only [Option.some.injEq] at hdocument hjob hblob
  rw [hdocument, hjob, hblob]
  exact congrArg (fun c => Slice.mk document' c job' blob') hchunks

theorem shows_of_same {w' : World} (h : Shows w row s)
    (hdb : w'.db = w.db) (hblobs : w'.blobs = w.blobs) : Shows w' row s := by
  constructor
  · rw [hdb]
    exact h.document
  · exact h.docName
  · rw [hdb]
    exact h.chunks
  · rw [hdb]
    exact h.job
  · exact h.documentId
  · rw [hblobs]
    exact h.blob

/-- What a request leaves of the rows of a slice, as far as the four effect
lemmas of the world say. -/
theorem shows_exec {r : Request} {s' : Slice} (h : Shows w row s)
    (hdocument : w.documentAfter row.documentId s.document r =
      some s'.document)
    (hname : s'.document.docName = s.document.docName)
    (hchunks : w.chunksAfter row.documentId s.chunks r = s'.chunks)
    (hjob : w.jobAfter row.id s.job r = some s'.job)
    (hblob : World.blobAfter row.pdfPath (some s.blob) r = some s'.blob) :
    Shows (w.exec M r).2 row s' := by
  constructor
  · rw [World.exec_document h.document, hdocument]
  · rw [hname, h.docName]
  · rw [World.exec_chunksOf, h.chunks, hchunks]
  · rw [World.exec_job h.job, hjob]
  · exact (World.columns_of_jobAfter hjob).left.trans h.documentId
  · rw [World.exec_blob, h.blob, hblob]

theorem shows_exec_own {r : Request} (h : Shows w row s) (hown : Own row r) :
    Shows (w.exec M r).2 row (s.exec M row w.now r).2 := by
  cases r with
  | updateDocumentStage id stage current total =>
      exact shows_exec h (congrArg some (if_pos hown.symm)) rfl rfl rfl rfl
  | markDocumentReady id chunkCount =>
      exact shows_exec h (congrArg some (if_pos hown.symm)) rfl rfl rfl rfl
  | markDocumentFailed id error =>
      exact shows_exec h (congrArg some (if_pos hown.symm)) rfl rfl rfl rfl
  | upsertDocument docName sourcePath pageCount =>
      exact shows_exec h
        (congrArg some (if_pos (h.docName.trans hown.left.symm)))
        rfl rfl rfl rfl
  | deleteChunksForDocument id =>
      exact shows_exec h rfl rfl (if_pos hown.symm) rfl rfl
  | insertChunk chunk =>
      refine shows_exec h rfl rfl (if_pos ⟨hown.symm, ?_⟩) rfl rfl
      unfold Database.documentExists
      rw [h.document]
      rfl
  | completeJob id =>
      exact shows_exec h rfl rfl rfl (congrArg some (if_pos hown.symm)) rfl
  | requeueJob id error =>
      exact shows_exec h rfl rfl rfl (congrArg some (if_pos hown.symm)) rfl
  | deadLetterJob id error =>
      exact shows_exec h rfl rfl rfl (congrArg some (if_pos hown.symm)) rfl
  | claimJob => exact hown.elim
  | reapExhaustedJobs => exact hown.elim
  | enqueueJob documentId docKey pdfPath => exact hown.elim
  | queueDepth => exact hown.elim
  | createPendingDocument userId docName displayName sourcePath =>
      exact hown.elim
  | getDocument userId documentId => exact hown.elim
  | deleteDocument userId documentId => exact hown.elim
  | storageSave key data => exact hown.elim
  | storageDelete key => exact hown.elim
  | _ => exact h

theorem reply_own {r : Request} (h : Shows w row s) (hown : Own row r) :
    (s.exec M row w.now r).1 = (w.exec M r).1 := by
  cases r with
  | openLocal key =>
      show Except.ok _ = w.openLocal key
      unfold World.openLocal
      rw [show key = row.pdfPath from hown, h.blob]
  | documentExists id =>
      show Except.ok true = .ok (w.db.documentExists id)
      unfold Database.documentExists
      rw [show id = row.documentId from hown, h.document]
      rfl
  | readAttempts id =>
      show Except.ok _ = .ok (w.db.readAttempts id)
      unfold Database.readAttempts
      rw [show id = row.id from hown, h.job]
      rfl
  | upsertDocument docName sourcePath pageCount =>
      show Except.ok row.documentId =
        .ok (w.db.upsertDocument w.now docName sourcePath pageCount).1
      have hfind := Database.findDocument_of_lookup h.document
      rw [h.docName, ← hown.left] at hfind
      unfold Database.upsertDocument
      split
      · next id r' hfind' =>
          rw [hfind] at hfind'
          cases hfind'
          rfl
      · next hnone =>
          rw [hfind] at hnone
          cases hnone
  | insertChunk chunk =>
      show Except.ok () = (w.db.insertChunk chunk).1
      have hdocument :
          (w.db.documents.lookup chunk.documentId).isSome = true := by
        rw [show chunk.documentId = row.documentId from hown, h.document]
        rfl
      unfold Database.insertChunk
      rw [dif_pos hdocument]
  | claimJob => exact hown.elim
  | reapExhaustedJobs => exact hown.elim
  | enqueueJob documentId docKey pdfPath => exact hown.elim
  | queueDepth => exact hown.elim
  | createPendingDocument userId docName displayName sourcePath =>
      exact hown.elim
  | getDocument userId documentId => exact hown.elim
  | deleteDocument userId documentId => exact hown.elim
  | storageSave key data => exact hown.elim
  | storageDelete key => exact hown.elim
  | _ => rfl

theorem shows_own {r : Request} (h : Shows w row s) (hown : Own row r)
    (fault : Option Exn) :
    exists s', Shows (w.answer M fault r).2 row s' ∧
      s.answer M row w.now fault r = ((w.answer M fault r).1, s') := by
  cases fault with
  | some e => exact ⟨s, h, rfl⟩
  | none =>
      refine ⟨(s.exec M row w.now r).2, ?_, ?_⟩
      · rw [World.answer_none]
        exact shows_exec_own h hown
      · exact Prod.ext (reply_own h hown) rfl

theorem shows_foreign {r : Request} (h : Shows w row s)
    (hforeign : Foreign row r) : Shows (w.exec M r).2 row s := by
  cases r with
  | completeJob id =>
      exact shows_exec h rfl rfl rfl
        (congrArg some (if_neg (Ne.symm hforeign))) rfl
  | requeueJob id error =>
      exact shows_exec h rfl rfl rfl
        (congrArg some (if_neg (Ne.symm hforeign))) rfl
  | deadLetterJob id error =>
      exact shows_exec h rfl rfl rfl
        (congrArg some (if_neg (Ne.symm hforeign))) rfl
  | updateDocumentStage id stage current total =>
      exact shows_exec h (congrArg some (if_neg (Ne.symm hforeign)))
        rfl rfl rfl rfl
  | markDocumentReady id chunkCount =>
      exact shows_exec h (congrArg some (if_neg (Ne.symm hforeign)))
        rfl rfl rfl rfl
  | markDocumentFailed id error =>
      exact shows_exec h (congrArg some (if_neg (Ne.symm hforeign)))
        rfl rfl rfl rfl
  | upsertDocument docName sourcePath pageCount =>
      refine shows_exec h (congrArg some (if_neg ?_)) rfl rfl rfl rfl
      rw [h.docName]
      exact Ne.symm hforeign
  | deleteChunksForDocument id =>
      exact shows_exec h rfl rfl (if_neg (Ne.symm hforeign)) rfl rfl
  | insertChunk chunk =>
      exact shows_exec h rfl rfl
        (if_neg fun hid => hforeign hid.left.symm) rfl rfl
  | deleteDocument userId id =>
      refine shows_exec h (if_neg fun hid => hforeign hid.right.symm) rfl
        (if_neg fun hid => hforeign hid.right.symm) (if_neg fun hid => ?_) rfl
      rw [h.documentId] at hid
      exact hforeign hid.right.symm
  | storageSave key data =>
      exact shows_exec h rfl rfl rfl rfl (if_neg (Ne.symm hforeign))
  | storageDelete key =>
      exact shows_exec h rfl rfl rfl rfl (if_neg (Ne.symm hforeign))
  | claimJob => exact hforeign.elim
  | reapExhaustedJobs => exact hforeign.elim
  | _ => exact shows_exec h rfl rfl rfl rfl rfl

theorem shows_claim (h : Shows w row s) :
    Shows (w.exec M .claimJob).2 row
      (if w.claims row.id .claimJob = true then
        { s with job := s.job.claimed w.now }
      else
        s) := by
  have hjob := w.exec_job (M := M) h.job .claimJob
  cases hclaims : w.claims row.id .claimJob with
  | true =>
      rw [if_pos rfl]
      exact shows_exec h rfl rfl rfl
        (congrArg some (if_pos (of_decide_eq_true hclaims))) rfl
  | false =>
      rw [if_neg Bool.false_ne_true]
      exact shows_exec h rfl rfl rfl
        (congrArg some (if_neg (of_decide_eq_false hclaims))) rfl

theorem shows_reap (h : Shows w row s) :
    Shows (w.exec M .reapExhaustedJobs).2 row
      { s with
        job := if s.job.reapable w.now then s.job.reaped else s.job } :=
  shows_exec h rfl rfl rfl rfl rfl

end Simulation
end ChatDoc
