import ChatDoc.Service.World

/-!
# What a request does to one row

Every invariant of the service follows one row of a table through the requests
of all its processes.  The lemmas below say once, for each kind of row, what
any request can do to it, so that no later proof unfolds a statement again.
-/

namespace ChatDoc

open Foundation

namespace World

variable {M : EmbeddingModel} {w : World}

/-!
# Jobs
-/

def jobAfter (w : World) (id : Nat) (job : Job) : Request -> Option Job
  | .claimJob =>
      some (if (w.db.claimCandidate w.now).map Prod.fst = some id then
        job.claimed w.now
      else
        job)
  | .reapExhaustedJobs =>
      some (if job.reapable w.now then job.reaped else job)
  | .completeJob jobId => some (if id = jobId then job.completed else job)
  | .requeueJob jobId error =>
      some (if id = jobId then job.requeued w.now error else job)
  | .deadLetterJob jobId error =>
      some (if id = jobId then job.deadLettered error else job)
  | .deleteDocument userId documentId =>
      if (w.db.getDocument userId documentId).isSome ∧
          job.documentId = documentId then
        none
      else
        some job
  | _ => some job

theorem lookup_claimCandidate {id : Nat} {job : Job}
    (h : w.db.claimCandidate w.now = some (id, job)) :
    w.db.jobs.lookup id = some job ∧ job.claimable w.now = true := by
  have hmem := List.argmin_mem (Option.mem_def.mpr h)
  rcases List.mem_filter.mp hmem with ⟨hrow, hclaimable⟩
  exact ⟨SerialTable.lookup_eq_some_iff.mpr hrow, hclaimable⟩

theorem lookup_updateJob (db : Database) (jobId : Nat) (f : Job -> Job)
    (hdocument : forall r, (f r).documentId = r.documentId) (id : Nat) :
    (db.updateJob jobId f hdocument).jobs.lookup id =
      (db.jobs.lookup id).map fun job => if id = jobId then f job else job := by
  unfold Database.updateJob Database.updateJobs
  rw [SerialTable.lookup_update]

theorem exec_job {id : Nat} {job : Job} (h : w.db.jobs.lookup id = some job)
    (r : Request) :
    (w.exec M r).2.db.jobs.lookup id = w.jobAfter id job r := by
  cases r with
  | claimJob =>
      show (w.db.claimJob w.now).2.jobs.lookup id = some (if _ then _ else _)
      unfold Database.claimJob
      cases w.db.claimCandidate w.now with
      | none => simpa using h
      | some entry =>
          rcases entry with ⟨id', job'⟩
          rw [lookup_updateJob, h]
          simp [eq_comm]
  | reapExhaustedJobs =>
      show (w.db.jobs.update _).lookup id = _
      rw [SerialTable.lookup_update, h]
      rfl
  | completeJob jobId =>
      show (w.db.completeJob jobId).jobs.lookup id = _
      unfold Database.completeJob
      rw [lookup_updateJob, h]
      rfl
  | requeueJob jobId error =>
      show (w.db.requeueJob w.now jobId error).jobs.lookup id = _
      unfold Database.requeueJob
      rw [lookup_updateJob, h]
      rfl
  | deadLetterJob jobId error =>
      show (w.db.deadLetterJob jobId error).jobs.lookup id = _
      unfold Database.deadLetterJob
      rw [lookup_updateJob, h]
      rfl
  | enqueueJob documentId docKey pdfPath =>
      show (w.db.enqueueJob _ _ _ _).2.jobs.lookup id = some job
      unfold Database.enqueueJob
      split
      · exact SerialTable.lookup_insert_of_some h
      · exact h
  | createPendingDocument userId docName displayName sourcePath =>
      show (w.db.createPendingDocument _ _ _ _ _).2.jobs.lookup id = some job
      unfold Database.createPendingDocument
      split
      · exact h
      · exact h
  | deleteDocument userId documentId =>
      show (w.db.deleteDocument userId documentId).2.jobs.lookup id =
        if _ then _ else _
      unfold Database.deleteDocument
      cases (w.db.getDocument userId documentId).isSome with
      | false => simpa using h
      | true =>
          show (w.db.jobs.delete _).lookup id = _
          rw [SerialTable.lookup_delete, h]
          by_cases hdocument : job.documentId = documentId <;>
            simp [hdocument]
  | upsertDocument docName sourcePath pageCount =>
      show (w.db.upsertDocument _ _ _ _).2.jobs.lookup id = some job
      unfold Database.upsertDocument
      split
      · exact h
      · exact h
  | insertChunk row =>
      show (w.db.insertChunk row).2.jobs.lookup id = some job
      unfold Database.insertChunk
      split
      · exact h
      · exact h
  | _ => exact h

theorem columns_of_jobAfter {id : Nat} {job job' : Job} {r : Request}
    (h : w.jobAfter id job r = some job') :
    job'.documentId = job.documentId ∧ job'.docKey = job.docKey ∧
      job'.pdfPath = job.pdfPath := by
  cases r with
  | claimJob =>
      cases h
      split <;> exact ⟨rfl, rfl, rfl⟩
  | reapExhaustedJobs =>
      cases h
      split <;> exact ⟨rfl, rfl, rfl⟩
  | completeJob jobId =>
      cases h
      split <;> exact ⟨rfl, rfl, rfl⟩
  | requeueJob jobId error =>
      cases h
      split <;> exact ⟨rfl, rfl, rfl⟩
  | deadLetterJob jobId error =>
      cases h
      split <;> exact ⟨rfl, rfl, rfl⟩
  | deleteDocument userId documentId =>
      cases (Option.ite_none_left_eq_some.mp h).right
      exact ⟨rfl, rfl, rfl⟩
  | _ =>
      cases h
      exact ⟨rfl, rfl, rfl⟩

theorem exec_job_new {id : Nat} {job : Job} {r : Request}
    (h : w.db.jobs.lookup id = none)
    (hnew : (w.exec M r).2.db.jobs.lookup id = some job) :
    exists documentId docKey pdfPath,
      r = .enqueueJob documentId docKey pdfPath ∧ id = w.db.jobs.next ∧
        (w.db.documents.lookup documentId).isSome ∧
        job = .enqueued w.now documentId docKey pdfPath := by
  have hsame : forall {rest : Database}, rest.jobs = w.db.jobs ->
      rest.jobs.lookup id = some job -> False := by
    intro rest hjobs hlookup
    rw [hjobs, h] at hlookup
    cases hlookup
  have hupdated : forall {f : Nat -> Job -> Job},
      (w.db.jobs.update f).lookup id = some job -> False := by
    intro f hlookup
    rw [SerialTable.lookup_update, h] at hlookup
    cases hlookup
  cases r with
  | claimJob =>
      replace hnew : (w.db.claimJob w.now).2.jobs.lookup id = some job := hnew
      unfold Database.claimJob at hnew
      split at hnew
      · exact absurd hnew (hsame rfl)
      · exact absurd hnew hupdated
  | reapExhaustedJobs => exact absurd hnew hupdated
  | completeJob jobId => exact absurd hnew hupdated
  | requeueJob jobId error => exact absurd hnew hupdated
  | deadLetterJob jobId error => exact absurd hnew hupdated
  | enqueueJob documentId docKey pdfPath =>
      replace hnew :
        (w.db.enqueueJob w.now documentId docKey pdfPath).2.jobs.lookup id =
          some job := hnew
      unfold Database.enqueueJob at hnew
      split at hnew
      · next hdocument =>
          replace hnew := (SerialTable.lookup_insert _ _ _).symm.trans hnew
          split at hnew
          · next hid =>
              cases hnew
              exact ⟨documentId, docKey, pdfPath, rfl, hid, hdocument, rfl⟩
          · exact absurd hnew (hsame rfl)
      · exact absurd hnew (hsame rfl)
  | createPendingDocument userId docName displayName sourcePath =>
      replace hnew :
        (w.db.createPendingDocument w.now userId docName displayName
          sourcePath).2.jobs.lookup id = some job := hnew
      unfold Database.createPendingDocument at hnew
      split at hnew
      · exact absurd hnew (hsame rfl)
      · exact absurd hnew (hsame rfl)
  | deleteDocument userId documentId =>
      replace hnew :
        (w.db.deleteDocument userId documentId).2.jobs.lookup id = some job :=
          hnew
      unfold Database.deleteDocument at hnew
      split at hnew
      · replace hnew := (SerialTable.lookup_delete _ _ _).symm.trans hnew
        rw [h] at hnew
        cases hnew
      · exact absurd hnew (hsame rfl)
  | upsertDocument docName sourcePath pageCount =>
      replace hnew :
        (w.db.upsertDocument w.now docName sourcePath
          pageCount).2.jobs.lookup id = some job := hnew
      unfold Database.upsertDocument at hnew
      split at hnew
      · exact absurd hnew (hsame rfl)
      · exact absurd hnew (hsame rfl)
  | insertChunk row =>
      replace hnew :
        (w.db.insertChunk row).2.jobs.lookup id = some job := hnew
      unfold Database.insertChunk at hnew
      split at hnew
      · exact absurd hnew (hsame rfl)
      · exact absurd hnew (hsame rfl)
  | _ => exact absurd hnew (hsame rfl)

theorem jobs_next_le (r : Request) :
    w.db.jobs.next ≤ (w.exec M r).2.db.jobs.next := by
  cases r with
  | claimJob =>
      show _ ≤ (w.db.claimJob w.now).2.jobs.next
      unfold Database.claimJob
      split <;> exact Nat.le_refl _
  | enqueueJob documentId docKey pdfPath =>
      show _ ≤ (w.db.enqueueJob w.now documentId docKey pdfPath).2.jobs.next
      unfold Database.enqueueJob
      split
      · exact Nat.le_succ _
      · exact Nat.le_refl _
  | createPendingDocument userId docName displayName sourcePath =>
      show _ ≤ (w.db.createPendingDocument _ _ _ _ _).2.jobs.next
      unfold Database.createPendingDocument
      split <;> exact Nat.le_refl _
  | deleteDocument userId documentId =>
      show _ ≤ (w.db.deleteDocument userId documentId).2.jobs.next
      unfold Database.deleteDocument
      split <;> exact Nat.le_refl _
  | upsertDocument docName sourcePath pageCount =>
      show _ ≤ (w.db.upsertDocument _ _ _ _).2.jobs.next
      unfold Database.upsertDocument
      split <;> exact Nat.le_refl _
  | insertChunk row =>
      show _ ≤ (w.db.insertChunk row).2.jobs.next
      unfold Database.insertChunk
      split <;> exact Nat.le_refl _
  | _ => exact Nat.le_refl _

/-!
# Documents
-/

def documentAfter (w : World) (id : Nat) (r : Document) :
    Request -> Option Document
  | .updateDocumentStage documentId stage current total =>
      some (if id = documentId then r.atStage stage current total else r)
  | .markDocumentReady documentId chunkCount =>
      some (if id = documentId then r.markedReady chunkCount else r)
  | .markDocumentFailed documentId error =>
      some (if id = documentId then r.markedFailed error else r)
  | .upsertDocument docName sourcePath pageCount =>
      some (if r.docName = docName then r.upserted sourcePath pageCount else r)
  | .deleteDocument userId documentId =>
      if (w.db.getDocument userId documentId).isSome ∧ id = documentId then
        none
      else
        some r
  | _ => some r

theorem lookup_updateDocument (db : Database) (documentId : Nat)
    (f : Document -> Document)
    (hname : forall r, (f r).docName = r.docName) (id : Nat) :
    (db.updateDocument documentId f hname).documents.lookup id =
      (db.documents.lookup id).map fun r =>
        if id = documentId then f r else r := by
  unfold Database.updateDocument SerialTable.updateAt
  rw [SerialTable.lookup_update]

theorem exec_document {id : Nat} {d : Document}
    (h : w.db.documents.lookup id = some d) (r : Request) :
    (w.exec M r).2.db.documents.lookup id = w.documentAfter id d r := by
  cases r with
  | claimJob =>
      show (w.db.claimJob w.now).2.documents.lookup id = some d
      unfold Database.claimJob
      split <;> exact h
  | enqueueJob documentId docKey pdfPath =>
      show (w.db.enqueueJob _ _ _ _).2.documents.lookup id = some d
      unfold Database.enqueueJob
      split <;> exact h
  | createPendingDocument userId docName displayName sourcePath =>
      show (w.db.createPendingDocument _ _ _ _ _).2.documents.lookup id = some d
      unfold Database.createPendingDocument
      split
      · exact SerialTable.lookup_insert_of_some h
      · exact h
  | updateDocumentStage documentId stage current total =>
      show (w.db.updateDocumentStage _ _ _ _).documents.lookup id = _
      unfold Database.updateDocumentStage
      rw [lookup_updateDocument, h]
      rfl
  | markDocumentReady documentId chunkCount =>
      show (w.db.markDocumentReady _ _).documents.lookup id = _
      unfold Database.markDocumentReady
      rw [lookup_updateDocument, h]
      rfl
  | markDocumentFailed documentId error =>
      show (w.db.markDocumentFailed _ _).documents.lookup id = _
      unfold Database.markDocumentFailed
      rw [lookup_updateDocument, h]
      rfl
  | deleteDocument userId documentId =>
      show (w.db.deleteDocument userId documentId).2.documents.lookup id =
        if _ then _ else _
      unfold Database.deleteDocument
      cases (w.db.getDocument userId documentId).isSome with
      | false => simpa using h
      | true =>
          show (w.db.documents.delete _).lookup id = _
          rw [SerialTable.lookup_delete, h]
          by_cases hid : id = documentId <;> simp [hid]
  | upsertDocument docName sourcePath pageCount =>
      show (w.db.upsertDocument w.now docName sourcePath
        pageCount).2.documents.lookup id = some (if _ then _ else _)
      unfold Database.upsertDocument
      split
      · next id' d' hfind =>
          rcases Database.lookup_of_findDocument hfind with ⟨hlookup, hname⟩
          rw [lookup_updateDocument, h]
          have hiff : id = id' <-> d.docName = docName := by
            constructor
            · intro hid
              subst hid
              rw [h] at hlookup
              cases hlookup
              exact hname
            · intro hd
              exact w.db.docName_unique h hlookup (hd.trans hname.symm)
          simp [hiff]
      · next hfind =>
          have hne := Database.findDocument_eq_none_iff.mp hfind id d h
          rw [if_neg hne]
          exact SerialTable.lookup_insert_of_some h
  | insertChunk row =>
      show (w.db.insertChunk row).2.documents.lookup id = some d
      unfold Database.insertChunk
      split <;> exact h
  | _ => exact h

theorem identity_of_documentAfter {id : Nat} {d d' : Document} {r : Request}
    (h : w.documentAfter id d r = some d') :
    d'.docName = d.docName ∧ d'.userId = d.userId := by
  cases r with
  | updateDocumentStage documentId stage current total =>
      cases h
      split <;> exact ⟨rfl, rfl⟩
  | markDocumentReady documentId chunkCount =>
      cases h
      split <;> exact ⟨rfl, rfl⟩
  | markDocumentFailed documentId error =>
      cases h
      split <;> exact ⟨rfl, rfl⟩
  | upsertDocument docName sourcePath pageCount =>
      cases h
      split <;> exact ⟨rfl, rfl⟩
  | deleteDocument userId documentId =>
      cases (Option.ite_none_left_eq_some.mp h).right
      exact ⟨rfl, rfl⟩
  | _ =>
      cases h
      exact ⟨rfl, rfl⟩

theorem ready_of_documentAfter {id : Nat} {d d' : Document} {r : Request}
    (h : w.documentAfter id d r = some d') (hwas : d.status ≠ .ready)
    (hready : d'.status = .ready) :
    exists chunkCount, r = .markDocumentReady id chunkCount := by
  cases r with
  | updateDocumentStage documentId stage current total =>
      cases h
      split at hready <;> exact absurd hready hwas
  | markDocumentReady documentId chunkCount =>
      cases h
      split at hready
      · next hid =>
          rw [hid]
          exact ⟨chunkCount, rfl⟩
      · exact absurd hready hwas
  | markDocumentFailed documentId error =>
      cases h
      split at hready
      · cases hready
      · exact absurd hready hwas
  | upsertDocument docName sourcePath pageCount =>
      cases h
      split at hready <;> exact absurd hready hwas
  | deleteDocument userId documentId =>
      cases (Option.ite_none_left_eq_some.mp h).right
      exact absurd hready hwas
  | _ =>
      cases h
      exact absurd hready hwas

theorem exec_document_new {id : Nat} {d : Document} {r : Request}
    (h : w.db.documents.lookup id = none)
    (hnew : (w.exec M r).2.db.documents.lookup id = some d) :
    id = w.db.documents.next ∧ w.db.findDocument d.docName = none ∧
      ((exists userId docName displayName sourcePath,
        r = .createPendingDocument userId docName displayName sourcePath ∧
          d = .pending w.now userId docName displayName sourcePath) ∨
        exists docName sourcePath pageCount,
          r = .upsertDocument docName sourcePath pageCount ∧
            d = .inserted w.now docName sourcePath pageCount) := by
  have hsame : forall {rest : Database}, rest.documents = w.db.documents ->
      rest.documents.lookup id = some d -> False := by
    intro rest hdocuments hlookup
    rw [hdocuments, h] at hlookup
    cases hlookup
  have hupdated : forall {documentId : Nat} {f : Document -> Document},
      (w.db.documents.updateAt documentId f).lookup id = some d -> False := by
    intro documentId f hlookup
    unfold SerialTable.updateAt at hlookup
    rw [SerialTable.lookup_update, h] at hlookup
    cases hlookup
  cases r with
  | claimJob =>
      replace hnew : (w.db.claimJob w.now).2.documents.lookup id = some d := hnew
      unfold Database.claimJob at hnew
      split at hnew <;> exact absurd hnew (hsame rfl)
  | enqueueJob documentId docKey pdfPath =>
      replace hnew :
        (w.db.enqueueJob w.now documentId docKey pdfPath).2.documents.lookup id =
          some d := hnew
      unfold Database.enqueueJob at hnew
      split at hnew <;> exact absurd hnew (hsame rfl)
  | createPendingDocument userId docName displayName sourcePath =>
      replace hnew :
        (w.db.createPendingDocument w.now userId docName displayName
          sourcePath).2.documents.lookup id = some d := hnew
      unfold Database.createPendingDocument at hnew
      split at hnew
      · next hname =>
          replace hnew := (SerialTable.lookup_insert _ _ _).symm.trans hnew
          split at hnew
          · next hid =>
              cases hnew
              exact ⟨hid, hname,
                .inl ⟨userId, docName, displayName, sourcePath, rfl, rfl⟩⟩
          · exact absurd hnew (hsame rfl)
      · exact absurd hnew (hsame rfl)
  | updateDocumentStage documentId stage current total =>
      exact absurd hnew hupdated
  | markDocumentReady documentId chunkCount => exact absurd hnew hupdated
  | markDocumentFailed documentId error => exact absurd hnew hupdated
  | deleteDocument userId documentId =>
      replace hnew :
        (w.db.deleteDocument userId documentId).2.documents.lookup id = some d :=
          hnew
      unfold Database.deleteDocument at hnew
      split at hnew
      · replace hnew := (SerialTable.lookup_delete _ _ _).symm.trans hnew
        rw [h] at hnew
        cases hnew
      · exact absurd hnew (hsame rfl)
  | upsertDocument docName sourcePath pageCount =>
      replace hnew :
        (w.db.upsertDocument w.now docName sourcePath
          pageCount).2.documents.lookup id = some d := hnew
      unfold Database.upsertDocument at hnew
      split at hnew
      · exact absurd hnew hupdated
      · next hname =>
          replace hnew := (SerialTable.lookup_insert _ _ _).symm.trans hnew
          split at hnew
          · next hid =>
              cases hnew
              exact ⟨hid, hname, .inr ⟨docName, sourcePath, pageCount, rfl, rfl⟩⟩
          · exact absurd hnew (hsame rfl)
  | insertChunk row =>
      replace hnew :
        (w.db.insertChunk row).2.documents.lookup id = some d := hnew
      unfold Database.insertChunk at hnew
      split at hnew <;> exact absurd hnew (hsame rfl)
  | _ => exact absurd hnew (hsame rfl)

/-!
# Chunks and blobs
-/

def chunksAfter (w : World) (id : Nat) (chunks : List ChunkRow) :
    Request -> List ChunkRow
  | .deleteChunksForDocument documentId =>
      if id = documentId then [] else chunks
  | .insertChunk row =>
      if id = row.documentId ∧ w.db.documentExists id then
        chunks ++ [row]
      else
        chunks
  | .deleteDocument userId documentId =>
      if (w.db.getDocument userId documentId).isSome ∧ id = documentId then
        []
      else
        chunks
  | _ => chunks

theorem chunksOf_delete (db : Database) (id documentId : Nat) :
    (db.chunks.delete fun _ r => decide (r.documentId = documentId)).select
        (fun r => decide (r.documentId = id)) =
      if id = documentId then [] else db.chunksOf id := by
  rw [SerialTable.select_delete]
  by_cases hid : id = documentId
  · rw [if_pos hid, List.filter_eq_nil_iff]
    intro r hr
    have hr' := (List.mem_filter.mp hr).right
    simpa [hid] using hr'
  · rw [if_neg hid]
    apply List.filter_eq_self.mpr
    intro r hr
    have hr' := (List.mem_filter.mp hr).right
    simp only [decide_eq_true_eq] at hr'
    simpa [hr'] using hid

theorem exec_chunksOf (id : Nat) (r : Request) :
    (w.exec M r).2.db.chunksOf id = w.chunksAfter id (w.db.chunksOf id) r := by
  cases r with
  | claimJob =>
      show (w.db.claimJob w.now).2.chunksOf id = w.db.chunksOf id
      unfold Database.claimJob
      split <;> rfl
  | enqueueJob documentId docKey pdfPath =>
      show (w.db.enqueueJob _ _ _ _).2.chunksOf id = w.db.chunksOf id
      unfold Database.enqueueJob
      split <;> rfl
  | createPendingDocument userId docName displayName sourcePath =>
      show (w.db.createPendingDocument _ _ _ _ _).2.chunksOf id =
        w.db.chunksOf id
      unfold Database.createPendingDocument
      split <;> rfl
  | deleteDocument userId documentId =>
      show (w.db.deleteDocument userId documentId).2.chunksOf id =
        if _ then _ else _
      unfold Database.deleteDocument
      cases (w.db.getDocument userId documentId).isSome with
      | false => simp
      | true =>
          simp only [if_true, true_and]
          exact chunksOf_delete w.db id documentId
  | upsertDocument docName sourcePath pageCount =>
      show (w.db.upsertDocument _ _ _ _).2.chunksOf id = w.db.chunksOf id
      unfold Database.upsertDocument
      split <;> rfl
  | deleteChunksForDocument documentId =>
      exact chunksOf_delete w.db id documentId
  | insertChunk row =>
      show (w.db.insertChunk row).2.chunksOf id = if _ then _ else _
      unfold Database.insertChunk Database.documentExists
      by_cases hid : id = row.documentId
      · subst hid
        split
        · next hdocument =>
            rw [if_pos ⟨rfl, hdocument⟩]
            show (w.db.chunks.insert row).select _ = _
            rw [SerialTable.select_insert]
            simp [Database.chunksOf]
        · next hdocument =>
            rw [if_neg fun h => hdocument h.right]
      · rw [if_neg fun h => hid h.left]
        split
        · show (w.db.chunks.insert row).select _ = _
          rw [SerialTable.select_insert]
          simp [Database.chunksOf, Ne.symm hid]
        · rfl
  | _ => rfl

def blobAfter (key : String) (blob : Option Pdf) : Request -> Option Pdf
  | .storageSave key' data => if key = key' then some data else blob
  | .storageDelete key' => if key = key' then none else blob
  | _ => blob

theorem exec_blob (key : String) (r : Request) :
    (w.exec M r).2.blobs key = blobAfter key (w.blobs key) r := by
  cases r <;> rfl

@[simp] theorem exec_now (r : Request) : (w.exec M r).2.now = w.now := by
  cases r <;> rfl

end World
end ChatDoc
