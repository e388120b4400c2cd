import ChatDoc.Jobs.Lease
import ChatDoc.Service.Uploading

/-!
# Where stored contents come from

Every blob, document, job and chunk that is ever stored comes from the request
of one upload, whatever interleaves with whatever and wherever processes are
killed.  A worker files the chunks of the PDF it opened under the document that
`upsert_document` gave it, and both bear the key of the upload that enqueued
its job.
-/

namespace ChatDoc

open Foundation
open Foundation.Program

/-- A request of `upload_doc`, with the part of its key drawn from `uuid4`. -/
structure Upload where
  userId : Nat
  hex : String
  file : UploadFile

namespace Upload

def key (u : Upload) : String := docKey u.userId u.hex

/-- The file passes the checks of `upload_doc`. -/
def Accepted (u : Upload) : Prop :=
  u.file.contentType = "application/pdf" ∧ u.file.size ≤ maxFileSizeBytes

end Upload

def Activity.uploading : Activity -> Option Upload
  | .upload userId hex file => some ⟨userId, hex, file⟩
  | _ => none

def Extracted (M : EmbeddingModel) (pdf : Pdf) (row : ChunkRow) : Prop :=
  pdf.chunks[row.chunkIndex]? = some row.chunk ∧
    exists texts : List String, (row.chunk.text, row.embedding) ∈ texts.zip (M.embedTexts texts)

/-!
# What a process has been told
-/

/-- The job a process has claimed, the blob it has opened last, and the document
it was given last for a name. -/
structure Told where
  job : Option JobRow
  file : Option (String × LocalFile)
  filed : Option (String × Nat)

namespace Told

def nothing : Told where
  job := none
  file := none
  filed := none

def after (v : Told) : (r : Request) -> Except Exn (Reply r) -> Told
  | .claimJob, .ok (some job) => { v with job := some job }
  | .openLocal key, .ok file => { v with file := some (key, file) }
  | .upsertDocument docName _ _, .ok documentId =>
      { v with filed := some (docName, documentId) }
  | .createPendingDocument _ docName _ _, .ok documentId =>
      { v with filed := some (docName, documentId) }
  | _, _ => v

def req (M : EmbeddingModel) (own : Option Upload) (v : Told) : Request -> Prop
  | .storageSave key data =>
      exists u, own = some u ∧ u.Accepted ∧ key = storageKey u.key ∧
        data = u.file.contents
  | .createPendingDocument userId docName name sourcePath =>
      exists u, own = some u ∧ u.Accepted ∧ userId = u.userId ∧ docName = u.key ∧
        name = displayName u.file ∧ sourcePath = storageKey u.key
  | .enqueueJob documentId docKey pdfPath =>
      exists u, own = some u ∧ u.Accepted ∧ docKey = u.key ∧
        pdfPath = storageKey u.key ∧ v.filed = some (u.key, documentId)
  | .upsertDocument docName sourcePath _ =>
      exists job, v.job = some job ∧ docName = job.docKey ∧ sourcePath = job.pdfPath
  | .insertChunk row =>
      exists job file, v.job = some job ∧ v.file = some (job.pdfPath, file) ∧
        v.filed = some (job.docKey, row.documentId) ∧ Extracted M file.pdf row
  | _ => True

/-- The replies of the embedding model are its own. -/
def Expected (M : EmbeddingModel) : (r : Request) -> Except Exn (Reply r) -> Prop
  | .embedTexts texts, .ok vectors => vectors = M.embedTexts texts
  | _, _ => True

def sem (M : EmbeddingModel) : Semantics service Told :=
  fun r v reply v' => Expected M r reply ∧ v' = v.after r reply

abbrev Safe {alpha : Type} (M : EmbeddingModel) (own : Option Upload)
    (post : alpha -> Told -> Prop) (p : Proc alpha) (v : Told) : Prop :=
  Program.Safe (sem M) (fun r v => v.req M own r) post (fun _ _ => True) p v

section Rules

variable {alpha : Type} {M : EmbeddingModel} {own : Option Upload} {v : Told}

theorem ask_safe {r : Request} {post : Reply r -> Told -> Prop} (hreq : v.req M own r)
    (hpost : forall a, Expected M r (.ok a) -> post a (v.after r (.ok a))) :
    Safe M own post (ask r) v := by
  refine safe_perform hreq ?_ fun _ _ _ => True.intro
  intro a v' hsem
  rcases hsem with ⟨hexpected, hv⟩
  rw [hv]
  exact hpost a hexpected

theorem handle_safe {p : Proc alpha} {handler : Exn -> Proc alpha}
    {post : alpha -> Told -> Prop} (h : Safe M own post p v)
    (hhandler : forall e v, Safe M own post (handler e) v) :
    Safe M own post (p.handle handler) v := by
  apply safe_handle
  exact safe_mono h (fun _ _ hpost => hpost) fun e v' _ => hhandler e v'

end Rules

end Told

/-!
# Uploads
-/

section Programs

variable {M : EmbeddingModel} {own : Option Upload} {v : Told}

theorem uploadDoc_told (u : Upload) :
    Told.Safe M (some u) (fun _ _ => True) (uploadDoc u.userId u.hex u.file) v := by
  unfold uploadDoc
  split
  · exact True.intro
  next htype =>
    have haccepted : u.file.size ≤ maxFileSizeBytes -> u.Accepted :=
      fun hsize => ⟨of_not_not htype, hsize⟩
    apply safe_bind
    refine Told.ask_safe True.intro fun depth _ => ?_
    split
    · exact True.intro
    split
    · exact True.intro
    next hsize =>
      replace haccepted := haccepted (Nat.le_of_not_gt hsize)
      apply safe_bind
      refine Told.ask_safe True.intro fun _ _ => ?_
      apply safe_bind
      refine Told.ask_safe ⟨u, rfl, haccepted, rfl, rfl⟩ fun _ _ => ?_
      apply safe_bind
      refine Told.ask_safe ⟨u, rfl, haccepted, rfl, rfl, rfl, rfl⟩ fun documentId _ => ?_
      apply safe_bind
      refine Told.ask_safe ⟨u, rfl, haccepted, rfl, rfl, rfl⟩ fun _ _ => ?_
      apply safe_bind
      refine Told.ask_safe True.intro fun row _ => ?_
      cases row with
      | none => exact True.intro
      | some document => exact True.intro

theorem deleteDoc_told (userId documentId : Nat) :
    Told.Safe M own (fun _ _ => True) (deleteDoc userId documentId) v := by
  apply safe_bind
  refine Told.ask_safe True.intro fun row _ => ?_
  apply safe_bind
  refine Told.ask_safe True.intro fun deleted _ => ?_
  split
  · cases row with
    | none => exact True.intro
    | some document =>
        apply safe_bind
        refine Told.ask_safe True.intro fun _ _ => ?_
        exact Told.ask_safe True.intro fun _ _ => True.intro
  · exact True.intro

/-!
# The worker
-/

theorem markDocumentsFailed_told (rows : List Nat) :
    Told.Safe M own (fun _ _ => True) (markDocumentsFailed rows) v := by
  induction rows with
  | nil => exact True.intro
  | cons documentId rest ih =>
      apply safe_bind
      exact Told.ask_safe True.intro fun _ _ => ih

theorem failJob_told (jobId : Nat) (error : String) :
    Told.Safe M own (fun _ _ => True) (failJob jobId error) v := by
  apply safe_bind
  refine Told.ask_safe True.intro fun row _ => ?_
  cases row with
  | none => exact True.intro
  | some attempts =>
      dsimp only
      split
      · apply safe_bind
        exact Told.ask_safe True.intro fun _ _ => True.intro
      · apply safe_bind
        exact Told.ask_safe True.intro fun _ _ => True.intro

theorem onProgress_told (documentId : Nat) (st : ProgressState) (stage : Stage)
    (current total : Nat) :
    Told.Safe M own (fun _ v' => v' = v)
      (onProgress documentId st stage current total) v := by
  apply safe_bind
  refine Told.ask_safe True.intro fun now _ => ?_
  dsimp only
  split
  · exact rfl
  · have hwrite : Told.Safe M own (fun _ v' => v' = v)
        ((ask (.updateDocumentStage documentId stage current total)).handle
          fun _ => pure ()) v := by
      apply safe_handle
      refine ⟨True.intro, ?_⟩
      intro answer v' hsem
      cases answer with
      | ok _ => exact hsem.right
      | error _ => exact hsem.right
    apply safe_bind
    exact safe_mono hwrite (fun _ _ hv => hv) fun _ _ _ => True.intro

structure Told.Ingesting (v : Told) (job : JobRow) (pdf : Pdf) (documentId : Nat) :
    Prop where
  claimed : v.job = some job
  opened : exists file, v.file = some (job.pdfPath, file) ∧ file.pdf = pdf
  filed : v.filed = some (job.docKey, documentId)

variable {job : JobRow} {pdf : Pdf} {documentId : Nat}

theorem insertChunks_told {rows : List (Chunk × Embedding)} {i : Nat}
    (h : v.Ingesting job pdf documentId)
    (hchunks : rows.map Prod.fst <+: pdf.chunks.drop i)
    (hvectors : forall row, row ∈ rows -> exists texts : List String,
      (row.1.text, row.2) ∈ texts.zip (M.embedTexts texts)) :
    Told.Safe M own (fun _ v' => v' = v) (insertChunks documentId rows i) v := by
  induction rows generalizing i with
  | nil => exact rfl
  | cons row rest ih =>
      rcases hchunks with ⟨more, hmore⟩
      rcases h.opened with ⟨file, hfile, rfl⟩
      have hplace : file.pdf.chunks[i]? = some row.1 := by
        rw [← Nat.add_zero i, ← List.getElem?_drop, ← hmore]
        rfl
      have hrest : rest.map Prod.fst <+: file.pdf.chunks.drop (i + 1) := by
        refine ⟨more, ?_⟩
        rw [← List.tail_drop, ← hmore]
        rfl
      apply safe_bind
      refine Told.ask_safe ⟨job, file, h.claimed, hfile, h.filed, hplace,
        hvectors row List.mem_cons_self⟩ fun _ _ => ?_
      exact ih hrest fun row' hrow' => hvectors row' (List.mem_cons_of_mem row hrow')

def Aligned {progress : Type} (pdf : Pdf) (events : List ChunkEvent)
    (st : IngestState progress) : Prop :=
  pdf.chunks.drop st.written = st.batch ++ chunksIn events

theorem flushBatch_told {progress : Type} {st : IngestState progress}
    {events : List ChunkEvent} (h : v.Ingesting job pdf documentId)
    (hst : Aligned pdf events st) :
    Told.Safe M own (fun st' v' => v' = v ∧ Aligned pdf events st')
      (flushBatch documentId st) v := by
  unfold flushBatch
  split
  · exact ⟨rfl, hst⟩
  · apply safe_bind
    refine Told.ask_safe True.intro fun vectors hexpected => ?_
    replace hexpected : vectors = M.embedTexts (st.batch.map Chunk.text) := hexpected
    have hlength : st.batch.length = vectors.length := by
      rw [hexpected, M.length_embedTexts, List.length_map]
    have hfst : (st.batch.zip vectors).map Prod.fst = st.batch :=
      List.map_fst_zip (Nat.le_of_eq hlength)
    apply safe_bind
    refine safe_mono (insertChunks_told h ?_ ?_) ?_ fun _ _ _ => True.intro
    · rw [hfst, hst]
      exact List.prefix_append _ _
    · intro row hrow
      refine ⟨st.batch.map Chunk.text, ?_⟩
      rw [← hexpected, List.zip_map_left]
      exact List.mem_map.mpr ⟨row, hrow, rfl⟩
    · intro _ v' hv
      refine ⟨hv, ?_⟩
      show pdf.chunks.drop (st.written + (st.batch.zip vectors).length) = _
      rw [List.length_zip, ← hlength, Nat.min_self, ← List.drop_drop, hst,
        List.drop_left, List.nil_append]

theorem pullChunks_told {target : Nat} {events : List ChunkEvent}
    {st : IngestState ProgressState} (h : v.Ingesting job pdf documentId)
    (hst : Aligned pdf events st) :
    Told.Safe M own (fun st' v' => v' = v ∧ Aligned pdf [] st')
      (pullChunks (onProgress target) documentId events st) v := by
  induction events generalizing st with
  | nil =>
      apply safe_bind
      exact Told.ask_safe True.intro fun _ _ => ⟨rfl, hst⟩
  | cons event rest ih =>
      cases event with
      | onPage pagesDone pageCount chunksSoFar =>
          apply safe_bind
          refine Told.ask_safe True.intro fun _ _ => ?_
          apply safe_bind
          refine safe_mono (onProgress_told _ _ _ _ _) ?_ fun _ _ _ => True.intro
          intro p v' hv
          rw [hv]
          exact ih hst
      | chunk c =>
          have hnext : Aligned pdf rest
              { st with batch := st.batch ++ [c], seen := st.seen + 1 } := by
            show pdf.chunks.drop st.written = _
            rw [hst, chunksIn_chunk, List.append_assoc]
            rfl
          apply safe_bind
          refine Told.ask_safe True.intro fun _ _ => ?_
          dsimp only
          split
          · apply safe_bind
            refine safe_mono (flushBatch_told h hnext) ?_ fun _ _ _ => True.intro
            rintro st' v' ⟨hv, hflushed⟩
            apply safe_bind
            refine safe_mono (onProgress_told _ _ _ _ _) ?_ fun _ _ _ => True.intro
            intro p v'' hv'
            rw [hv', hv]
            exact ih hflushed
          · exact ih hnext

theorem embedAndInsert_told {target pageCount : Nat} {file : LocalFile}
    {start : ProgressState} (h : v.Ingesting job file.pdf documentId) :
    Told.Safe M own (fun _ _ => True)
      (embedAndInsert (onProgress target) documentId pageCount file noneExcluded start) v := by
  have hreport {st : ProgressState} {stage : Stage} {current total : Nat}
      {rest : ProgressState -> Proc ProgressState}
      (hrest : forall p, Told.Safe M own (fun _ _ => True) (rest p) v) :
      Told.Safe M own (fun _ _ => True)
        (onProgress target st stage current total >>= rest) v := by
    apply safe_bind
    refine safe_mono (onProgress_told _ _ _ _ _) ?_ fun _ _ _ => True.intro
    intro p v' hv
    rw [hv]
    exact hrest p
  apply hreport
  intro p1
  apply hreport
  intro p2
  apply safe_bind
  refine safe_mono (pullChunks_told h ?_) ?_ fun _ _ _ => True.intro
  · exact rfl
  rintro st v' ⟨hv, hst⟩
  rw [hv]
  split
  · apply safe_bind
    refine safe_mono (flushBatch_told h hst) ?_ fun _ _ _ => True.intro
    rintro st' v'' ⟨hv', _⟩
    rw [hv']
    apply hreport
    intro p3
    exact safe_mono (onProgress_told _ _ _ _ _) (fun _ _ _ => True.intro)
      fun _ _ _ => True.intro
  · exact True.intro

theorem ingestPdf_told {target : Nat} {file : LocalFile} {start : ProgressState}
    (hjob : v.job = some job) (hfile : v.file = some (job.pdfPath, file)) :
    Told.Safe M own (fun _ _ => True)
      (ingestPdf (onProgress target) file noneExcluded job.docKey job.pdfPath start) v := by
  apply safe_bind
  refine safe_mono (onProgress_told _ _ _ _ _) ?_ fun _ _ _ => True.intro
  intro p1 v1 hv1
  rw [hv1]
  apply safe_bind
  refine Told.ask_safe True.intro fun pageCount _ => ?_
  apply safe_bind
  refine safe_mono (onProgress_told _ _ _ _ _) ?_ fun _ _ _ => True.intro
  intro p2 v2 hv2
  rw [hv2]
  apply safe_bind
  refine Told.ask_safe ⟨job, hjob, rfl, rfl⟩ fun documentId _ => ?_
  apply safe_bind
  refine Told.ask_safe True.intro fun _ _ => ?_
  have hingesting : Told.Ingesting { v with filed := some (job.docKey, documentId) }
      job file.pdf documentId := ⟨hjob, ⟨file, hfile, rfl⟩, rfl⟩
  apply safe_bind
  exact safe_mono (embedAndInsert_told hingesting) (fun _ _ _ => True.intro)
    fun _ _ _ => True.intro

theorem ingestJob_told (hjob : v.job = some job) :
    Told.Safe M own (fun _ _ => True) (ingestJob job) v := by
  apply safe_bind
  have hbody (file : LocalFile) :
      Told.Safe M own (fun _ _ => True) (ingestFile job file)
        { v with file := some (job.pdfPath, file) } := by
    apply safe_bind
    refine Told.ask_safe True.intro fun pageCount _ => ?_
    split
    · exact True.intro
    · apply safe_bind
      exact safe_mono (ingestPdf_told hjob rfl) (fun _ _ _ => True.intro)
        fun _ _ _ => True.intro
  apply safe_bind
  refine Told.ask_safe True.intro fun file _ => ?_
  apply safe_bind
  refine safe_mono (Told.handle_safe (hbody file) ?_) ?_ fun _ _ _ => True.intro
  · intro e v'
    apply safe_bind
    exact Told.ask_safe True.intro fun _ _ => True.intro
  · intro chunkCount v' _
    apply safe_bind
    refine Told.ask_safe True.intro fun _ _ => ?_
    apply safe_bind
    refine Told.ask_safe True.intro fun _ _ => ?_
    exact Told.ask_safe True.intro fun _ _ => True.intro

theorem ingestFailed_told (job : JobRow) (e : Exn) :
    Told.Safe M own (fun _ _ => True) (ingestFailed job e) v := by
  cases e with
  | storageError key =>
      apply safe_bind
      exact safe_mono (failJob_told _ _) (fun _ _ _ => True.intro) fun _ _ _ => True.intro
  | exception message =>
      apply safe_bind
      refine safe_mono (failJob_told _ _) ?_ fun _ _ _ => True.intro
      intro willRetry v' _
      split
      · exact True.intro
      · exact Told.ask_safe True.intro fun _ _ => True.intro
  | http statusCode detail =>
      apply safe_bind
      refine safe_mono (failJob_told _ _) ?_ fun _ _ _ => True.intro
      intro willRetry v' _
      split
      · exact True.intro
      · exact Told.ask_safe True.intro fun _ _ => True.intro

theorem processJob_told (hjob : v.job = some job) :
    Told.Safe M own (fun _ _ => True) (processJob job) v := by
  apply safe_bind
  refine Told.ask_safe True.intro fun _ _ => ?_
  apply safe_bind
  refine Told.ask_safe True.intro fun present _ => ?_
  split
  · exact Told.handle_safe (ingestJob_told hjob) fun e v' => ingestFailed_told job e
  · exact Told.ask_safe True.intro fun _ _ => True.intro

theorem runForeverBody_told :
    Told.Safe M own (fun _ _ => True) runForeverBody v := by
  apply safe_bind
  apply safe_bind
  refine Told.ask_safe True.intro fun row _ => ?_
  cases row with
  | none =>
      apply safe_bind
      apply safe_bind
      refine Told.ask_safe True.intro fun rows _ => ?_
      exact safe_mono (markDocumentsFailed_told rows) (fun _ _ _ => True.intro)
        fun _ _ _ => True.intro
  | some job => exact processJob_told rfl

theorem program_told (activity : Activity) :
    Told.Safe M activity.uploading (fun _ _ => True) activity.program Told.nothing := by
  cases activity with
  | worker => exact runForeverBody_told
  | upload userId hex file =>
      apply safe_bind
      exact safe_mono (uploadDoc_told ⟨userId, hex, file⟩) (fun _ _ _ => True.intro)
        fun _ _ _ => True.intro
  | delete userId documentId => exact deleteDoc_told userId documentId
  | complete jobId => exact Told.ask_safe True.intro fun _ _ => True.intro
  | fail jobId error =>
      apply safe_bind
      exact safe_mono (failJob_told jobId error) (fun _ _ _ => True.intro)
        fun _ _ _ => True.intro

end Programs

/-!
# What the world stores
-/

structure Source (ups : List Upload) (u : Upload) : Prop where
  mem : u ∈ ups
  accepted : u.Accepted

/-- A row that `upsert_document` inserted has no owner and no display name. -/
structure Document.IsOf (d : Document) (u : Upload) : Prop where
  docName : d.docName = u.key
  sourcePath : d.sourcePath = storageKey u.key
  owner : (d.userId = none ∧ d.displayName = none) ∨
    d.userId = some u.userId ∧ d.displayName = some (ChatDoc.displayName u.file)

structure Job.IsOf (job : Job) (u : Upload) : Prop where
  docKey : job.docKey = u.key
  pdfPath : job.pdfPath = storageKey u.key

structure Sourced (M : EmbeddingModel) (ups : List Upload) (w : World) : Prop where
  blobs : forall {key pdf}, w.blobs key = some pdf ->
    exists u, Source ups u ∧ key = storageKey u.key ∧ pdf = u.file.contents
  documents : forall {id d}, w.db.documents.lookup id = some d ->
    exists u, Source ups u ∧ d.IsOf u
  jobs : forall {id job}, w.db.jobs.lookup id = some job ->
    exists u, Source ups u ∧ job.IsOf u ∧
      forall d, w.db.documents.lookup job.documentId = some d -> d.docName = u.key
  chunks : forall {id d row}, w.db.documents.lookup id = some d ->
    row ∈ w.db.chunksOf id ->
      exists u, Source ups u ∧ d.docName = u.key ∧ Extracted M u.file.contents row

structure Told.Holds (v : Told) (ups : List Upload) (w : World) : Prop where
  job : forall {job}, v.job = some job -> exists u, Source ups u ∧
    job.docKey = u.key ∧ job.pdfPath = storageKey u.key
  file : forall {key file}, v.file = some (key, file) ->
    exists u, Source ups u ∧ key = storageKey u.key ∧ file.pdf = u.file.contents
  filed : forall {name id}, v.filed = some (name, id) ->
    id < w.db.documents.next ∧
      forall d, w.db.documents.lookup id = some d -> d.docName = name

def KeysApart (ups : List Upload) : Prop :=
  forall {u u'}, u ∈ ups -> u' ∈ ups -> u.key = u'.key -> u = u'

section Stored

variable {M : EmbeddingModel} {ups : List Upload} {own : Option Upload} {v : Told}
  {w : World} {r : Request}

theorem displayName_of_documentAfter {id : Nat} {d d' : Document}
    (h : w.documentAfter id d r = some d') : d'.displayName = d.displayName := by
  cases r with
  | updateDocumentStage documentId stage current total =>
      cases h
      split <;> rfl
  | markDocumentReady documentId chunkCount =>
      cases h
      split <;> rfl
  | markDocumentFailed documentId error =>
      cases h
      split <;> rfl
  | upsertDocument docName sourcePath pageCount =>
      cases h
      split <;> rfl
  | deleteDocument userId documentId =>
      cases (Option.ite_none_left_eq_some.mp h).right
      rfl
  | _ =>
      cases h
      rfl

theorem sourcePath_of_documentAfter {id : Nat} {d d' : Document}
    (h : w.documentAfter id d r = some d') :
    d'.sourcePath = d.sourcePath ∨
      exists sourcePath pageCount,
        r = .upsertDocument d.docName sourcePath pageCount ∧ d'.sourcePath = sourcePath := by
  cases r with
  | updateDocumentStage documentId stage current total =>
      cases h
      split <;> exact .inl rfl
  | markDocumentReady documentId chunkCount =>
      cases h
      split <;> exact .inl rfl
  | markDocumentFailed documentId error =>
      cases h
      split <;> exact .inl rfl
  | upsertDocument docName sourcePath pageCount =>
      cases h
      split
      · next hname =>
          rw [hname]
          exact .inr ⟨sourcePath, pageCount, rfl, rfl⟩
      · exact .inl rfl
  | deleteDocument userId documentId =>
      cases (Option.ite_none_left_eq_some.mp h).right
      exact .inl rfl
  | _ =>
      cases h
      exact .inl rfl

theorem documents_next_le : w.db.documents.next ≤ (w.exec M r).2.db.documents.next := by
  cases r with
  | claimJob =>
      show _ ≤ (w.db.claimJob w.now).2.documents.next
      unfold Database.claimJob
      split <;> exact Nat.le_refl _
  | enqueueJob documentId docKey pdfPath =>
      show _ ≤ (w.db.enqueueJob w.now documentId docKey pdfPath).2.documents.next
      unfold Database.enqueueJob
      split <;> exact Nat.le_refl _
  | createPendingDocument userId docName displayName sourcePath =>
      show _ ≤ (w.db.createPendingDocument _ _ _ _ _).2.documents.next
      unfold Database.createPendingDocument
      split
      · exact Nat.le_succ _
      · exact Nat.le_refl _
  | deleteDocument userId documentId =>
      show _ ≤ (w.db.deleteDocument userId documentId).2.documents.next
      unfold Database.deleteDocument
      split <;> exact Nat.le_refl _
  | upsertDocument docName sourcePath pageCount =>
      show _ ≤ (w.db.upsertDocument _ _ _ _).2.documents.next
      unfold Database.upsertDocument
      split
      · exact Nat.le_refl _
      · exact Nat.le_succ _
  | insertChunk row =>
      show _ ≤ (w.db.insertChunk row).2.documents.next
      unfold Database.insertChunk
      split <;> exact Nat.le_refl _
  | _ => exact Nat.le_refl _

theorem docName_exec {id : Nat} {name : String} {d : Document}
    (hid : id < w.db.documents.next)
    (hname : forall d, w.db.documents.lookup id = some d -> d.docName = name)
    (hd : (w.exec M r).2.db.documents.lookup id = some d) : d.docName = name := by
  cases hold : w.db.documents.lookup id with
  | none =>
      have hnext := (World.exec_document_new hold hd).left
      omega
  | some old =>
      rw [World.exec_document hold] at hd
      rw [(World.identity_of_documentAfter hd).left]
      exact hname old hold

theorem blobs_exec (h : Sourced M ups w) (hreq : v.req M own r)
    (hown : forall u, own = some u -> u ∈ ups) {key : String} {pdf : Pdf}
    (hpdf : (w.exec M r).2.blobs key = some pdf) :
    exists u, Source ups u ∧ key = storageKey u.key ∧ pdf = u.file.contents := by
  rw [World.exec_blob] at hpdf
  cases r with
  | storageSave key' data =>
      replace hpdf : (if key = key' then some data else w.blobs key) = some pdf := hpdf
      split at hpdf
      · next hkey =>
          rcases hreq with ⟨u, hu, haccepted, hkey', hdata⟩
          cases hpdf
          exact ⟨u, ⟨hown u hu, haccepted⟩, hkey.trans hkey', hdata⟩
      · exact h.blobs hpdf
  | storageDelete key' =>
      exact h.blobs (Option.ite_none_left_eq_some.mp hpdf).right
  | _ => exact h.blobs hpdf

theorem documents_exec (h : Sourced M ups w) (hv : v.Holds ups w) (hreq : v.req M own r)
    (hown : forall u, own = some u -> u ∈ ups) {id : Nat} {d : Document}
    (hd : (w.exec M r).2.db.documents.lookup id = some d) :
    exists u, Source ups u ∧ d.IsOf u := by
  cases hold : w.db.documents.lookup id with
  | none =>
      rcases World.exec_document_new hold hd with
        ⟨_, _, ⟨userId, docName, name, sourcePath, hr, hnew⟩ |
          ⟨docName, sourcePath, pageCount, hr, hnew⟩⟩
      · subst hr hnew
        rcases hreq with ⟨u, hu, haccepted, huser, hdocName, hname, hpath⟩
        refine ⟨u, ⟨hown u hu, haccepted⟩, hdocName, hpath, .inr ⟨?_, ?_⟩⟩
        · exact congrArg some huser
        · exact congrArg some hname
      · subst hr hnew
        rcases hreq with ⟨job, hjob, hdocName, hpath⟩
        rcases hv.job hjob with ⟨u, hu, hkey, hpdf⟩
        exact ⟨u, hu, hdocName.trans hkey, hpath.trans hpdf, .inl ⟨rfl, rfl⟩⟩
  | some old =>
      rw [World.exec_document hold] at hd
      rcases h.documents hold with ⟨u, hu, hof⟩
      rcases World.identity_of_documentAfter hd with ⟨hname, huser⟩
      refine ⟨u, hu, hname.trans hof.docName, ?_, ?_⟩
      · rcases sourcePath_of_documentAfter hd with hsame | ⟨sourcePath, pageCount, hr, hpath⟩
        · exact hsame.trans hof.sourcePath
        · subst hr
          rcases hreq with ⟨job, hjob, hdocName, hsource⟩
          rcases hv.job hjob with ⟨u', hu', hkey, hpdf⟩
          have hkeys : u'.key = u.key := by
            rw [← hkey, ← hdocName, hof.docName]
          rw [hpath, hsource, hpdf, hkeys]
      · rw [huser, displayName_of_documentAfter hd]
        exact hof.owner

theorem jobs_exec (h : Sourced M ups w) (hv : v.Holds ups w) (hreq : v.req M own r)
    (hown : forall u, own = some u -> u ∈ ups) {id : Nat} {job : Job}
    (hjob : (w.exec M r).2.db.jobs.lookup id = some job) :
    exists u, Source ups u ∧ job.IsOf u ∧
      forall d, (w.exec M r).2.db.documents.lookup job.documentId = some d ->
        d.docName = u.key := by
  cases hold : w.db.jobs.lookup id with
  | none =>
      rcases World.exec_job_new hold hjob with
        ⟨documentId, docKey, pdfPath, hr, _, _, hnew⟩
      subst hr hnew
      rcases hreq with ⟨u, hu, haccepted, hkey, hpath, hfiled⟩
      rcases hv.filed hfiled with ⟨hid, hname⟩
      refine ⟨u, ⟨hown u hu, haccepted⟩, ⟨hkey, hpath⟩, ?_⟩
      intro d hd
      exact docName_exec hid hname hd
  | some old =>
      rw [World.exec_job hold] at hjob
      rcases World.columns_of_jobAfter hjob with ⟨hdocument, hkey, hpath⟩
      rcases h.jobs hold with ⟨u, hu, hof, hname⟩
      refine ⟨u, hu, ⟨hkey.trans hof.docKey, hpath.trans hof.pdfPath⟩, ?_⟩
      rw [hdocument]
      intro d hd
      rcases Option.isSome_iff_exists.mp (w.db.job_document hold) with ⟨d', hd'⟩
      exact docName_exec (SerialTable.lt_next_of_lookup hd') hname hd

theorem extracted_of_req {row : ChunkRow} {d : Document} (hv : v.Holds ups w)
    (hapart : KeysApart ups) (hreq : v.req M own (.insertChunk row))
    (hd : w.db.documents.lookup row.documentId = some d) :
    exists u, Source ups u ∧ d.docName = u.key ∧ Extracted M u.file.contents row := by
  rcases hreq with ⟨job, file, hjob, hfile, hfiled, hextracted⟩
  rcases hv.job hjob with ⟨u, hu, hkey, hpath⟩
  rcases hv.file hfile with ⟨u', hu', hpath', hpdf⟩
  have hsame : u' = u :=
    hapart hu'.mem hu.mem (storageKey_injective (hpath'.symm.trans hpath))
  rw [hpdf, hsame] at hextracted
  exact ⟨u, hu, ((hv.filed hfiled).right d hd).trans hkey, hextracted⟩

theorem chunks_exec (h : Sourced M ups w) (hv : v.Holds ups w) (hapart : KeysApart ups)
    (hreq : v.req M own r) {id : Nat} {d : Document} {row : ChunkRow}
    (hd : (w.exec M r).2.db.documents.lookup id = some d)
    (hrow : row ∈ (w.exec M r).2.db.chunksOf id) :
    exists u, Source ups u ∧ d.docName = u.key ∧ Extracted M u.file.contents row := by
  rw [World.exec_chunksOf] at hrow
  cases hold : w.db.documents.lookup id with
  | none =>
      have hnone : w.chunksAfter id (w.db.chunksOf id) r = [] := by
        have hmissing : w.db.documentExists id = false := by
          unfold Database.documentExists
          rw [hold]
          rfl
        rw [Database.chunksOf_eq_nil hold]
        unfold World.chunksAfter
        rw [hmissing]
        cases r <;> simp
      rw [hnone] at hrow
      cases hrow
  | some old =>
      rw [World.exec_document hold] at hd
      rw [(World.identity_of_documentAfter hd).left]
      have hkept (hin : row ∈ w.db.chunksOf id) :
          exists u, Source ups u ∧ old.docName = u.key ∧
            Extracted M u.file.contents row := h.chunks hold hin
      cases r with
      | insertChunk row' =>
          replace hrow : row ∈ (if id = row'.documentId ∧ w.db.documentExists id then
            w.db.chunksOf id ++ [row'] else w.db.chunksOf id) := hrow
          split at hrow
          · next hinto =>
              rcases List.mem_append.mp hrow with hin | hnew
              · exact hkept hin
              · rw [List.mem_singleton.mp hnew]
                rw [hinto.left] at hold
                exact extracted_of_req hv hapart hreq hold
          · exact hkept hrow
      | deleteChunksForDocument documentId =>
          replace hrow : row ∈ (if id = documentId then [] else w.db.chunksOf id) := hrow
          split at hrow
          · cases hrow
          · exact hkept hrow
      | deleteDocument userId documentId =>
          replace hrow : row ∈ (if (w.db.getDocument userId documentId).isSome ∧
            id = documentId then [] else w.db.chunksOf id) := hrow
          split at hrow
          · cases hrow
          · exact hkept hrow
      | _ => exact hkept hrow

/-- A process that stores only what it may leaves all that is stored with its
source. -/
theorem sourced_answer (fault : Option Exn) (h : Sourced M ups w) (hv : v.Holds ups w)
    (hapart : KeysApart ups) (hreq : v.req M own r)
    (hown : forall u, own = some u -> u ∈ ups) :
    Sourced M ups (w.answer M fault r).2 := by
  cases fault with
  | some e => exact h
  | none =>
      rw [World.answer_none]
      constructor
      · intro key pdf hpdf
        exact blobs_exec h hreq hown hpdf
      · intro id d hd
        exact documents_exec h hv hreq hown hd
      · intro id job hjob
        exact jobs_exec h hv hreq hown hjob
      · intro id d row hd hrow
        exact chunks_exec h hv hapart hreq hd hrow

theorem holds_answer (fault : Option Exn) (hv : v.Holds ups w) :
    v.Holds ups (w.answer M fault r).2 := by
  cases fault with
  | some e => exact hv
  | none =>
      rw [World.answer_none]
      refine ⟨hv.job, hv.file, ?_⟩
      intro name id hfiled
      rcases hv.filed hfiled with ⟨hid, hname⟩
      exact ⟨Nat.lt_of_lt_of_le hid documents_next_le, fun d hd => docName_exec hid hname hd⟩

theorem expected_answer (fault : Option Exn) :
    Told.Expected M r (w.answer M fault r).1 := by
  cases fault with
  | some e => cases r <;> exact True.intro
  | none => cases r <;> first | exact True.intro | exact rfl

theorem upsertDocument_filed {docName sourcePath : String} {pageCount : Nat} :
    (w.db.upsertDocument w.now docName sourcePath pageCount).1 <
        (w.db.upsertDocument w.now docName sourcePath pageCount).2.documents.next ∧
      forall d, (w.db.upsertDocument w.now docName sourcePath pageCount).2.documents.lookup
        (w.db.upsertDocument w.now docName sourcePath pageCount).1 = some d ->
          d.docName = docName := by
  unfold Database.upsertDocument
  split
  · next id old hfind =>
      rcases Database.lookup_of_findDocument hfind with ⟨hold, hname⟩
      have hlt : id < w.db.documents.next := SerialTable.lt_next_of_lookup hold
      refine ⟨hlt, ?_⟩
      intro d hd
      rw [World.lookup_updateDocument, hold] at hd
      cases hd
      dsimp only
      rw [if_pos rfl]
      exact hname
  · refine ⟨Nat.lt_succ_self _, ?_⟩
    intro d hd
    replace hd := (SerialTable.lookup_insert _ _ _).symm.trans hd
    rw [if_pos rfl] at hd
    cases hd
    rfl

theorem createPendingDocument_filed {userId id : Nat} {docName name sourcePath : String}
    (hid : (w.db.createPendingDocument w.now userId docName name sourcePath).1 = .ok id) :
    id < (w.db.createPendingDocument w.now userId docName name sourcePath).2.documents.next ∧
      forall d, (w.db.createPendingDocument w.now userId docName name
        sourcePath).2.documents.lookup id = some d -> d.docName = docName := by
  unfold Database.createPendingDocument at hid ⊢
  split at hid
  · next hfree =>
      cases hid
      rw [dif_pos hfree]
      refine ⟨Nat.lt_succ_self _, ?_⟩
      intro d hd
      replace hd := (SerialTable.lookup_insert _ _ _).symm.trans hd
      rw [if_pos rfl] at hd
      cases hd
      rfl
  · cases hid

theorem holds_claim {row : JobRow} (h : Sourced M ups w) (hv : v.Holds ups w)
    (hrow : (w.exec M .claimJob).1 = .ok (some row)) :
    Told.Holds { v with job := some row } ups w := by
  refine ⟨?_, hv.file, hv.filed⟩
  intro job hjob
  cases hjob
  rcases World.row_of_claim hrow with ⟨old, hold, _, hclaimed, _⟩
  rcases h.jobs hold with ⟨u, hu, hof, _⟩
  rw [hclaimed]
  exact ⟨u, hu, hof.docKey, hof.pdfPath⟩

theorem holds_open {key : String} {file : LocalFile} (h : Sourced M ups w)
    (hv : v.Holds ups w) (hfile : w.openLocal key = .ok file) :
    Told.Holds { v with file := some (key, file) } ups w := by
  refine ⟨hv.job, ?_, hv.filed⟩
  intro key' file' hopened
  cases hopened
  unfold World.openLocal at hfile
  cases hblob : w.blobs key with
  | none =>
      rw [hblob] at hfile
      cases hfile
  | some pdf =>
      rw [hblob] at hfile
      cases hfile
      exact h.blobs hblob

theorem holds_after (fault : Option Exn) (h : Sourced M ups w) (hv : v.Holds ups w) :
    (v.after r (w.answer M fault r).1).Holds ups (w.answer M fault r).2 := by
  have hkept := holds_answer (M := M) (r := r) fault hv
  cases fault with
  | some e => cases r <;> exact hv
  | none =>
      rw [World.answer_none] at hkept ⊢
      cases r with
      | claimJob =>
          cases hrow : (w.exec M .claimJob).1 with
          | error e => exact hkept
          | ok row =>
              cases row with
              | none => exact hkept
              | some row =>
                  exact holds_answer (M := M) (r := .claimJob) none (holds_claim h hv hrow)
      | openLocal key =>
          cases hfile : w.openLocal key with
          | error e =>
              have hsame : (w.exec M (.openLocal key)).1 = .error e := hfile
              rw [hsame]
              exact hkept
          | ok file =>
              have hsame : (w.exec M (.openLocal key)).1 = .ok file := hfile
              rw [hsame]
              exact holds_open h hv hfile
      | upsertDocument docName sourcePath pageCount =>
          refine ⟨hkept.job, hkept.file, ?_⟩
          intro name id hfiled
          cases hfiled
          exact upsertDocument_filed
      | createPendingDocument userId docName name sourcePath =>
          cases hid : (w.db.createPendingDocument w.now userId docName name sourcePath).1 with
          | error e =>
              have hsame : (w.exec M (.createPendingDocument userId docName name
                sourcePath)).1 = .error e := hid
              rw [hsame]
              exact hkept
          | ok id =>
              have hsame : (w.exec M (.createPendingDocument userId docName name
                sourcePath)).1 = .ok id := hid
              rw [hsame]
              refine ⟨hkept.job, hkept.file, ?_⟩
              intro name' id' hfiled
              cases hfiled
              exact createPendingDocument_filed hid
      | _ => exact hkept

end Stored

/-!
# Whole runs
-/

def requested : Deployment × Action -> Option Upload
  | (_, .spawn _ activity) => activity.uploading
  | _ => none

def uploads (trace : List (Deployment × Action)) : List Upload :=
  trace.filterMap requested

namespace Deployment

section Runs

variable {M : EmbeddingModel} {d d' : Deployment} {a : Action}
  {trace : List (Deployment × Action)}

structure Honest (M : EmbeddingModel) (ups : List Upload) (d : Deployment) : Prop where
  sourced : Sourced M ups d.world
  issued : forall u, u ∈ ups -> u.key ∈ d.issued
  apart : KeysApart ups
  processes : forall {pid p}, d.processes.lookup pid = some p ->
    (forall u, p.activity.uploading = some u -> u ∈ ups) ∧
      exists v, Told.Safe M p.activity.uploading (fun _ _ => True) p.rest v ∧
        v.Holds ups d.world

theorem sourced_mono {ups more : List Upload} {w : World} (h : Sourced M ups w) :
    Sourced M (ups ++ more) w := by
  have hmono {u : Upload} (hu : Source ups u) : Source (ups ++ more) u :=
    ⟨List.mem_append_left _ hu.mem, hu.accepted⟩
  constructor
  · intro key pdf hpdf
    rcases h.blobs hpdf with ⟨u, hu, hrest⟩
    exact ⟨u, hmono hu, hrest⟩
  · intro id row hrow
    rcases h.documents hrow with ⟨u, hu, hrest⟩
    exact ⟨u, hmono hu, hrest⟩
  · intro id job hjob
    rcases h.jobs hjob with ⟨u, hu, hrest⟩
    exact ⟨u, hmono hu, hrest⟩
  · intro id row chunk hrow hchunk
    rcases h.chunks hrow hchunk with ⟨u, hu, hrest⟩
    exact ⟨u, hmono hu, hrest⟩

theorem holds_mono {ups more : List Upload} {w : World} {v : Told} (h : v.Holds ups w) :
    v.Holds (ups ++ more) w := by
  refine ⟨?_, ?_, h.filed⟩
  · intro job hjob
    rcases h.job hjob with ⟨u, hu, hrest⟩
    exact ⟨u, ⟨List.mem_append_left _ hu.mem, hu.accepted⟩, hrest⟩
  · intro key file hfile
    rcases h.file hfile with ⟨u, hu, hrest⟩
    exact ⟨u, ⟨List.mem_append_left _ hu.mem, hu.accepted⟩, hrest⟩

theorem issues_of_uploading {activity : Activity} {u : Upload}
    (h : activity.uploading = some u) : u.key ∈ activity.issues := by
  cases activity with
  | upload userId hex file =>
      cases h
      exact List.mem_singleton_self _
  | _ => cases h

theorem holds_nothing (ups : List Upload) (w : World) : Told.nothing.Holds ups w :=
  ⟨nofun, nofun, nofun⟩

theorem honest_spawn {ups : List Upload} {pid : Nat} {activity : Activity}
    (h : Honest M ups d) (hfresh : forall key, key ∈ activity.issues -> key ∉ d.issued) :
    Honest M (ups ++ activity.uploading.toList)
      { d with
        processes := d.processes.insert pid (.start activity)
        issued := activity.issues ++ d.issued } := by
  have hnew {u : Upload} (hu : u ∈ activity.uploading.toList) :
      u.key ∈ activity.issues ∧ u.key ∉ d.issued := by
    have hkey := issues_of_uploading (Option.mem_toList.mp hu)
    exact ⟨hkey, hfresh _ hkey⟩
  constructor
  · exact sourced_mono h.sourced
  · intro u hu
    rcases List.mem_append.mp hu with hold | hstarted
    · exact List.mem_append_right _ (h.issued u hold)
    · exact List.mem_append_left _ (hnew hstarted).left
  · intro u u' hu hu' hkeys
    rcases List.mem_append.mp hu with hold | hstarted
    · rcases List.mem_append.mp hu' with hold' | hstarted'
      · exact h.apart hold hold' hkeys
      · exact absurd (hkeys ▸ h.issued u hold) (hnew hstarted').right
    · rcases List.mem_append.mp hu' with hold' | hstarted'
      · exact absurd (hkeys ▸ h.issued u' hold') (hnew hstarted).right
      · have hsame := (Option.mem_toList.mp hstarted).symm.trans (Option.mem_toList.mp hstarted')
        exact Option.some.inj hsame
  · intro pid' p hp
    rcases lookup_spawn hp with ⟨_, hstart⟩ | ⟨_, hold⟩
    · rw [hstart]
      refine ⟨?_, Told.nothing, program_told activity, holds_nothing _ _⟩
      intro u hu
      exact List.mem_append_right _ (Option.mem_toList.mpr hu)
    · rcases h.processes hold with ⟨hown, v, hsafe, hv⟩
      exact ⟨fun u hu => List.mem_append_left _ (hown u hu), v, hsafe, holds_mono hv⟩

theorem honest_step {ups : List Upload} {pid : Nat} {fault : Option Exn} {p : Process}
    {r : Request} {next : Except Exn (Reply r) -> Proc Unit} (h : Honest M ups d)
    (hp : d.processes.lookup pid = some p) (hrest : p.rest = .call r next) :
    Honest M ups
      { d with
        world := (d.world.answer M fault r).2
        processes := resume d.processes pid
          { p with
            rest := next (d.world.answer M fault r).1
            lease := Process.leaseAfter d.world.now p.lease r
              (d.world.answer M fault r).1 } } := by
  rcases h.processes hp with ⟨hown, v, hsafe, hv⟩
  rw [hrest] at hsafe
  rcases hsafe with ⟨hreq, hnext⟩
  refine ⟨sourced_answer fault h.sourced hv h.apart hreq hown, h.issued, h.apart, ?_⟩
  intro pid' q hq
  rcases lookup_resume hq with ⟨_, hstepped⟩ | ⟨_, hother⟩
  · rw [hstepped]
    refine ⟨hown, v.after r (d.world.answer M fault r).1, ?_, holds_after fault h.sourced hv⟩
    exact hnext _ _ ⟨expected_answer fault, rfl⟩
  · rcases h.processes hother with ⟨hown', v', hsafe', hv'⟩
    exact ⟨hown', v', hsafe', holds_answer fault hv'⟩

theorem honest_acted {ups : List Upload} (h : Honest M ups d) (hacted : Acted M d a d') :
    Honest M (ups ++ (requested (d, a)).toList) d' := by
  cases hacted with
  | spawn hfree hfresh => exact honest_spawn h hfresh
  | step hp hrest =>
      rw [show requested (d, .step _ _) = none from rfl, Option.toList_none, List.append_nil]
      exact honest_step h hp hrest
  | crash =>
      rw [show requested (d, .crash _) = none from rfl, Option.toList_none, List.append_nil]
      refine ⟨h.sourced, h.issued, h.apart, ?_⟩
      intro pid' p hp
      exact h.processes (lookup_erase hp).right
  | tick =>
      rw [show requested (d, .tick _) = none from rfl, Option.toList_none, List.append_nil]
      refine ⟨⟨h.sourced.blobs, h.sourced.documents, h.sourced.jobs, h.sourced.chunks⟩,
        h.issued, h.apart, ?_⟩
      intro pid p hp
      rcases h.processes hp with ⟨hown, v, hsafe, hv⟩
      exact ⟨hown, v, hsafe, hv.job, hv.file, hv.filed⟩

theorem honest_init : Honest M [] init := by
  constructor
  · exact ⟨nofun, nofun, nofun, nofun⟩
  · exact List.forall_mem_nil _
  · intro u u' hu
    cases hu
  · intro pid p hp
    cases hp

theorem honest_run (hrun : Run (act M) init trace d) : Honest M (uploads trace) d := by
  induction hrun with
  | nil => exact honest_init
  | @snoc trace s s' a _ hact ih =>
      have hnext := honest_acted ih (acted_of_act hact)
      unfold uploads at hnext ⊢
      rw [List.filterMap_append, List.filterMap_cons, List.filterMap_nil]
      cases hrequested : requested (s, a) with
      | none =>
          rw [hrequested] at hnext
          exact hnext
      | some u =>
          rw [hrequested] at hnext
          exact hnext

structure Belongs (M : EmbeddingModel) (w : World) (id : Nat) (row : Document)
    (u : Upload) : Prop where
  accepted : u.Accepted
  isOf : row.IsOf u
  blob : forall pdf, w.blobs row.sourcePath = some pdf -> pdf = u.file.contents
  chunks : forall chunk, chunk ∈ w.db.chunksOf id -> Extracted M u.file.contents chunk
  jobs : forall jobId job, w.db.jobs.lookup jobId = some job -> job.documentId = id ->
    job.IsOf u

theorem belongs_of_honest {ups : List Upload} {id : Nat} {row : Document}
    (h : Honest M ups d) (hrow : d.world.db.documents.lookup id = some row) :
    exists u, u ∈ ups ∧ Belongs M d.world id row u ∧
      forall u', u' ∈ ups -> row.docName = u'.key -> u' = u := by
  rcases h.sourced.documents hrow with ⟨u, hu, hof⟩
  have hsame {u' : Upload} (hu' : Source ups u') (hname : row.docName = u'.key) : u' = u :=
    h.apart hu'.mem hu.mem (hname.symm.trans hof.docName)
  refine ⟨u, hu.mem, ⟨hu.accepted, hof, ?_, ?_, ?_⟩,
    fun u' hin hname => h.apart hin hu.mem (hname.symm.trans hof.docName)⟩
  · intro pdf hpdf
    rcases h.sourced.blobs hpdf with ⟨u', hu', hkey, hcontents⟩
    have hname : row.docName = u'.key := by
      rw [hof.docName]
      exact storageKey_injective (hof.sourcePath.symm.trans hkey)
    rw [hcontents, hsame hu' hname]
  · intro chunk hchunk
    rcases h.sourced.chunks hrow hchunk with ⟨u', hu', hname, hextracted⟩
    rw [hsame hu' hname] at hextracted
    exact hextracted
  · intro jobId job hjob hdocument
    rcases h.sourced.jobs hjob with ⟨u', hu', hjobOf, hname⟩
    rw [hdocument] at hname
    rw [hsame hu' (hname row hrow)] at hjobOf
    exact hjobOf

/-- In every state a deployment can reach, all that is stored for a document is of
one accepted upload, the only one whose key it bears, and so is every blob. -/
theorem stored_from_uploads (hrun : Run (act M) init trace d) :
    (forall id row, d.world.db.documents.lookup id = some row ->
      exists u, u ∈ uploads trace ∧ Belongs M d.world id row u ∧
        forall u', u' ∈ uploads trace -> row.docName = u'.key -> u' = u) ∧
      forall key pdf, d.world.blobs key = some pdf ->
        exists u, u ∈ uploads trace ∧ u.Accepted ∧ key = storageKey u.key ∧
          pdf = u.file.contents := by
  have h := honest_run hrun
  refine ⟨?_, ?_⟩
  · intro id row hrow
    exact belongs_of_honest h hrow
  · intro key pdf hpdf
    rcases h.sourced.blobs hpdf with ⟨u, hu, hrest⟩
    exact ⟨u, hu.mem, hu.accepted, hrest⟩

end Runs

def ingested : List Action :=
  uploaded 0 1 "0123456789ab" onePage ++ uploaded 2 2 "ba9876543210" onePage ++
    [.spawn 1 .worker] ++ answered 1 28

def readyWithChunks (d : Deployment) : Bool :=
  ((d.world.db.documents.lookup 1).any fun row =>
    row.status = .ready ∧ d.world.db.chunksOf 1 ≠ []) &&
      (d.world.db.documents.lookup 2).isSome && (d.world.blobs "user2_ba9876543210.pdf").isSome

theorem stored_from_uploads_ingested :
    exists trace d row u pdf, Run (act lengthModel) init trace d ∧
      (uploads trace).length = 2 ∧
      d.world.db.documents.lookup 1 = some row ∧ d.world.db.chunksOf 1 ≠ [] ∧
        u ∈ uploads trace ∧ Belongs lengthModel d.world 1 row u ∧
        (forall u', u' ∈ uploads trace -> row.docName = u'.key -> u' = u) ∧
      d.world.blobs "user2_ba9876543210.pdf" = some pdf ∧
        exists u, u ∈ uploads trace ∧ u.Accepted ∧
          "user2_ba9876543210.pdf" = storageKey u.key ∧ pdf = u.file.contents := by
  have hfollow : (follow (act lengthModel) init ingested).any
      (fun out => (uploads out.1).length = 2 && readyWithChunks out.2) = true := by
    decide +kernel
  rcases exists_run_of_follow
    (fun trace d => (uploads trace).length = 2 && readyWithChunks d) hfollow with
    ⟨trace, d, hrun, hgood⟩
  rw [Bool.and_eq_true, decide_eq_true_eq, readyWithChunks, Bool.and_eq_true,
    Bool.and_eq_true] at hgood
  rcases hgood with ⟨htwo, ⟨hready, _⟩, hblob⟩
  rcases Option.any_eq_true _ _ |>.mp hready with ⟨row, hrow, hchunks⟩
  rcases Option.isSome_iff_exists.mp hblob with ⟨pdf, hpdf⟩
  have hstored := stored_from_uploads hrun
  rcases hstored.1 1 row hrow with ⟨u, hu, hbelongs, honly⟩
  exact ⟨trace, d, row, u, pdf, hrun, htwo, hrow, (of_decide_eq_true hchunks).right, hu,
    hbelongs, honly, hpdf, hstored.2 _ pdf hpdf⟩

end Deployment

end ChatDoc
