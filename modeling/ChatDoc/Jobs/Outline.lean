import ChatDoc.Jobs.Slice
import ChatDoc.Jobs.Survival

/-!
# A proof outline of `process_job`

The states of the slice that an attempt goes through, and for each call the
state it is made in.  The outline is proved once, for any prior content of the
rows and any exceptions; what recovery, readiness and the agreement of job and
document need from an attempt is read off it.
-/

namespace ChatDoc

open Foundation
open Foundation.Program

/-!
# Documents up to their progress columns
-/

namespace Document

def unstaged (r : Document) : Document :=
  { r with stage := none, stageCurrent := 0, stageTotal := 0 }

/-- The row without the columns that ingestion writes before it is done. -/
def core (r : Document) : Document :=
  { r.unstaged with sourcePath := "", pageCount := 0 }

@[simp] theorem unstaged_atStage (r : Document) (stage : Stage)
    (current total : Nat) :
    (r.atStage stage current total).unstaged = r.unstaged := rfl

@[simp] theorem core_atStage (r : Document) (stage : Stage)
    (current total : Nat) : (r.atStage stage current total).core = r.core := rfl

@[simp] theorem core_upserted (r : Document) (sourcePath : String)
    (pageCount : Nat) : (r.upserted sourcePath pageCount).core = r.core := rfl

theorem core_of_unstaged {r r' : Document} (h : r.unstaged = r'.unstaged) :
    r.core = r'.core := by
  unfold core
  rw [h]

theorem unstaged_upserted {r r' : Document} (h : r.core = r'.core)
    (sourcePath : String) (pageCount : Nat) :
    (r.upserted sourcePath pageCount).unstaged =
      (r'.upserted sourcePath pageCount).unstaged :=
  congrArg (fun d : Document =>
    { d with sourcePath := sourcePath, pageCount := pageCount }) h

theorem status_of_core {r r' : Document} (h : r.core = r'.core) :
    r.status = r'.status := by
  have hstatus := congrArg Document.status h
  exact hstatus

theorem status_of_unstaged {r r' : Document} (h : r.unstaged = r'.unstaged) :
    r.status = r'.status := status_of_core (core_of_unstaged h)

end Document

/-!
# The rows of a chunk sequence
-/

def chunkRows (documentId : Nat) : Nat -> List (Chunk × Embedding) ->
    List ChunkRow
  | _, [] => []
  | i, row :: rest =>
      { documentId := documentId
        chunkIndex := i
        chunk := row.1
        embedding := row.2 } :: chunkRows documentId (i + 1) rest

theorem chunkRows_append (documentId : Nat) (i : Nat)
    (rows rows' : List (Chunk × Embedding)) :
    chunkRows documentId i (rows ++ rows') =
      chunkRows documentId i rows ++
        chunkRows documentId (i + rows.length) rows' := by
  induction rows generalizing i with
  | nil => rfl
  | cons row rest ih =>
      rw [List.cons_append, chunkRows, chunkRows, ih, List.cons_append,
        List.length_cons, Nat.add_assoc, Nat.add_comm 1]

/-!
# Attempts
-/

/-- One attempt of `process_job`, and what is assumed of its environment. -/
structure Attempt where
  model : EmbeddingModel
  row : JobRow
  start : Slice
  allow : Slice.Allowance
  /-- Which embeddings a chunk can get. -/
  embedded : Chunk -> Embedding -> Prop
  /-- What is known once the old chunks have been deleted. -/
  cleared : Prop
  /-- Which exceptions the calls of the `try` statement raise, and when. -/
  raised : Exn -> Slice -> Prop
  /-- Whether the calls outside of it raise. -/
  escapes : Prop

/-- The calls whose exceptions reach the `except` clauses of `process_job`.
Those of `update_document_stage` are swallowed before. -/
def Escaping : Request -> Prop
  | .openLocal _ => True
  | .closeLocal => True
  | .pymupdfOpen _ => True
  | .nextChunk => True
  | .embedTexts _ => True
  | .monotonic => True
  | .upsertDocument _ _ _ => True
  | .deleteChunksForDocument _ => True
  | .insertChunk _ => True
  | .markDocumentReady _ _ => True
  | .completeJob _ => True
  | _ => False

namespace Attempt

variable (A : Attempt)

def chunks : List Chunk := A.start.blob.chunks

def upserted : Document :=
  A.start.document.upserted A.row.pdfPath A.start.blob.pages.length

structure Before (s : Slice) : Prop where
  document : s.document.core = A.start.document.core
  chunks : s.chunks = A.start.chunks
  job : s.job = A.start.job
  blob : s.blob = A.start.blob

structure Writing (rows : List (Chunk × Embedding)) (s : Slice) : Prop where
  document : s.document.unstaged = A.upserted.unstaged
  chunks : s.chunks = chunkRows A.row.documentId 0 rows
  job : s.job = A.start.job
  blob : s.blob = A.start.blob
  written : rows.map Prod.fst <+: A.chunks
  embedded : forall {row}, row ∈ rows -> A.embedded row.1 row.2
  cleared : A.cleared

def Written (s : Slice) : Prop :=
  exists rows, A.Writing rows s ∧ rows.map Prod.fst = A.chunks

def Ready (s : Slice) : Prop :=
  exists t, A.Written t ∧
    s = { t with document := t.document.markedReady A.chunks.length }

def Unfinished (s : Slice) : Prop :=
  A.Before s ∨ exists rows, A.Writing rows s

def Unreported (s : Slice) : Prop := A.Unfinished s ∨ A.Ready s

/-- How the body of the `try` statement can raise. -/
def Raised (exc : Exn) (s : Slice) : Prop :=
  A.Unreported s ∧ A.raised exc s

def Completed (s : Slice) : Prop :=
  exists t, A.Ready t ∧ s = { t with job := t.job.completed }

def Requeued (s : Slice) : Prop :=
  exists t exc now error, A.Raised exc t ∧
    t.job.attempts < t.job.maxAttempts ∧
      s = { t with job := t.job.requeued now error }

def DeadLettered (exc : Exn) (s : Slice) : Prop :=
  exists t error, A.Raised exc t ∧
    t.job.maxAttempts ≤ t.job.attempts ∧
      s = { t with job := t.job.deadLettered error }

def Failed (s : Slice) : Prop :=
  exists t exc error, A.DeadLettered exc t ∧
    s = { t with document := t.document.markedFailed error }

/-- The ways `process_job` returns.  The last one is the `StorageError` clause
on a job without attempts left. -/
def Returned (s : Slice) : Prop :=
  A.Completed s ∨ A.Requeued s ∨ A.Failed s ∨
    exists key, A.DeadLettered (.storageError key) s

def Pending (s : Slice) : Prop :=
  A.Unreported s ∨ exists exc, A.DeadLettered exc s

def Escaped (s : Slice) : Prop :=
  A.Pending s ∧ A.escapes

def req (r : Request) (s : Slice) : Prop :=
  Own A.row r ∧
    match r with
    | .markDocumentReady _ chunkCount =>
        A.Written s ∧ chunkCount = A.chunks.length
    | .completeJob _ => A.Ready s
    | .requeueJob _ _ =>
        A.Unreported s ∧ s.job.attempts < s.job.maxAttempts
    | .deadLetterJob _ _ =>
        A.Unreported s ∧ s.job.maxAttempts ≤ s.job.attempts
    | .markDocumentFailed _ _ => exists exc, A.DeadLettered exc s
    | .readAttempts _ => A.Unreported s
    | _ => A.Unfinished s

def Interrupted (exc : Exn) (s : Slice) : Prop :=
  A.Unfinished s ∧ A.raised exc s

structure Sound : Prop where
  embedded : forall {batch : List Chunk} {row},
    row ∈ batch.zip (A.model.embedTexts (batch.map Chunk.text)) ->
      A.embedded row.1 row.2
  cleared : forall {s}, A.Before s ->
    A.allow (.deleteChunksForDocument A.row.documentId) s (.ok ()) -> A.cleared
  raised : forall {r s exc}, Escaping r -> A.req r s ->
    A.allow r s (.error exc) -> A.raised exc s
  own : forall {s} text, A.Unfinished s -> A.raised (.exception text) s
  escapes : forall {r s e}, Unguarded r -> A.allow r s (.error e) -> A.escapes

abbrev Safe {alpha : Type} (post : alpha -> Slice -> Prop)
    (fail : Exn -> Slice -> Prop) (p : Proc alpha) (s : Slice) : Prop :=
  Program.Safe (Slice.sem A.model A.row A.allow) A.req post fail p s

section Rules

variable {A : Attempt} {s : Slice}

theorem job_of_unreported (h : A.Unreported s) : s.job = A.start.job := by
  rcases h with (hbefore | ⟨rows, hwriting⟩) | ⟨t, ⟨rows, hwriting, _⟩, hs⟩
  · exact hbefore.job
  · exact hwriting.job
  · rw [hs]
    exact hwriting.job

theorem pending_of_req {r : Request} (h : A.req r s) : A.Pending s := by
  rcases h with ⟨hown, h⟩
  cases r with
  | markDocumentReady id chunkCount =>
      rcases h with ⟨⟨rows, hwriting, _⟩, _⟩
      exact .inl (.inl (.inr ⟨rows, hwriting⟩))
  | completeJob id => exact .inl (.inr h)
  | requeueJob id error => exact .inl h.left
  | deadLetterJob id error => exact .inl h.left
  | markDocumentFailed id error => exact .inr h
  | readAttempts id => exact .inl h
  | _ => exact .inl (.inl h)

theorem exec_own {row : JobRow} {r : Request} (M : EmbeddingModel) (now : Time)
    (s : Slice) (h : Own row r) : exists a, (s.exec M row now r).1 = .ok a := by
  cases r with
  | claimJob => exact h.elim
  | reapExhaustedJobs => exact h.elim
  | enqueueJob documentId docKey pdfPath => exact h.elim
  | queueDepth => exact h.elim
  | createPendingDocument userId docName displayName sourcePath => exact h.elim
  | getDocument userId documentId => exact h.elim
  | deleteDocument userId documentId => exact h.elim
  | storageSave key data => exact h.elim
  | storageDelete key => exact h.elim
  | _ => exact ⟨_, rfl⟩

theorem ask_safe {r : Request} {post : Reply r -> Slice -> Prop}
    {fail : Exn -> Slice -> Prop} (hreq : A.req r s)
    (hpost : forall now a s', s.exec A.model A.row now r = (.ok a, s') ->
      A.allow r s (.ok a) -> post a s')
    (hfail : forall e, A.allow r s (.error e) -> fail e s) :
    A.Safe post fail (ask r) s := by
  refine safe_perform hreq ?_ ?_
  · intro a s' hall
    rcases hall with ⟨hallow, now, fault, heq⟩
    cases fault with
    | none => exact hpost now a s' heq hallow
    | some e => cases heq
  · intro e s' hall
    rcases hall with ⟨hallow, now, fault, heq⟩
    cases fault with
    | none =>
        rcases exec_own A.model now s hreq.left with ⟨a, ha⟩
        rw [Slice.answer] at heq
        rw [heq] at ha
        cases ha
    | some e' =>
        cases heq
        exact hfail e hallow

theorem ingest_safe {r : Request} {post : Reply r -> Slice -> Prop}
    (hA : A.Sound) (hreq : A.req r s) (hescaping : Escaping r)
    (hunfinished : A.Unfinished s)
    (hpost : forall now a s', s.exec A.model A.row now r = (.ok a, s') ->
      A.allow r s (.ok a) -> post a s') :
    A.Safe post A.Interrupted (ask r) s :=
  ask_safe hreq hpost fun _ hallow =>
    ⟨hunfinished, hA.raised hescaping hreq hallow⟩

theorem try_safe {r : Request} {post : Reply r -> Slice -> Prop}
    (hA : A.Sound) (hreq : A.req r s) (hescaping : Escaping r)
    (hunreported : A.Unreported s)
    (hpost : forall now a s', s.exec A.model A.row now r = (.ok a, s') ->
      A.allow r s (.ok a) -> post a s') :
    A.Safe post A.Raised (ask r) s :=
  ask_safe hreq hpost fun _ hallow =>
    ⟨hunreported, hA.raised hescaping hreq hallow⟩

theorem raised_of_interrupted {exc : Exn} (h : A.Interrupted exc s) :
    A.Raised exc s := ⟨.inl h.left, h.right⟩

/-!
# The progress writer
-/

theorem onProgress_safe {P : Slice -> Prop} (hA : A.Sound)
    (hunfinished : forall {s}, P s -> A.Unfinished s)
    (hstage : forall {s} stage current total, P s ->
      P { s with document := s.document.atStage stage current total })
    (st : ProgressState) (stage : Stage) (current total : Nat) (h : P s) :
    A.Safe
      (fun st' s' =>
        P s' ∧ st'.chunkCount = (st.count stage total).chunkCount)
      A.Interrupted (onProgress A.row.documentId st stage current total) s := by
  apply safe_bind
  refine ingest_safe hA ⟨True.intro, hunfinished h⟩ True.intro (hunfinished h) ?_
  intro now a s' heq _
  cases heq
  dsimp only
  split
  · exact ⟨h, rfl⟩
  · apply safe_bind
    apply safe_handle
    refine ask_safe ?_ ?_ ?_
    · exact ⟨rfl, hunfinished h⟩
    · intro now a s' heq _
      cases heq
      exact ⟨hstage stage current total h, rfl⟩
    · intro e _
      exact ⟨h, rfl⟩

theorem before_atStage (stage : Stage) (current total : Nat)
    (h : A.Before s) :
    A.Before { s with document := s.document.atStage stage current total } :=
  ⟨h.document, h.chunks, h.job, h.blob⟩

theorem writing_atStage {rows : List (Chunk × Embedding)} (stage : Stage)
    (current total : Nat) (h : A.Writing rows s) :
    A.Writing rows
      { s with document := s.document.atStage stage current total } :=
  ⟨h.document, h.chunks, h.job, h.blob, h.written, h.embedded, h.cleared⟩

theorem report_before (hA : A.Sound) (st : ProgressState) (stage : Stage)
    (current total : Nat) (h : A.Before s) :
    A.Safe
      (fun st' s' =>
        A.Before s' ∧ st'.chunkCount = (st.count stage total).chunkCount)
      A.Interrupted (onProgress A.row.documentId st stage current total) s :=
  onProgress_safe hA .inl before_atStage st stage current total h

theorem report_writing {rows : List (Chunk × Embedding)} (hA : A.Sound)
    (st : ProgressState) (stage : Stage) (current total : Nat)
    (h : A.Writing rows s) :
    A.Safe
      (fun st' s' =>
        A.Writing rows s' ∧
          st'.chunkCount = (st.count stage total).chunkCount)
      A.Interrupted (onProgress A.row.documentId st stage current total) s :=
  onProgress_safe hA (fun h => .inr ⟨rows, h⟩) writing_atStage
    st stage current total h

theorem count_le {st : ProgressState} {stage : Stage} {total n : Nat}
    (hst : st.chunkCount ≤ n) (htotal : total ≤ n) :
    (st.count stage total).chunkCount ≤ n := by
  unfold ProgressState.count
  split
  · exact htotal
  · exact hst

@[simp] theorem count_reading (st : ProgressState) (total : Nat) :
    st.count .reading total = st := by
  simp [ProgressState.count]

@[simp] theorem count_chunking (st : ProgressState) (total : Nat) :
    st.count .chunking total = st := by
  simp [ProgressState.count]

@[simp] theorem count_zero (st : ProgressState) (stage : Stage) :
    st.count stage 0 = st := by
  simp [ProgressState.count]

/-- The last report delivers the exact count, even when it is zero. -/
theorem count_indexing {st : ProgressState} {n : Nat} (h : st.chunkCount ≤ n) :
    (st.count .indexing n).chunkCount = n := by
  cases n with
  | zero =>
      rw [count_zero]
      exact Nat.le_zero.mp h
  | succ n => simp [ProgressState.count]

/-!
# Chunking, embedding and inserting
-/

theorem insertChunks_safe {done : List (Chunk × Embedding)}
    {pending : List (Chunk × Embedding)} (hA : A.Sound)
    (h : A.Writing done s)
    (hwritten : (done ++ pending).map Prod.fst <+: A.chunks)
    (hembedded : forall {row}, row ∈ pending -> A.embedded row.1 row.2) :
    A.Safe (fun _ s' => A.Writing (done ++ pending) s') A.Interrupted
      (insertChunks A.row.documentId pending done.length) s := by
  induction pending generalizing done s with
  | nil =>
      rw [List.append_nil]
      exact h
  | cons row rest ih =>
      have hunfinished : A.Unfinished s := .inr ⟨done, h⟩
      have hsplit : done ++ row :: rest = (done ++ [row]) ++ rest := by simp
      apply safe_bind
      refine ingest_safe hA ⟨rfl, hunfinished⟩ True.intro hunfinished ?_
      intro now a s' heq _
      cases heq
      rw [hsplit] at hwritten ⊢
      have hnext : A.Writing (done ++ [row])
          { s with
            chunks := s.chunks ++
              [{ documentId := A.row.documentId
                 chunkIndex := done.length
                 chunk := row.1
                 embedding := row.2 }] } := by
        constructor
        · exact h.document
        · rw [chunkRows_append, Nat.zero_add, h.chunks]
          rfl
        · exact h.job
        · exact h.blob
        · rw [List.map_append] at hwritten
          exact (List.prefix_append _ _).trans hwritten
        · intro row' hrow'
          rcases List.mem_append.mp hrow' with hold | hnew
          · exact h.embedded hold
          · rw [List.mem_singleton.mp hnew]
            exact hembedded List.mem_cons_self
        · exact h.cleared
      have hlength : done.length + 1 = (done ++ [row]).length := by simp
      rw [hlength]
      exact ih hnext hwritten fun hrow => hembedded (List.mem_cons_of_mem _ hrow)

/-- The loop invariant of `ingest_pdf`: what is written, what waits in the
batch and what is still to be chunked make up the whole sequence. -/
structure Pulling (remaining : List Chunk) (st : IngestState ProgressState)
    (rows : List (Chunk × Embedding)) (s : Slice) : Prop where
  writing : A.Writing rows s
  sequence : rows.map Prod.fst ++ st.batch ++ remaining = A.chunks
  written : st.written = rows.length
  seen : st.seen = rows.length + st.batch.length
  counted : st.progress.chunkCount ≤ st.seen

theorem unfinished_of_pulling {remaining : List Chunk}
    {st : IngestState ProgressState} {rows : List (Chunk × Embedding)}
    (h : A.Pulling remaining st rows s) : A.Unfinished s :=
  .inr ⟨rows, h.writing⟩

theorem flushBatch_safe {remaining : List Chunk}
    {st : IngestState ProgressState} {rows : List (Chunk × Embedding)}
    (hA : A.Sound) (h : A.Pulling remaining st rows s) :
    A.Safe
      (fun st' s' =>
        st'.batch = [] ∧ exists rows', A.Pulling remaining st' rows' s')
      A.Interrupted (flushBatch A.row.documentId st) s := by
  have hunfinished := unfinished_of_pulling h
  unfold flushBatch
  split
  · next hempty => exact ⟨List.isEmpty_iff.mp hempty, rows, h⟩
  · apply safe_bind
    refine ingest_safe hA ⟨True.intro, hunfinished⟩ True.intro hunfinished ?_
    intro now embeddings s' heq _
    cases heq
    have hlength : st.batch.length =
        (A.model.embedTexts (st.batch.map Chunk.text)).length := by
      rw [A.model.length_embedTexts, List.length_map]
    have hfst := List.map_fst_zip (Nat.le_of_eq hlength)
    have hall : (rows ++ st.batch.zip
        (A.model.embedTexts (st.batch.map Chunk.text))).map Prod.fst =
          rows.map Prod.fst ++ st.batch := by
      rw [List.map_append, hfst]
    have hprefix : rows.map Prod.fst ++ st.batch <+: A.chunks := by
      rw [← h.sequence]
      exact List.prefix_append _ _
    apply safe_bind
    rw [h.written]
    refine safe_mono (insertChunks_safe hA h.writing ?_ hA.embedded) ?_ ?_
    · rw [hall]
      exact hprefix
    · intro _ s' hwriting
      refine ⟨rfl, _, hwriting, ?_, ?_, ?_, ?_⟩
      · rw [hall, List.append_nil]
        exact h.sequence
      · rw [List.length_append]
      · rw [List.length_append, List.length_zip, ← hlength, Nat.min_self]
        exact h.seen
      · exact h.counted
    · exact fun _ _ hraised => hraised

theorem pullChunks_safe {events : List ChunkEvent}
    {st : IngestState ProgressState} {rows : List (Chunk × Embedding)}
    (hA : A.Sound) (h : A.Pulling (chunksIn events) st rows s) :
    A.Safe (fun st' s' => exists rows', A.Pulling [] st' rows' s') A.Interrupted
      (pullChunks (onProgress A.row.documentId) A.row.documentId events st)
      s := by
  induction events generalizing st rows s with
  | nil =>
      have hunfinished := unfinished_of_pulling h
      apply safe_bind
      refine ingest_safe hA ⟨True.intro, hunfinished⟩ True.intro hunfinished ?_
      intro now a s' heq _
      cases heq
      exact ⟨rows, h⟩
  | cons event rest ih =>
      have hunfinished := unfinished_of_pulling h
      cases event with
      | onPage pagesDone pageCount chunksSoFar =>
          apply safe_bind
          refine ingest_safe hA ⟨True.intro, hunfinished⟩ True.intro hunfinished ?_
          intro now a s' heq _
          cases heq
          apply safe_bind
          refine safe_mono (report_writing hA _ _ _ _ h.writing) ?_ ?_
          · intro p s' hall
            rcases hall with ⟨hwriting, hcount⟩
            refine ih ⟨hwriting, h.sequence, h.written, h.seen, ?_⟩
            rw [hcount]
            exact h.counted
          · exact fun _ _ hraised => hraised
      | chunk c =>
          have hnext : A.Pulling (chunksIn rest)
              { st with batch := st.batch ++ [c], seen := st.seen + 1 }
              rows s := by
            refine ⟨h.writing, ?_, h.written, ?_, ?_⟩
            · rw [← h.sequence, chunksIn_chunk]
              simp
            · rw [h.seen, List.length_append]
              rfl
            · exact Nat.le_succ_of_le h.counted
          apply safe_bind
          refine ingest_safe hA ⟨True.intro, hunfinished⟩ True.intro hunfinished ?_
          intro now a s' heq _
          cases heq
          dsimp only
          split
          · apply safe_bind
            refine safe_mono (flushBatch_safe hA hnext) ?_ ?_
            · intro st' s' hall
              rcases hall with ⟨_, rows', hflushed⟩
              apply safe_bind
              refine safe_mono (report_writing hA _ _ _ _ hflushed.writing)
                ?_ ?_
              · intro p s'' hall
                rcases hall with ⟨hwriting, hcount⟩
                refine ih ⟨hwriting, hflushed.sequence, hflushed.written,
                  hflushed.seen, ?_⟩
                rw [hcount]
                exact count_le hflushed.counted (Nat.le_refl _)
              · exact fun _ _ hraised => hraised
            · exact fun _ _ hraised => hraised
          · exact ih hnext

theorem embedAndInsert_safe {file : LocalFile} {pageCount : Nat}
    {start : ProgressState} (hA : A.Sound) (h : A.Writing [] s)
    (hfile : file.pdf = A.start.blob) (hstart : start.chunkCount = 0) :
    A.Safe (fun p s' => A.Written s' ∧ p.chunkCount = A.chunks.length) A.Interrupted
      (embedAndInsert (onProgress A.row.documentId) A.row.documentId pageCount
        file noneExcluded start) s := by
  apply safe_bind
  refine safe_mono (report_writing hA _ _ _ _ h) ?_ fun _ _ hraised => hraised
  intro p s hall'
  rcases hall' with ⟨h, hp⟩
  rw [count_chunking, hstart] at hp
  apply safe_bind
  refine safe_mono (report_writing hA _ _ _ _ h) ?_ fun _ _ hraised => hraised
  intro p' s hall'
  rcases hall' with ⟨h, hp'⟩
  rw [count_zero, hp] at hp'
  have hpulling : A.Pulling (chunksIn (chunkPdf noneExcluded file.pdf))
      { written := 0, seen := 0, batch := [], progress := p' } [] s := by
    refine ⟨h, ?_, rfl, rfl, Nat.le_of_eq hp'⟩
    rw [hfile]
    rfl
  apply safe_bind
  refine safe_mono (pullChunks_safe hA hpulling) ?_ fun _ _ hraised => hraised
  intro st s hall'
  rcases hall' with ⟨rows, hpulled⟩
  split
  · apply safe_bind
    refine safe_mono (flushBatch_safe hA hpulled) ?_ fun _ _ hraised => hraised
    intro st' s hall'
    rcases hall' with ⟨hbatch, rows', hflushed⟩
    have hall : rows'.map Prod.fst = A.chunks := by
      rw [← hflushed.sequence, hbatch, List.append_nil, List.append_nil]
    have hlength : st'.written = A.chunks.length := by
      rw [hflushed.written, ← hall, List.length_map]
    have hseen : st'.seen = st'.written := by
      rw [hflushed.seen, hbatch, hflushed.written]
      rfl
    apply safe_bind
    refine safe_mono (report_writing hA _ _ _ _ hflushed.writing) ?_
      fun _ _ hraised => hraised
    intro p s hall'
    rcases hall' with ⟨h, hp⟩
    have hle : p.chunkCount ≤ st'.written := by
      rw [hp, ← hseen]
      exact count_le hflushed.counted (Nat.le_refl _)
    refine safe_mono (report_writing hA _ _ _ _ h) ?_ fun _ _ hraised => hraised
    intro p' s hall'
    rcases hall' with ⟨h, hp'⟩
    refine ⟨⟨rows', h, hall⟩, ?_⟩
    rw [hp', count_indexing hle, hlength]
  · have hunfinished := unfinished_of_pulling hpulled
    exact ⟨hunfinished, hA.own _ hunfinished⟩

theorem ingestPdf_safe {file : LocalFile} {start : ProgressState}
    (hA : A.Sound) (h : A.Before s) (hfile : file.pdf = A.start.blob)
    (hstart : start.chunkCount = 0) :
    A.Safe (fun out s' => A.Written s' ∧ out.2.chunkCount = A.chunks.length)
      A.Interrupted
      (ingestPdf (onProgress A.row.documentId) file noneExcluded A.row.docKey
        A.row.pdfPath start) s := by
  apply safe_bind
  refine safe_mono (report_before hA _ _ _ _ h) ?_ fun _ _ hraised => hraised
  intro p s hall
  rcases hall with ⟨h, hp⟩
  rw [count_reading, hstart] at hp
  apply safe_bind
  refine ingest_safe hA ⟨True.intro, .inl h⟩ True.intro (.inl h) ?_
  intro now pageCount s' heq _
  cases heq
  apply safe_bind
  refine safe_mono (report_before hA _ _ _ _ h) ?_ fun _ _ hraised => hraised
  intro p' s hall
  rcases hall with ⟨h, hp'⟩
  rw [count_reading, hp] at hp'
  apply safe_bind
  refine ingest_safe hA ⟨⟨rfl, rfl⟩, .inl h⟩ True.intro (.inl h) ?_
  intro now documentId s' heq _
  cases heq
  have hupserted : A.Before
      { s with
        document := s.document.upserted A.row.pdfPath file.pdf.pages.length } :=
    ⟨h.document, h.chunks, h.job, h.blob⟩
  apply safe_bind
  refine ingest_safe hA ⟨rfl, .inl hupserted⟩ True.intro (.inl hupserted) ?_
  intro now a s' heq hallow
  cases heq
  have hwriting : A.Writing []
      { s with
        document := s.document.upserted A.row.pdfPath file.pdf.pages.length
        chunks := [] } := by
    refine ⟨?_, rfl, h.job, h.blob, List.nil_prefix, ?_, ?_⟩
    · unfold upserted
      rw [hfile]
      exact Document.unstaged_upserted h.document _ _
    · intro row hrow
      cases hrow
    · exact hA.cleared hupserted hallow
  apply safe_bind
  refine safe_mono (embedAndInsert_safe hA hwriting hfile hp') ?_
    fun _ _ hraised => hraised
  intro p'' s'' hall
  rcases hall with ⟨hwritten, hcount⟩
  exact ⟨hwritten, hcount⟩

/-!
# `process_job`
-/

theorem ingestFile_safe {file : LocalFile} (hA : A.Sound) (h : A.Before s)
    (hfile : file.pdf = A.start.blob) :
    A.Safe (fun n s' => A.Written s' ∧ n = A.chunks.length) A.Interrupted
      (ingestFile A.row file) s := by
  apply safe_bind
  refine ingest_safe hA ⟨True.intro, .inl h⟩ True.intro (.inl h) ?_
  intro now pageCount s' heq _
  cases heq
  split
  · exact ⟨.inl h, hA.own _ (.inl h)⟩
  · apply safe_bind
    refine safe_mono (ingestPdf_safe hA h hfile rfl) ?_
      fun _ _ hraised => hraised
    intro out s' hall
    rcases hall with ⟨hwritten, hcount⟩
    exact ⟨hwritten, hcount⟩

theorem closeLocal_safe {exc : Exn} {alpha : Type}
    {post : alpha -> Slice -> Prop} (hA : A.Sound) (h : A.Interrupted exc s) :
    A.Safe post A.Interrupted
      (ask .closeLocal >>= fun _ => (Program.raise exc : Proc alpha)) s := by
  apply safe_bind
  refine ingest_safe hA ⟨True.intro, h.left⟩ True.intro h.left ?_
  intro now a s' heq _
  cases heq
  exact h

theorem unfinished_of_written (h : A.Written s) : A.Unfinished s := by
  rcases h with ⟨rows, hwriting, _⟩
  exact .inr ⟨rows, hwriting⟩

theorem withOpenLocal_safe (hA : A.Sound) (h : A.Before s) :
    A.Safe (fun n s' => A.Written s' ∧ n = A.chunks.length) A.Interrupted
      (withOpenLocal A.row.pdfPath (ingestFile A.row)) s := by
  apply safe_bind
  refine ingest_safe hA ⟨rfl, .inl h⟩ True.intro (.inl h) ?_
  intro now file s' heq _
  cases heq
  apply safe_bind
  apply safe_handle
  refine safe_mono (ingestFile_safe hA h h.blob) ?_ ?_
  · intro n s hall
    rcases hall with ⟨hwritten, hcount⟩
    have hunfinished := unfinished_of_written hwritten
    apply safe_bind
    refine ingest_safe hA ⟨True.intro, hunfinished⟩ True.intro hunfinished ?_
    intro now a s' heq _
    cases heq
    exact ⟨hwritten, hcount⟩
  · intro exc s hinterrupted
    exact closeLocal_safe hA hinterrupted

theorem ingestJob_safe (hA : A.Sound) (h : A.Before s) :
    A.Safe (fun _ s' => A.Completed s') A.Raised (ingestJob A.row) s := by
  apply safe_bind
  refine safe_mono (withOpenLocal_safe hA h) ?_ ?_
  · intro n s hall
    rcases hall with ⟨hwritten, hcount⟩
    have hunreported : A.Unreported s := .inl (unfinished_of_written hwritten)
    subst hcount
    apply safe_bind
    refine try_safe hA ⟨rfl, hwritten, rfl⟩ True.intro hunreported ?_
    intro now a s' heq _
    cases heq
    have hready : A.Ready
        { s with document := s.document.markedReady A.chunks.length } :=
      ⟨s, hwritten, rfl⟩
    refine try_safe hA ⟨rfl, hready⟩ True.intro (.inr hready) ?_
    intro now a s' heq _
    cases heq
    exact ⟨_, hready, rfl⟩
  · exact fun _ _ hinterrupted => raised_of_interrupted hinterrupted

theorem unguarded_safe {r : Request} {post : Reply r -> Slice -> Prop}
    (hA : A.Sound) (hreq : A.req r s) (hunguarded : Unguarded r)
    (h : A.Pending s)
    (hpost : forall now a s', s.exec A.model A.row now r = (.ok a, s') ->
      post a s') :
    A.Safe post (fun _ s' => A.Escaped s') (ask r) s :=
  ask_safe hreq (fun now a s' heq _ => hpost now a s' heq)
    fun _ hallow => ⟨h, hA.escapes hunguarded hallow⟩

theorem failJob_safe {exc : Exn} (hA : A.Sound) (error : String)
    (h : A.Raised exc s) :
    A.Safe
      (fun willRetry s' =>
        if willRetry = true then A.Requeued s' else A.DeadLettered exc s')
      (fun _ s' => A.Escaped s') (failJob A.row.id error) s := by
  apply safe_bind
  refine unguarded_safe hA ⟨rfl, h.left⟩ True.intro (.inl h.left) ?_
  intro now row s' heq
  cases heq
  dsimp only
  split
  · next hlt =>
      apply safe_bind
      refine unguarded_safe hA ⟨rfl, h.left, hlt⟩ True.intro (.inl h.left)
        ?_
      intro now a s' heq
      cases heq
      exact ⟨s, exc, now, error, h, hlt, rfl⟩
  · next hge =>
      have hspent := Nat.not_lt.mp hge
      apply safe_bind
      refine unguarded_safe hA ⟨rfl, h.left, hspent⟩ True.intro (.inl h.left)
        ?_
      intro now a s' heq
      cases heq
      exact ⟨s, error, h, hspent, rfl⟩

theorem failGeneric_safe {exc : Exn} (hA : A.Sound) (h : A.Raised exc s) :
    A.Safe (fun _ s' => A.Returned s') (fun _ s' => A.Escaped s')
      (failJob A.row.id exc.message >>= fun willRetry =>
        if willRetry = true then
          pure ()
        else
          ask (.markDocumentFailed A.row.documentId
            (truncate 500 exc.message))) s := by
  apply safe_bind
  refine safe_mono (failJob_safe hA _ h) ?_ fun _ _ hescaped => hescaped
  intro willRetry s' hreport
  cases willRetry with
  | true => exact .inr (.inl hreport)
  | false =>
      have hdead : exists exc, A.DeadLettered exc s' := ⟨exc, hreport⟩
      refine unguarded_safe hA ⟨rfl, hdead⟩ True.intro (.inr hdead) ?_
      intro now a s'' heq
      cases heq
      exact .inr (.inr (.inl ⟨s', exc, _, hreport, rfl⟩))

theorem ingestFailed_safe {exc : Exn} (hA : A.Sound) (h : A.Raised exc s) :
    A.Safe (fun _ s' => A.Returned s') (fun _ s' => A.Escaped s')
      (ingestFailed A.row exc) s := by
  cases exc with
  | storageError key =>
      apply safe_bind
      refine safe_mono (failJob_safe hA _ h) ?_ fun _ _ hescaped => hescaped
      intro willRetry s' hreport
      cases willRetry with
      | true => exact .inr (.inl hreport)
      | false => exact .inr (.inr (.inr ⟨key, hreport⟩))
  | exception text => exact failGeneric_safe hA h
  | http statusCode detail => exact failGeneric_safe hA h

theorem before_start : A.Before A.start := ⟨rfl, rfl, rfl, rfl⟩

/-- Every attempt goes by the outline. -/
theorem processJob_safe (hA : A.Sound) :
    A.Safe (fun _ s' => A.Returned s') (fun _ s' => A.Escaped s')
      (processJob A.row) A.start := by
  have hbefore : A.Before A.start := before_start
  apply safe_bind
  refine unguarded_safe hA ⟨True.intro, .inl hbefore⟩ True.intro
    (.inl (.inl (.inl hbefore))) ?_
  intro now a s heq
  cases heq
  apply safe_bind
  refine unguarded_safe hA ⟨rfl, .inl hbefore⟩ True.intro
    (.inl (.inl (.inl hbefore))) ?_
  intro now present s heq
  cases heq
  apply safe_handle
  refine safe_mono (ingestJob_safe hA hbefore) ?_ ?_
  · exact fun _ _ hcompleted => .inl hcompleted
  · exact fun exc s hraised => ingestFailed_safe hA hraised

end Rules

end Attempt
end ChatDoc
