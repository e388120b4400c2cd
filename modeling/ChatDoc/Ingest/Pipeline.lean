import ChatDoc.Service.World

/-!
# The ingest pipeline

`chunk_pdf` of `ingest/chunker.py` as the sequence of things its consumer sees,
and `ingest_pdf` of `ingest/pipeline.py`, which pulls chunks off that generator
and embeds and writes them batch by batch.
-/

namespace ChatDoc

open Foundation

def maxPageCount : Nat := 500

def embedBatch : Nat := 32

/-!
# The chunk generator

Between two chunks the generator calls `on_page`, and it ends by raising
`EmptyTextLayerError` when no page had text.
-/

inductive ChunkEvent where
  | chunk (c : Chunk)
  | onPage (pagesDone pageCount chunksSoFar : Nat)
deriving DecidableEq

def chunkPages (excludedPages : Nat -> Bool) (pageCount : Nat) :
    Nat -> Nat -> List PageContent -> List ChunkEvent
  | _, _, [] => []
  | pageNum, chunksSoFar, page :: rest =>
      if excludedPages pageNum then
        .onPage (pageNum + 1) pageCount chunksSoFar ::
          chunkPages excludedPages pageCount (pageNum + 1) chunksSoFar rest
      else
        page.chunks.map .chunk ++
          .onPage (pageNum + 1) pageCount (chunksSoFar + page.chunks.length) ::
            chunkPages excludedPages pageCount (pageNum + 1)
              (chunksSoFar + page.chunks.length) rest

def chunkPdf (excludedPages : Nat -> Bool) (pdf : Pdf) : List ChunkEvent :=
  chunkPages excludedPages pdf.pages.length 0 0 pdf.pages

/-- Whether some page that is not excluded has a text layer. -/
def anyText (excludedPages : Nat -> Bool) (pdf : Pdf) : Bool :=
  pdf.pages.zipIdx.any fun page => !excludedPages page.2 && page.1.hasText

def emptyTextLayerError (path : String) : Exn :=
  .exception (path ++
    ": no extractable text on any non-excluded page (scanned PDF with no OCR is out of scope per PROJECT_PLAN.md).")

def chunksIn (events : List ChunkEvent) : List Chunk :=
  events.filterMap fun
    | .chunk c => some c
    | .onPage _ _ _ => none

@[simp] theorem chunksIn_nil : chunksIn [] = [] := rfl

@[simp] theorem chunksIn_chunk (c : Chunk) (rest : List ChunkEvent) :
    chunksIn (.chunk c :: rest) = c :: chunksIn rest := rfl

@[simp] theorem chunksIn_onPage (pagesDone pageCount chunksSoFar : Nat)
    (rest : List ChunkEvent) :
    chunksIn (.onPage pagesDone pageCount chunksSoFar :: rest) =
      chunksIn rest := rfl

theorem chunksIn_append (front back : List ChunkEvent) :
    chunksIn (front ++ back) = chunksIn front ++ chunksIn back :=
  List.filterMap_append

/-- No page is excluded from a document that a user uploads. -/
def noneExcluded : Nat -> Bool := fun _ => false

def Pdf.chunks (pdf : Pdf) : List Chunk :=
  chunksIn (chunkPdf noneExcluded pdf)

/-!
# `insert_chunks` and `ingest_pdf`

The progress callback is a parameter that carries its own state, since the
caller decides what to do with a report.
-/

def insertChunks (documentId : Nat) :
    List (Chunk × Embedding) -> Nat -> Proc Unit
  | [], _ => pure ()
  | row :: rest, i => do
      ask (.insertChunk
        { documentId := documentId
          chunkIndex := i
          chunk := row.1
          embedding := row.2 })
      insertChunks documentId rest (i + 1)

structure IngestState (progress : Type) where
  written : Nat
  seen : Nat
  batch : List Chunk
  progress : progress

section Ingest

variable {progress : Type}

def flushBatch (documentId : Nat) (st : IngestState progress) :
    Proc (IngestState progress) :=
  if st.batch.isEmpty then
    pure st
  else do
    let embeddings ← ask (.embedTexts (st.batch.map Chunk.text))
    let rows := st.batch.zip embeddings
    insertChunks documentId rows st.written
    pure { st with written := st.written + rows.length, batch := [] }

variable (report : progress -> Stage -> Nat -> Nat -> Proc progress)

/-- The `while True` loop that pulls chunks off the generator. -/
def pullChunks (documentId : Nat) :
    List ChunkEvent -> IngestState progress -> Proc (IngestState progress)
  | [], st => do
      ask .nextChunk
      pure st
  | .onPage pagesDone pageCount _ :: rest, st => do
      ask .nextChunk
      let p ← report st.progress .chunking pagesDone pageCount
      pullChunks documentId rest { st with progress := p }
  | .chunk c :: rest, st => do
      ask .nextChunk
      let st := { st with batch := st.batch ++ [c], seen := st.seen + 1 }
      if st.batch.length ≥ embedBatch then
        let st ← flushBatch documentId st
        let p ← report st.progress .embedding st.written st.seen
        pullChunks documentId rest { st with progress := p }
      else
        pullChunks documentId rest st

/-- `ingest_pdf` after the old chunks are gone: chunk, embed and insert. -/
def embedAndInsert (documentId pageCount : Nat) (file : LocalFile)
    (excludedPages : Nat -> Bool) (start : progress) : Proc progress := do
  let p ← report start .chunking 0 pageCount
  let p ← report p .embedding 0 0
  let st ← pullChunks report documentId (chunkPdf excludedPages file.pdf)
    { written := 0, seen := 0, batch := [], progress := p }
  if anyText excludedPages file.pdf then
    let st ← flushBatch documentId st
    let p ← report st.progress .embedding st.written st.seen
    report p .indexing st.written st.written
  else
    Program.raise (emptyTextLayerError file.path)

def ingestPdf (file : LocalFile) (excludedPages : Nat -> Bool)
    (docName sourcePath : String) (start : progress) :
    Proc (Nat × progress) := do
  let p ← report start .reading 0 0
  let pageCount ← ask (.pymupdfOpen file)
  let p ← report p .reading pageCount pageCount
  let documentId ← ask (.upsertDocument docName sourcePath pageCount)
  ask (.deleteChunksForDocument documentId)
  let p ← embedAndInsert report documentId pageCount file excludedPages p
  pure (documentId, p)

end Ingest
end ChatDoc
