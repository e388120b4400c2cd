import ChatDoc.Eval.Cache
import ChatDoc.Jobs.Batches
import ChatDoc.Jobs.Ready

/-!
# Ingestion for the evaluation

`ensure_ingested` of `eval/runner_v2.py` with `ingest_pdf`, call by call.  An
evaluation run may be killed between any two calls, and a later one starts with
the database as it was left.
-/

namespace ChatDoc

open Foundation

/-!
# Calls
-/

/-- The arguments of `ensure_ingested`. -/
structure IngestCall where
  docName : String
  excludedPages : List Int
deriving DecidableEq

/-- `"-".join(str(p) for p in sorted(excluded_pages))`. -/
def joinedPages (pages : List Int) : String :=
  "-".intercalate (pages.dedup.mergeSort.map fun p => String.ofList (intText p))

def ablatedDocKey (docName : String) (excludedPages : List Int) : String :=
  if excludedPages = [] then docName
  else s!"{docName}__ablate_{joinedPages excludedPages}"

/-- The files under `PDF_DIR`, by document name. -/
abbrev PdfDir := String -> Option Pdf

/-- `on_progress` is not given. -/
def noReport : Unit -> Stage -> Nat -> Nat -> Proc Unit := fun _ _ _ _ => pure ()

namespace IngestCall

variable (c : IngestCall)

def key : String := ablatedDocKey c.docName c.excludedPages

def excludes : Nat -> Bool := fun pageNum => decide ((pageNum : Int) ∈ c.excludedPages)

def path : String := s!"{c.docName}.pdf"

def sequence (pdf : Pdf) : List Chunk := chunksIn (chunkPdf c.excludes pdf)

def content (pdfs : PdfDir) : Option (List Chunk) := (pdfs c.docName).map c.sequence

def ingest (pdfs : PdfDir) : Proc (Nat × Unit) :=
  match pdfs c.docName with
  | some pdf => ingestPdf noReport ⟨c.path, pdf⟩ c.excludes c.key c.path ()
  | none => Program.raise (.exception s!"no such file: '{c.path}'")

theorem quiet_noReport : QuietReport noReport := fun _ _ _ _ => True.intro

theorem ingest_inBatches {M : EmbeddingModel} {pdfs : PdfDir} {pdf : Pdf}
    (hpdf : pdfs c.docName = some pdf) {w w' : World} {events : List (Program.Event service)}
    {rest : Proc (Nat × Unit)}
    (hsteps : Program.Steps (World.sem M) (c.ingest pdfs) w events rest w') :
    InBatches M c.excludes pdf events := by
  unfold ingest at hsteps
  rw [hpdf] at hsteps
  have hkeeps : BatchSafe M c.excludes pdf
      (fun _ past' _ => InBatches M c.excludes pdf past')
      (ingestPdf noReport ⟨c.path, pdf⟩ c.excludes c.key c.path ()) [] w :=
    ingestPdf_batchSafe quiet_noReport ⟨rfl, rfl, rfl⟩
  exact Program.inv_of_steps hsteps hkeeps

end IngestCall

/-- `get_ingested_document_id`: the document of this name, if it has a chunk. -/
def Database.getIngestedDocumentId (db : Database) (docName : String) : Option Nat :=
  (db.findDocument docName).bind fun entry =>
    if db.chunksOf entry.1 ≠ [] then some entry.1 else none

/-!
# The machine
-/

/-- The world, the ingestion that is under way, and what the last call of
`ensure_ingested` returned. -/
structure Resumption where
  world : World
  running : Option (IngestCall × Proc (Nat × Unit))
  returned : Option (IngestCall × Nat)

inductive ResumeAction where
  | ensure (c : IngestCall)
  | step (elapsed : Time) (fault : Option Exn)
  | leave
  | kill

namespace Resumption

def init : Resumption where
  world :=
    { db := .empty
      blobs := fun _ => none
      now := 0 }
  running := none
  returned := none

def act (M : EmbeddingModel) (pdfs : PdfDir) (s : Resumption) :
    ResumeAction -> Option Resumption
  | .ensure c =>
      match s.running with
      | some _ => none
      | none =>
          match s.world.db.getIngestedDocumentId c.key with
          | some existing => some ⟨s.world, none, some (c, existing)⟩
          | none => some ⟨s.world, some (c, c.ingest pdfs), none⟩
  | .step elapsed fault =>
      match s.running with
      | some (c, .call r next) =>
          let out := (s.world.elapse elapsed).answer M fault r
          some ⟨out.2, some (c, next out.1), none⟩
      | _ => none
  | .leave =>
      match s.running with
      | some (c, .ret out) => some ⟨s.world, none, some (c, out.1)⟩
      | some (_, .raise _) => some ⟨s.world, none, none⟩
      | _ => none
  | .kill => some ⟨s.world, none, none⟩

/-- The action takes the ingestion that is under way out of the machine before
it has returned. -/
def stops (s : Resumption) : ResumeAction -> Bool
  | .leave =>
      match s.running with
      | some (_, .raise _) => true
      | _ => false
  | .kill => s.running.isSome
  | _ => false

def Complete (pdfs : PdfDir) (db : Database) (c : IngestCall) (id : Nat) : Prop :=
  exists chunks, c.content pdfs = some chunks ∧
    (db.chunksOf id).map ChunkRow.numbered = chunks.zipIdx.map Prod.swap

def ReturnsComplete (pdfs : PdfDir) (s : Resumption) : Prop :=
  forall c id, s.returned = some (c, id) -> Complete pdfs s.world.db c id

def PartlyWritten (pdfs : PdfDir) (s : Resumption) : Prop :=
  exists c p, s.running = some (c, p) ∧
    exists id d, s.world.db.findDocument c.key = some (id, d) ∧
      s.world.db.chunksOf id ≠ [] ∧
        exists chunks, c.content pdfs = some chunks ∧
          (s.world.db.chunksOf id).length < chunks.length

def Uncut (pdfs : PdfDir) (s : Resumption) (a : ResumeAction) : Prop :=
  s.stops a = true -> ¬ s.PartlyWritten pdfs

def Asked (trace : List (Resumption × ResumeAction)) (c : IngestCall) : Prop :=
  exists s, (s, .ensure c) ∈ trace

/-- Two calls that use one key ask for the same chunks. -/
def KeysApart (pdfs : PdfDir) (trace : List (Resumption × ResumeAction)) : Prop :=
  forall c c', Asked trace c -> Asked trace c' -> c.key = c'.key ->
    c.content pdfs = c'.content pdfs

end Resumption
end ChatDoc
