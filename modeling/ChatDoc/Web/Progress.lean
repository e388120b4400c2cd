import ChatDoc.Jobs.Worker
import ChatDoc.Foundation.Transition
import Mathlib.Algebra.Order.Field.Rat

/-!
# Ingest progress

`IngestProgress.tsx` over the row that the progress writer of the worker keeps,
and an ingest that is watched: it goes on call by call, and the page polls the
row at any time.  The fractions are exact.
-/

namespace ChatDoc

open Foundation

/-!
# The fraction of a row
-/

/-- `STAGES`: the stages with a share of the bar, and their weights. -/
def progressStages : List (Stage × Rat) :=
  [(.reading, 4 / 100), (.chunking, 36 / 100), (.embedding, 1 / 2), (.indexing, 1 / 10)]

/-- `ORDER`. -/
def stageOrder : Stage -> Int
  | .queued => -1
  | .reading => 0
  | .chunking => 1
  | .embedding => 2
  | .indexing => 3
  | .done => 4

/-- In exact arithmetic: the doubles of the page differ from it by less than any pixel shows. -/
def targetFraction (stage : Option Stage) (current total : Nat) : Rat :=
  let active := stageOrder (stage.getD .queued)
  if active < 0 then 0
  else if progressStages.length ≤ active then 1
  else
    let acc := progressStages.zipIdx.foldl (fun acc entry =>
      if (entry.2 : Int) < active then acc + entry.1.2
      else if (entry.2 : Int) = active then
        acc + entry.1.2 * (if 0 < total then min ((current : Rat) / total) 1 else 0)
      else acc) 0
    min acc 1

def Document.fraction (d : Document) : Rat :=
  targetFraction d.stage d.stageCurrent d.stageTotal

/-- `useMonotonic`: the reference is empty before the first rendering. -/
def useMonotonic (highWater : Option Rat) (fraction : Rat) : Rat :=
  max (highWater.getD fraction) fraction

/-!
# The work that is done
-/

/-- How often the chunk generator has been resumed, how many chunks are embedded,
and whether indexing has been reported. -/
structure IngestCounts where
  pulled : Nat
  embedded : Nat
  indexing : Bool
deriving DecidableEq

namespace IngestCounts

def start : IngestCounts := ⟨0, 0, false⟩

def after (c : IngestCounts) (r : Request) (returned : Bool) : IngestCounts :=
  match r with
  | .nextChunk => if returned then { c with pulled := c.pulled + 1 } else c
  | .embedTexts texts =>
      if returned then { c with embedded := c.embedded + texts.length } else c
  | .updateDocumentStage _ .indexing _ _ => { c with indexing := true }
  | _ => c

end IngestCounts

def ChunkEvent.isOnPage : ChunkEvent -> Bool
  | .chunk _ => false
  | .onPage _ _ _ => true

/-- The pages that the generator has called `on_page` for. -/
def pagesChunked (pdf : Pdf) (c : IngestCounts) : Nat :=
  ((chunkPdf noneExcluded pdf).take c.pulled).countP ChunkEvent.isOnPage

def shareDone (done whole : Nat) : Rat := if whole = 0 then 1 else done / whole

def workDone (pdf : Pdf) (c : IngestCounts) : Rat :=
  4 / 100 + 36 / 100 * shareDone (pagesChunked pdf c) pdf.pages.length +
    1 / 2 * shareDone c.embedded pdf.chunks.length + 1 / 10 * (if c.indexing then 1 else 0)

def AllEmbedded (pdf : Pdf) (c : IngestCounts) : Prop :=
  pagesChunked pdf c = pdf.pages.length ∧ c.embedded = pdf.chunks.length

instance (pdf : Pdf) (c : IngestCounts) : Decidable (AllEmbedded pdf c) :=
  inferInstanceAs (Decidable (_ ∧ _))

/-!
# An ingest that is watched
-/

structure WatchedIngest where
  world : World
  counts : IngestCounts
  running : Proc (Nat × ProgressState)
  highWater : Option Rat

inductive WatchAction where
  | step (elapsed : Time) (fault : Option Exn)
  | poll

def returned {α : Type} : Except Exn α -> Bool
  | .ok _ => true
  | .error _ => false

namespace WatchedIngest

/-- The ingest of a file for a document, with its progress writer. -/
def start (w : World) (documentId : Nat) (file : LocalFile) (docName sourcePath : String) :
    WatchedIngest where
  world := w
  counts := .start
  running := ingestPdf (onProgress documentId) file noneExcluded docName sourcePath .start
  highWater := none

def act (M : EmbeddingModel) (documentId : Nat) (s : WatchedIngest) :
    WatchAction -> Option WatchedIngest
  | .step elapsed fault =>
      match s.running with
      | .call r next =>
          let out := (s.world.elapse elapsed).answer M fault r
          some { s with
            world := out.2
            counts := s.counts.after r (returned out.1)
            running := next out.1 }
      | _ => none
  | .poll =>
      match s.world.db.documents.lookup documentId with
      | some d => some { s with highWater := some (useMonotonic s.highWater d.fraction) }
      | none => some s

/-- The bar shows no more than the work that is done. -/
def Honest (pdf : Pdf) (s : WatchedIngest) : Prop :=
  forall shown, s.highWater = some shown -> shown ≤ workDone pdf s.counts

/-- A poll that finds the row at embedding comes when everything is embedded, or
finds the first such report, with chunks embedded that outweigh the pages that are
not chunked. -/
def PollsLate (pdf : Pdf) (documentId : Nat) (s : WatchedIngest) : WatchAction -> Prop
  | .step _ _ => True
  | .poll =>
      forall d, s.world.db.documents.lookup documentId = some d ->
        d.stage = some .embedding ->
          AllEmbedded pdf s.counts ∨
            (d.stageTotal = 0 ∧
              36 / 100 * (1 - shareDone (pagesChunked pdf s.counts) pdf.pages.length) ≤
                1 / 2 * shareDone s.counts.embedded pdf.chunks.length)

end WatchedIngest
end ChatDoc
