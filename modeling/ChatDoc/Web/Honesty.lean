import ChatDoc.Web.Progress
import ChatDoc.Service.Effects
import ChatDoc.Foundation.Search
import Mathlib.Tactic.Linarith
import Mathlib.Tactic.Positivity
import Mathlib.Tactic.Ring

/-!
# Honest progress

The row names the stages in the order of the bar, but the ingest reports that it is
embedding before it has chunked a page, and from then on the two stages take turns.
The bar counts chunking as finished as soon as the row says embedding; and the
total of the report is what has been chunked so far, all of which is embedded.
-/

namespace ChatDoc

open Foundation
open Foundation.Program

/-!
# The pages of the generator
-/

theorem countP_chunks (chunks : List Chunk) :
    (chunks.map ChunkEvent.chunk).countP ChunkEvent.isOnPage = 0 := by
  rw [List.countP_eq_zero]
  intro event hevent
  rcases List.mem_map.mp hevent with ⟨c, _, rfl⟩
  exact Bool.false_ne_true

theorem countP_chunkPages (excluded : Nat -> Bool) (pageCount pageNum chunksSoFar : Nat)
    (pages : List PageContent) :
    (chunkPages excluded pageCount pageNum chunksSoFar pages).countP ChunkEvent.isOnPage =
      pages.length := by
  induction pages generalizing pageNum chunksSoFar with
  | nil => rfl
  | cons page rest ih =>
      unfold chunkPages
      split
      · rw [List.countP_cons, ih]
        rfl
      · rw [List.countP_append, countP_chunks, List.countP_cons, ih, Nat.zero_add]
        rfl

theorem split_after_chunks {chunks : List Chunk} {tail consumed rest : List ChunkEvent}
    {pagesDone pageCount chunksSoFar : Nat}
    (h : chunks.map ChunkEvent.chunk ++ tail =
      consumed ++ .onPage pagesDone pageCount chunksSoFar :: rest) :
    exists front, consumed = chunks.map ChunkEvent.chunk ++ front ∧
      tail = front ++ .onPage pagesDone pageCount chunksSoFar :: rest := by
  apply split_behind _ h
  intro hmem
  rcases List.mem_map.mp hmem with ⟨c, _, hc⟩
  cases hc

theorem onPage_of_chunkPages {excluded : Nat -> Bool} {pageCount pageNum chunksSoFar : Nat}
    {pages : List PageContent} {consumed rest : List ChunkEvent}
    {pagesDone pageCount' chunksSoFar' : Nat}
    (h : chunkPages excluded pageCount pageNum chunksSoFar pages =
      consumed ++ .onPage pagesDone pageCount' chunksSoFar' :: rest) :
    pagesDone = pageNum + consumed.countP ChunkEvent.isOnPage + 1 ∧
      pageCount' = pageCount := by
  induction pages generalizing pageNum chunksSoFar consumed with
  | nil =>
      have hlength := congrArg List.length h
      rw [chunkPages, List.length_append, List.length_cons, List.length_nil] at hlength
      omega
  | cons page pages ih =>
      have hpage {front : List ChunkEvent} {chunksSoFar : Nat}
          (h : .onPage (pageNum + 1) pageCount chunksSoFar ::
              chunkPages excluded pageCount (pageNum + 1) chunksSoFar pages =
            front ++ .onPage pagesDone pageCount' chunksSoFar' :: rest) :
          pagesDone = pageNum + front.countP ChunkEvent.isOnPage + 1 ∧
            pageCount' = pageCount := by
        cases front with
        | nil =>
            cases h
            exact ⟨rfl, rfl⟩
        | cons event front =>
            rw [List.cons_append, List.cons.injEq] at h
            rcases ih h.2 with ⟨hdone, hcount⟩
            rw [← h.1, List.countP_cons, hdone]
            refine ⟨?_, hcount⟩
            change _ = pageNum + (front.countP ChunkEvent.isOnPage + 1) + 1
            omega
      unfold chunkPages at h
      split at h
      · exact hpage h
      · rcases split_after_chunks h with ⟨front, hconsumed, hrest⟩
        rw [hconsumed, List.countP_append, countP_chunks, Nat.zero_add]
        exact hpage hrest

/-!
# Counts
-/

section Counts

variable {pdf : Pdf} {c c' : IngestCounts}

structure IngestCounts.Le (c c' : IngestCounts) : Prop where
  pulled : c.pulled ≤ c'.pulled
  embedded : c.embedded ≤ c'.embedded
  indexing : c.indexing = true -> c'.indexing = true

theorem le_after (c : IngestCounts) (r : Request) (ok : Bool) : c.Le (c.after r ok) := by
  have hself : c.Le c := ⟨Nat.le_refl _, Nat.le_refl _, fun h => h⟩
  unfold IngestCounts.after
  split
  · split
    · exact ⟨Nat.le_succ _, Nat.le_refl _, fun h => h⟩
    · exact hself
  · split
    · exact ⟨Nat.le_refl _, Nat.le_add_right _ _, fun h => h⟩
    · exact hself
  · exact ⟨Nat.le_refl _, Nat.le_refl _, fun _ => rfl⟩
  · exact hself

theorem pagesChunked_le (pdf : Pdf) (c : IngestCounts) :
    pagesChunked pdf c ≤ pdf.pages.length := by
  rw [← countP_chunkPages noneExcluded pdf.pages.length 0 0 pdf.pages]
  exact (List.take_sublist _ _).countP_le

theorem pagesChunked_mono (h : c.Le c') : pagesChunked pdf c ≤ pagesChunked pdf c' :=
  (List.take_sublist_take_left h.pulled).countP_le

theorem allEmbedded_mono (h : c.Le c') (hle : c'.embedded ≤ pdf.chunks.length)
    (hall : AllEmbedded pdf c) : AllEmbedded pdf c' := by
  constructor
  · apply Nat.le_antisymm (pagesChunked_le pdf c')
    rw [← hall.1]
    exact pagesChunked_mono h
  · apply Nat.le_antisymm hle
    rw [← hall.2]
    exact h.embedded

theorem shareDone_le_one {done whole : Nat} (h : done ≤ whole) : shareDone done whole ≤ 1 := by
  unfold shareDone
  split
  next => exact le_refl _
  next hne =>
    rw [div_le_one (by positivity)]
    exact_mod_cast h

theorem shareDone_nonneg (done whole : Nat) : 0 ≤ shareDone done whole := by
  unfold shareDone
  split <;> positivity

theorem shareDone_mono {done done' : Nat} (h : done ≤ done') (whole : Nat) :
    shareDone done whole ≤ shareDone done' whole := by
  unfold shareDone
  split
  · exact le_refl _
  · gcongr

theorem shareDone_self (whole : Nat) : shareDone whole whole = 1 := by
  unfold shareDone
  split
  next => rfl
  next hne => exact div_self (Nat.cast_ne_zero.mpr hne)

theorem eq_of_shareDone_eq_one {done whole : Nat} (hle : done ≤ whole)
    (h : shareDone done whole = 1) : done = whole := by
  unfold shareDone at h
  split at h
  next hzero => omega
  next hne =>
    rw [div_eq_one_iff_eq (Nat.cast_ne_zero.mpr hne)] at h
    exact_mod_cast h

theorem workDone_mono (h : c.Le c') : workDone pdf c ≤ workDone pdf c' := by
  have hchunked : pagesChunked pdf c ≤ pagesChunked pdf c' := pagesChunked_mono h
  have hpages := shareDone_mono hchunked pdf.pages.length
  have hchunks := shareDone_mono h.embedded pdf.chunks.length
  have hindexing : (if c.indexing then (1 : Rat) else 0) ≤ if c'.indexing then 1 else 0 := by
    cases hc : c.indexing with
    | true => rw [h.indexing hc]
    | false => cases c'.indexing <;> simp
  unfold workDone
  linarith

/-!
# Rows
-/

def RowOk (pdf : Pdf) (c : IngestCounts) (d : Document) : Prop :=
  match d.stage with
  | none => True
  | some .queued => True
  | some .reading => True
  | some .chunking =>
      d.stageTotal = pdf.pages.length ∧ d.stageCurrent ≤ pagesChunked pdf c
  | some .embedding => d.stageCurrent = d.stageTotal
  | some .indexing => AllEmbedded pdf c ∧ c.indexing = true
  | some .done => False

structure Tracks (pdf : Pdf) (documentId : Nat) (w : World) (c : IngestCounts) : Prop where
  row : exists d, w.db.documents.lookup documentId = some d ∧ RowOk pdf c d
  embedded_le : c.embedded ≤ pdf.chunks.length
  indexing : c.indexing = true -> AllEmbedded pdf c

theorem rowOk_mono {d : Document} (h : c.Le c') (hle : c'.embedded ≤ pdf.chunks.length)
    (hrow : RowOk pdf c d) : RowOk pdf c' d := by
  unfold RowOk at hrow ⊢
  split at hrow
  · exact True.intro
  · exact True.intro
  · exact True.intro
  · exact ⟨hrow.1, Nat.le_trans hrow.2 (pagesChunked_mono h)⟩
  · exact hrow
  · exact ⟨allEmbedded_mono h hle hrow.1, h.indexing hrow.2⟩
  · exact hrow.elim

theorem fraction_of_unstarted {d : Document} (h : d.stage = none ∨ d.stage = some .queued) :
    d.fraction = 0 := by
  unfold Document.fraction targetFraction
  rcases h with h | h <;> rw [h] <;> rfl

def stageShare (current total : Nat) : Rat :=
  if 0 < total then min ((current : Rat) / total) 1 else 0

theorem stageShare_le_one (current total : Nat) : stageShare current total ≤ 1 := by
  unfold stageShare
  split
  · exact min_le_right _ _
  · exact zero_le_one

theorem stageShare_le_shareDone {current done : Nat} (total : Nat) (h : current ≤ done) :
    stageShare current total ≤ shareDone done total := by
  unfold stageShare shareDone
  split
  next hpos =>
    rw [if_neg (by omega)]
    apply le_trans (min_le_left _ _)
    gcongr
  next hzero =>
    rw [if_pos (by omega)]
    exact zero_le_one

theorem stageShare_self (total : Nat) :
    stageShare total total = if total = 0 then 0 else 1 := by
  unfold stageShare
  rcases Nat.eq_zero_or_pos total with rfl | hpos
  · rfl
  · rw [if_pos hpos, if_neg (by omega), div_self (by positivity), min_self]

theorem targetFraction_eq (current total : Nat) :
    targetFraction (some .reading) current total =
        min (0 + 4 / 100 * stageShare current total) 1 ∧
      targetFraction (some .chunking) current total =
        min (0 + 4 / 100 + 36 / 100 * stageShare current total) 1 ∧
      targetFraction (some .embedding) current total =
        min (0 + 4 / 100 + 36 / 100 + 1 / 2 * stageShare current total) 1 ∧
      targetFraction (some .indexing) current total =
        min (0 + 4 / 100 + 36 / 100 + 1 / 2 + 1 / 10 * stageShare current total) 1 :=
  ⟨rfl, rfl, rfl, rfl⟩

/-- The bar of a row at some stage: the stages before it, and its own share. -/
theorem fraction_of_stage {d : Document} :
    (d.stage = some .reading ->
        d.fraction = 4 / 100 * stageShare d.stageCurrent d.stageTotal) ∧
      (d.stage = some .chunking ->
        d.fraction = 4 / 100 + 36 / 100 * stageShare d.stageCurrent d.stageTotal) ∧
      (d.stage = some .embedding ->
        d.fraction = 4 / 10 + 1 / 2 * stageShare d.stageCurrent d.stageTotal) ∧
      (d.stage = some .indexing ->
        d.fraction = 9 / 10 + 1 / 10 * stageShare d.stageCurrent d.stageTotal) := by
  have hle := stageShare_le_one d.stageCurrent d.stageTotal
  rcases targetFraction_eq d.stageCurrent d.stageTotal with
    ⟨hreading, hchunking, hembedding, hindexing⟩
  unfold Document.fraction
  refine ⟨?_, ?_, ?_, ?_⟩
  · intro h
    rw [h, hreading, min_eq_left (by linarith)]
    ring
  · intro h
    rw [h, hchunking, min_eq_left (by linarith)]
    ring
  · intro h
    rw [h, hembedding, min_eq_left (by linarith)]
    ring
  · intro h
    rw [h, hindexing, min_eq_left (by linarith)]
    ring

def LateRow (pdf : Pdf) (c : IngestCounts) (d : Document) : Prop :=
  d.stage = some .embedding ->
    AllEmbedded pdf c ∨
      (d.stageTotal = 0 ∧
        36 / 100 * (1 - shareDone (pagesChunked pdf c) pdf.pages.length) ≤
          1 / 2 * shareDone c.embedded pdf.chunks.length)

theorem workDone_of_allEmbedded (h : AllEmbedded pdf c) :
    workDone pdf c = 9 / 10 + 1 / 10 * (if c.indexing then 1 else 0) := by
  unfold workDone
  rw [h.1, h.2, shareDone_self, shareDone_self]
  ring

theorem indexing_nonneg (c : IngestCounts) : 0 ≤ if c.indexing then (1 : Rat) else 0 := by
  cases c.indexing <;> simp

theorem embedding_honest_iff {documentId : Nat} {w : World} {d : Document}
    (h : Tracks pdf documentId w c) (hrow : RowOk pdf c d)
    (hstage : d.stage = some .embedding) :
    d.fraction ≤ workDone pdf c <-> LateRow pdf c d := by
  have hpages := shareDone_le_one (pagesChunked_le pdf c)
  have hchunks := shareDone_le_one h.embedded_le
  have hindexing := indexing_nonneg c
  have hsame : d.stageCurrent = d.stageTotal := by
    unfold RowOk at hrow
    rw [hstage] at hrow
    exact hrow
  have hfraction := fraction_of_stage.2.2.1 hstage
  rw [hsame, stageShare_self] at hfraction
  unfold LateRow
  by_cases hall : AllEmbedded pdf c
  · have hdone := workDone_of_allEmbedded hall
    constructor
    · intro _ _
      exact .inl hall
    · intro _
      rw [hfraction, hdone]
      split <;> linarith
  · have hnot : c.indexing = false := by
      cases hc : c.indexing with
      | false => rfl
      | true => exact absurd (h.indexing hc) hall
    have hdone : workDone pdf c = 4 / 100 +
        36 / 100 * shareDone (pagesChunked pdf c) pdf.pages.length +
          1 / 2 * shareDone c.embedded pdf.chunks.length := by
      unfold workDone
      rw [hnot]
      simp
    rw [hfraction, hdone]
    constructor
    · intro hle _
      right
      split at hle
      next hzero =>
        refine ⟨hzero, ?_⟩
        linarith
      next =>
        exfalso
        apply hall
        exact ⟨eq_of_shareDone_eq_one (pagesChunked_le pdf c) (by linarith),
          eq_of_shareDone_eq_one h.embedded_le (by linarith)⟩
    · intro hlate
      rcases (hlate hstage).resolve_left hall with ⟨hzero, hle⟩
      rw [if_pos hzero]
      linarith

/-- The bar of a row shows no more than is done exactly when the row is not at
embedding too early. -/
theorem fraction_honest_iff {documentId : Nat} {w : World} {d : Document}
    (h : Tracks pdf documentId w c) (hrow : RowOk pdf c d) :
    d.fraction ≤ workDone pdf c <-> LateRow pdf c d := by
  have hpages := shareDone_nonneg (pagesChunked pdf c) pdf.pages.length
  have hchunks := shareDone_nonneg c.embedded pdf.chunks.length
  have hindexing := indexing_nonneg c
  have hle := stageShare_le_one d.stageCurrent d.stageTotal
  have hother (hstage : d.stage ≠ some .embedding) (hdone : d.fraction ≤ workDone pdf c) :
      d.fraction ≤ workDone pdf c <-> LateRow pdf c d := by
    constructor
    · intro _ hembedding
      exact absurd hembedding hstage
    · intro _
      exact hdone
  cases hstage : d.stage with
  | none =>
      apply hother (by rw [hstage]; decide)
      rw [fraction_of_unstarted (.inl hstage)]
      unfold workDone
      linarith
  | some stage =>
      cases stage with
      | queued =>
          apply hother (by rw [hstage]; decide)
          rw [fraction_of_unstarted (.inr hstage)]
          unfold workDone
          linarith
      | reading =>
          apply hother (by rw [hstage]; decide)
          rw [fraction_of_stage.1 hstage]
          unfold workDone
          linarith
      | chunking =>
          apply hother (by rw [hstage]; decide)
          rw [fraction_of_stage.2.1 hstage]
          unfold RowOk at hrow
          rw [hstage] at hrow
          have hshare := stageShare_le_shareDone pdf.pages.length hrow.2
          rw [hrow.1]
          unfold workDone
          linarith
      | embedding => exact embedding_honest_iff h hrow hstage
      | indexing =>
          apply hother (by rw [hstage]; decide)
          unfold RowOk at hrow
          rw [hstage] at hrow
          rw [fraction_of_stage.2.2.2 hstage, workDone_of_allEmbedded hrow.1, hrow.2,
            if_pos rfl]
          linarith
      | done =>
          unfold RowOk at hrow
          rw [hstage] at hrow
          exact hrow.elim

end Counts

end ChatDoc
