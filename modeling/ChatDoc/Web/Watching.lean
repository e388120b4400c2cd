import ChatDoc.Web.Honesty
import ChatDoc.Service.Deployment
import Mathlib.Tactic.NormNum

/-!
# A watched ingest

The calls of `ingest_pdf` with the counts of the work that they do: every report
that reaches the row is true of the counts at that moment, and stays true.
-/

namespace ChatDoc

open Foundation
open Foundation.Program

/-!
# Calls with their counts
-/

/-- The calls of an ingest, and the work counted beside the world. -/
def watchedSem (M : EmbeddingModel) : Semantics service (World × IngestCounts) :=
  fun r s reply s' =>
    World.sem M r s.1 reply s'.1 ∧ s'.2 = s.2.after r (returned reply)

def KeepsStage : Request -> Prop
  | .updateDocumentStage _ _ _ _ => False
  | .markDocumentReady _ _ => False
  | .markDocumentFailed _ _ => False
  | .deleteDocument _ _ => False
  | _ => True

section Calls

variable {M : EmbeddingModel} {pdf : Pdf} {documentId : Nat} {s s' : World × IngestCounts}

theorem row_of_keepsStage {w : World} {c : IngestCounts} {r : Request} {d : Document}
    (hkeeps : KeepsStage r) (hd : w.db.documents.lookup documentId = some d)
    (hrow : RowOk pdf c d) :
    exists d', (w.exec M r).2.db.documents.lookup documentId = some d' ∧
      RowOk pdf c d' := by
  rw [World.exec_document hd r]
  cases r with
  | updateDocumentStage documentId stage current total => exact hkeeps.elim
  | markDocumentReady documentId chunkCount => exact hkeeps.elim
  | markDocumentFailed documentId error => exact hkeeps.elim
  | deleteDocument userId documentId => exact hkeeps.elim
  | upsertDocument docName sourcePath pageCount =>
      refine ⟨_, rfl, ?_⟩
      split
      · exact hrow
      · exact hrow
  | _ => exact ⟨d, rfl, hrow⟩

theorem indexing_after {r : Request} (hkeeps : KeepsStage r) (c : IngestCounts) (ok : Bool) :
    (c.after r ok).indexing = c.indexing := by
  cases r with
  | updateDocumentStage documentId stage current total => exact hkeeps.elim
  | nextChunk => cases ok <;> rfl
  | embedTexts texts => cases ok <;> rfl
  | _ => rfl

theorem embedded_after_le (c : IngestCounts) (r : Request) (ok : Bool) :
    (c.after r ok).embedded ≤ (c.after r true).embedded := by
  cases ok with
  | true => exact Nat.le_refl _
  | false =>
      cases r with
      | embedTexts texts => exact Nat.le_add_right _ _
      | updateDocumentStage documentId stage current total =>
          cases stage <;> exact Nat.le_refl _
      | _ => exact Nat.le_refl _

theorem tracks_of_keepsStage {r : Request} {reply : Except Exn (Reply r)}
    (hkeeps : KeepsStage r) (h : Tracks pdf documentId s.1 s.2)
    (hle : (s.2.after r true).embedded ≤ pdf.chunks.length)
    (hsem : watchedSem M r s reply s') : Tracks pdf documentId s'.1 s'.2 := by
  rcases hsem with ⟨⟨elapsed, fault, hanswer⟩, hcounts⟩
  rcases h.row with ⟨d, hd, hrow⟩
  have hup : s.2.Le s'.2 := by
    rw [hcounts]
    exact le_after _ _ _
  have hle' : s'.2.embedded ≤ pdf.chunks.length := by
    rw [hcounts]
    exact Nat.le_trans (embedded_after_le _ _ _) hle
  have hworld : ((s.1.elapse elapsed).answer M fault r).2 = s'.1 :=
    congrArg Prod.snd hanswer
  constructor
  · rw [← hworld]
    cases fault with
    | some e => exact ⟨d, hd, rowOk_mono hup hle' hrow⟩
    | none => exact row_of_keepsStage hkeeps hd (rowOk_mono hup hle' hrow)
  · exact hle'
  · intro hindexing
    rw [hcounts, indexing_after hkeeps] at hindexing
    exact allEmbedded_mono hup hle' (h.indexing hindexing)

theorem tracks_of_report {stage : Stage} {current total : Nat}
    {reply : Except Exn (Reply (.updateDocumentStage documentId stage current total))}
    (h : Tracks pdf documentId s.1 s.2)
    (hrow : forall d : Document, RowOk pdf
      (s.2.after (.updateDocumentStage documentId stage current total) true)
        (d.atStage stage current total))
    (hsem : watchedSem M (.updateDocumentStage documentId stage current total) s reply s') :
    Tracks pdf documentId s'.1 s'.2 ∧ s'.2.pulled = s.2.pulled ∧
      s'.2.embedded = s.2.embedded := by
  rcases hsem with ⟨⟨elapsed, fault, hanswer⟩, hcounts⟩
  rcases h.row with ⟨d, hd, hold⟩
  have hsame (ok : Bool) :
      s.2.after (.updateDocumentStage documentId stage current total) ok =
        s.2.after (.updateDocumentStage documentId stage current total) true := by
    cases stage <;> rfl
  rw [hsame] at hcounts
  have hup : s.2.Le s'.2 := by
    rw [hcounts]
    exact le_after _ _ _
  have hpulled : s'.2.pulled = s.2.pulled := by
    rw [hcounts]
    cases stage <;> rfl
  have hembedded : s'.2.embedded = s.2.embedded := by
    rw [hcounts]
    cases stage <;> rfl
  have hle : s'.2.embedded ≤ pdf.chunks.length := by
    rw [hembedded]
    exact h.embedded_le
  have hworld : ((s.1.elapse elapsed).answer M fault
      (.updateDocumentStage documentId stage current total)).2 = s'.1 :=
    congrArg Prod.snd hanswer
  rw [← hcounts] at hrow
  refine ⟨⟨?_, hle, ?_⟩, hpulled, hembedded⟩
  · rw [← hworld]
    cases fault with
    | some e => exact ⟨d, hd, rowOk_mono hup hle hold⟩
    | none =>
        refine ⟨d.atStage stage current total, ?_, hrow d⟩
        have hd' : (s.1.elapse elapsed).db.documents.lookup documentId = some d := hd
        rw [World.answer_none, World.exec_document hd', World.documentAfter, if_pos rfl]
  · intro hindexing
    cases stage with
    | indexing => exact (hrow d).1
    | _ =>
        rw [hcounts] at hindexing ⊢
        exact h.indexing hindexing

theorem exec_of_watchedSem {r : Request} {a : Reply r}
    (hsem : watchedSem M r s (.ok a) s') :
    (exists w : World, (w.exec M r).1 = .ok a) ∧ s'.2 = s.2.after r true := by
  rcases hsem with ⟨⟨elapsed, fault, hanswer⟩, hcounts⟩
  refine ⟨?_, hcounts⟩
  cases fault with
  | some e => cases hanswer
  | none => exact ⟨s.1.elapse elapsed, congrArg Prod.fst hanswer⟩

/-!
# Programs
-/

abbrev WatchSafe (M : EmbeddingModel) (pdf : Pdf) (documentId : Nat) {alpha : Type}
    (post : alpha -> World × IngestCounts -> Prop) (p : Proc alpha)
    (s : World × IngestCounts) : Prop :=
  Safe (watchedSem M) (fun _ s => Tracks pdf documentId s.1 s.2) post
    (fun _ s => Tracks pdf documentId s.1 s.2) p s

theorem tracks_of_watchSafe {alpha : Type} {p : Proc alpha}
    (h : WatchSafe M pdf documentId (fun _ s => Tracks pdf documentId s.1 s.2) p s) :
    Tracks pdf documentId s.1 s.2 := by
  cases p with
  | ret a => exact h
  | raise e => exact h
  | call r next => exact h.left

theorem ask_watched {r : Request} {post : Reply r -> World × IngestCounts -> Prop}
    (hkeeps : KeepsStage r) (h : Tracks pdf documentId s.1 s.2)
    (hle : (s.2.after r true).embedded ≤ pdf.chunks.length)
    (hpost : forall a s', (exists w : World, (w.exec M r).1 = .ok a) ->
      s'.2 = s.2.after r true -> Tracks pdf documentId s'.1 s'.2 -> post a s') :
    WatchSafe M pdf documentId post (ask r) s := by
  refine safe_perform h ?_ ?_
  · intro a s' hsem
    rcases exec_of_watchedSem hsem with ⟨hexec, hcounts⟩
    exact hpost a s' hexec hcounts (tracks_of_keepsStage hkeeps h hle hsem)
  · intro e s' hsem
    exact tracks_of_keepsStage hkeeps h hle hsem

theorem report_watched {stage : Stage} {current total : Nat}
    {post : Unit -> World × IngestCounts -> Prop}
    {fail : Exn -> World × IngestCounts -> Prop}
    (h : Tracks pdf documentId s.1 s.2)
    (hrow : forall d : Document, RowOk pdf
      (s.2.after (.updateDocumentStage documentId stage current total) true)
        (d.atStage stage current total))
    (hnext : forall s', s'.2.pulled = s.2.pulled -> s'.2.embedded = s.2.embedded ->
      Tracks pdf documentId s'.1 s'.2 -> post () s' ∧ forall e, fail e s') :
    Safe (watchedSem M) (fun _ s => Tracks pdf documentId s.1 s.2) post fail
      (ask (.updateDocumentStage documentId stage current total)) s := by
  refine ⟨h, ?_⟩
  intro answer s' hsem
  rcases tracks_of_report h hrow hsem with ⟨h', hpulled, hembedded⟩
  have hboth := hnext s' hpulled hembedded h'
  cases answer with
  | ok a => exact hboth.left
  | error e => exact hboth.right e

theorem onProgress_watched {post : ProgressState -> World × IngestCounts -> Prop}
    {st : ProgressState} {stage : Stage} {current total : Nat}
    (h : Tracks pdf documentId s.1 s.2)
    (hrow : forall d : Document, RowOk pdf
      (s.2.after (.updateDocumentStage documentId stage current total) true)
        (d.atStage stage current total))
    (hpost : forall p s', s'.2.pulled = s.2.pulled -> s'.2.embedded = s.2.embedded ->
      Tracks pdf documentId s'.1 s'.2 -> post p s') :
    WatchSafe M pdf documentId post (onProgress documentId st stage current total) s := by
  apply safe_bind
  refine ask_watched True.intro h h.embedded_le ?_
  intro now s1 _ hcounts h1
  have hsame : s1.2 = s.2 := hcounts
  rw [← hsame] at hrow hpost
  split
  · exact hpost _ s1 rfl rfl h1
  · apply safe_bind
    apply safe_handle
    apply report_watched h1 hrow
    intro s2 hpulled hembedded h2
    exact ⟨hpost _ s2 hpulled hembedded h2, fun _ => hpost _ s2 hpulled hembedded h2⟩

/-!
# Chunking, embedding and inserting
-/

theorem insertChunks_watched {post : Unit -> World × IngestCounts -> Prop}
    {target : Nat} {rows : List (Chunk × Embedding)} {i : Nat}
    (h : Tracks pdf documentId s.1 s.2)
    (hpost : forall s', s'.2 = s.2 -> Tracks pdf documentId s'.1 s'.2 -> post () s') :
    WatchSafe M pdf documentId post (insertChunks target rows i) s := by
  induction rows generalizing i s with
  | nil => exact hpost s rfl h
  | cons row rest ih =>
      apply safe_bind
      refine ask_watched True.intro h h.embedded_le ?_
      intro a s1 _ hcounts h1
      apply ih h1
      intro s2 hcounts2
      exact hpost s2 (hcounts2.trans hcounts)

/-- The loop of `ingest_pdf` between two events of the generator: what has been
chunked is embedded or waits in the batch. -/
structure Chunked (pdf : Pdf) (documentId : Nat) (consumed : List ChunkEvent)
    (st : IngestState ProgressState) (s : World × IngestCounts) : Prop where
  tracks : Tracks pdf documentId s.1 s.2
  pulled : consumed.length ≤ s.2.pulled
  embedded : s.2.embedded = st.written
  seen : st.seen = st.written + st.batch.length
  chunks : st.seen = (chunksIn consumed).length

theorem flushBatch_watched {post : IngestState ProgressState -> World × IngestCounts -> Prop}
    {target : Nat} {consumed : List ChunkEvent} {st : IngestState ProgressState}
    (hfront : consumed <+: chunkPdf noneExcluded pdf)
    (h : Chunked pdf documentId consumed st s)
    (hpost : forall st' s', st'.batch = [] -> Chunked pdf documentId consumed st' s' ->
      post st' s') :
    WatchSafe M pdf documentId post (flushBatch target st) s := by
  unfold flushBatch
  split
  next hempty => exact hpost st s (List.isEmpty_iff.mp hempty) h
  next =>
    have hall : s.2.embedded + (st.batch.map Chunk.text).length ≤ pdf.chunks.length := by
      rw [h.embedded, List.length_map, ← h.seen, h.chunks]
      exact (hfront.filterMap _).length_le
    apply safe_bind
    refine ask_watched True.intro h.tracks hall ?_
    intro embeddings s1 hexec hcounts h1
    rcases hexec with ⟨w, hw⟩
    cases hw
    have hrows : (st.batch.zip (M.embedTexts (st.batch.map Chunk.text))).length =
        st.batch.length := by
      rw [List.length_zip, M.length_embedTexts, List.length_map, Nat.min_self]
    apply safe_bind
    apply insertChunks_watched h1
    intro s2 hcounts2 h2
    apply hpost _ s2 rfl
    refine ⟨h2, ?_, ?_, ?_, h.chunks⟩
    · rw [hcounts2, hcounts]
      exact h.pulled
    · rw [hcounts2, hcounts, hrows, ← h.embedded]
      exact congrArg (s.2.embedded + ·) (List.length_map _)
    · rw [hrows]
      exact h.seen

theorem written_eq_seen {consumed : List ChunkEvent} {st : IngestState ProgressState}
    (h : Chunked pdf documentId consumed st s) (hbatch : st.batch = []) :
    st.written = st.seen := by
  rw [h.seen, hbatch]
  rfl

theorem rowOk_onPage {consumed rest : List ChunkEvent}
    {pagesDone pageCount chunksSoFar : Nat} {c : IngestCounts}
    (hsplit : chunkPdf noneExcluded pdf =
      consumed ++ .onPage pagesDone pageCount chunksSoFar :: rest)
    (hpulled : consumed.length + 1 ≤ c.pulled) (d : Document) :
    RowOk pdf c (d.atStage .chunking pagesDone pageCount) := by
  rcases onPage_of_chunkPages hsplit with ⟨hdone, hcount⟩
  refine ⟨hcount, ?_⟩
  have hfront : (consumed ++ [ChunkEvent.onPage pagesDone pageCount chunksSoFar]).Sublist
      ((chunkPdf noneExcluded pdf).take c.pulled) := by
    apply List.IsPrefix.sublist
    rw [List.prefix_take_iff]
    refine ⟨⟨rest, ?_⟩, ?_⟩
    · rw [hsplit, List.append_assoc]
      rfl
    · rw [List.length_append]
      exact hpulled
  have hle := hfront.countP_le (p := ChunkEvent.isOnPage)
  rw [List.countP_append] at hle
  change pagesDone ≤ pagesChunked pdf c
  rw [hdone, Nat.zero_add]
  exact hle

theorem Chunked.reported {consumed : List ChunkEvent} {st : IngestState ProgressState}
    (h : Chunked pdf documentId consumed st s) (p : ProgressState)
    (hpulled : s'.2.pulled = s.2.pulled) (hembedded : s'.2.embedded = s.2.embedded)
    (htracks : Tracks pdf documentId s'.1 s'.2) :
    Chunked pdf documentId consumed { st with progress := p } s' := by
  refine ⟨htracks, ?_, ?_, h.seen, h.chunks⟩
  · rw [hpulled]
    exact h.pulled
  · rw [hembedded]
    exact h.embedded

theorem Chunked.onPage {consumed : List ChunkEvent} {st : IngestState ProgressState}
    (h : Chunked pdf documentId consumed st s) (pagesDone pageCount chunksSoFar : Nat)
    (hcounts : s'.2 = s.2.after .nextChunk true)
    (htracks : Tracks pdf documentId s'.1 s'.2) :
    Chunked pdf documentId (consumed ++ [.onPage pagesDone pageCount chunksSoFar]) st s' := by
  refine ⟨htracks, ?_, ?_, h.seen, ?_⟩
  · rw [hcounts, List.length_append]
    exact Nat.succ_le_succ h.pulled
  · rw [hcounts]
    exact h.embedded
  · rw [chunksIn_append, chunksIn_onPage, chunksIn_nil, List.append_nil]
    exact h.chunks

theorem Chunked.chunk {consumed : List ChunkEvent} {st : IngestState ProgressState}
    (h : Chunked pdf documentId consumed st s) (c : Chunk)
    (hcounts : s'.2 = s.2.after .nextChunk true)
    (htracks : Tracks pdf documentId s'.1 s'.2) :
    Chunked pdf documentId (consumed ++ [.chunk c])
      { st with batch := st.batch ++ [c], seen := st.seen + 1 } s' := by
  refine ⟨htracks, ?_, ?_, ?_, ?_⟩
  · rw [hcounts, List.length_append]
    exact Nat.succ_le_succ h.pulled
  · rw [hcounts]
    exact h.embedded
  · rw [h.seen, List.length_append]
    rfl
  · rw [chunksIn_append, List.length_append, ← h.chunks]
    rfl

theorem pullChunks_watched {post : IngestState ProgressState -> World × IngestCounts -> Prop}
    {target : Nat} {consumed events : List ChunkEvent} {st : IngestState ProgressState}
    (hsplit : chunkPdf noneExcluded pdf = consumed ++ events)
    (h : Chunked pdf documentId consumed st s)
    (hpost : forall st' s', Chunked pdf documentId (chunkPdf noneExcluded pdf) st' s' ->
      post st' s') :
    WatchSafe M pdf documentId post
      (pullChunks (onProgress documentId) target events st) s := by
  induction events generalizing consumed st s with
  | nil =>
      rw [List.append_nil] at hsplit
      apply safe_bind
      refine ask_watched True.intro h.tracks h.tracks.embedded_le ?_
      intro a s1 _ hcounts h1
      apply hpost st s1
      rw [hsplit]
      refine ⟨h1, ?_, ?_, h.seen, h.chunks⟩
      · rw [hcounts]
        exact Nat.le_succ_of_le h.pulled
      · rw [hcounts]
        exact h.embedded
  | cons event rest ih =>
      have hnext : chunkPdf noneExcluded pdf = (consumed ++ [event]) ++ rest := by
        rw [hsplit, List.append_assoc]
        rfl
      cases event with
      | onPage pagesDone pageCount chunksSoFar =>
          apply safe_bind
          refine ask_watched True.intro h.tracks h.tracks.embedded_le ?_
          intro a s1 _ hcounts h1
          have hpage := h.onPage pagesDone pageCount chunksSoFar hcounts h1
          have hpulled := hpage.pulled
          rw [List.length_append] at hpulled
          apply safe_bind
          apply onProgress_watched h1
          · intro d
            exact rowOk_onPage hsplit hpulled d
          · intro p s2 hpulled2 hembedded2 h2
            exact ih hnext (hpage.reported p hpulled2 hembedded2 h2)
      | chunk c =>
          apply safe_bind
          refine ask_watched True.intro h.tracks h.tracks.embedded_le ?_
          intro a s1 _ hcounts h1
          have hbatched := h.chunk c hcounts h1
          dsimp only
          split
          next =>
            apply safe_bind
            refine flushBatch_watched ⟨rest, hnext.symm⟩ hbatched ?_
            intro st2 s2 hbatch h2
            apply safe_bind
            refine onProgress_watched h2.tracks ?_ ?_
            · intro d
              exact written_eq_seen h2 hbatch
            · intro p s3 hpulled hembedded h3
              exact ih hnext (h2.reported p hpulled hembedded h3)
          next => exact ih hnext hbatched

/-!
# The whole ingest
-/

theorem allEmbedded_of_chunked {st : IngestState ProgressState}
    (h : Chunked pdf documentId (chunkPdf noneExcluded pdf) st s) (hbatch : st.batch = []) :
    AllEmbedded pdf s.2 := by
  constructor
  · unfold pagesChunked
    rw [List.take_of_length_le h.pulled]
    exact countP_chunkPages _ _ _ _ _
  · rw [h.embedded, written_eq_seen h hbatch, h.chunks]
    rfl

theorem embedAndInsert_watched {file : LocalFile} {target : Nat} {start : ProgressState}
    (h : Tracks file.pdf documentId s.1 s.2) (hembedded : s.2.embedded = 0) :
    WatchSafe M file.pdf documentId (fun _ s' => Tracks file.pdf documentId s'.1 s'.2)
      (embedAndInsert (onProgress documentId) target file.pdf.pages.length file noneExcluded
        start) s := by
  apply safe_bind
  refine onProgress_watched h (fun _ => ⟨rfl, Nat.zero_le _⟩) ?_
  intro p s1 _ hembedded1 h1
  apply safe_bind
  refine onProgress_watched h1 (fun _ => rfl) ?_
  intro p s2 _ hembedded2 h2
  apply safe_bind
  have hstart : Chunked file.pdf documentId []
      { written := 0, seen := 0, batch := [], progress := p } s2 :=
    ⟨h2, Nat.zero_le _, hembedded2.trans (hembedded1.trans hembedded), rfl, rfl⟩
  apply pullChunks_watched rfl hstart
  intro st s3 h3
  split
  next =>
    apply safe_bind
    apply flushBatch_watched (List.prefix_refl _) h3
    intro st4 s4 hbatch h4
    have hall := allEmbedded_of_chunked h4 hbatch
    apply safe_bind
    refine onProgress_watched h4.tracks (fun _ => written_eq_seen h4 hbatch) ?_
    intro p s5 hpulled5 hembedded5 h5
    have hall5 : AllEmbedded file.pdf s5.2 := by
      unfold AllEmbedded pagesChunked
      rw [hpulled5, hembedded5]
      exact hall
    refine onProgress_watched h5 (fun _ => ⟨hall5, rfl⟩) ?_
    intro p s6 _ _ h6
    exact h6
  next => exact h3.tracks

/-- Through every call of an ingest the row keeps saying what is true. -/
theorem ingestPdf_watched {file : LocalFile} {docName sourcePath : String}
    {start : ProgressState} (h : Tracks file.pdf documentId s.1 s.2)
    (hembedded : s.2.embedded = 0) :
    WatchSafe M file.pdf documentId (fun _ s' => Tracks file.pdf documentId s'.1 s'.2)
      (ingestPdf (onProgress documentId) file noneExcluded docName sourcePath start) s := by
  apply safe_bind
  refine onProgress_watched h (fun _ => True.intro) ?_
  intro p s1 _ hembedded1 h1
  apply safe_bind
  refine ask_watched True.intro h1 h1.embedded_le ?_
  intro pageCount s2 hexec hcounts2 h2
  rcases hexec with ⟨w, hw⟩
  cases hw
  apply safe_bind
  refine onProgress_watched h2 (fun _ => True.intro) ?_
  intro p s3 _ hembedded3 h3
  apply safe_bind
  refine ask_watched True.intro h3 h3.embedded_le ?_
  intro target s4 _ hcounts4 h4
  apply safe_bind
  refine ask_watched True.intro h4 h4.embedded_le ?_
  intro a s5 _ hcounts5 h5
  have hnone : s5.2.embedded = 0 :=
    calc
      s5.2.embedded = s4.2.embedded := congrArg IngestCounts.embedded hcounts5
      _ = s3.2.embedded := congrArg IngestCounts.embedded hcounts4
      _ = s2.2.embedded := hembedded3
      _ = s1.2.embedded := congrArg IngestCounts.embedded hcounts2
      _ = s.2.embedded := hembedded1
      _ = 0 := hembedded
  apply safe_bind
  refine safe_mono (embedAndInsert_watched h5 hnone) ?_ ?_
  · intro p s6 h6
    exact h6
  · intro e s6 h6
    exact h6

end Calls

/-!
# Polls
-/

namespace WatchedIngest

section Polls

variable {M : EmbeddingModel} {pdf : Pdf} {documentId : Nat} {s s' : WatchedIngest}
  {action : WatchAction}

def Ongoing (M : EmbeddingModel) (pdf : Pdf) (documentId : Nat) (s : WatchedIngest) : Prop :=
  WatchSafe M pdf documentId (fun _ t => Tracks pdf documentId t.1 t.2) s.running
    (s.world, s.counts)

theorem ongoing_start {w : World} {d : Document} {file : LocalFile}
    {docName sourcePath : String} (hd : w.db.documents.lookup documentId = some d)
    (hstage : d.stage = some .queued ∨ d.stage = none) :
    (start w documentId file docName sourcePath).Ongoing M file.pdf documentId := by
  have hrow : RowOk file.pdf .start d := by
    unfold RowOk
    rcases hstage with h | h <;> rw [h] <;> exact True.intro
  have htracks : Tracks file.pdf documentId w .start :=
    ⟨⟨d, hd, hrow⟩, Nat.zero_le _, fun h => absurd h Bool.false_ne_true⟩
  exact ingestPdf_watched (s := (w, .start)) htracks rfl

theorem act_cases (h : act M documentId s action = some s') :
    (exists elapsed fault r next reply, action = .step elapsed fault ∧
        s.running = .call r next ∧ s'.running = next reply ∧
          watchedSem M r (s.world, s.counts) reply (s'.world, s'.counts) ∧
            s'.highWater = s.highWater) ∨
      (action = .poll ∧ s'.world = s.world ∧ s'.counts = s.counts ∧
        s'.running = s.running ∧
          s'.highWater = match s.world.db.documents.lookup documentId with
            | some d => some (useMonotonic s.highWater d.fraction)
            | none => s.highWater) := by
  cases action with
  | step elapsed fault =>
      left
      cases hrunning : s.running with
      | ret out =>
          unfold act at h
          rw [hrunning] at h
          cases h
      | raise e =>
          unfold act at h
          rw [hrunning] at h
          cases h
      | call r next =>
          unfold act at h
          rw [hrunning] at h
          cases h
          exact ⟨elapsed, fault, r, next, _, rfl, rfl, rfl, ⟨⟨elapsed, fault, rfl⟩, rfl⟩, rfl⟩
  | poll =>
      right
      unfold act at h
      cases hd : s.world.db.documents.lookup documentId with
      | none =>
          rw [hd] at h
          cases h
          exact ⟨rfl, rfl, rfl, rfl, rfl⟩
      | some d =>
          rw [hd] at h
          cases h
          exact ⟨rfl, rfl, rfl, rfl, rfl⟩

theorem ongoing_act (h : s.Ongoing M pdf documentId)
    (hact : act M documentId s action = some s') : s'.Ongoing M pdf documentId := by
  unfold Ongoing at h ⊢
  rcases act_cases hact with
    ⟨elapsed, fault, r, next, reply, -, hrunning, hnext, hsem, -⟩ |
      ⟨-, hworld, hcounts, hrunning, -⟩
  · rw [hrunning] at h
    rw [hnext]
    exact h.right reply _ hsem
  · rw [hworld, hcounts, hrunning]
    exact h

theorem honest_act_iff (h : s.Ongoing M pdf documentId) (hhonest : s.Honest pdf)
    (hact : act M documentId s action = some s') :
    s'.Honest pdf <-> s.PollsLate pdf documentId action := by
  rcases act_cases hact with
    ⟨elapsed, fault, r, next, reply, rfl, -, -, hsem, hbar⟩ |
      ⟨rfl, -, hcounts, -, hbar⟩
  · refine iff_of_true ?_ True.intro
    intro shown hshown
    rw [hbar] at hshown
    have hcounts : s'.counts = s.counts.after r (returned reply) := hsem.right
    have hup : s.counts.Le s'.counts := by
      rw [hcounts]
      exact le_after _ _ _
    exact le_trans (hhonest shown hshown) (workDone_mono hup)
  · have htracks := tracks_of_watchSafe h
    rcases htracks.row with ⟨d, hd, hrow⟩
    have hiff := fraction_honest_iff htracks hrow
    rw [hd] at hbar
    have hpoll : s.PollsLate pdf documentId .poll <-> LateRow pdf s.counts d := by
      constructor
      · intro hlate hstage
        exact hlate d hd hstage
      · intro hlate d' hd' hstage
        rw [hd] at hd'
        cases hd'
        exact hlate hstage
    rw [hpoll, ← hiff]
    unfold Honest
    rw [hbar, hcounts]
    constructor
    · intro hshown
      exact le_trans (le_max_right _ _) (hshown _ rfl)
    · intro hle shown hshown
      cases hshown
      apply max_le _ hle
      cases hwater : s.highWater with
      | none => exact hle
      | some shown => exact hhonest shown hwater

/-- The bar never shows more than is done exactly when no poll finds the row at
embedding before that is true. -/
theorem honest_iff {w : World} {d : Document} {file : LocalFile}
    {docName sourcePath : String} {trace : List (WatchedIngest × WatchAction)}
    (hd : w.db.documents.lookup documentId = some d)
    (hstage : d.stage = some .queued ∨ d.stage = none)
    (hrun : Run (act M documentId) (start w documentId file docName sourcePath) trace s) :
    (EachStep (fun t _ => t.Honest file.pdf) trace ∧ s.Honest file.pdf) <->
      EachStep (fun t action => t.PollsLate file.pdf documentId action) trace := by
  have hstart : (start w documentId file docName sourcePath).Honest file.pdf := by
    intro shown hshown
    cases hshown
  apply hrun.always_iff hstart
  intro before t action t' hbefore hhonest _ hact
  have hongoing : t.Ongoing M file.pdf documentId := by
    have hany : EachStep (fun (_ : WatchedIngest) (_ : WatchAction) => True) before :=
      fun _ _ => True.intro
    refine hbefore.invariant (ongoing_start hd hstage) ?_ hany
    intro s1 a1 s2 h _ hact
    exact ongoing_act h hact
  exact honest_act_iff hongoing hhonest hact

end Polls

/-!
# Before the first page
-/

def waiting : Document := .pending 0 1 "user1_a" "a.pdf" "user1_a.pdf"

def waitingWorld : World where
  db := Database.empty.insertDocument waiting rfl
  blobs := fun _ => some Deployment.onePage.contents
  now := 0

def waitingFile : LocalFile := ⟨"user1_a.pdf", Deployment.onePage.contents⟩

def polledEarly : List WatchAction := List.replicate 10 (.step 0 none) ++ [.poll]

def showsAhead (s : WatchedIngest) : Bool :=
  s.highWater = some (2 / 5) ∧ workDone waitingFile.pdf s.counts = 1 / 25

theorem exists_run_polledEarly :
    exists trace s, Run (act Deployment.lengthModel 1)
      (start waitingWorld 1 waitingFile "user1_a" "user1_a.pdf") trace s ∧
        showsAhead s = true := by
  have hfollow : (follow (act Deployment.lengthModel 1)
      (start waitingWorld 1 waitingFile "user1_a" "user1_a.pdf") polledEarly).any
        (fun out => showsAhead out.2) = true := by
    decide +kernel
  exact exists_run_of_follow (fun _ s => showsAhead s) hfollow

/-- The bar shows two fifths before a page is chunked. -/
theorem exists_shown_ahead :
    exists (w : World) (d : Document) (file : LocalFile)
      (trace : List (WatchedIngest × WatchAction)) (s : WatchedIngest),
        w.db.documents.lookup 1 = some d ∧ d.stage = some .queued ∧
          Run (act Deployment.lengthModel 1) (start w 1 file d.docName d.sourcePath) trace s ∧
            ¬ s.Honest file.pdf := by
  rcases exists_run_polledEarly with ⟨trace, s, hrun, hahead⟩
  rcases of_decide_eq_true hahead with ⟨hshown, hdone⟩
  refine ⟨waitingWorld, waiting, waitingFile, trace, s, rfl, rfl, hrun, ?_⟩
  intro hhonest
  have hle := hhonest _ hshown
  rw [hdone] at hle
  exact absurd hle (by norm_num)

theorem honest_iff_polledEarly :
    exists trace s, Run (act Deployment.lengthModel 1)
      (start waitingWorld 1 waitingFile "user1_a" "user1_a.pdf") trace s ∧
        showsAhead s = true ∧
          ((EachStep (fun t _ => t.Honest waitingFile.pdf) trace ∧
              s.Honest waitingFile.pdf) <->
            EachStep (fun t action => t.PollsLate waitingFile.pdf 1 action) trace) := by
  rcases exists_run_polledEarly with ⟨trace, s, hrun, hahead⟩
  exact ⟨trace, s, hrun, hahead, honest_iff (d := waiting) rfl (.inl rfl) hrun⟩

end WatchedIngest
end ChatDoc
