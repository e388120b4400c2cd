import ChatDoc.Foundation.History
import ChatDoc.Jobs.Outline

/-!
# Batches of an ingest

`ingest_pdf` interleaves chunking, embedding and inserting, so that at most one
batch of chunks is alive at any time.  The loop is followed through its calls:
what has been pulled off the generator is inserted, or embedded and about to be
inserted, or waits in the batch.
-/

namespace ChatDoc

open Foundation
open Foundation.Program

/-!
# The calls of an ingest
-/

def sentBatch : Event service -> Option (List String)
  | ⟨.embedTexts texts, _⟩ => some texts
  | _ => none

def insertedRow : Event service -> Option ChunkRow
  | ⟨.insertChunk row, .ok _⟩ => some row
  | _ => none

def isPull : Event service -> Bool
  | ⟨.nextChunk, .ok _⟩ => true
  | _ => false

def embedBatches (past : List (Event service)) : List (List String) :=
  past.filterMap sentBatch

def insertedRows (past : List (Event service)) : List ChunkRow :=
  past.filterMap insertedRow

def chunksPulled (past : List (Event service)) : Nat := past.countP isPull

section Snoc

variable {past : List (Event service)} {call : Event service}

theorem embedBatches_snoc :
    embedBatches (past ++ [call]) = embedBatches past ++ (sentBatch call).toList := by
  unfold embedBatches
  rw [List.filterMap_append, List.filterMap_cons, List.filterMap_nil]
  cases sentBatch call <;> rfl

theorem insertedRows_snoc :
    insertedRows (past ++ [call]) =
      insertedRows past ++ (insertedRow call).toList := by
  unfold insertedRows
  rw [List.filterMap_append, List.filterMap_cons, List.filterMap_nil]
  cases insertedRow call <;> rfl

theorem chunksPulled_snoc :
    chunksPulled (past ++ [call]) = chunksPulled past + (isPull call).toNat := by
  unfold chunksPulled
  rw [List.countP_append, List.countP_singleton]
  cases isPull call <;> rfl

theorem embedBatches_same (h : sentBatch call = none) :
    embedBatches (past ++ [call]) = embedBatches past := by
  rw [embedBatches_snoc, h, Option.toList_none, List.append_nil]

theorem insertedRows_same (h : insertedRow call = none) :
    insertedRows (past ++ [call]) = insertedRows past := by
  rw [insertedRows_snoc, h, Option.toList_none, List.append_nil]

theorem chunksPulled_same (h : isPull call = false) :
    chunksPulled (past ++ [call]) = chunksPulled past := by
  rw [chunksPulled_snoc, h]
  rfl

end Snoc

structure IsIdle (call : Event service) : Prop where
  sent : sentBatch call = none
  inserted : insertedRow call = none
  pull : isPull call = false

/-!
# What the calls amount to
-/

/-- The calls of an ingest come in batches.  Every call of the model gets
between one and `EMBED_BATCH` texts, all but the last exactly that many, and
together they are the texts of the chunks in order.  The rows that were
inserted are the chunks in order with the vectors the model gave them, and at
most one batch of chunks was pulled but not inserted. -/
structure InBatches (M : EmbeddingModel) (excludedPages : Nat -> Bool) (pdf : Pdf)
    (past : List (Event service)) : Prop where
  sizes : forall texts, texts ∈ embedBatches past ->
    0 < texts.length ∧ texts.length ≤ embedBatch
  full : forall texts, texts ∈ (embedBatches past).dropLast ->
    texts.length = embedBatch
  texts : (embedBatches past).flatten <+:
    (chunksIn (chunkPdf excludedPages pdf)).map Chunk.text
  rows : exists documentId, insertedRows past <+:
    chunkRows documentId 0 ((chunksIn (chunkPdf excludedPages pdf)).zip
      ((embedBatches past).flatMap M.embedTexts))
  alive : (chunksIn ((chunkPdf excludedPages pdf).take (chunksPulled past))).length ≤
    (insertedRows past).length + embedBatch

/-- Where the chunks are: the rows inserted so far, those embedded but not yet
inserted, and the batch. -/
structure Holding (M : EmbeddingModel) (excludedPages : Nat -> Bool) (pdf : Pdf)
    (documentId : Nat) (done pending : List (Chunk × Embedding))
    (batch : List Chunk) (past : List (Event service)) : Prop where
  sizes : forall texts, texts ∈ embedBatches past ->
    0 < texts.length ∧ texts.length ≤ embedBatch
  full : forall texts, texts ∈ (embedBatches past).dropLast ->
    texts.length = embedBatch
  texts : (embedBatches past).flatten =
    ((done ++ pending).map Prod.fst).map Chunk.text
  vectors : (done ++ pending).map Prod.snd =
    (embedBatches past).flatMap M.embedTexts
  rows : insertedRows past = chunkRows documentId 0 done
  pulled : chunksIn ((chunkPdf excludedPages pdf).take (chunksPulled past)) =
    (done ++ pending).map Prod.fst ++ batch
  few : pending.length + batch.length ≤ embedBatch

theorem length_chunkRows (documentId i : Nat) (rows : List (Chunk × Embedding)) :
    (chunkRows documentId i rows).length = rows.length := by
  induction rows generalizing i with
  | nil => rfl
  | cons row rest ih => rw [chunkRows, List.length_cons, List.length_cons, ih]

theorem chunkRows_prefix {documentId i : Nat}
    {rows rows' : List (Chunk × Embedding)} (h : rows <+: rows') :
    chunkRows documentId i rows <+: chunkRows documentId i rows' := by
  rcases h with ⟨rest, hrest⟩
  rw [← hrest, chunkRows_append]
  exact List.prefix_append _ _

section Holding

variable {M : EmbeddingModel} {excludedPages : Nat -> Bool} {pdf : Pdf}
  {documentId : Nat} {done pending : List (Chunk × Embedding)}
  {batch : List Chunk} {past : List (Event service)}

theorem Holding.inBatches
    (h : Holding M excludedPages pdf documentId done pending batch past) :
    InBatches M excludedPages pdf past := by
  have hfront : (done ++ pending).map Prod.fst ++ batch <+:
      chunksIn (chunkPdf excludedPages pdf) := by
    rw [← h.pulled]
    exact (List.take_prefix _ _).filterMap _
  rcases hfront with ⟨rest, hrest⟩
  constructor
  · exact h.sizes
  · exact h.full
  · rw [h.texts]
    exact ((List.prefix_append _ _).trans ⟨rest, hrest⟩).map _
  · refine ⟨documentId, ?_⟩
    rw [h.rows, ← h.vectors]
    apply chunkRows_prefix
    have hsplit : (chunksIn (chunkPdf excludedPages pdf)).zip
        ((done ++ pending).map Prod.snd) =
          ((done ++ pending).map Prod.fst).zip ((done ++ pending).map Prod.snd) ++
            (batch ++ rest).zip [] := by
      rw [← List.zip_append (by simp), ← List.append_assoc, hrest, List.append_nil]
    rw [hsplit, List.zip_nil_right, List.append_nil, ← List.zip_of_prod rfl rfl]
    exact List.prefix_append _ _
  · rw [h.pulled, h.rows, length_chunkRows]
    have hfew := h.few
    simp
    omega

theorem Holding.idle {call : Event service} (hcall : IsIdle call)
    (h : Holding M excludedPages pdf documentId done pending batch past) :
    Holding M excludedPages pdf documentId done pending batch (past ++ [call]) := by
  constructor
  · rw [embedBatches_same hcall.sent]
    exact h.sizes
  · rw [embedBatches_same hcall.sent]
    exact h.full
  · rw [embedBatches_same hcall.sent]
    exact h.texts
  · rw [embedBatches_same hcall.sent]
    exact h.vectors
  · rw [insertedRows_same hcall.inserted]
    exact h.rows
  · rw [chunksPulled_same hcall.pull]
    exact h.pulled
  · exact h.few

theorem Holding.insert {row : Chunk × Embedding} {answer : Unit}
    (h : Holding M excludedPages pdf documentId done (row :: pending) batch past) :
    Holding M excludedPages pdf documentId (done ++ [row]) pending batch
      (past ++ [⟨.insertChunk
        { documentId := documentId
          chunkIndex := done.length
          chunk := row.1
          embedding := row.2 }, .ok answer⟩]) := by
  have hsplit : done ++ [row] ++ pending = done ++ row :: pending := by simp
  have hfew := h.few
  rw [List.length_cons] at hfew
  constructor
  · rw [embedBatches_same rfl]
    exact h.sizes
  · rw [embedBatches_same rfl]
    exact h.full
  · rw [embedBatches_same rfl, hsplit]
    exact h.texts
  · rw [embedBatches_same rfl, hsplit]
    exact h.vectors
  · rw [insertedRows_snoc, h.rows, chunkRows_append, Nat.zero_add]
    rfl
  · rw [chunksPulled_same rfl, hsplit]
    exact h.pulled
  · omega

theorem Holding.embed {answer : Except Exn (List Embedding)}
    (hall : forall texts, texts ∈ embedBatches past -> texts.length = embedBatch)
    (hbatch : batch ≠ [])
    (h : Holding M excludedPages pdf documentId done [] batch past) :
    Holding M excludedPages pdf documentId done
      (batch.zip (M.embedTexts (batch.map Chunk.text))) []
      (past ++ [⟨.embedTexts (batch.map Chunk.text), answer⟩]) := by
  have hlength : batch.length =
      (M.embedTexts (batch.map Chunk.text)).length := by
    rw [M.length_embedTexts, List.length_map]
  have hsent : embedBatches
      (past ++ [⟨.embedTexts (batch.map Chunk.text), answer⟩]) =
        embedBatches past ++ [batch.map Chunk.text] := embedBatches_snoc
  have hfew := h.few
  have htexts := h.texts
  have hvectors := h.vectors
  have hpulled := h.pulled
  rw [List.append_nil] at htexts hvectors hpulled
  constructor
  · intro texts htexts
    rw [hsent, List.mem_append] at htexts
    rcases htexts with hold | hnew
    · exact h.sizes texts hold
    · rw [List.mem_singleton.mp hnew, List.length_map]
      refine ⟨List.length_pos_iff.mpr hbatch, ?_⟩
      rw [List.length_nil] at hfew
      omega
  · rw [hsent, List.dropLast_concat]
    exact hall
  · rw [hsent, List.flatten_append, htexts, List.map_append,
      List.map_append, List.map_fst_zip (Nat.le_of_eq hlength)]
    simp
  · rw [hsent, List.flatMap_append, List.map_append, hvectors,
      List.map_snd_zip (Nat.le_of_eq hlength.symm)]
    simp
  · rw [insertedRows_same rfl]
    exact h.rows
  · rw [chunksPulled_same rfl, hpulled, List.map_append, List.map_fst_zip (Nat.le_of_eq hlength),
      List.append_nil]
  · rw [List.length_zip, ← hlength, Nat.min_self, List.length_nil]
    rw [List.length_nil] at hfew
    omega

/-!
# The program
-/

abbrev BatchSafe (M : EmbeddingModel) (excludedPages : Nat -> Bool) (pdf : Pdf)
    {alpha : Type} (post : alpha -> List (Event service) -> World -> Prop)
    (p : Proc alpha) (past : List (Event service)) (w : World) : Prop :=
  Keeps (World.sem M) (fun past _ => InBatches M excludedPages pdf past) post p past w

variable {w : World}

theorem exec_of_sem {r : Request} {a : Reply r} {w' : World}
    (hsem : World.sem M r w (.ok a) w') : exists v : World, (v.exec M r).1 = .ok a := by
  rcases hsem with ⟨elapsed, fault, hanswer⟩
  cases fault with
  | some e => cases hanswer
  | none => exact ⟨w.elapse elapsed, congrArg Prod.fst hanswer⟩

theorem ask_batchSafe {r : Request} {post : Reply r -> List (Event service) -> World -> Prop}
    (hinv : InBatches M excludedPages pdf past)
    (hpost : forall a w', (exists v : World, (v.exec M r).1 = .ok a) ->
      post a (past ++ [⟨r, .ok a⟩]) w')
    (hfail : forall e, InBatches M excludedPages pdf (past ++ [⟨r, .error e⟩])) :
    BatchSafe M excludedPages pdf post (ask r) past w := by
  apply keeps_perform hinv
  · intro a w' hsem
    exact hpost a w' (exec_of_sem hsem)
  · intro e w' _
    exact hfail e

/-- What holds of the history and is not affected by calls that move no chunk. -/
structure Steady (M : EmbeddingModel) (excludedPages : Nat -> Bool) (pdf : Pdf)
    (P : List (Event service) -> Prop) : Prop where
  kept : forall {past call}, IsIdle call -> P past -> P (past ++ [call])
  inBatches : forall {past}, P past -> InBatches M excludedPages pdf past

variable {P : List (Event service) -> Prop}

theorem steady_holding : Steady M excludedPages pdf
    (Holding M excludedPages pdf documentId done pending batch) :=
  ⟨Holding.idle, Holding.inBatches⟩

theorem idle_batchSafe {r : Request} {post : Reply r -> List (Event service) -> World -> Prop}
    (hP : Steady M excludedPages pdf P) (hidle : forall answer, IsIdle ⟨r, answer⟩)
    (h : P past) (hpost : forall a past w, P past -> post a past w) :
    BatchSafe M excludedPages pdf post (ask r) past w := by
  refine ask_batchSafe (hP.inBatches h) ?_ ?_
  · intro a w' _
    exact hpost a _ w' (hP.kept (hidle (.ok a)) h)
  · intro e
    exact hP.inBatches (hP.kept (hidle (.error e)) h)

variable {progress : Type} {report : progress -> Stage -> Nat -> Nat -> Proc progress}

/-- A report hook that moves no chunk. -/
def QuietReport (report : progress -> Stage -> Nat -> Nat -> Proc progress) : Prop :=
  forall st stage current total, (report st stage current total).AllCalls IsIdle

theorem quiet_onProgress (target : Nat) : QuietReport (onProgress target) := by
  intro st stage current total
  have hidle {r : Request} (h : forall answer, IsIdle ⟨r, answer⟩) :
      (ask r).AllCalls IsIdle := allCalls_perform h
  apply allCalls_bind (hidle fun _ => ⟨rfl, rfl, rfl⟩)
  intro now
  dsimp only
  split
  · exact True.intro
  · apply allCalls_bind
    · exact allCalls_handle (hidle fun _ => ⟨rfl, rfl, rfl⟩) fun _ => True.intro
    · intro _
      exact True.intro

theorem report_batchSafe {st : progress} {stage : Stage} {current total : Nat}
    {post : progress -> List (Event service) -> World -> Prop}
    (hquiet : QuietReport report) (hP : Steady M excludedPages pdf P) (h : P past)
    (hpost : forall p past w, P past -> post p past w) :
    BatchSafe M excludedPages pdf post (report st stage current total) past w :=
  keeps_of_allCalls (fun _ _ => hP.kept) (fun _ _ => hP.inBatches)
    (hquiet st stage current total) h hpost

theorem insertChunks_batchSafe {post : Unit -> List (Event service) -> World -> Prop}
    (h : Holding M excludedPages pdf documentId done pending batch past)
    (hpost : forall past' w',
      Holding M excludedPages pdf documentId (done ++ pending) [] batch past' ->
        embedBatches past' = embedBatches past ->
          chunksPulled past' = chunksPulled past -> post () past' w') :
    BatchSafe M excludedPages pdf post
      (insertChunks documentId pending done.length) past w := by
  induction pending generalizing done past w with
  | nil =>
      rw [← List.append_nil done] at h
      exact hpost past w (by simpa using h) rfl rfl
  | cons row rest ih =>
      have hlength : done.length + 1 = (done ++ [row]).length := by simp
      apply keeps_bind
      refine ask_batchSafe h.inBatches ?_ ?_
      · intro a w1 _
        rw [hlength]
        apply ih h.insert
        intro past' w' hdone hbatches hpulled
        rw [List.append_assoc] at hdone
        rw [embedBatches_same rfl] at hbatches
        rw [chunksPulled_same rfl] at hpulled
        exact hpost past' w' hdone hbatches hpulled
      · intro e
        exact (h.idle ⟨rfl, rfl, rfl⟩).inBatches

structure Looping (M : EmbeddingModel) (excludedPages : Nat -> Bool) (pdf : Pdf)
    (documentId : Nat) (events : List ChunkEvent) (st : IngestState progress)
    (past : List (Event service)) : Prop where
  holding : exists done, st.written = done.length ∧
    Holding M excludedPages pdf documentId done [] st.batch past
  full : forall texts, texts ∈ embedBatches past -> texts.length = embedBatch
  rest : (chunkPdf excludedPages pdf).drop (chunksPulled past) = events
  small : st.batch.length < embedBatch

theorem steady_looping {events : List ChunkEvent} {st : IngestState progress} :
    Steady M excludedPages pdf
      (Looping M excludedPages pdf documentId events st) := by
  constructor
  · intro past call hcall h
    rcases h.holding with ⟨done, hwritten, hholding⟩
    constructor
    · exact ⟨done, hwritten, hholding.idle hcall⟩
    · rw [embedBatches_same hcall.sent]
      exact h.full
    · rw [chunksPulled_same hcall.pull]
      exact h.rest
    · exact h.small
  · intro past h
    rcases h.holding with ⟨done, _, hholding⟩
    exact hholding.inBatches

theorem flushBatch_batchSafe {st : IngestState progress}
    {post : IngestState progress -> List (Event service) -> World -> Prop}
    (hwritten : st.written = done.length)
    (hfull : forall texts, texts ∈ embedBatches past -> texts.length = embedBatch)
    (h : Holding M excludedPages pdf documentId done [] st.batch past)
    (hpost : forall st' done' past' w', st'.batch = [] ->
      st'.written = done'.length ->
      Holding M excludedPages pdf documentId done' [] [] past' ->
      (st.batch.length = embedBatch -> forall texts, texts ∈ embedBatches past' ->
        texts.length = embedBatch) ->
      chunksPulled past' = chunksPulled past -> post st' past' w') :
    BatchSafe M excludedPages pdf post (flushBatch documentId st) past w := by
  unfold flushBatch
  split
  · next hempty =>
      have hnil := List.isEmpty_iff.mp hempty
      rw [hnil] at h
      exact hpost st done past w hnil hwritten h (fun _ => hfull) rfl
  · next hbatch =>
      have hne : st.batch ≠ [] := fun hnil => hbatch (List.isEmpty_iff.mpr hnil)
      apply keeps_bind
      refine ask_batchSafe h.inBatches ?_ ?_
      · intro embeddings w1 hexec
        rcases hexec with ⟨v, hv⟩
        cases hv
        apply keeps_bind
        rw [hwritten]
        apply insertChunks_batchSafe (h.embed hfull hne)
        intro past' w' hdone hbatches hpulled
        rw [chunksPulled_same rfl] at hpulled
        refine hpost _ _ past' w' rfl (List.length_append).symm hdone ?_ hpulled
        intro hall texts htexts
        rw [hbatches, embedBatches_snoc, List.mem_append] at htexts
        rcases htexts with hold | hnew
        · exact hfull texts hold
        · rw [List.mem_singleton.mp hnew, List.length_map]
          exact hall
      · intro e
        exact (h.embed hfull hne).inBatches

theorem Looping.pull {events : List ChunkEvent} {st : IngestState progress}
    (answer : Unit) (h : Looping M excludedPages pdf documentId events st past) :
    (exists done, st.written = done.length ∧
      Holding M excludedPages pdf documentId done []
        (st.batch ++ chunksIn (events.take 1)) (past ++ [⟨.nextChunk, .ok answer⟩])) ∧
      (chunkPdf excludedPages pdf).drop
        (chunksPulled (past ++ [⟨.nextChunk, .ok answer⟩])) = events.drop 1 ∧
      forall texts, texts ∈ embedBatches (past ++ [⟨.nextChunk, .ok answer⟩]) ->
        texts.length = embedBatch := by
  rcases h.holding with ⟨done, hwritten, hholding⟩
  have hpulled : chunksPulled (past ++ [⟨.nextChunk, .ok answer⟩]) =
      chunksPulled past + 1 := chunksPulled_snoc
  have hone : (chunksIn (events.take 1)).length ≤ 1 :=
    Nat.le_trans (List.length_filterMap_le _ _) (List.length_take_le _ _)
  have hsmall := h.small
  refine ⟨⟨done, hwritten, ?_⟩, ?_, ?_⟩
  · constructor
    · rw [embedBatches_same rfl]
      exact hholding.sizes
    · rw [embedBatches_same rfl]
      exact hholding.full
    · rw [embedBatches_same rfl]
      exact hholding.texts
    · rw [embedBatches_same rfl]
      exact hholding.vectors
    · rw [insertedRows_same rfl]
      exact hholding.rows
    · rw [hpulled, List.take_add, h.rest, chunksIn_append, hholding.pulled,
        List.append_assoc]
    · rw [List.length_append, List.length_nil]
      omega
  · rw [hpulled, ← List.drop_drop, h.rest]
  · rw [embedBatches_same rfl]
    exact h.full

structure Drained (M : EmbeddingModel) (excludedPages : Nat -> Bool) (pdf : Pdf)
    (documentId : Nat) (st : IngestState progress)
    (past : List (Event service)) : Prop where
  holding : exists done, st.written = done.length ∧
    Holding M excludedPages pdf documentId done [] st.batch past
  full : forall texts, texts ∈ embedBatches past -> texts.length = embedBatch

theorem pullChunks_batchSafe {events : List ChunkEvent}
    {st : IngestState progress} (hquiet : QuietReport report)
    (h : Looping M excludedPages pdf documentId events st past) :
    BatchSafe M excludedPages pdf
      (fun st' past' _ => Drained M excludedPages pdf documentId st' past')
      (pullChunks report documentId events st) past w := by
  induction events generalizing st past w with
  | nil =>
      apply keeps_bind
      refine ask_batchSafe (steady_looping.inBatches h) ?_ ?_
      · intro a w1 _
        rcases h.pull a with ⟨⟨done, hwritten, hholding⟩, _, hfull⟩
        refine ⟨⟨done, hwritten, ?_⟩, hfull⟩
        simpa using hholding
      · intro e
        exact steady_looping.inBatches (steady_looping.kept ⟨rfl, rfl, rfl⟩ h)
  | cons event rest ih =>
      cases event with
      | onPage pagesDone pageCount chunksSoFar =>
          apply keeps_bind
          refine ask_batchSafe (steady_looping.inBatches h) ?_ ?_
          · intro a w1 _
            rcases h.pull a with ⟨⟨done, hwritten, hholding⟩, hrest, hfull⟩
            have hnext : Looping M excludedPages pdf documentId rest st
                (past ++ [⟨.nextChunk, .ok a⟩]) := by
              refine ⟨⟨done, hwritten, ?_⟩, hfull, hrest, h.small⟩
              simpa using hholding
            apply keeps_bind
            apply report_batchSafe hquiet steady_looping hnext
            intro p past2 w2 h2
            exact ih ⟨h2.holding, h2.full, h2.rest, h2.small⟩
          · intro e
            exact steady_looping.inBatches (steady_looping.kept ⟨rfl, rfl, rfl⟩ h)
      | chunk c =>
          apply keeps_bind
          refine ask_batchSafe (steady_looping.inBatches h) ?_ ?_
          · intro a w1 _
            rcases h.pull a with ⟨⟨done, hwritten, hholding⟩, hrest, hfull⟩
            dsimp only
            split
            · next hlarge =>
                apply keeps_bind
                refine flushBatch_batchSafe hwritten hfull (by exact hholding) ?_
                intro st' done' past' w' hbatch hwritten' hholding' hfull' hpulled
                have hexact : (st.batch ++ [c]).length = embedBatch := by
                  have hfew := hholding.few
                  rw [List.length_nil, Nat.zero_add] at hfew
                  exact Nat.le_antisymm hfew hlarge
                have hnext : Looping M excludedPages pdf documentId rest st' past' := by
                  refine ⟨⟨done', hwritten', ?_⟩, hfull' hexact, ?_, ?_⟩
                  · rw [hbatch]
                    exact hholding'
                  · rw [hpulled]
                    exact hrest
                  · rw [hbatch]
                    exact Nat.succ_pos 31
                apply keeps_bind
                apply report_batchSafe hquiet steady_looping hnext
                intro p past2 w2 h2
                exact ih ⟨h2.holding, h2.full, h2.rest, h2.small⟩
            · next hsmall =>
                exact ih ⟨⟨done, hwritten, hholding⟩, hfull, hrest,
                  Nat.lt_of_not_le hsmall⟩
          · intro e
            exact steady_looping.inBatches (steady_looping.kept ⟨rfl, rfl, rfl⟩ h)

theorem holding_of_unpulled (documentId : Nat) (hbatches : embedBatches past = [])
    (hrows : insertedRows past = []) (hpulled : chunksPulled past = 0) :
    Holding M excludedPages pdf documentId [] [] [] past := by
  constructor
  · rw [hbatches]
    exact List.forall_mem_nil _
  · rw [hbatches]
    exact List.forall_mem_nil _
  · rw [hbatches]
    rfl
  · rw [hbatches]
    rfl
  · rw [hrows]
    rfl
  · rw [hpulled]
    rfl
  · exact Nat.zero_le _

theorem embedAndInsert_batchSafe {pageCount : Nat} {path : String} {start : progress}
    (hquiet : QuietReport report) (hbatches : embedBatches past = []) (hpulled : chunksPulled past = 0)
    (h : Holding M excludedPages pdf documentId [] [] [] past) :
    BatchSafe M excludedPages pdf
      (fun _ past' _ => InBatches M excludedPages pdf past')
      (embedAndInsert report documentId pageCount ⟨path, pdf⟩ excludedPages
        start) past w := by
  have hlooping (p : progress) : Looping M excludedPages pdf documentId
      (chunkPdf excludedPages pdf)
      { written := 0, seen := 0, batch := [], progress := p } past := by
    constructor
    · exact ⟨[], rfl, h⟩
    · rw [hbatches]
      exact List.forall_mem_nil _
    · rw [hpulled]
      rfl
    · exact Nat.succ_pos 31
  apply keeps_bind
  apply report_batchSafe hquiet steady_looping (hlooping start)
  intro p1 past1 w1 h1
  apply keeps_bind
  apply report_batchSafe hquiet steady_looping h1
  intro p2 past2 w2 h2
  have hnext : Looping M excludedPages pdf documentId (chunkPdf excludedPages pdf)
      { written := 0, seen := 0, batch := [], progress := p2 } past2 :=
    ⟨h2.holding, h2.full, h2.rest, h2.small⟩
  apply keeps_bind
  apply keeps_mono (pullChunks_batchSafe hquiet hnext)
  intro st past3 w3 h3
  rcases h3.holding with ⟨done, hwritten, hholding⟩
  split
  · apply keeps_bind
    refine flushBatch_batchSafe hwritten h3.full hholding ?_
    intro st' done' past4 w4 _ _ h4 _ _
    apply keeps_bind
    apply report_batchSafe hquiet steady_holding h4
    intro p5 past5 w5 h5
    apply report_batchSafe hquiet steady_holding h5
    intro p6 past6 w6 h6
    exact h6.inBatches
  · exact hholding.inBatches

structure Unpulled (past : List (Event service)) : Prop where
  batches : embedBatches past = []
  rows : insertedRows past = []
  pulled : chunksPulled past = 0

theorem steady_unpulled : Steady M excludedPages pdf Unpulled := by
  constructor
  · intro past call hcall h
    constructor
    · rw [embedBatches_same hcall.sent]
      exact h.batches
    · rw [insertedRows_same hcall.inserted]
      exact h.rows
    · rw [chunksPulled_same hcall.pull]
      exact h.pulled
  · intro past h
    exact (holding_of_unpulled 0 h.batches h.rows h.pulled).inBatches

theorem ingestPdf_batchSafe {path docName sourcePath : String} {start : progress}
    (hquiet : QuietReport report) (h : Unpulled past) :
    BatchSafe M excludedPages pdf
      (fun _ past' _ => InBatches M excludedPages pdf past')
      (ingestPdf report ⟨path, pdf⟩ excludedPages docName sourcePath start)
      past w := by
  apply keeps_bind
  apply report_batchSafe hquiet steady_unpulled h
  intro p1 past1 w1 h1
  apply keeps_bind
  apply idle_batchSafe steady_unpulled (fun _ => ⟨rfl, rfl, rfl⟩) h1
  intro pageCount past2 w2 h2
  apply keeps_bind
  apply report_batchSafe hquiet steady_unpulled h2
  intro p3 past3 w3 h3
  apply keeps_bind
  apply idle_batchSafe steady_unpulled (fun _ => ⟨rfl, rfl, rfl⟩) h3
  intro documentId past4 w4 h4
  apply keeps_bind
  apply idle_batchSafe steady_unpulled (fun _ => ⟨rfl, rfl, rfl⟩) h4
  intro _ past5 w5 h5
  apply keeps_bind
  exact keeps_mono
    (embedAndInsert_batchSafe hquiet h5.batches h5.pulled
      (holding_of_unpulled _ h5.batches h5.rows h5.pulled))
    fun _ _ _ hdone => hdone

/-- However far an ingest has got, and whatever raised on the way, its calls
come in batches. -/
theorem ingestPdf_inBatches (hquiet : QuietReport report) {file : LocalFile}
    {docName sourcePath : String} {start : progress}
    {events : List (Event service)} {w' : World} {rest : Proc (Nat × progress)}
    (hsteps : Steps (World.sem M)
      (ingestPdf report file excludedPages docName sourcePath start)
      w events rest w') : InBatches M excludedPages file.pdf events := by
  have hkeeps : BatchSafe M excludedPages file.pdf
      (fun _ past' _ => InBatches M excludedPages file.pdf past')
      (ingestPdf report file excludedPages docName sourcePath start)
      [] w := ingestPdf_batchSafe hquiet ⟨rfl, rfl, rfl⟩
  exact inv_of_steps hsteps hkeeps

end Holding

def twoPages : Pdf :=
  let netRevenue (pageNum : Nat) : Chunk := ⟨pageNum, .prose, "Net revenue was 1,577.", none,
    none, none, none, none⟩
  ⟨[⟨true, List.replicate 33 (netRevenue 0)⟩, ⟨true, List.replicate 7 (netRevenue 1)⟩]⟩

def ingestCalls (calls : Nat) : List (Event service) × Proc (Nat × ProgressState) × World :=
  advance (fun r w => w.exec Deployment.lengthModel r) calls
    (ingestPdf (onProgress 1) ⟨"user1_a.pdf", twoPages⟩ noneExcluded "user1_a" "user1_a.pdf"
      .start) Deployment.init.world

theorem steps_ingestCalls (calls : Nat) :
    Steps (World.sem Deployment.lengthModel)
      (ingestPdf (onProgress 1) ⟨"user1_a.pdf", twoPages⟩ noneExcluded "user1_a" "user1_a.pdf"
        .start) Deployment.init.world (ingestCalls calls).1 (ingestCalls calls).2.1
      (ingestCalls calls).2.2 :=
  steps_advance (fun _ _ => ⟨0, none, rfl⟩) calls _ _

/-- An ingest of two pages, killed while it inserts the second batch. -/
theorem ingestPdf_inBatches_twoPages :
    exists events rest w',
      Steps (World.sem Deployment.lengthModel)
        (ingestPdf (onProgress 1) ⟨"user1_a.pdf", twoPages⟩ noneExcluded "user1_a"
          "user1_a.pdf" .start)
        Deployment.init.world events rest w' ∧
      (embedBatches events).map List.length = [32, 8] ∧
      (insertedRows events).length = 38 ∧
      InBatches Deployment.lengthModel noneExcluded twoPages events := by
  refine ⟨_, _, _, steps_ingestCalls 97, ?_, ?_,
    ingestPdf_inBatches (quiet_onProgress 1) (steps_ingestCalls 97)⟩
  · decide +kernel
  · decide +kernel

end ChatDoc
