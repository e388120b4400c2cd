import ChatDoc.Eval.Ingestion
import ChatDoc.Foundation.Transition

/-!
# Resuming an ingestion

The rows of an ingestion are at any time a prefix of the chunk sequence, so one
that is stopped before its first row or after its last one leaves nothing half
done.  One that is stopped in between leaves a document that has chunks, and
the next run takes it for complete.
-/

namespace ChatDoc

open Foundation
open Foundation.Program

/-!
# What an ingestion does to the database

`good` says what a document with some name and some chunks should be like.
-/

section Ingest

variable {M : EmbeddingModel} {good : String -> List ChunkRow -> Prop}
  {key : String} {chunks : List Chunk}

def OthersGood (good : String -> List ChunkRow -> Prop) (key : String)
    (db : Database) : Prop :=
  forall id d, db.documents.lookup id = some d -> d.docName ≠ key ->
    good d.docName (db.chunksOf id)

/-- The document of the key has a prefix of its chunks, and the others are as
they should be. -/
structure Begun (good : String -> List ChunkRow -> Prop) (key : String)
    (chunks : List Chunk) (db : Database) : Prop where
  others : OthersGood good key db
  rows : forall id d, db.documents.lookup id = some d -> d.docName = key ->
    (db.chunksOf id).map ChunkRow.numbered <+: chunks.zipIdx.map Prod.swap

structure Inserted (good : String -> List ChunkRow -> Prop) (key : String)
    (chunks : List Chunk) (id : Nat) (rows : List (Chunk × Embedding))
    (db : Database) : Prop where
  document : exists d, db.documents.lookup id = some d ∧ d.docName = key
  inserted : db.chunksOf id = chunkRows id 0 rows
  sequence : rows.map Prod.fst <+: chunks
  others : OthersGood good key db

theorem numbered_of_inserted {id : Nat} {rows : List (Chunk × Embedding)}
    {db : Database} (h : Inserted good key chunks id rows db) :
    (db.chunksOf id).map ChunkRow.numbered =
      (rows.map Prod.fst).zipIdx.map Prod.swap := by
  rw [h.inserted, numbered_chunkRows]

theorem begun_of_inserted {id : Nat} {rows : List (Chunk × Embedding)}
    {db : Database} (h : Inserted good key chunks id rows db) :
    Begun good key chunks db := by
  refine ⟨h.others, ?_⟩
  intro id' d' hlookup' hname'
  rcases h.document with ⟨d, hlookup, hname⟩
  have hid := db.docName_unique hlookup' hlookup (hname'.trans hname.symm)
  subst hid
  rcases h.sequence with ⟨rest, hrest⟩
  rw [numbered_of_inserted h, ← hrest, List.zipIdx_append, List.map_append]
  exact List.prefix_append _ _

abbrev IngestSafe (M : EmbeddingModel) (good : String -> List ChunkRow -> Prop)
    (key : String) (chunks : List Chunk) {alpha : Type}
    (post : alpha -> World -> Prop) (p : Proc alpha) (w : World) : Prop :=
  Safe (World.sem M) (fun _ w => Begun good key chunks w.db) post
    (fun _ w => Begun good key chunks w.db) p w

theorem call_safe {r : Request} {post : Reply r -> World -> Prop} {w : World}
    (h : Begun good key chunks w.db)
    (hpost : forall w1 : World, w1.db = w.db ->
      exists a, (w1.exec M r).1 = .ok a ∧ post a (w1.exec M r).2) :
    IngestSafe M good key chunks post (ask r) w := by
  apply safe_perform h
  · intro a w' hsem
    rcases hsem with ⟨elapsed, fault, hanswer⟩
    rcases hpost (w.elapse elapsed) rfl with ⟨a', ha', hpost'⟩
    cases fault with
    | some e => cases hanswer
    | none =>
        rw [World.answer_none] at hanswer
        rw [hanswer] at ha' hpost'
        cases ha'
        exact hpost'
  · intro e w' hsem
    rcases hsem with ⟨elapsed, fault, hanswer⟩
    rcases hpost (w.elapse elapsed) rfl with ⟨a', ha', _⟩
    cases fault with
    | some e =>
        cases hanswer
        exact h
    | none =>
        rw [World.answer_none] at hanswer
        rw [hanswer] at ha'
        cases ha'

theorem inserted_insertChunk {id : Nat} {rows : List (Chunk × Embedding)}
    {row : Chunk × Embedding} {db : Database}
    (h : Inserted good key chunks id rows db)
    (hsequence : (rows ++ [row]).map Prod.fst <+: chunks) :
    (db.insertChunk ⟨id, rows.length, row.1, row.2⟩).1 = .ok () ∧
      Inserted good key chunks id (rows ++ [row])
        (db.insertChunk ⟨id, rows.length, row.1, row.2⟩).2 := by
  rcases h.document with ⟨d, hlookup, hname⟩
  have hsome : (db.documents.lookup id).isSome := by
    rw [hlookup]
    rfl
  have hchunks (id' : Nat) :
      (db.insertChunkRow ⟨id, rows.length, row.1, row.2⟩ hsome).chunksOf id' =
        if id' = id then db.chunksOf id ++ [⟨id, rows.length, row.1, row.2⟩]
        else db.chunksOf id' := by
    unfold Database.chunksOf Database.insertChunkRow
    dsimp only
    rw [SerialTable.select_insert]
    by_cases hid : id' = id
    · subst hid
      simp
    · simp [hid, Ne.symm hid]
  unfold Database.insertChunk
  rw [dif_pos hsome]
  refine ⟨rfl, ⟨d, hlookup, hname⟩, ?_, hsequence, ?_⟩
  · rw [hchunks, if_pos rfl, chunkRows_append, Nat.zero_add, h.inserted]
    rfl
  · intro id' d' hlookup' hname'
    have hid : id' ≠ id := by
      intro hid
      subst hid
      have hsame : some d' = some d := hlookup'.symm.trans hlookup
      cases hsame
      exact hname' hname
    rw [hchunks, if_neg hid]
    exact h.others id' d' hlookup' hname'

theorem insertChunks_ingestSafe {id : Nat} {done pending : List (Chunk × Embedding)}
    {w : World} (h : Inserted good key chunks id done w.db)
    (hsequence : (done ++ pending).map Prod.fst <+: chunks) :
    IngestSafe M good key chunks
      (fun _ w => Inserted good key chunks id (done ++ pending) w.db)
      (insertChunks id pending done.length) w := by
  induction pending generalizing done w with
  | nil =>
      rw [List.append_nil]
      exact h
  | cons row rest ih =>
      have hsplit : done ++ row :: rest = (done ++ [row]) ++ rest := by simp
      have hlength : done.length + 1 = (done ++ [row]).length := by simp
      rw [hsplit] at hsequence ⊢
      have hnext : (done ++ [row]).map Prod.fst <+: chunks := by
        rw [List.map_append] at hsequence
        exact (List.prefix_append _ _).trans hsequence
      apply safe_bind
      apply call_safe (begun_of_inserted h)
      intro w1 hdb
      have hinserted := inserted_insertChunk h hnext
      rw [← hdb] at hinserted
      refine ⟨(), hinserted.1, ?_⟩
      rw [hlength]
      exact ih hinserted.2 hsequence

/-- The loop invariant of `ingest_pdf`: what is written, what waits in the batch
and what is still to come make up the sequence. -/
structure Reading (good : String -> List ChunkRow -> Prop) (key : String)
    (chunks : List Chunk) (id : Nat) (remaining : List Chunk)
    (st : IngestState Unit) (db : Database) : Prop where
  rows : exists rows, Inserted good key chunks id rows db ∧
    rows.map Prod.fst ++ st.batch ++ remaining = chunks ∧
      st.written = rows.length

theorem begun_of_reading {id : Nat} {remaining : List Chunk}
    {st : IngestState Unit} {db : Database}
    (h : Reading good key chunks id remaining st db) :
    Begun good key chunks db := by
  rcases h.rows with ⟨rows, hinserted, _⟩
  exact begun_of_inserted hinserted

theorem flushBatch_ingestSafe {id : Nat} {remaining : List Chunk}
    {st : IngestState Unit} {w : World}
    (h : Reading good key chunks id remaining st w.db) :
    IngestSafe M good key chunks
      (fun st' w =>
        st'.batch = [] ∧ Reading good key chunks id remaining st' w.db)
      (flushBatch id st) w := by
  rcases h.rows with ⟨rows, hinserted, hsequence, hwritten⟩
  unfold flushBatch
  split
  · next hempty => exact ⟨List.isEmpty_iff.mp hempty, h⟩
  · apply safe_bind
    apply call_safe (begun_of_reading h)
    intro w1 hdb
    refine ⟨M.embedTexts (st.batch.map Chunk.text), rfl, ?_⟩
    have hlength : st.batch.length =
        (M.embedTexts (st.batch.map Chunk.text)).length := by
      rw [M.length_embedTexts, List.length_map]
    have hall : (rows ++ st.batch.zip
        (M.embedTexts (st.batch.map Chunk.text))).map Prod.fst =
          rows.map Prod.fst ++ st.batch := by
      rw [List.map_append, List.map_fst_zip (Nat.le_of_eq hlength)]
    have hprefix : rows.map Prod.fst ++ st.batch <+: chunks := by
      rw [← hsequence]
      exact List.prefix_append _ _
    rw [← hdb] at hinserted
    apply safe_bind
    rw [hwritten]
    refine safe_mono (insertChunks_ingestSafe hinserted ?_) ?_ fun _ _ hfail => hfail
    · rw [hall]
      exact hprefix
    · intro _ w' hnext
      refine ⟨rfl, _, hnext, ?_, ?_⟩
      · rw [hall, List.append_nil]
        exact hsequence
      · rw [List.length_append]

theorem pullChunks_ingestSafe {id : Nat} {events : List ChunkEvent}
    {st : IngestState Unit} {w : World}
    (h : Reading good key chunks id (chunksIn events) st w.db) :
    IngestSafe M good key chunks
      (fun st' w => Reading good key chunks id [] st' w.db)
      (pullChunks noReport id events st) w := by
  induction events generalizing st w with
  | nil =>
      apply safe_bind
      apply call_safe (begun_of_reading h)
      intro w1 hdb
      rw [← hdb] at h
      exact ⟨(), rfl, h⟩
  | cons event rest ih =>
      cases event with
      | onPage pagesDone pageCount chunksSoFar =>
          apply safe_bind
          apply call_safe (begun_of_reading h)
          intro w1 hdb
          rw [← hdb] at h
          exact ⟨(), rfl, ih ⟨h.rows⟩⟩
      | chunk c =>
          apply safe_bind
          apply call_safe (begun_of_reading h)
          intro w1 hdb
          rw [← hdb] at h
          refine ⟨(), rfl, ?_⟩
          have hnext : Reading good key chunks id (chunksIn rest)
              { st with batch := st.batch ++ [c], seen := st.seen + 1 } w1.db := by
            rcases h.rows with ⟨rows, hinserted, hsequence, hwritten⟩
            refine ⟨rows, hinserted, ?_, hwritten⟩
            rw [← hsequence, chunksIn_chunk]
            simp
          dsimp only
          split
          · apply safe_bind
            refine safe_mono (flushBatch_ingestSafe hnext) ?_ fun _ _ hfail => hfail
            intro st' w' hflushed
            exact ih ⟨hflushed.2.rows⟩
          · exact ih hnext

def Ingested (good : String -> List ChunkRow -> Prop) (key : String)
    (chunks : List Chunk) (id : Nat) (db : Database) : Prop :=
  exists rows, Inserted good key chunks id rows db ∧ rows.map Prod.fst = chunks

theorem embedAndInsert_ingestSafe {id pageCount : Nat} {file : LocalFile}
    {excludedPages : Nat -> Bool} {w : World}
    (h : Inserted good key (chunksIn (chunkPdf excludedPages file.pdf)) id [] w.db) :
    IngestSafe M good key (chunksIn (chunkPdf excludedPages file.pdf))
      (fun _ w =>
        Ingested good key (chunksIn (chunkPdf excludedPages file.pdf)) id w.db)
      (embedAndInsert noReport id pageCount file excludedPages ()) w := by
  apply safe_bind
  have hreading : Reading good key (chunksIn (chunkPdf excludedPages file.pdf)) id
      (chunksIn (chunkPdf excludedPages file.pdf))
      { written := 0, seen := 0, batch := [], progress := () } w.db :=
    ⟨[], h, rfl, rfl⟩
  refine safe_bind (safe_bind (safe_mono (pullChunks_ingestSafe hreading) ?_
    fun _ _ hfail => hfail))
  intro st w' hpulled
  split
  · apply safe_bind
    refine safe_mono (flushBatch_ingestSafe hpulled) ?_ fun _ _ hfail => hfail
    intro st' w'' hflushed
    rcases hflushed with ⟨hbatch, hreading'⟩
    rcases hreading'.rows with ⟨rows, hinserted, hsequence, _⟩
    refine ⟨rows, hinserted, ?_⟩
    rw [hbatch, List.append_nil, List.append_nil] at hsequence
    exact hsequence
  · exact begun_of_reading hpulled

structure Unbegun (good : String -> List ChunkRow -> Prop) (key : String)
    (db : Database) : Prop where
  others : OthersGood good key db
  none : forall id d, db.documents.lookup id = some d -> d.docName = key ->
    db.chunksOf id = []

theorem begun_of_unbegun {db : Database} (h : Unbegun good key db) :
    Begun good key chunks db := by
  refine ⟨h.others, ?_⟩
  intro id d hlookup hname
  rw [h.none id d hlookup hname]
  exact List.nil_prefix

theorem upsertDocument_spec (db : Database) (now : Time) (docName sourcePath : String)
    (pageCount : Nat) :
    (exists d, (db.upsertDocument now docName sourcePath
        pageCount).2.documents.lookup
          (db.upsertDocument now docName sourcePath pageCount).1 = some d ∧
      d.docName = docName) ∧
    (forall id, (db.upsertDocument now docName sourcePath pageCount).2.chunksOf id =
      db.chunksOf id) ∧
    forall id d, (db.upsertDocument now docName sourcePath
        pageCount).2.documents.lookup id = some d ->
      (exists d', db.documents.lookup id = some d' ∧ d'.docName = d.docName) ∨
        (db.documents.lookup id = none ∧ d.docName = docName) := by
  unfold Database.upsertDocument
  split
  · next id0 d0 hfind =>
      rcases Database.lookup_of_findDocument hfind with ⟨hlookup, hname⟩
      refine ⟨⟨d0.upserted sourcePath pageCount, ?_, hname⟩, fun id => rfl, ?_⟩
      · dsimp only
        rw [World.lookup_updateDocument, hlookup, Option.map_some, if_pos rfl]
      · intro id d hd
        dsimp only at hd
        rw [World.lookup_updateDocument] at hd
        rcases Option.map_eq_some_iff.mp hd with ⟨d', hd', hsame⟩
        refine .inl ⟨d', hd', ?_⟩
        rw [← hsame]
        split <;> rfl
  · next hfind =>
      refine ⟨⟨.inserted now docName sourcePath pageCount, ?_, rfl⟩, fun id => rfl, ?_⟩
      · unfold Database.insertDocument
        dsimp only
        rw [SerialTable.lookup_insert, if_pos rfl]
      · intro id d hd
        unfold Database.insertDocument at hd
        dsimp only at hd
        rw [SerialTable.lookup_insert] at hd
        split at hd
        · next hid =>
            cases hd
            rw [hid, SerialTable.lookup_next]
            exact .inr ⟨rfl, rfl⟩
        · exact .inl ⟨d, hd, rfl⟩

theorem inserted_upsertDocument (chunks : List Chunk) {db : Database}
    (h : Unbegun good key db) (now : Time) (sourcePath : String) (pageCount : Nat) :
    Inserted good key chunks (db.upsertDocument now key sourcePath pageCount).1 []
      (db.upsertDocument now key sourcePath pageCount).2 := by
  rcases upsertDocument_spec db now key sourcePath pageCount with
    ⟨⟨d, hlookup, hname⟩, hchunks, hold⟩
  refine ⟨⟨d, hlookup, hname⟩, ?_, List.nil_prefix, ?_⟩
  · rw [hchunks]
    rcases hold _ d hlookup with ⟨d', hlookup', hsame⟩ | ⟨hnone, _⟩
    · exact h.none _ d' hlookup' (hsame.trans hname)
    · exact Database.chunksOf_eq_nil hnone
  · intro id d hlookup hname
    rw [hchunks]
    rcases hold id d hlookup with ⟨d', hlookup', hsame⟩ | ⟨_, hkey⟩
    · rw [← hsame]
      exact h.others id d' hlookup' (hsame ▸ hname)
    · exact absurd hkey hname

theorem inserted_deleteChunks {id : Nat} {db : Database}
    (h : Inserted good key chunks id [] db) :
    Inserted good key chunks id [] (db.deleteChunksForDocument id) := by
  have hchunks (id' : Nat) : (db.deleteChunksForDocument id).chunksOf id' =
      if id' = id then [] else db.chunksOf id' := World.chunksOf_delete db id' id
  refine ⟨h.document, ?_, h.sequence, ?_⟩
  · rw [hchunks, if_pos rfl]
    rfl
  · intro id' d' hlookup hname
    rw [hchunks]
    split
    · next hid =>
        have hnil : db.chunksOf id' = [] := by
          rw [hid]
          exact h.inserted
        rw [← hnil]
        exact h.others id' d' hlookup hname
    · exact h.others id' d' hlookup hname

theorem ingestPdf_ingestSafe (M : EmbeddingModel) (file : LocalFile)
    (excludedPages : Nat -> Bool) (sourcePath : String) {w : World}
    (h : Unbegun good key w.db) :
    IngestSafe M good key (chunksIn (chunkPdf excludedPages file.pdf))
      (fun out w =>
        Ingested good key (chunksIn (chunkPdf excludedPages file.pdf)) out.1 w.db)
      (ingestPdf noReport file excludedPages key sourcePath ()) w := by
  apply safe_bind
  apply safe_bind
  apply call_safe (begun_of_unbegun h)
  intro w1 hdb1
  rw [← hdb1] at h
  refine ⟨_, rfl, ?_⟩
  refine safe_bind (safe_bind ?_)
  apply call_safe (begun_of_unbegun h)
  intro w2 hdb2
  have h2 : Unbegun good key w2.db := by
    rw [hdb2]
    exact h
  refine ⟨_, rfl, ?_⟩
  have hupserted :=
    inserted_upsertDocument (chunksIn (chunkPdf excludedPages file.pdf)) h2 w2.now
      sourcePath file.pdf.pages.length
  apply safe_bind
  apply call_safe (begun_of_inserted hupserted)
  intro w3 hdb3
  refine ⟨(), rfl, ?_⟩
  have hdeleted := inserted_deleteChunks hupserted
  apply safe_bind
  refine safe_mono (embedAndInsert_ingestSafe (M := M) (w := _) ?_) ?_
    fun _ _ hfail => hfail
  · show Inserted _ _ _ _ _ (w3.db.deleteChunksForDocument _)
    rw [hdb3]
    exact hdeleted
  · intro p w' hingested
    exact hingested

theorem begun_of_ingested {id : Nat} {db : Database}
    (h : Ingested good key chunks id db) : Begun good key chunks db := by
  rcases h with ⟨rows, hinserted, _⟩
  exact begun_of_inserted hinserted

theorem begun_of_ingestSafe {alpha : Type} {post : alpha -> World -> Prop}
    {p : Proc alpha} {w : World} (h : IngestSafe M good key chunks post p w)
    (hpost : forall a, post a w -> Begun good key chunks w.db) :
    Begun good key chunks w.db := by
  cases p with
  | ret a => exact hpost a h
  | raise e => exact h
  | call r next => exact h.1

end Ingest

/-!
# Runs
-/

namespace Resumption

section Runs

variable {M : EmbeddingModel} {pdfs : PdfDir} {asked : IngestCall -> Prop}
  {s s' : Resumption}

/-- A document that has chunks has all those of a call for it. -/
def Settled (pdfs : PdfDir) (asked : IngestCall -> Prop) (docName : String)
    (rows : List ChunkRow) : Prop :=
  rows ≠ [] -> exists c chunks, asked c ∧ c.key = docName ∧
    c.content pdfs = some chunks ∧
      rows.map ChunkRow.numbered = chunks.zipIdx.map Prod.swap

def AllSettled (pdfs : PdfDir) (asked : IngestCall -> Prop) (db : Database) : Prop :=
  forall id d, db.documents.lookup id = some d ->
    Settled pdfs asked d.docName (db.chunksOf id)

def inserts (pdfs : PdfDir) (c : IngestCall) : List Chunk := (c.content pdfs).getD []

def Done (pdfs : PdfDir) (asked : IngestCall -> Prop) (c : IngestCall)
    (out : Nat × Unit) (w : World) : Prop :=
  Ingested (Settled pdfs asked) c.key (inserts pdfs c) out.1 w.db ∧
    (c.content pdfs).isSome

/-- What holds in every state: no document is half done, except for the one that
is being ingested. -/
structure Sound (M : EmbeddingModel) (pdfs : PdfDir) (asked : IngestCall -> Prop)
    (s : Resumption) : Prop where
  idle : s.running = none -> AllSettled pdfs asked s.world.db
  busy : forall c p, s.running = some (c, p) -> asked c ∧
    IngestSafe M (Settled pdfs asked) c.key (inserts pdfs c) (Done pdfs asked c) p
      s.world
  returned : s.ReturnsComplete pdfs

theorem ingest_ingestSafe {c : IngestCall} {w : World}
    (h : Unbegun (Settled pdfs asked) c.key w.db) :
    IngestSafe M (Settled pdfs asked) c.key (inserts pdfs c) (Done pdfs asked c)
      (c.ingest pdfs) w := by
  cases hpdf : pdfs c.docName with
  | none =>
      unfold IngestCall.ingest
      rw [hpdf]
      exact begun_of_unbegun h
  | some pdf =>
      have hinserts : inserts pdfs c = c.sequence pdf := by
        unfold inserts IngestCall.content
        rw [hpdf]
        rfl
      have hcontent : (c.content pdfs).isSome := by
        unfold IngestCall.content
        rw [hpdf]
        rfl
      have hsafe := ingestPdf_ingestSafe M ⟨c.path, pdf⟩ c.excludes c.path h
      unfold IngestCall.ingest
      rw [hpdf, hinserts]
      refine safe_mono hsafe ?_ fun _ _ hfail => hfail
      intro out w' hingested
      refine ⟨?_, hcontent⟩
      rw [hinserts]
      exact hingested

theorem begun_of_busy {c : IngestCall} {p : Proc (Nat × Unit)} (h : Sound M pdfs asked s)
    (hrunning : s.running = some (c, p)) :
    Begun (Settled pdfs asked) c.key (inserts pdfs c) s.world.db :=
  begun_of_ingestSafe (h.busy c p hrunning).2 fun _ hdone => begun_of_ingested hdone.1

theorem allSettled_of_begun {c : IngestCall} {p : Proc (Nat × Unit)}
    (hrunning : s.running = some (c, p)) (hasked : asked c)
    (h : Begun (Settled pdfs asked) c.key (inserts pdfs c) s.world.db)
    (hpartly : ¬ s.PartlyWritten pdfs) : AllSettled pdfs asked s.world.db := by
  intro id d hlookup
  by_cases hname : d.docName = c.key
  · intro hrows
    have hprefix := h.rows id d hlookup hname
    have hfind := Database.findDocument_of_lookup hlookup
    rw [hname] at hfind
    cases hcontent : c.content pdfs with
    | none =>
        unfold inserts at hprefix
        rw [hcontent] at hprefix
        have hnil := List.map_eq_nil_iff.mp (List.prefix_nil.mp hprefix)
        exact absurd hnil hrows
    | some chunks =>
        unfold inserts at hprefix
        rw [hcontent, Option.getD_some] at hprefix
        have hlength : chunks.length ≤ (s.world.db.chunksOf id).length := by
          by_contra hlt
          exact hpartly ⟨c, p, hrunning, id, d, hfind, hrows, chunks, hcontent,
            Nat.lt_of_not_le hlt⟩
        refine ⟨c, chunks, hasked, hname.symm, hcontent, ?_⟩
        apply hprefix.eq_of_length_le
        rw [List.length_map, List.length_map, List.length_zipIdx]
        exact hlength
  · exact h.others id d hlookup hname

theorem unbegun_of_notIngested {c : IngestCall} (h : AllSettled pdfs asked s.world.db)
    (hfind : s.world.db.getIngestedDocumentId c.key = none) :
    Unbegun (Settled pdfs asked) c.key s.world.db := by
  refine ⟨fun id d hlookup _ => h id d hlookup, ?_⟩
  intro id d hlookup hname
  have hfound := Database.findDocument_of_lookup hlookup
  rw [hname] at hfound
  unfold Database.getIngestedDocumentId at hfind
  rw [hfound, Option.bind_some] at hfind
  by_contra hrows
  rw [if_pos hrows] at hfind
  cases hfind

/-- A document that is found with a chunk is complete. -/
theorem complete_of_ingested {c : IngestCall} {id : Nat}
    (h : AllSettled pdfs asked s.world.db) (hasked : asked c)
    (hkeys : forall c c', asked c -> asked c' -> c.key = c'.key ->
      c.content pdfs = c'.content pdfs)
    (hfind : s.world.db.getIngestedDocumentId c.key = some id) :
    Complete pdfs s.world.db c id := by
  rcases Option.bind_eq_some_iff.mp hfind with ⟨⟨id', d⟩, hfound, hsome⟩
  rw [Option.ite_none_right_eq_some] at hsome
  rcases hsome with ⟨hrows, hid⟩
  cases hid
  rcases Database.lookup_of_findDocument hfound with ⟨hlookup, hname⟩
  rcases h id' d hlookup hrows with ⟨c', chunks, hasked', hkey, hcontent, hnumbered⟩
  refine ⟨chunks, ?_, hnumbered⟩
  rw [hkeys c c' hasked hasked' (hname.symm.trans hkey.symm), hcontent]

theorem complete_of_done {c : IngestCall} {out : Nat × Unit} {w : World}
    (h : Done pdfs asked c out w) : Complete pdfs w.db c out.1 := by
  rcases h with ⟨⟨rows, hinserted, hrows⟩, hsome⟩
  rcases Option.isSome_iff_exists.mp hsome with ⟨chunks, hcontent⟩
  unfold inserts at hrows
  rw [hcontent, Option.getD_some] at hrows
  refine ⟨chunks, hcontent, ?_⟩
  rw [numbered_of_inserted hinserted, hrows]

theorem allSettled_of_done {c : IngestCall} {out : Nat × Unit} {w : World}
    (hasked : asked c) (h : Done pdfs asked c out w) :
    AllSettled pdfs asked w.db := by
  intro id d hlookup
  rcases h with ⟨hingested, hsome⟩
  by_cases hname : d.docName = c.key
  · intro _
    rcases complete_of_done ⟨hingested, hsome⟩ with ⟨chunks, hcontent, hnumbered⟩
    rcases hingested with ⟨rows, hinserted, _⟩
    rcases hinserted.document with ⟨d', hlookup', hname'⟩
    have hid := w.db.docName_unique hlookup hlookup' (hname.trans hname'.symm)
    subst hid
    exact ⟨c, chunks, hasked, hname.symm, hcontent, hnumbered⟩
  · exact (begun_of_ingested hingested).others id d hlookup hname

theorem sound_init : Sound M pdfs asked init where
  idle := by
    intro _ id d hlookup
    cases hlookup
  busy := by
    intro c p hrunning
    cases hrunning
  returned := by
    intro c id hreturned
    cases hreturned

theorem sound_idle {w : World} (h : AllSettled pdfs asked w.db) :
    Sound M pdfs asked ⟨w, none, none⟩ where
  idle := fun _ => h
  busy := by
    intro c p hrunning
    cases hrunning
  returned := by
    intro c id hreturned
    cases hreturned

theorem sound_returned {w : World} {c : IngestCall} {id : Nat}
    (h : AllSettled pdfs asked w.db) (hcomplete : Complete pdfs w.db c id) :
    Sound M pdfs asked ⟨w, none, some (c, id)⟩ where
  idle := fun _ => h
  busy := by
    intro c p hrunning
    cases hrunning
  returned := by
    intro c' id' hreturned
    cases hreturned
    exact hcomplete

theorem sound_busy {w : World} {c : IngestCall} {p : Proc (Nat × Unit)}
    (hasked : asked c)
    (h : IngestSafe M (Settled pdfs asked) c.key (inserts pdfs c) (Done pdfs asked c)
      p w) : Sound M pdfs asked ⟨w, some (c, p), none⟩ where
  idle := by
    intro hnone
    cases hnone
  busy := by
    intro c' p' hrunning
    cases hrunning
    exact ⟨hasked, h⟩
  returned := by
    intro c id hreturned
    cases hreturned

/-- Every step keeps it, as long as no ingestion is stopped between two rows. -/
theorem sound_act {a : ResumeAction} (h : Sound M pdfs asked s)
    (hkeys : forall c c', asked c -> asked c' -> c.key = c'.key ->
      c.content pdfs = c'.content pdfs)
    (huncut : s.Uncut pdfs a) (hasked : forall c, a = .ensure c -> asked c)
    (hact : act M pdfs s a = some s') : Sound M pdfs asked s' := by
  cases a with
  | ensure c =>
      unfold act at hact
      dsimp only at hact
      split at hact
      next => cases hact
      next hidle =>
        have hsettled := h.idle hidle
        split at hact
        next existing hfind =>
          cases hact
          exact sound_returned hsettled
            (complete_of_ingested hsettled (hasked c rfl) hkeys hfind)
        next hfind =>
          cases hact
          exact sound_busy (hasked c rfl)
            (ingest_ingestSafe (unbegun_of_notIngested hsettled hfind))
  | step elapsed fault =>
      unfold act at hact
      dsimp only at hact
      split at hact
      next c r next hrunning =>
        cases hact
        rcases h.busy c _ hrunning with ⟨hcalled, hsafe⟩
        exact sound_busy hcalled (hsafe.2 _ _ ⟨elapsed, fault, rfl⟩)
      next => cases hact
  | leave =>
      unfold act at hact
      dsimp only at hact
      split at hact
      next c out hrunning =>
        cases hact
        rcases h.busy c _ hrunning with ⟨hcalled, hdone⟩
        exact sound_returned (allSettled_of_done hcalled hdone)
          (complete_of_done hdone)
      next c exc hrunning =>
        cases hact
        have hstops : s.stops .leave = true := by
          unfold stops
          rw [hrunning]
        exact sound_idle (allSettled_of_begun hrunning (h.busy c _ hrunning).1
          (begun_of_busy h hrunning) (huncut hstops))
      next => cases hact
  | kill =>
      cases hact
      cases hrunning : s.running with
      | none => exact sound_idle (h.idle hrunning)
      | some entry =>
          rcases entry with ⟨c, p⟩
          have hstops : s.stops .kill = true := by
            unfold stops
            rw [hrunning]
            rfl
          exact sound_idle (allSettled_of_begun hrunning (h.busy c p hrunning).1
            (begun_of_busy h hrunning) (huncut hstops))

end Runs

/-- When no ingestion is stopped between two of its rows, and no two calls share
a key, `ensure_ingested` returns complete documents only. -/
theorem returnsComplete_of_uncut (M : EmbeddingModel) (pdfs : PdfDir)
    {trace : List (Resumption × ResumeAction)} {s : Resumption}
    (hrun : Run (act M pdfs) init trace s) (hkeys : KeysApart pdfs trace)
    (huncut : EachStep (fun s a => s.Uncut pdfs a) trace) :
    EachStep (fun s _ => s.ReturnsComplete pdfs) trace ∧ s.ReturnsComplete pdfs := by
  have hcond : EachStep (fun s a => s.Uncut pdfs a ∧
      forall c, a = .ensure c -> Asked trace c) trace := by
    intro step hstep
    refine ⟨huncut step hstep, ?_⟩
    intro c hc
    refine ⟨step.1, ?_⟩
    rw [← hc]
    exact hstep
  have hinit : Sound M pdfs (Asked trace) init := sound_init
  have hsound := hrun.always hinit (fun s a s' hinv hstep hact =>
    sound_act hinv hkeys hstep.1 hstep.2 hact) hcond
  exact ⟨fun step hstep => (hsound.1 step hstep).returned, hsound.2.returned⟩

/-!
# A document with two chunks

The first run is killed after the first chunk was inserted.  The next one finds
a chunk and returns the document.
-/

def twoChunks : Pdf where
  pages :=
    [{ hasText := true
       chunks :=
        [⟨0, .prose, "first", none, none, none, none, none⟩,
         ⟨0, .prose, "second", none, none, none, none, none⟩] }]

def wholeFile : IngestCall := ⟨"X", []⟩

def undisturbed : List ResumeAction :=
  .ensure wholeFile :: List.replicate 10 (.step 0 none) ++ [.leave, .ensure wholeFile]

def killedBetween : List ResumeAction :=
  .ensure wholeFile :: List.replicate 9 (.step 0 none) ++ [.kill, .ensure wholeFile]

def answeredUncut (trace : List (Resumption × ResumeAction)) (s : Resumption) : Bool :=
  decide (s.returned = some (wholeFile, 1)) &&
    trace.all fun step => !step.1.stops step.2 &&
      match step.2 with
      | .ensure c => decide (c = wholeFile)
      | _ => true

theorem returnsComplete_of_uncut_undisturbed :
    exists trace s, Run (act Deployment.lengthModel fun _ => some twoChunks) init trace s ∧
      s.returned = some (wholeFile, 1) ∧
        s.ReturnsComplete fun _ => some twoChunks := by
  have hfollow : (follow (act Deployment.lengthModel fun _ => some twoChunks) init
      undisturbed).any (fun out => answeredUncut out.1 out.2) = true := by
    decide +kernel
  rcases exists_run_of_follow answeredUncut hfollow with ⟨trace, s, hrun, hgood⟩
  unfold answeredUncut at hgood
  rw [Bool.and_eq_true, decide_eq_true_eq, List.all_eq_true] at hgood
  rcases hgood with ⟨hreturned, htrace⟩
  have hcalls : forall c, Asked trace c -> c = wholeFile := by
    intro c hasked
    rcases hasked with ⟨s, hstep⟩
    have hgood := htrace _ hstep
    rw [Bool.and_eq_true] at hgood
    exact of_decide_eq_true hgood.2
  have hkeys : KeysApart (fun _ => some twoChunks) trace := by
    intro c c' hasked hasked' _
    rw [hcalls c hasked, hcalls c' hasked']
  have huncut : EachStep (fun s a => s.Uncut (fun _ => some twoChunks) a) trace := by
    intro step hstep hstops
    have hgood := htrace step hstep
    rw [hstops] at hgood
    cases hgood
  exact ⟨trace, s, hrun, hreturned,
    (returnsComplete_of_uncut Deployment.lengthModel _ hrun hkeys huncut).2⟩

theorem exists_returns_incomplete :
    ¬ forall (M : EmbeddingModel) (pdfs : PdfDir)
      (trace : List (Resumption × ResumeAction)) (s : Resumption),
        Run (act M pdfs) init trace s -> s.ReturnsComplete pdfs := by
  intro hall
  have hfollow : (follow (act Deployment.lengthModel fun _ => some twoChunks) init
      killedBetween).any (fun out => decide (out.2.returned = some (wholeFile, 1)) &&
        decide ((out.2.world.db.chunksOf 1).length = 1)) = true := by
    decide +kernel
  rcases exists_run_of_follow
    (fun _ (s : Resumption) => decide (s.returned = some (wholeFile, 1)) &&
      decide ((s.world.db.chunksOf 1).length = 1)) hfollow with ⟨trace, s, hrun, hgood⟩
  rw [Bool.and_eq_true, decide_eq_true_eq, decide_eq_true_eq] at hgood
  rcases hgood with ⟨hreturned, hlength⟩
  rcases hall _ _ trace s hrun wholeFile 1 hreturned with ⟨chunks, hcontent, hrows⟩
  have htwo : chunks.length = 2 := by
    cases hcontent
    rfl
  have hsame := congrArg List.length hrows
  rw [List.length_map, List.length_map, List.length_zipIdx, hlength, htwo] at hsame
  cases hsame

end Resumption
end ChatDoc
