import ChatDoc.Jobs.Batches
import ChatDoc.Service.Effects

/-!
# The throttle of the progress writer

The writer lets a report through when its stage is new or when the last write
is `PROGRESS_WRITE_INTERVAL_S` ago.  Chunking and embedding are interleaved, so
their stages alternate, but only once for each batch: the writes of an ingest
are bounded by the batches it has pulled and by the time it has taken.
-/

namespace ChatDoc

open Foundation
open Foundation.Program

def isStageWrite : Event service -> Bool
  | ⟨.updateDocumentStage _ _ _ _, _⟩ => true
  | _ => false

def stageWrites (past : List (Event service)) : Nat := past.countP isStageWrite

theorem stageWrites_snoc (past : List (Event service)) (call : Event service) :
    stageWrites (past ++ [call]) = stageWrites past + (isStageWrite call).toNat := by
  unfold stageWrites
  rw [List.countP_append, List.countP_singleton]
  cases isStageWrite call <;> rfl

/-- The most changes of stage among the reports of an ingest of so many chunks:
two for each full batch, and six around them. -/
def stageChanges (chunks : Nat) : Nat := 6 + 2 * (chunks / embedBatch)

def stageChangesAt (all : List ChunkEvent) (pulled : Nat) : Nat :=
  stageChanges (chunksIn (all.take pulled)).length

/-- The writes come to one for each interval since the start, and one for each change of stage
that the chunks pulled so far make room for. -/
structure WithinRate (start : Time) (all : List ChunkEvent) (past : List (Event service))
    (w : World) : Prop where
  clock : start ≤ w.now
  writes : stageWrites past * progressWriteInterval ≤
    stageChangesAt all (chunksPulled past) * progressWriteInterval + (w.now - start)

/-- What the writer's state says about the writes so far, of which `changes`
were for a new stage, after `pulled` events of the generator. -/
structure Spaced (start : Time) (changes pulled : Nat) (st : ProgressState)
    (past : List (Event service)) (w : World) : Prop where
  pulled : chunksPulled past = pulled
  clock : start ≤ w.now
  unwritten : st.lastStage = none -> stageWrites past = 0
  written : forall stage, st.lastStage = some stage ->
    start ≤ st.lastWrite ∧ st.lastWrite ≤ w.now ∧
      stageWrites past * progressWriteInterval ≤
        changes * progressWriteInterval + (st.lastWrite - start)

section Writer

variable {M : EmbeddingModel} {start : Time} {all : List ChunkEvent} {changes pulled : Nat}
  {st : ProgressState} {past : List (Event service)} {w w' : World}

theorem Spaced.withinRate (h : Spaced start changes pulled st past w)
    (hbound : changes ≤ stageChangesAt all pulled) :
    WithinRate start all past w := by
  refine ⟨h.clock, ?_⟩
  rw [h.pulled]
  have hscaled := Nat.mul_le_mul_right progressWriteInterval hbound
  cases hstage : st.lastStage with
  | none =>
      rw [h.unwritten hstage, Nat.zero_mul]
      exact Nat.zero_le _
  | some stage =>
      rcases h.written stage hstage with ⟨hstart, hlast, hwrites⟩
      have hspan := Nat.sub_le_sub_right hlast start
      omega

theorem now_le_of_sem {r : Request} {answer : Except Exn (Reply r)}
    (hsem : World.sem M r w answer w') : w.now ≤ w'.now := by
  rcases hsem with ⟨elapsed, fault, hanswer⟩
  have hworld : w' = ((w.elapse elapsed).answer M fault r).2 :=
    (congrArg Prod.snd hanswer).symm
  rw [hworld]
  cases fault with
  | some e => exact Nat.le_add_right _ _
  | none =>
      rw [World.answer_none, World.exec_now]
      exact Nat.le_add_right _ _

theorem now_of_monotonic {now : Time}
    (hsem : World.sem M .monotonic w (.ok now) w') : now = w'.now := by
  rcases hsem with ⟨elapsed, fault, hanswer⟩
  cases fault with
  | some e => cases hanswer
  | none =>
      cases hanswer
      rfl

theorem Spaced.idle (call : Event service) (hcall : isStageWrite call = false)
    (hnow : w.now ≤ w'.now) (h : Spaced start changes pulled st past w) :
    Spaced start changes (pulled + (isPull call).toNat) st (past ++ [call]) w' := by
  have hsame : stageWrites (past ++ [call]) = stageWrites past := by
    rw [stageWrites_snoc, hcall]
    rfl
  constructor
  · rw [chunksPulled_snoc, h.pulled]
  · exact Nat.le_trans h.clock hnow
  · rw [hsame]
    exact h.unwritten
  · intro stage hstage
    rcases h.written stage hstage with ⟨hstart, hlast, hwrites⟩
    rw [hsame]
    exact ⟨hstart, Nat.le_trans hlast hnow, hwrites⟩

abbrev RateSafe (M : EmbeddingModel) (start : Time) (all : List ChunkEvent) {alpha : Type}
    (post : alpha -> List (Event service) -> World -> Prop) (p : Proc alpha)
    (past : List (Event service)) (w : World) : Prop :=
  Keeps (World.sem M) (WithinRate start all) post p past w

theorem ask_rateSafe {r : Request} {post : Reply r -> List (Event service) -> World -> Prop}
    (hbound : changes ≤ stageChangesAt all pulled)
    (hidle : forall answer, isStageWrite ⟨r, answer⟩ = false ∧ isPull ⟨r, answer⟩ = false)
    (h : Spaced start changes pulled st past w)
    (hpost : forall a past' w', World.sem M r w (.ok a) w' ->
      Spaced start changes pulled st past' w' -> post a past' w') :
    RateSafe M start all post (ask r) past w := by
  have hnext {answer : Except Exn (Reply r)} {w' : World} (hsem : World.sem M r w answer w') :
      Spaced start changes pulled st (past ++ [⟨r, answer⟩]) w' := by
    have hlater := h.idle _ (hidle answer).1 (now_le_of_sem hsem)
    rw [(hidle answer).2] at hlater
    exact hlater
  apply keeps_perform (h.withinRate hbound)
  · intro a w' hsem
    exact hpost a _ w' hsem (hnext hsem)
  · intro e w' hsem
    exact (hnext hsem).withinRate hbound

theorem pull_rateSafe {post : Unit -> List (Event service) -> World -> Prop}
    (hbound : changes ≤ stageChangesAt all pulled)
    (h : Spaced start changes pulled st past w)
    (hpost : forall a past' w',
      Spaced start changes (pulled + 1) st past' w' -> post a past' w') :
    RateSafe M start all post (ask .nextChunk) past w := by
  apply keeps_perform (h.withinRate hbound)
  · intro a w' hsem
    have hmore := h.idle ⟨.nextChunk, .ok a⟩ rfl (now_le_of_sem hsem)
    exact hpost a _ w' hmore
  · intro e w' hsem
    have hsame := h.idle ⟨.nextChunk, .error e⟩ rfl (now_le_of_sem hsem)
    exact hsame.withinRate hbound

def ProgressState.changed (st : ProgressState) (stage : Stage) : Nat :=
  if st.lastStage = some stage then 0 else 1

theorem Spaced.write {stage : Stage} {call : Event service}
    (hcall : isStageWrite call = true) (hnow : w.now ≤ w'.now)
    (hdue : ¬ (some stage = st.lastStage ∧
      w.now < st.lastWrite + progressWriteInterval))
    (hpull : isPull call = false) (h : Spaced start changes pulled st past w) :
    Spaced start (changes + st.changed stage) pulled
      { st with lastStage := some stage, lastWrite := w.now }
      (past ++ [call]) w' := by
  have hone : stageWrites (past ++ [call]) = stageWrites past + 1 := by
    rw [stageWrites_snoc, hcall]
    rfl
  have hclock := h.clock
  refine ⟨?_, Nat.le_trans hclock hnow, fun hnone => (nomatch hnone), ?_⟩
  · rw [chunksPulled_same hpull, h.pulled]
  intro _ _
  rw [hone, Nat.succ_mul, Nat.add_mul]
  refine ⟨hclock, hnow, ?_⟩
  show stageWrites past * progressWriteInterval + progressWriteInterval ≤
    changes * progressWriteInterval +
      st.changed stage * progressWriteInterval + (w.now - start)
  unfold ProgressState.changed
  cases hlast : st.lastStage with
  | none =>
      rw [h.unwritten hlast, if_neg (fun hsame => nomatch hsame)]
      omega
  | some old =>
      rcases h.written old hlast with ⟨hstart, hbefore, hwrites⟩
      have hspan := Nat.sub_le_sub_right hbefore start
      by_cases hsame : old = stage
      · rw [hlast, hsame] at hdue
        have hpassed := Nat.sub_le_sub_right
          (Nat.le_of_not_lt fun hlt => hdue ⟨rfl, hlt⟩) start
        rw [Nat.sub_add_comm hstart] at hpassed
        rw [if_pos (congrArg some hsame)]
        omega
      · rw [if_neg fun heq => hsame (Option.some.inj heq)]
        omega

theorem Spaced.count {stage : Stage} {total : Nat}
    (h : Spaced start changes pulled st past w) :
    Spaced start changes pulled (st.count stage total) past w := by
  unfold ProgressState.count
  split
  · exact ⟨h.pulled, h.clock, h.unwritten, h.written⟩
  · exact h

theorem lastStage_count {stage : Stage} {total : Nat} :
    (st.count stage total).lastStage = st.lastStage := by
  unfold ProgressState.count
  split <;> rfl

theorem onProgress_rateSafe {target : Nat} {stage : Stage} {current total : Nat}
    {post : ProgressState -> List (Event service) -> World -> Prop}
    (hbound : changes + st.changed stage ≤ stageChangesAt all pulled)
    (h : Spaced start changes pulled st past w)
    (hpost : forall p past' w', p.lastStage = some stage ->
      Spaced start (changes + st.changed stage) pulled p past' w' -> post p past' w') :
    RateSafe M start all post
      (onProgress target st stage current total) past w := by
  have hchanges := Nat.le_trans (Nat.le_add_right _ _) hbound
  have hsame : (st.count stage total).changed stage = st.changed stage := by
    unfold ProgressState.changed
    rw [lastStage_count]
  apply keeps_bind
  apply ask_rateSafe hchanges (fun _ => ⟨rfl, rfl⟩) h.count
  intro now past1 w1 hsem h1
  have hnow := now_of_monotonic hsem
  dsimp only
  split
  · next hearly =>
      have hzero : st.changed stage = 0 := by
        rw [← hsame, ProgressState.changed, if_pos hearly.left.symm]
      apply hpost _ past1 w1 hearly.left.symm
      rw [hzero]
      exact h1
  · next hdue =>
      rw [hnow] at hdue ⊢
      rw [← hsame] at hbound hpost
      apply keeps_bind
      refine keeps_attempt (I := service)
        (r := .updateDocumentStage target stage current total)
        (h1.withinRate hchanges) ?_ ?_
      · intro a w2 hsem2
        exact hpost _ _ w2 rfl (h1.write rfl (now_le_of_sem hsem2) hdue rfl)
      · intro e w2 hsem2
        exact hpost _ _ w2 rfl (h1.write rfl (now_le_of_sem hsem2) hdue rfl)

/-!
# The rate of an ingest
-/

theorem insertChunks_rateSafe {documentId i : Nat} {rows : List (Chunk × Embedding)}
    {post : Unit -> List (Event service) -> World -> Prop}
    (hbound : changes ≤ stageChangesAt all pulled)
    (h : Spaced start changes pulled st past w)
    (hpost : forall past' w', Spaced start changes pulled st past' w' -> post () past' w') :
    RateSafe M start all post (insertChunks documentId rows i) past w := by
  induction rows generalizing i past w with
  | nil => exact hpost past w h
  | cons row rest ih =>
      apply keeps_bind
      apply ask_rateSafe hbound (fun _ => ⟨rfl, rfl⟩) h
      intro _ past1 w1 _ h1
      exact ih h1

theorem flushBatch_rateSafe {documentId : Nat} {ist : IngestState ProgressState}
    {post : IngestState ProgressState -> List (Event service) -> World -> Prop}
    (hbound : changes ≤ stageChangesAt all pulled)
    (h : Spaced start changes pulled ist.progress past w)
    (hpost : forall ist' past' w', ist'.batch = [] -> ist'.progress = ist.progress ->
      Spaced start changes pulled ist'.progress past' w' -> post ist' past' w') :
    RateSafe M start all post (flushBatch documentId ist) past w := by
  unfold flushBatch
  split
  · next hempty => exact hpost ist past w (List.isEmpty_iff.mp hempty) rfl h
  · apply keeps_bind
    apply ask_rateSafe hbound (fun _ => ⟨rfl, rfl⟩) h
    intro embeddings past1 w1 _ h1
    apply keeps_bind
    apply insertChunks_rateSafe hbound h1
    intro past2 w2 h2
    exact hpost _ past2 w2 rfl rfl h2

/-- After so many full batches, the changes of stage if the last report was of
this stage: chunking and embedding alternate. -/
inductive Alternates (batches : Nat) : Option Stage -> Nat -> Prop where
  | embedding {changes : Nat} :
      changes ≤ 3 + 2 * batches -> Alternates batches (some .embedding) changes
  | chunking {changes : Nat} :
      changes ≤ 4 + 2 * batches -> Alternates batches (some .chunking) changes

theorem Alternates.le {batches : Nat} {stage : Option Stage}
    (h : Alternates batches stage changes) : changes ≤ 4 + 2 * batches := by
  cases h with
  | embedding hle => exact Nat.le_trans hle (Nat.add_le_add_right (by decide) _)
  | chunking hle => exact hle

theorem Alternates.toChunking {batches : Nat}
    (h : Alternates batches st.lastStage changes) :
    changes + st.changed .chunking ≤ 4 + 2 * batches := by
  unfold ProgressState.changed
  generalize hlast : st.lastStage = last at h
  cases h with
  | embedding hle =>
      rw [if_neg fun hsame => nomatch hsame]
      omega
  | chunking hle => simpa using hle

theorem Alternates.toEmbedding {batches : Nat}
    (h : Alternates batches st.lastStage changes) :
    changes + st.changed .embedding ≤ 3 + 2 * (batches + 1) := by
  unfold ProgressState.changed
  generalize hlast : st.lastStage = last at h
  cases h with
  | embedding hle =>
      rw [if_pos rfl]
      omega
  | chunking hle =>
      rw [if_neg fun hsame => nomatch hsame]
      omega

structure Reporting (start : Time) (all events : List ChunkEvent)
    (pulled batches changes : Nat) (ist : IngestState ProgressState)
    (past : List (Event service)) (w : World) : Prop where
  rest : all.drop pulled = events
  room : embedBatch * batches + ist.batch.length ≤ (chunksIn (all.take pulled)).length
  spaced : Spaced start changes pulled ist.progress past w
  alternates : Alternates batches ist.progress.lastStage changes

theorem le_stageChangesAt {batches : Nat}
    (h : embedBatch * batches ≤ (chunksIn (all.take pulled)).length) :
    4 + 2 * batches + 2 ≤ stageChangesAt all pulled := by
  have hbatches : batches ≤ (chunksIn (all.take pulled)).length / embedBatch := by
    rw [Nat.le_div_iff_mul_le (by decide), Nat.mul_comm]
    exact h
  unfold stageChangesAt stageChanges
  omega

theorem Reporting.le {batches : Nat} {events : List ChunkEvent}
    {ist : IngestState ProgressState}
    (h : Reporting start all events pulled batches changes ist past w) :
    4 + 2 * batches + 2 ≤ stageChangesAt all pulled :=
  le_stageChangesAt (Nat.le_trans (Nat.le_add_right _ _) h.room)

theorem pulled_next {event : ChunkEvent} {rest : List ChunkEvent}
    (h : all.drop pulled = event :: rest) :
    all.drop (pulled + 1) = rest ∧
      chunksIn (all.take (pulled + 1)) = chunksIn (all.take pulled) ++ chunksIn [event] := by
  constructor
  · rw [← List.drop_drop, h]
    rfl
  · rw [List.take_add, h, chunksIn_append]
    rfl

theorem pullChunks_rateSafe {target documentId batches : Nat}
    {events : List ChunkEvent} {ist : IngestState ProgressState}
    (h : Reporting start all events pulled batches changes ist past w) :
    RateSafe M start all
      (fun ist' past' w' => exists pulled batches changes,
        Reporting start all [] pulled batches changes ist' past' w')
      (pullChunks (onProgress target) documentId events ist) past w := by
  induction events generalizing ist past w pulled batches changes with
  | nil =>
      have hle := h.le
      have hchanges := h.alternates.le
      have hbound : changes ≤ stageChangesAt all pulled := by omega
      apply keeps_bind
      apply pull_rateSafe hbound h.spaced
      intro _ past1 w1 h1
      refine ⟨pulled + 1, batches, changes, ?_, ?_, h1, h.alternates⟩
      · rw [← List.drop_drop, h.rest]
        rfl
      · rw [List.take_add, h.rest, List.take_nil, List.append_nil]
        exact h.room
  | cons event rest ih =>
      have hle := h.le
      have hchanges := h.alternates.le
      have hbound : changes ≤ stageChangesAt all pulled := by omega
      have hroom := h.room
      rcases pulled_next h.rest with ⟨hrest, hnow⟩
      cases event with
      | onPage pagesDone pageCount chunksSoFar =>
          rw [chunksIn_onPage, chunksIn_nil, List.append_nil] at hnow
          rw [← hnow] at hroom
          have hmore := le_stageChangesAt (Nat.le_trans (Nat.le_add_right _ _) hroom)
          have hnext := h.alternates.toChunking
          have hfits : changes + ist.progress.changed .chunking ≤
              stageChangesAt all (pulled + 1) := by omega
          apply keeps_bind
          apply pull_rateSafe hbound h.spaced
          intro _ past1 w1 h1
          apply keeps_bind
          apply onProgress_rateSafe hfits h1
          intro p past2 w2 hlast h2
          refine ih ⟨hrest, hroom, h2, ?_⟩
          show Alternates batches p.lastStage _
          rw [hlast]
          exact .chunking hnext
      | chunk c =>
          have hone : (chunksIn (all.take (pulled + 1))).length =
              (chunksIn (all.take pulled)).length + 1 := by
            rw [hnow, List.length_append]
            rfl
          have hmore : 4 + 2 * batches + 2 ≤ stageChangesAt all (pulled + 1) :=
            le_stageChangesAt (by omega)
          have hbound1 : changes ≤ stageChangesAt all (pulled + 1) := by omega
          apply keeps_bind
          apply pull_rateSafe hbound h.spaced
          intro _ past1 w1 h1
          dsimp only
          split
          · next hlarge =>
              rw [List.length_append, List.length_singleton] at hlarge
              have hnext := h.alternates.toEmbedding
              apply keeps_bind
              refine flushBatch_rateSafe hbound1 (by exact h1) ?_
              intro ist' past2 w2 hbatch hprogress h2
              have hfull : embedBatch * (batches + 1) ≤
                  (chunksIn (all.take (pulled + 1))).length := by
                rw [Nat.mul_succ, hone]
                omega
              have hspace := le_stageChangesAt hfull
              have hfits : changes + ist'.progress.changed .embedding ≤
                  stageChangesAt all (pulled + 1) := by
                rw [hprogress]
                show changes + ist.progress.changed .embedding ≤ _
                omega
              apply keeps_bind
              apply onProgress_rateSafe hfits h2
              intro p past3 w3 hlast h3
              have halternates : Alternates (batches + 1) p.lastStage
                  (changes + ist'.progress.changed .embedding) := by
                rw [hlast, hprogress]
                exact .embedding hnext
              refine ih ⟨hrest, ?_, h3, halternates⟩
              rw [hbatch]
              exact hfull
          · refine ih ⟨hrest, ?_, h1, h.alternates⟩
            rw [List.length_append, List.length_singleton, hone]
            omega

theorem changed_le (st : ProgressState) (stage : Stage) : st.changed stage ≤ 1 := by
  unfold ProgressState.changed
  split <;> omega

theorem embedAndInsert_rateSafe {target documentId pageCount : Nat} {file : LocalFile}
    {excludedPages : Nat -> Bool} (hone : changes ≤ 1)
    (h : Spaced start changes 0 st past w) :
    RateSafe M start (chunkPdf excludedPages file.pdf)
      (fun _ past' w' => WithinRate start (chunkPdf excludedPages file.pdf) past' w')
      (embedAndInsert (onProgress target) documentId pageCount file excludedPages st)
      past w := by
  have hsix : 6 ≤ stageChangesAt (chunkPdf excludedPages file.pdf) 0 := Nat.le_add_right _ _
  have hfirst := changed_le st .chunking
  apply keeps_bind
  refine onProgress_rateSafe (by omega) h ?_
  intro p1 past1 w1 hlast1 h1
  have hsecond := changed_le p1 .embedding
  apply keeps_bind
  refine onProgress_rateSafe (by omega) h1 ?_
  intro p2 past2 w2 hlast2 h2
  have hloop : Reporting start (chunkPdf excludedPages file.pdf)
      (chunkPdf excludedPages file.pdf) 0 0
      (changes + st.changed .chunking + p1.changed .embedding)
      { written := 0, seen := 0, batch := [], progress := p2 } past2 w2 := by
    refine ⟨rfl, Nat.zero_le _, h2, ?_⟩
    show Alternates 0 p2.lastStage _
    rw [hlast2]
    exact .embedding (by omega)
  apply keeps_bind
  apply keeps_mono (pullChunks_rateSafe hloop)
  intro ist past3 w3 hdone
  rcases hdone with ⟨pulled, batches, changes3, h3⟩
  have hle := h3.le
  have hchanges := h3.alternates.le
  split
  · have hthird := changed_le ist.progress .embedding
    apply keeps_bind
    refine flushBatch_rateSafe (by omega) h3.spaced ?_
    intro ist' past4 w4 _ hprogress h4
    rw [← hprogress] at hthird
    apply keeps_bind
    refine onProgress_rateSafe (by omega) h4 ?_
    intro p5 past5 w5 _ h5
    have hfourth := changed_le p5 .indexing
    refine onProgress_rateSafe (by omega) h5 ?_
    intro p6 past6 w6 _ h6
    exact h6.withinRate (by omega)
  · exact h3.spaced.withinRate (by omega)

theorem ingestPdf_rateSafe {target : Nat} {file : LocalFile}
    {excludedPages : Nat -> Bool} {docName sourcePath : String}
    (h : Spaced start 0 0 .start past w) :
    RateSafe M start (chunkPdf excludedPages file.pdf)
      (fun _ past' w' => WithinRate start (chunkPdf excludedPages file.pdf) past' w')
      (ingestPdf (onProgress target) file excludedPages docName sourcePath .start)
      past w := by
  have hsix : 6 ≤ stageChangesAt (chunkPdf excludedPages file.pdf) 0 := Nat.le_add_right _ _
  have hfirst := changed_le .start .reading
  apply keeps_bind
  refine onProgress_rateSafe (by omega) h ?_
  intro p1 past1 w1 hlast1 h1
  have hsame : p1.changed .reading = 0 := by
    unfold ProgressState.changed
    rw [if_pos hlast1]
  apply keeps_bind
  apply ask_rateSafe (by omega) (fun _ => ⟨rfl, rfl⟩) h1
  intro pageCount past2 w2 _ h2
  apply keeps_bind
  refine onProgress_rateSafe (by omega) h2 ?_
  intro p3 past3 w3 _ h3
  rw [hsame] at h3
  apply keeps_bind
  apply ask_rateSafe (by omega) (fun _ => ⟨rfl, rfl⟩) h3
  intro documentId past4 w4 _ h4
  apply keeps_bind
  apply ask_rateSafe (by omega) (fun _ => ⟨rfl, rfl⟩) h4
  intro _ past5 w5 _ h5
  apply keeps_bind
  apply keeps_mono (embedAndInsert_rateSafe (by omega) h5)
  intro _ past6 w6 hdone
  exact hdone

/-- However far an ingest has got after some time, it has sent at most one progress write for
each interval of that time, two for each full batch of the chunks that it has pulled so far,
and six more. -/
theorem ingestPdf_withinRate {target : Nat} {file : LocalFile}
    {excludedPages : Nat -> Bool} {docName sourcePath : String}
    {events : List (Event service)} {rest : Proc (Nat × ProgressState)}
    (hsteps : Steps (World.sem M)
      (ingestPdf (onProgress target) file excludedPages docName sourcePath .start)
      w events rest w') :
    stageWrites events ≤
      6 + 2 * ((chunksIn ((chunkPdf excludedPages file.pdf).take
          (chunksPulled events))).length / embedBatch) +
        (w'.now - w.now) / progressWriteInterval := by
  have hspaced : Spaced w.now 0 0 .start [] w :=
    ⟨rfl, Nat.le_refl _, fun _ => rfl, fun _ hstage => nomatch hstage⟩
  have hrate := inv_of_steps hsteps (ingestPdf_rateSafe hspaced)
  have hwrites := Nat.div_le_div_right (c := progressWriteInterval) hrate.writes
  rw [Nat.mul_div_cancel _ (by decide), Nat.mul_comm,
    Nat.mul_add_div (by decide)] at hwrites
  exact hwrites

end Writer

/-- An ingest of two pages that comes to its end at once: no second report of a stage is
written, and six stages begin. -/
theorem ingestPdf_withinRate_twoPages :
    exists events rest w',
      Steps (World.sem Deployment.lengthModel)
        (ingestPdf (onProgress 1) ⟨"user1_a.pdf", twoPages⟩ noneExcluded "user1_a"
          "user1_a.pdf" .start)
        Deployment.init.world events rest w' ∧
      rest.Ended ∧
      stageWrites events = 6 ∧
      stageWrites events ≤
        6 + 2 * ((chunksIn ((chunkPdf noneExcluded twoPages).take
            (chunksPulled events))).length / embedBatch) +
          (w'.now - Deployment.init.world.now) / progressWriteInterval := by
  refine ⟨_, _, _, steps_ingestCalls 103, ?_, ?_, ingestPdf_withinRate (steps_ingestCalls 103)⟩
  · decide +kernel
  · decide +kernel

end ChatDoc
