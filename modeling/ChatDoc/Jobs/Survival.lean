import ChatDoc.Foundation.ServiceLoop
import ChatDoc.Jobs.Worker

/-!
# Which exceptions stop the ingest worker

`process_job` catches whatever its `try` statement raises, but several calls of
an iteration stand outside that statement: the claim and the reaper, the
existence check and the blob delete before it, and the queue writes of the
`except` clauses themselves.  The worker survives a pattern of exceptions
exactly when none of those calls raises.
-/

namespace ChatDoc

open Foundation
open Foundation.Program

def Unguarded : Request -> Prop
  | .claimJob => True
  | .reapExhaustedJobs => True
  | .markDocumentFailed _ _ => True
  | .getStorage => True
  | .documentExists _ => True
  | .storageDelete _ => True
  | .readAttempts _ => True
  | .requeueJob _ _ => True
  | .deadLetterJob _ _ => True
  | _ => False

abbrev Oracle := Nat -> (r : Request) -> Except Exn (Reply r)

/-- The worker comes back to `claim_job` however long it has run. -/
def KeepsClaiming (oracle : Oracle) : Prop :=
  forall n, exists m, n ≤ m ∧
    LoopState.after runForeverBody oracle m = .running runForeverBody

def UnguardedCallsSucceed (oracle : Oracle) : Prop :=
  StrictCallsAnswered Unguarded runForeverBody oracle

/-!
# The guarded calls
-/

theorem insertChunks_avoids (documentId : Nat)
    (rows : List (Chunk × Embedding)) (i : Nat) :
    Avoids Unguarded (insertChunks documentId rows i) := by
  induction rows generalizing i with
  | nil => exact True.intro
  | cons row rest ih =>
      apply avoids_bind
      · exact avoids_perform id
      · intro _
        exact ih (i + 1)

section Ingest

variable {progress : Type}
  {report : progress -> Stage -> Nat -> Nat -> Proc progress}

theorem flushBatch_avoids (documentId : Nat) (st : IngestState progress) :
    Avoids Unguarded (flushBatch documentId st) := by
  unfold flushBatch
  split
  · exact True.intro
  · apply avoids_bind
    · exact avoids_perform id
    · intro embeddings
      apply avoids_bind
      · exact insertChunks_avoids _ _ _
      · intro _
        exact True.intro

theorem pullChunks_avoids
    (hreport : forall p stage current total,
      Avoids Unguarded (report p stage current total))
    (documentId : Nat) (events : List ChunkEvent) (st : IngestState progress) :
    Avoids Unguarded (pullChunks report documentId events st) := by
  induction events generalizing st with
  | nil =>
      apply avoids_bind
      · exact avoids_perform id
      · intro _
        exact True.intro
  | cons event rest ih =>
      cases event with
      | onPage pagesDone pageCount chunksSoFar =>
          apply avoids_bind
          · exact avoids_perform id
          · intro _
            exact avoids_bind (hreport _ _ _ _) fun p => ih _
      | chunk c =>
          apply avoids_bind
          · exact avoids_perform id
          · intro _
            dsimp only
            split
            · apply avoids_bind
              · exact flushBatch_avoids _ _
              · intro st'
                exact avoids_bind (hreport _ _ _ _) fun p => ih _
            · exact ih _

theorem ingestPdf_avoids
    (hreport : forall p stage current total,
      Avoids Unguarded (report p stage current total))
    (file : LocalFile) (excludedPages : Nat -> Bool)
    (docName sourcePath : String) (start : progress) :
    Avoids Unguarded
      (ingestPdf report file excludedPages docName sourcePath start) := by
  refine avoids_bind (hreport _ _ _ _) fun p => ?_
  refine avoids_bind (avoids_perform id) fun pageCount => ?_
  refine avoids_bind (hreport _ _ _ _) fun p => ?_
  refine avoids_bind (avoids_perform id) fun documentId => ?_
  refine avoids_bind (avoids_perform id) fun _ => ?_
  apply avoids_bind
  · refine avoids_bind (hreport _ _ _ _) fun p => ?_
    refine avoids_bind (hreport _ _ _ _) fun p => ?_
    refine avoids_bind (pullChunks_avoids hreport _ _ _) fun st => ?_
    split
    · refine avoids_bind (flushBatch_avoids _ _) fun st => ?_
      exact avoids_bind (hreport _ _ _ _) fun p => hreport _ _ _ _
    · exact True.intro
  · intro p
    exact True.intro

end Ingest

theorem onProgress_avoids (documentId : Nat) (st : ProgressState)
    (stage : Stage) (current total : Nat) :
    Avoids Unguarded (onProgress documentId st stage current total) := by
  refine avoids_bind (avoids_perform id) fun now => ?_
  dsimp only
  split
  · exact True.intro
  · apply avoids_bind
    · exact avoids_handle (avoids_perform id) fun _ => True.intro
    · intro _
      exact True.intro

theorem ingestJob_avoids (job : JobRow) : Avoids Unguarded (ingestJob job) := by
  apply avoids_bind
  · refine avoids_bind (avoids_perform id) fun file => ?_
    apply avoids_bind
    · apply avoids_handle
      · refine avoids_bind (avoids_perform id) fun pageCount => ?_
        split
        · exact True.intro
        · apply avoids_bind
          · exact ingestPdf_avoids (onProgress_avoids _) _ _ _ _ _
          · intro _
            exact True.intro
      · intro exc
        exact avoids_bind (avoids_perform id) fun _ => True.intro
    · intro a
      exact avoids_bind (avoids_perform id) fun _ => True.intro
  · intro chunkCount
    exact avoids_bind (avoids_perform id) fun _ => avoids_perform id

/-!
# The unguarded calls
-/

theorem markDocumentsFailed_raisesExactly (rows : List Nat) :
    RaisesExactly Unguarded (markDocumentsFailed rows) := by
  induction rows with
  | nil => exact True.intro
  | cons documentId rest ih =>
      exact raisesExactly_bind (raisesExactly_perform True.intro) fun _ => ih

theorem claimJob_raisesExactly : RaisesExactly Unguarded claimJob := by
  apply raisesExactly_bind
  · exact raisesExactly_perform True.intro
  · intro row
    cases row with
    | some job => exact True.intro
    | none =>
        apply raisesExactly_bind
        · exact raisesExactly_bind (raisesExactly_perform True.intro)
            markDocumentsFailed_raisesExactly
        · intro _
          exact True.intro

theorem failJob_raisesExactly (jobId : Nat) (error : String) :
    RaisesExactly Unguarded (failJob jobId error) := by
  apply raisesExactly_bind
  · exact raisesExactly_perform True.intro
  · intro row
    rcases row with _ | ⟨attempts, maxAttempts⟩
    · exact True.intro
    · dsimp only
      split
      · exact raisesExactly_bind (raisesExactly_perform True.intro)
          fun _ => True.intro
      · exact raisesExactly_bind (raisesExactly_perform True.intro)
          fun _ => True.intro

theorem ingestFailed_raisesExactly (job : JobRow) (exc : Exn) :
    RaisesExactly Unguarded (ingestFailed job exc) := by
  have hgeneric : RaisesExactly Unguarded (do
      let willRetry ← failJob job.id exc.message
      if willRetry then
        pure ()
      else
        ask (.markDocumentFailed job.documentId (truncate 500 exc.message))) := by
    apply raisesExactly_bind (failJob_raisesExactly _ _)
    intro willRetry
    cases willRetry with
    | true => exact True.intro
    | false => exact raisesExactly_perform True.intro
  cases exc with
  | storageError key =>
      exact raisesExactly_bind (failJob_raisesExactly _ _) fun _ => True.intro
  | exception text => exact hgeneric
  | http statusCode detail => exact hgeneric

theorem processJob_raisesExactly (job : JobRow) :
    RaisesExactly Unguarded (processJob job) := by
  refine raisesExactly_bind (raisesExactly_perform True.intro) fun _ => ?_
  refine raisesExactly_bind (raisesExactly_perform True.intro) fun present => ?_
  cases present with
  | true =>
      exact raisesExactly_handle (ingestJob_avoids job)
        (ingestFailed_raisesExactly job)
  | false => exact raisesExactly_perform True.intro

theorem runForeverBody_raisesExactly :
    RaisesExactly Unguarded runForeverBody := by
  apply raisesExactly_bind claimJob_raisesExactly
  intro row
  cases row with
  | none => exact True.intro
  | some job => exact processJob_raisesExactly job

/-!
# Survival
-/

/-- The worker keeps claiming jobs exactly when no exception reaches a call
that stands outside the `try` statement of `process_job`. -/
theorem ingest_worker_survives_iff (oracle : Oracle) :
    KeepsClaiming oracle <-> UnguardedCallsSucceed oracle :=
  restarts_forever_iff runForeverBody_raisesExactly id

/-- An environment without work in which the first poll of the queue fails to
connect to the database. -/
def transientDatabaseError : Oracle
  | 0, _ => .error (.exception "connection failed")
  | _ + 1, r =>
      (World.exec ⟨fun texts => texts.map fun _ => [], by simp⟩
        { db := .empty, blobs := fun _ => none, now := 0 } r).1

theorem transientDatabaseError_stops_worker :
    ¬ KeepsClaiming transientDatabaseError := by
  intro hclaims
  have hstop : LoopState.after runForeverBody transientDatabaseError 1 =
      .stopped (.exception "connection failed") := rfl
  rcases hclaims 1 with ⟨m, hm, hrun⟩
  rw [← Nat.add_sub_of_le hm, after_stopped hstop] at hrun
  cases hrun

end ChatDoc
