import ChatDoc.Jobs.Ready

/-!
# The outcome of a job and of its document

When nobody works on it, a job is done, failed or waiting as its document is
ready, failed or processing.  An attempt that ends with a `StorageError` and has
no attempts left breaks this: its job fails and its document keeps processing.
So does a worker that still reports on a job another worker has taken.
-/

namespace ChatDoc

open Foundation
open Foundation.Program

structure Agree (job : JobStatus) (document : DocumentStatus) : Prop where
  done : job = .done <-> document = .ready
  failed : job = .failed <-> document = .failed
  waiting : (job = .queued ∨ job = .processing) <-> document = .processing

def ingestCall : Request -> Bool
  | .openLocal _ => true
  | .closeLocal => true
  | .pymupdfOpen _ => true
  | .nextChunk => true
  | .embedTexts _ => true
  | .monotonic => true
  | .updateDocumentStage _ _ _ _ => true
  | .upsertDocument _ _ _ => true
  | .deleteChunksForDocument _ => true
  | .insertChunk _ => true
  | _ => false

/-!
# What attempts keep

Only the calls of the ingest raise, and no `StorageError` escapes from one on
the last attempt.
-/

/-- The exception leaves the job an attempt if it is a `StorageError`. -/
def Spares (exc : Exn) (job : Job) : Prop :=
  forall key, exc = .storageError key -> job.attempts < job.maxAttempts

def agreement : Regime where
  allow := fun r s answer =>
    forall exc, answer = .error exc ->
      ingestCall r = true ∧ (Escaping r -> Spares exc s.job)
  cleared := fun _ => True
  raised := fun start exc s =>
    Spares exc s.job ∧ s.document.status = start.document.status
  abandons := False
  idle := fun s =>
    Agree s.job.status s.document.status ∧ s.job.status ≠ .processing

section Attempts

variable {A : Attempt} {s : Slice} {r : Request}

theorem unfinished_of_req (h : A.req r s) (hcall : ingestCall r = true) :
    A.Unfinished s := by
  rcases h with ⟨_, h⟩
  cases r with
  | markDocumentReady id chunkCount => cases hcall
  | completeJob id => cases hcall
  | requeueJob id error => cases hcall
  | deadLetterJob id error => cases hcall
  | markDocumentFailed id error => cases hcall
  | readAttempts id => cases hcall
  | _ => exact h

theorem status_of_unfinished (h : A.Unfinished s) :
    s.document.status = A.start.document.status := by
  rcases h with hbefore | ⟨rows, hwriting⟩
  · exact Document.status_of_core hbefore.document
  · have hstatus := Document.status_of_unstaged hwriting.document
    exact hstatus

theorem not_ingestCall_of_unguarded (h : Unguarded r) :
    ingestCall r = false := by
  cases r with
  | claimJob => rfl
  | reapExhaustedJobs => rfl
  | markDocumentFailed documentId error => rfl
  | getStorage => rfl
  | documentExists documentId => rfl
  | storageDelete key => rfl
  | readAttempts jobId => rfl
  | requeueJob jobId error => rfl
  | deadLetterJob jobId error => rfl
  | _ => exact h.elim

end Attempts

theorem agreement_sound (M : EmbeddingModel) (row : JobRow) (s : Slice) :
    (agreement.attempt M row s).Sound := by
  constructor
  · intro batch row _
    exact True.intro
  · intro t _ _
    exact True.intro
  · intro r t exc hescaping hreq hallow
    rcases hallow exc rfl with ⟨hcall, hspares⟩
    exact ⟨hspares hescaping,
      status_of_unfinished (unfinished_of_req hreq hcall)⟩
  · intro t text hunfinished
    refine ⟨?_, status_of_unfinished hunfinished⟩
    intro key hexc
    cases hexc
  · intro r t exc hunguarded hallow
    have hcall := (hallow exc rfl).left
    rw [not_ingestCall_of_unguarded hunguarded] at hcall
    cases hcall

theorem waiting_of_claimable {s : Slice} {now : Time}
    (hidle : agreement.idle s) (hclaimable : s.job.claimable now = true) :
    s.document.status = .processing := by
  rcases (of_decide_eq_true hclaimable).left with hqueued | ⟨hprocessing, _⟩
  · exact hidle.left.waiting.mp (.inl hqueued)
  · exact absurd hprocessing hidle.right

theorem agree_of_returned {M : EmbeddingModel} {row : JobRow} {start s : Slice}
    (hstart : start.document.status = .processing)
    (h : (agreement.attempt M row start).Returned s) : agreement.idle s := by
  rcases h with ⟨t, ⟨t', _, ht'⟩, ht⟩ | ⟨t, exc, now, error, hraised, _, ht⟩ |
    ⟨t, exc, error, ⟨t', error', _, _, ht'⟩, ht⟩ |
    ⟨key, t, error, hraised, hspent, _⟩
  · subst ht ht'
    refine ⟨?_, by simp [Job.completed]⟩
    constructor <;> simp [Job.completed, Document.markedReady]
  · have hstatus := hraised.right.right
    replace hstatus : t.document.status = start.document.status := hstatus
    subst ht
    refine ⟨?_, by simp [Job.requeued]⟩
    rw [hstatus, hstart]
    constructor <;> simp [Job.requeued]
  · subst ht ht'
    refine ⟨?_, by simp [Job.deadLettered]⟩
    constructor <;> simp [Job.deadLettered, Document.markedFailed]
  · have hlt := hraised.right.left key rfl
    exact absurd hlt (Nat.not_lt.mpr hspent)

theorem agreement_keeps (M : EmbeddingModel) : agreement.Keeps M := by
  constructor
  · exact agreement_sound M
  · intro s now documentId docKey pdfPath hstatus hjob
    show Agree _ _ ∧ _
    rw [hstatus, hjob]
    refine ⟨?_, by simp [Job.enqueued]⟩
    constructor <;> simp [Job.enqueued]
  · intro row s now t hidle hclaimable hreturned
    have hwaiting := waiting_of_claimable hidle hclaimable
    have hstart : (s.claimed now).document.status = .processing := hwaiting
    exact agree_of_returned hstart hreturned
  · intro row s now t habandons
    exact habandons.elim
  · intro s now hidle hreapable
    exact absurd (of_decide_eq_true hreapable).left hidle.right
  · intro s error hidle hfailed
    refine ⟨?_, hidle.right⟩
    show Agree s.job.status .failed
    rw [hfailed]
    constructor <;> simp

/-!
# Runs in which the outcomes agree
-/

namespace Deployment

variable {M : EmbeddingModel} {d d' : Deployment} {a : Action}

/-- No `process_job` and no reaper is in progress. -/
def Quiet (d : Deployment) : Prop :=
  forall pid p, d.processes.lookup pid = some p -> p.activity = .worker ->
    p.rest = runForeverBody

def OutcomesAgree (d : Deployment) : Prop :=
  forall id job, d.world.db.jobs.lookup id = some job ->
    exists document, d.world.db.documents.lookup job.documentId = some document ∧
      Agree job.status document.status

def atIngestCall (p : Process) : Bool :=
  match p.rest with
  | .call r _ => ingestCall r
  | _ => false

/-- Uploads, and workers that are not killed; exceptions come from the calls of
the ingest only. -/
def IngestFaultsOnly (d : Deployment) : Action -> Prop
  | .spawn pid activity => ByWorkers (.spawn pid activity)
  | .step pid (some _) => ∀ p ∈ d.processes.lookup pid, atIngestCall p = true
  | .step _ none => True
  | .crash _ => False
  | .tick _ => True

def AtEscapingCall (p : Process) : Prop :=
  match p.rest with
  | .call r _ => Escaping r
  | _ => False

/-- A `StorageError` escapes from the ingest of a job without attempts left. -/
def LastStorageError (d : Deployment) : Action -> Prop
  | .step pid (some (.storageError _)) =>
      ∃ p ∈ d.processes.lookup pid, AtEscapingCall p ∧
        ∃ l ∈ p.lease, ∃ job ∈ d.world.db.jobs.lookup l.job.id,
          job.maxAttempts ≤ job.attempts
  | _ => False

def reapedRows : Event service -> Option (List Nat)
  | ⟨.reapExhaustedJobs, .ok rows⟩ => some rows
  | _ => none

/-- A job is claimed or reaped that a worker is still processing. -/
def Overtakes (M : EmbeddingModel) (d : Deployment) (a : Action) : Prop :=
  ∃ entry ∈ d.processes.entries, ∃ l ∈ entry.2.lease,
    ∃ job ∈ d.world.db.jobs.lookup l.job.id,
      (returned M d a).map JobRow.id = some l.job.id ∨
        (((event M d a).bind reapedRows).isSome = true ∧
          job.reapable d.world.now = true)

def KeepsOutcome (M : EmbeddingModel) (d : Deployment) (a : Action) : Prop :=
  ¬ LastStorageError d a ∧ ¬ Overtakes M d a

theorem job_of_lease (hd : Owned agreement M d) {pid : Nat} {l : Lease}
    (hl : Holds d pid l) :
    exists job, d.world.db.jobs.lookup l.job.id = some job := by
  rcases hl with ⟨p, hp, hlease⟩
  rcases processInv_lease (hd.process hp) hlease with
    ⟨_, _, t, _, _, _, hshows, _⟩
  exact ⟨t.job, hshows.job⟩

theorem overtakes_of_holds {pid : Nat} {l : Lease} {job : Job}
    (hl : Holds d pid l) (hjob : d.world.db.jobs.lookup l.job.id = some job)
    (h : (returned M d a).map JobRow.id = some l.job.id ∨
      (((event M d a).bind reapedRows).isSome = true ∧
        job.reapable d.world.now = true)) : Overtakes M d a := by
  rcases hl with ⟨p, hp, hlease⟩
  exact ⟨⟨pid, p⟩, AList.mem_lookup_iff.mp hp, l, hlease, job, hjob, h⟩

theorem fault_of_error {l : Lease} {r : Request} {s : Slice}
    {fault : Option Exn} {exc : Exn} (hshows : Shows d.world l.job s)
    (hown : Own l.job r)
    (herror : (d.world.answer M fault r).1 = .error exc) :
    fault = some exc := by
  cases fault with
  | some e =>
      cases herror
      rfl
  | none =>
      rcases shows_own (M := M) hshows hown none with ⟨s', _, heq⟩
      rcases Attempt.exec_own M d.world.now s hown with ⟨a, ha⟩
      have hanswer := congrArg Prod.fst heq
      rw [herror] at hanswer
      exact absurd (ha.symm.trans hanswer) (by simp)

theorem orderly_of_keepsOutcome (hd : Owned agreement M d)
    (hfaults : IngestFaultsOnly d a) (hkept : KeepsOutcome M d a) :
    Orderly agreement M d a := by
  constructor
  · intro pid activity ha
    subst ha
    exact spawned_of_byWorkers hfaults
  · intro pid l ha _
    subst ha
    exact hfaults.elim
  · intro row hreturned pid l hl hid
    rcases job_of_lease hd hl with ⟨job, hjob⟩
    refine hkept.right (overtakes_of_holds hl hjob (.inl ?_))
    rw [hreturned, Option.map_some, hid]
  · intro rows pid l job hevent hl hjob
    by_contra hreapable
    rw [Bool.not_eq_false] at hreapable
    refine hkept.right (overtakes_of_holds hl hjob (.inr ⟨?_, hreapable⟩))
    rw [hevent]
    rfl
  · intro pid fault p l r next s ha hp hlease hrest hshows exc herror
    subst ha
    have hworking := processInv_lease (hd.process hp) hlease
    rw [hrest] at hworking
    have hfault := fault_of_error hshows (own_of_working hworking) herror
    subst hfault
    constructor
    · have hcall := hfaults p hp
      unfold atIngestCall at hcall
      rw [hrest] at hcall
      exact hcall
    · intro hescaping key hexc
      subst hexc
      by_contra hspent
      refine hkept.left ⟨p, hp, ?_, l, hlease, s.job, hshows.job,
        Nat.not_lt.mp hspent⟩
      unfold AtEscapingCall
      rw [hrest]
      exact hescaping

theorem unheld_of_quiet (hd : Owned agreement M d) (hquiet : Quiet d)
    (id : Nat) : Unheld d id := by
  intro pid l hall _
  rcases hall with ⟨p, hp, hlease⟩
  have hinv := hd.process hp
  have hworking := processInv_lease hinv hlease
  unfold ProcessInv at hinv
  split at hinv
  · next hactivity =>
      rw [hquiet pid p hp hactivity] at hworking
      exact own_of_working hworking
  · rw [hinv.left] at hlease
    cases hlease
  · exact hinv.elim

theorem outcomesAgree_of_owned (hd : Owned agreement M d) (hquiet : Quiet d) :
    OutcomesAgree d := by
  intro id job hjob
  rcases hd.slice hjob with ⟨s, hs, hidle⟩
  have heq := hs.job.symm.trans hjob
  cases heq
  exact ⟨s.document, hs.document, (hidle (unheld_of_quiet hd hquiet id)).left⟩

/-- When no `StorageError` ends the last attempt of a job and no job is taken
from a worker that still processes it, jobs and documents agree whenever nobody
works. -/
theorem outcomesAgree_of_keepsOutcome {trace : List (Deployment × Action)}
    (hrun : Run (act M) init trace d)
    (hfaults : EachStep IngestFaultsOnly trace)
    (hkept : EachStep (KeepsOutcome M) trace) :
    EachStep (fun d _ => Quiet d -> OutcomesAgree d) trace ∧
      (Quiet d -> OutcomesAgree d) := by
  have hsteps : EachStep
      (fun d a => IngestFaultsOnly d a ∧ KeepsOutcome M d a) trace :=
    fun step hstep => ⟨hfaults step hstep, hkept step hstep⟩
  have hstep : forall s a s', Owned agreement M s ->
      IngestFaultsOnly s a ∧ KeepsOutcome M s a -> act M s a = some s' ->
        Owned agreement M s' := by
    intro s a s' hs hcond hact
    exact owned_step (agreement_keeps M) hs
      (orderly_of_keepsOutcome hs hcond.left hcond.right) hact
  rcases hrun.always owned_init hstep hsteps with ⟨hstates, hd⟩
  exact ⟨fun step hin => outcomesAgree_of_owned (hstates step hin),
    outcomesAgree_of_owned hd⟩

/-!
# A failed job whose document keeps processing
-/

instance : DecidablePred (IngestFaultsOnly d)
  | .spawn pid activity =>
      inferInstanceAs (Decidable (ByWorkers (.spawn pid activity)))
  | .step pid (some _) =>
      inferInstanceAs
        (Decidable (∀ p ∈ d.processes.lookup pid, atIngestCall p = true))
  | .step _ none => .isTrue True.intro
  | .crash _ => .isFalse id
  | .tick _ => .isTrue True.intro

def missingPdf (pid : Nat) : List Action :=
  claimed pid ++ [.step pid (some (.storageError "user1_0123456789ab.pdf"))] ++
    answered pid 2

def missingThrice : List Action :=
  uploaded 0 1 "0123456789ab" onePage ++ missingPdf 1 ++ missingPdf 1 ++
    missingPdf 1

def failedJobProcessing (trace : List (Deployment × Action))
    (d : Deployment) : Bool :=
  (∀ step ∈ trace, IngestFaultsOnly step.1 step.2) ∧ d.processes.keys = [] ∧
    (d.world.db.jobs.lookup 1).any fun job =>
      job.status = .failed ∧ job.documentId = 1 ∧
        (d.world.db.documents.lookup 1).map Document.status = some .processing

theorem exists_run_missingThrice :
    exists trace d, Run (act lengthModel) init trace d ∧
      failedJobProcessing trace d = true := by
  have hfollow : (follow (act lengthModel) init missingThrice).any
      (fun out => failedJobProcessing out.1 out.2) = true := by
    decide +kernel
  exact exists_run_of_follow failedJobProcessing hfollow

theorem quiet_of_keys_eq_nil (h : d.processes.keys = []) : Quiet d := by
  intro pid p hp
  have hmem : pid ∈ d.processes :=
    AList.lookup_isSome.mp (by rw [hp]; rfl)
  replace hmem : pid ∈ d.processes.keys := hmem
  rw [h] at hmem
  cases hmem

theorem not_outcomesAgree_of_failedJobProcessing
    {trace : List (Deployment × Action)}
    (h : failedJobProcessing trace d = true) :
    EachStep IngestFaultsOnly trace ∧ Quiet d ∧ ¬ OutcomesAgree d := by
  rcases of_decide_eq_true h with ⟨hfaults, hkeys, hany⟩
  refine ⟨hfaults, quiet_of_keys_eq_nil hkeys, ?_⟩
  intro hagree
  rcases Option.any_eq_true _ _ |>.mp hany with ⟨job, hjob, hfields⟩
  rcases of_decide_eq_true hfields with ⟨hfailed, hdocument, hprocessing⟩
  rcases hagree 1 job hjob with ⟨document, hlookup, hstatus⟩
  rw [hdocument] at hlookup
  rw [hlookup, Option.map_some, Option.some.injEq] at hprocessing
  have hfailed' := hstatus.failed.mp hfailed
  rw [hprocessing] at hfailed'
  cases hfailed'

theorem missingThrice_leaves_processing :
    ¬ forall trace d, Run (act lengthModel) init trace d ->
      EachStep IngestFaultsOnly trace -> Quiet d -> OutcomesAgree d := by
  intro hclaim
  rcases exists_run_missingThrice with ⟨trace, d, hrun, hfailed⟩
  rcases not_outcomesAgree_of_failedJobProcessing hfailed with
    ⟨hfaults, hquiet, hdisagree⟩
  exact hdisagree (hclaim trace d hrun hfaults hquiet)

/-!
# A retried attempt that succeeds
-/

instance : DecidablePred Escaping := by
  intro r
  cases r <;> first | exact .isTrue True.intro | exact .isFalse id

instance (p : Process) : Decidable (AtEscapingCall p) :=
  match h : p.rest with
  | .call r _ =>
      decidable_of_iff (Escaping r) (by rw [AtEscapingCall, h])
  | .ret _ => .isFalse (by rw [AtEscapingCall, h]; exact id)
  | .raise _ => .isFalse (by rw [AtEscapingCall, h]; exact id)

instance : DecidablePred (LastStorageError d)
  | .step pid (some (.storageError _)) =>
      inferInstanceAs
        (Decidable (∃ p ∈ d.processes.lookup pid, AtEscapingCall p ∧
          ∃ l ∈ p.lease, ∃ job ∈ d.world.db.jobs.lookup l.job.id,
            job.maxAttempts ≤ job.attempts))
  | .step _ (some (.exception _)) => .isFalse id
  | .step _ (some (.http _ _)) => .isFalse id
  | .step _ none => .isFalse id
  | .spawn _ _ => .isFalse id
  | .crash _ => .isFalse id
  | .tick _ => .isFalse id

instance : Decidable (Overtakes M d a) :=
  inferInstanceAs
    (Decidable (∃ entry ∈ d.processes.entries, ∃ l ∈ entry.2.lease,
      ∃ job ∈ d.world.db.jobs.lookup l.job.id,
        (returned M d a).map JobRow.id = some l.job.id ∨
          (((event M d a).bind reapedRows).isSome = true ∧
            job.reapable d.world.now = true)))

instance : Decidable (KeepsOutcome M d a) :=
  inferInstanceAs (Decidable (¬ LastStorageError d a ∧ ¬ Overtakes M d a))

def missingOnce : List Action :=
  uploaded 0 1 "0123456789ab" onePage ++ missingPdf 1 ++
    [.spawn 1 .worker] ++ answered 1 29

def keptOutcome (trace : List (Deployment × Action)) (d : Deployment) : Bool :=
  (∀ step ∈ trace, IngestFaultsOnly step.1 step.2) ∧
    (∀ step ∈ trace, KeepsOutcome lengthModel step.1 step.2) ∧
      d.processes.keys = [] ∧
        (d.world.db.jobs.lookup 1).map Job.attempts = some 2

theorem outcomesAgree_of_keepsOutcome_missingOnce :
    exists trace d, Run (act lengthModel) init trace d ∧
      (d.world.db.jobs.lookup 1).map Job.attempts = some 2 ∧
        EachStep (fun d _ => Quiet d -> OutcomesAgree d) trace ∧
          OutcomesAgree d := by
  have hfollow : (follow (act lengthModel) init missingOnce).any
      (fun out => keptOutcome out.1 out.2) = true := by
    decide +kernel
  rcases exists_run_of_follow keptOutcome hfollow with ⟨trace, d, hrun, hkept⟩
  rcases of_decide_eq_true hkept with ⟨hfaults, hsteps, hkeys, hattempts⟩
  rcases outcomesAgree_of_keepsOutcome hrun hfaults hsteps with ⟨hstates, hlast⟩
  exact ⟨trace, d, hrun, hattempts, hstates, hlast (quiet_of_keys_eq_nil hkeys)⟩

end Deployment
end ChatDoc
