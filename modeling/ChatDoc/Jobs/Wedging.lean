import ChatDoc.Jobs.Attempts
import Mathlib.Algebra.Order.BigOperators.Group.List
import Mathlib.Algebra.Order.Group.Nat

/-!
# Wedged jobs

An unfinished job is wedged when neither `claim_job` nor the reaper would ever
select it again.  `fail_job` reads the attempts of a job in one statement and
puts the job back into the queue in another, so a claim between the two can use
up the last attempt.  The jobs of a run stay clear of this exactly when no such
late `UPDATE` finds the attempts of its job used up.
-/

namespace ChatDoc

open Foundation

/-- Once the clock is past every `visible_at`, each unfinished job is selected
by `claim_job` or by `_reap_exhausted_jobs`. -/
def Database.NoJobWedged (db : Database) : Prop :=
  forall now,
    (forall id job, db.jobs.lookup id = some job -> job.visibleAt < now) ->
      forall id job, db.jobs.lookup id = some job ->
        job.status = .queued ∨ job.status = .processing ->
          job.claimable now = true ∨ job.reapable now = true

namespace Job

def Retriable (job : Job) : Prop :=
  job.status = .queued -> job.attempts < job.maxAttempts

theorem selected_iff_retriable {job : Job} {now : Time}
    (hvisible : job.visibleAt < now) :
    (job.status = .queued ∨ job.status = .processing ->
      job.claimable now = true ∨ job.reapable now = true) <->
        job.Retriable := by
  unfold Retriable claimable reapable
  simp only [decide_eq_true_eq]
  cases job.status with
  | queued => simp
  | processing =>
      simp only [hvisible]
      simp
      omega
  | done => simp
  | failed => simp

end Job

namespace Database

theorem exists_later (db : Database) :
    exists now, forall id job, db.jobs.lookup id = some job ->
      job.visibleAt < now := by
  refine ⟨(db.jobs.rows.map fun entry => entry.2.visibleAt).sum + 1, ?_⟩
  intro id job hjob
  apply Nat.lt_succ_of_le
  apply List.le_sum_of_mem
  exact List.mem_map_of_mem (f := fun entry : Nat × Job => entry.2.visibleAt)
    (SerialTable.lookup_eq_some_iff.mp hjob)

theorem noJobWedged_iff {db : Database} :
    db.NoJobWedged <->
      forall id job, db.jobs.lookup id = some job -> job.Retriable := by
  constructor
  · intro h id job hjob
    rcases db.exists_later with ⟨now, hlater⟩
    exact (Job.selected_iff_retriable (hlater id job hjob)).mp
      (h now hlater id job hjob)
  · intro h now hlater id job hjob
    exact (Job.selected_iff_retriable (hlater id job hjob)).mpr (h id job hjob)

end Database

namespace World

def RequeuesRetriable (w : World) : Request -> Prop
  | .requeueJob jobId _ =>
      forall job, w.db.jobs.lookup jobId = some job ->
        job.attempts < job.maxAttempts
  | _ => True

variable {M : EmbeddingModel} {w : World}

theorem retriable_of_jobAfter {id : Nat} {job job' : Job} {r : Request}
    (hjob : w.db.jobs.lookup id = some job) (h : job.Retriable)
    (hr : w.RequeuesRetriable r) (hafter : w.jobAfter id job r = some job') :
    job'.Retriable := by
  cases r with
  | claimJob =>
      cases hafter
      split
      · intro hqueued
        cases hqueued
      · exact h
  | reapExhaustedJobs =>
      cases hafter
      split
      · intro hqueued
        cases hqueued
      · exact h
  | completeJob jobId =>
      cases hafter
      split
      · intro hqueued
        cases hqueued
      · exact h
  | requeueJob jobId error =>
      cases hafter
      split
      · next hid =>
          subst hid
          intro _
          exact hr job hjob
      · exact h
  | deadLetterJob jobId error =>
      cases hafter
      split
      · intro hqueued
        cases hqueued
      · exact h
  | deleteDocument userId documentId =>
      cases (Option.ite_none_left_eq_some.mp hafter).right
      exact h
  | _ =>
      cases hafter
      exact h

/-- A call keeps the jobs selectable exactly if it requeues none whose
attempts are used up. -/
theorem noJobWedged_exec_iff (h : w.db.NoJobWedged) (r : Request) :
    (w.exec M r).2.db.NoJobWedged <-> w.RequeuesRetriable r := by
  rw [Database.noJobWedged_iff] at h ⊢
  constructor
  · intro hafter
    cases r with
    | requeueJob jobId error =>
        intro job hjob
        have hjob' := exec_job (M := M) hjob (.requeueJob jobId error)
        rw [jobAfter, if_pos rfl] at hjob'
        exact hafter jobId (job.requeued w.now error) hjob' rfl
    | _ => exact True.intro
  · intro hr id job' hjob'
    cases hjob : w.db.jobs.lookup id with
    | none =>
        rcases exec_job_new hjob hjob' with ⟨_, _, _, _, _, _, hnew⟩
        rw [hnew]
        intro _
        exact Nat.zero_lt_succ 2
    | some job =>
        rw [exec_job hjob] at hjob'
        exact retriable_of_jobAfter hjob (h id job hjob) hr hjob'

end World

namespace Deployment

variable {M : EmbeddingModel} {d d' : Deployment}

/-- The step is no `UPDATE` of `fail_job` that requeues a job whose attempts
have been used up in the meantime. -/
def NoSpentRequeue (M : EmbeddingModel) (d : Deployment) (a : Action) : Prop :=
  forall jobId error, event M d a = some ⟨.requeueJob jobId error, .ok ()⟩ ->
    forall job, d.world.db.jobs.lookup jobId = some job ->
      job.attempts < job.maxAttempts

theorem noSpentRequeue_iff {a : Action} {r : Request}
    (hevent : event M d a = some ⟨r, (d.world.exec M r).1⟩) :
    NoSpentRequeue M d a <-> d.world.RequeuesRetriable r := by
  unfold NoSpentRequeue
  rw [hevent]
  cases r with
  | requeueJob jobId error =>
      constructor
      · intro h
        exact h jobId error rfl
      · intro h jobId' error' heq
        cases heq
        exact h
  | _ =>
      constructor
      · intro _
        exact True.intro
      · intro _ jobId error heq
        cases heq

theorem noJobWedged_step {a : Action} (h : d.world.db.NoJobWedged)
    (hact : act M d a = some d') :
    d'.world.db.NoJobWedged <-> NoSpentRequeue M d a := by
  rcases world_of_acted (acted_of_act hact) with
    ⟨hdb, _, _, hraise⟩ | ⟨_, r, _, hevent, hworld⟩
  · rw [hdb]
    apply iff_of_true h
    intro jobId error hevent
    rcases hraise _ _ hevent with ⟨e, he⟩
    cases he
  · rw [hworld, noSpentRequeue_iff hevent]
    exact World.noJobWedged_exec_iff h r

theorem noJobWedged_init : init.world.db.NoJobWedged := by
  intro now _ id job hjob
  cases hjob

/-- No state of a run has a wedged job exactly when no step of the run puts a
job whose attempts are used up back into the queue. -/
theorem noJobWedged_iff_noSpentRequeue {trace : List (Deployment × Action)}
    (hrun : Run (act M) init trace d) :
    (EachStep (fun d _ => d.world.db.NoJobWedged) trace ∧
        d.world.db.NoJobWedged) <->
      EachStep (NoSpentRequeue M) trace :=
  hrun.always_iff noJobWedged_init fun _ _ _ _ _ h _ hact =>
    noJobWedged_step h hact

/-- A worker whose claim has lapsed twice reads the attempts of its job just
before the last claim and requeues it just after. -/
def lateRequeue : List Action :=
  uploaded 0 1 "0123456789ab" onePage ++ claimed 1 ++
    [.step 1 (some (.exception "cannot open broken document")),
      .tick (seconds 601)] ++
    claimed 2 ++ answered 1 1 ++ [.tick (seconds 601)] ++ claimed 3 ++
    answered 1 1 ++ [.crash 2, .crash 3]

def endsSpent (d : Deployment) : Bool :=
  (d.world.db.jobs.lookup 1).any fun job =>
    job.status = .queued ∧ job.attempts ≥ job.maxAttempts

theorem wedged_of_endsSpent (h : endsSpent d = true) :
    ¬ d.world.db.NoJobWedged := by
  intro hgood
  rcases Option.any_eq_true_iff_get _ _ |>.mp h with ⟨hsome, hjob⟩
  have hlookup := (Option.some_get hsome).symm
  rcases of_decide_eq_true hjob with ⟨hqueued, hspent⟩
  exact absurd (Database.noJobWedged_iff.mp hgood 1 _ hlookup hqueued)
    (Nat.not_lt.mpr hspent)

theorem exists_run_lateRequeue :
    exists trace d, Run (act lengthModel) init trace d ∧
      endsSpent d = true := by
  have hfollow : (follow (act lengthModel) init lateRequeue).any
      (fun out => endsSpent out.2) = true := by
    decide +kernel
  exact exists_run_of_follow (fun _ d => endsSpent d) hfollow

theorem lateRequeue_wedges :
    ¬ forall trace d, Run (act lengthModel) init trace d ->
      d.world.db.NoJobWedged := by
  intro hclaim
  rcases exists_run_lateRequeue with ⟨trace, d, hrun, hspent⟩
  exact wedged_of_endsSpent hspent (hclaim trace d hrun)

theorem noJobWedged_iff_noSpentRequeue_lateRequeue :
    exists trace d, Run (act lengthModel) init trace d ∧
      endsSpent d = true ∧
      ((EachStep (fun d _ => d.world.db.NoJobWedged) trace ∧
          d.world.db.NoJobWedged) <->
        EachStep (NoSpentRequeue lengthModel) trace) := by
  rcases exists_run_lateRequeue with ⟨trace, d, hrun, hspent⟩
  exact ⟨trace, d, hrun, hspent, noJobWedged_iff_noSpentRequeue hrun⟩

end Deployment
end ChatDoc
