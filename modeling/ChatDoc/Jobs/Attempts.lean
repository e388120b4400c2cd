import ChatDoc.Service.Deployment
import ChatDoc.Service.Effects

/-!
# Hand-outs and attempts

The jobs of a deployment are followed through every step of its processes:
claims, reports on time or late, reaping, deletes, crashes and the clock.
Every hand-out of a job is one more attempt on its row, and no other step
changes the count.
-/

namespace ChatDoc

open Foundation

/-!
# Hand-outs
-/

def returnedRow : Program.Event service -> Option JobRow
  | ⟨.claimJob, .ok row⟩ => row
  | _ => none

namespace World

def claims (w : World) (id : Nat) : Request -> Bool
  | .claimJob => (w.db.claimCandidate w.now).map Prod.fst = some id
  | _ => false

variable {M : EmbeddingModel} {w : World} {id : Nat}

theorem returnedRow_exec (r : Request) :
    (returnedRow ⟨r, (w.exec M r).1⟩).map JobRow.id = some id <->
      w.claims id r = true := by
  cases r with
  | claimJob =>
      show ((w.db.claimJob w.now).1.map JobRow.id = some id) <->
        decide (_ = some id) = true
      unfold Database.claimJob
      cases w.db.claimCandidate w.now with
      | none => simp
      | some entry => simp [Job.toRow]
  | _ => simp [returnedRow, claims]

theorem job_of_claims {r : Request} (h : w.claims id r = true) :
    exists job, w.db.jobs.lookup id = some job ∧ job.claimable w.now = true := by
  cases r with
  | claimJob =>
      rcases Option.map_eq_some_iff.mp (of_decide_eq_true h) with
        ⟨⟨id', job⟩, hcandidate, hid⟩
      subst hid
      exact ⟨job, lookup_claimCandidate hcandidate⟩
  | _ => cases h

theorem attempts_of_jobAfter {job job' : Job} {r : Request}
    (h : w.jobAfter id job r = some job') :
    job'.attempts = job.attempts + (w.claims id r).toNat ∧
      job'.maxAttempts = job.maxAttempts := by
  cases r with
  | claimJob =>
      cases h
      unfold claims
      split <;> simp_all [Job.claimed]
  | reapExhaustedJobs =>
      cases h
      split <;> exact ⟨rfl, rfl⟩
  | completeJob jobId =>
      cases h
      split <;> exact ⟨rfl, rfl⟩
  | requeueJob jobId error =>
      cases h
      split <;> exact ⟨rfl, rfl⟩
  | deadLetterJob jobId error =>
      cases h
      split <;> exact ⟨rfl, rfl⟩
  | deleteDocument userId documentId =>
      rcases Option.ite_none_left_eq_some.mp h with ⟨_, hsame⟩
      cases hsame
      exact ⟨rfl, rfl⟩
  | _ =>
      cases h
      exact ⟨rfl, rfl⟩

end World

namespace Deployment

variable {M : EmbeddingModel} {d d' : Deployment} {a : Action}

def returned (M : EmbeddingModel) (d : Deployment) (a : Action) :
    Option JobRow :=
  (event M d a).bind returnedRow

/-- How often `claim_job` has returned a job in the steps of a run. -/
def handOuts (M : EmbeddingModel) (id : Nat)
    (trace : List (Deployment × Action)) : Nat :=
  trace.countP fun step =>
    (returned M step.1 step.2).map JobRow.id = some id

theorem handOuts_snoc (id : Nat) (trace : List (Deployment × Action)) :
    handOuts M id (trace ++ [(d, a)]) =
      handOuts M id trace +
        (decide ((returned M d a).map JobRow.id = some id)).toNat := by
  unfold handOuts
  rw [List.countP_append, List.countP_singleton]
  cases decide ((returned M d a).map JobRow.id = some id) <;> rfl

theorem returned_of_exec {r : Request} {id : Nat}
    (h : event M d a = some ⟨r, (d.world.exec M r).1⟩) :
    decide ((returned M d a).map JobRow.id = some id) =
      d.world.claims id r := by
  unfold returned
  rw [h, Option.bind_some, Bool.eq_iff_iff, decide_eq_true_eq]
  exact World.returnedRow_exec r

theorem returned_of_raise
    (h : forall r answer, event M d a = some ⟨r, answer⟩ ->
      exists e, answer = .error e) :
    returned M d a = none := by
  unfold returned
  cases hevent : event M d a with
  | none => rfl
  | some call =>
      rcases call with ⟨r, answer⟩
      rcases h r answer hevent with ⟨e, he⟩
      subst he
      cases r <;> rfl

/-!
# The bound
-/

structure Counted (M : EmbeddingModel) (trace : List (Deployment × Action))
    (db : Database) : Prop where
  attempts : forall {id job}, db.jobs.lookup id = some job ->
    job.attempts = handOuts M id trace
  budget : forall {id job}, db.jobs.lookup id = some job ->
    job.maxAttempts = defaultMaxAttempts
  unused : forall {id}, db.jobs.next ≤ id -> handOuts M id trace = 0
  bounded : forall id, handOuts M id trace ≤ defaultMaxAttempts

theorem counted_of_same {trace : List (Deployment × Action)}
    {db db' : Database} (hdb : db' = db) (h : Counted M trace db)
    (hnone : returned M d a = none) :
    Counted M (trace ++ [(d, a)]) db' := by
  subst hdb
  have hsame : forall id, handOuts M id (trace ++ [(d, a)]) =
      handOuts M id trace := by
    intro id
    rw [handOuts_snoc, hnone]
    rfl
  constructor
  · intro id job hjob
    rw [hsame, h.attempts hjob]
  · exact h.budget
  · intro id hid
    rw [hsame, h.unused hid]
  · intro id
    rw [hsame]
    exact h.bounded id

theorem counted_of_exec {trace : List (Deployment × Action)} {r : Request}
    (h : Counted M trace d.world.db)
    (hevent : event M d a = some ⟨r, (d.world.exec M r).1⟩) :
    Counted M (trace ++ [(d, a)]) (d.world.exec M r).2.db := by
  have hcount : forall id, handOuts M id (trace ++ [(d, a)]) =
      handOuts M id trace + (d.world.claims id r).toNat := by
    intro id
    rw [handOuts_snoc, returned_of_exec hevent]
  have hunclaimed : forall {id}, d.world.db.jobs.lookup id = none ->
      d.world.claims id r = false := by
    intro id hnone
    by_contra hclaims
    rcases World.job_of_claims (eq_true_of_ne_false hclaims) with ⟨job, hjob, _⟩
    rw [hnone] at hjob
    cases hjob
  constructor
  · intro id job' hjob'
    rw [hcount]
    cases hjob : d.world.db.jobs.lookup id with
    | none =>
        rcases World.exec_job_new hjob hjob' with ⟨_, _, _, _, hid, _, hnew⟩
        rw [hunclaimed hjob, h.unused (Nat.le_of_eq hid.symm), hnew]
        rfl
    | some job =>
        rw [World.exec_job hjob] at hjob'
        rw [(World.attempts_of_jobAfter hjob').left, h.attempts hjob]
  · intro id job' hjob'
    cases hjob : d.world.db.jobs.lookup id with
    | none =>
        rcases World.exec_job_new hjob hjob' with ⟨_, _, _, _, _, _, hnew⟩
        rw [hnew]
        rfl
    | some job =>
        rw [World.exec_job hjob] at hjob'
        rw [(World.attempts_of_jobAfter hjob').right, h.budget hjob]
  · intro id hid
    have hold := Nat.le_trans (World.jobs_next_le r) hid
    have hnone : d.world.db.jobs.lookup id = none := by
      cases hjob : d.world.db.jobs.lookup id with
      | none => rfl
      | some job =>
          exact absurd (SerialTable.lt_next_of_lookup hjob)
            (Nat.not_lt.mpr hold)
    rw [hcount, h.unused hold, hunclaimed hnone]
    rfl
  · intro id
    rw [hcount]
    cases hclaims : d.world.claims id r with
    | false => exact h.bounded id
    | true =>
        rcases World.job_of_claims hclaims with ⟨job, hjob, hclaimable⟩
        have hlt : job.attempts < job.maxAttempts := by
          simp only [Job.claimable, decide_eq_true_eq] at hclaimable
          exact hclaimable.right
        rw [h.attempts hjob, h.budget hjob] at hlt
        exact hlt

theorem counted_of_run {trace : List (Deployment × Action)}
    (hrun : Run (act M) init trace d) : Counted M trace d.world.db := by
  induction hrun with
  | nil =>
      constructor
      · intro id job hjob
        cases hjob
      · intro id job hjob
        cases hjob
      · intro id _
        rfl
      · intro id
        exact Nat.zero_le _
  | snoc _ hact ih =>
      rcases world_of_acted (acted_of_act hact) with
        ⟨hdb, _, _, hraise⟩ | ⟨_, r, _, hevent, hworld⟩
      · exact counted_of_same hdb ih (returned_of_raise hraise)
      · rw [hworld]
        exact counted_of_exec ih hevent

/-- However workers claim, finish, fail, crash and report late, the attempts
of a job are the number of times it was handed out and stay within its budget;
a job that has been deleted was not handed out more often either. -/
theorem poisonPill_bounded {trace : List (Deployment × Action)}
    (hrun : Run (act M) init trace d) :
    (forall id job, d.world.db.jobs.lookup id = some job ->
      job.attempts = handOuts M id trace ∧ job.attempts ≤ job.maxAttempts) ∧
        forall id, handOuts M id trace ≤ defaultMaxAttempts := by
  have hcounted := counted_of_run hrun
  refine ⟨?_, hcounted.bounded⟩
  intro id job hjob
  have hattempts := hcounted.attempts hjob
  refine ⟨hattempts, ?_⟩
  rw [hattempts, hcounted.budget hjob]
  exact hcounted.bounded id

theorem poisonPill_bounded_claimed :
    exists trace d, Run (act lengthModel) init trace d ∧
      handOuts lengthModel 1 trace = 1 ∧
      (forall id job, d.world.db.jobs.lookup id = some job ->
        job.attempts = handOuts lengthModel id trace ∧
          job.attempts ≤ job.maxAttempts) ∧
        forall id, handOuts lengthModel id trace ≤ defaultMaxAttempts := by
  have hfollow : (follow (act lengthModel) init
      (uploaded 0 1 "0123456789ab" onePage ++ claimed 1)).any
        (fun out => decide (handOuts lengthModel 1 out.1 = 1)) = true := by
    decide +kernel
  rcases exists_run_of_follow
    (fun trace _ => decide (handOuts lengthModel 1 trace = 1)) hfollow with
    ⟨trace, d, hrun, hgood⟩
  exact ⟨trace, d, hrun, of_decide_eq_true hgood, poisonPill_bounded hrun⟩

end Deployment
end ChatDoc
