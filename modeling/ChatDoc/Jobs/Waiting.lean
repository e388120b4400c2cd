import ChatDoc.Foundation.Potential
import ChatDoc.Jobs.Attempts

/-!
# Waiting in the queue

`claim_job` hands out the oldest claimable job first.  A job that waits is
passed over only for jobs that are at least as old, and each of those has only
the attempts it has left, so the number of claims during the wait is bounded
by what lies ahead of the job when the wait begins.  Uploads that arrive in
the meantime do not count.
-/

namespace ChatDoc

open Foundation

namespace World

def claimedId (w : World) : Request -> Option Nat
  | .claimJob => (w.db.claimCandidate w.now).map Prod.fst
  | _ => none

variable {M : EmbeddingModel} {w : World} {id : Nat} {r : Request}

theorem claims_iff : w.claims id r = true <-> w.claimedId r = some id := by
  cases r <;> simp [claims, claimedId]

theorem returnedRow_exec_id :
    (returnedRow ⟨r, (w.exec M r).1⟩).map JobRow.id = w.claimedId r := by
  apply Option.ext
  intro id
  exact (returnedRow_exec r).trans claims_iff

theorem createdAt_of_jobAfter {job job' : Job}
    (h : w.jobAfter id job r = some job') : job'.createdAt = job.createdAt := by
  cases r with
  | claimJob =>
      cases h
      split <;> rfl
  | reapExhaustedJobs =>
      cases h
      split <;> rfl
  | completeJob jobId =>
      cases h
      split <;> rfl
  | requeueJob jobId error =>
      cases h
      split <;> rfl
  | deadLetterJob jobId error =>
      cases h
      split <;> rfl
  | deleteDocument userId documentId =>
      cases (Option.ite_none_left_eq_some.mp h).right
      rfl
  | _ =>
      cases h
      rfl

theorem exists_claimed {job : Job} (hjob : w.db.jobs.lookup id = some job)
    (hclaimable : job.claimable w.now = true) :
    exists id' older, w.claimedId .claimJob = some id' ∧
      w.db.jobs.lookup id' = some older ∧ older.claimable w.now = true ∧
        older.createdAt ≤ job.createdAt := by
  have hmem : (id, job) ∈
      w.db.jobs.rows.filter fun entry => entry.2.claimable w.now :=
    List.mem_filter.mpr ⟨SerialTable.lookup_eq_some_iff.mp hjob, hclaimable⟩
  cases hcandidate : w.db.claimCandidate w.now with
  | none =>
      have hempty := List.argmin_eq_none.mp hcandidate
      rw [hempty] at hmem
      cases hmem
  | some entry =>
      rcases entry with ⟨id', older⟩
      rcases lookup_claimCandidate hcandidate with ⟨hlookup, hold⟩
      have hle := List.le_of_mem_argmin hmem (Option.mem_def.mpr hcandidate)
      refine ⟨id', older, ?_, hlookup, hold, hle⟩
      simp [claimedId, hcandidate]

end World

/-!
# What lies ahead of a job
-/

/-- Whether a job has to be considered before the job `id` that was created at
the given time. -/
def Job.isAhead (id : Nat) (created : Time) (id' : Nat) (job : Job) : Bool :=
  id' ≠ id ∧ job.createdAt ≤ created

namespace Database

variable (db : Database)

def jobsAhead (id : Nat) (created : Time) : Nat :=
  db.jobs.weight fun id' job => (job.isAhead id created id').toNat

def attemptsAhead (id : Nat) (created : Time) : Nat :=
  db.jobs.weight fun id' job =>
    if job.isAhead id created id' then job.maxAttempts - job.attempts else 0

end Database

namespace World

variable {M : EmbeddingModel} {w : World} {id : Nat} {r : Request}

/-- A job is waiting while `claim_job` could hand it out. -/
def Waiting (w : World) (id : Nat) (created : Time) : Prop :=
  exists job, w.db.jobs.lookup id = some job ∧
    job.claimable w.now = true ∧ job.createdAt = created

theorem attemptsAhead_exec {created : Time} (hwaiting : w.Waiting id created)
    (hclock : created < w.now) :
    ((w.claimedId r).filter fun id' => id' ≠ id).isSome.toNat +
        (w.exec M r).2.db.attemptsAhead id created ≤
      w.db.attemptsAhead id created := by
  rcases hwaiting with ⟨job, hjob, hclaimable, hcreated⟩
  apply SerialTable.weight_add_le (jobs_next_le r)
  intro id'
  have hspent : (if (w.claimedId r).filter (fun id' => id' ≠ id) = some id'
      then 1 else 0) = if w.claims id' r ∧ id' ≠ id then 1 else 0 := by
    simp [claims_iff, Option.filter_eq_some_iff]
  rw [hspent]
  cases hlookup : w.db.jobs.lookup id' with
  | none =>
      have hunclaimed : w.claims id' r = false := by
        by_contra hclaims
        rcases job_of_claims (eq_true_of_ne_false hclaims) with ⟨_, hsome, _⟩
        rw [hlookup] at hsome
        cases hsome
      rw [hunclaimed, SerialTable.weightAt_of_none hlookup]
      cases hafter : (w.exec M r).2.db.jobs.lookup id' with
      | none => simp [SerialTable.weightAt_of_none hafter]
      | some new =>
          rcases exec_job_new hlookup hafter with ⟨_, _, _, _, _, _, hnew⟩
          have hnow : new.createdAt = w.now := by
            rw [hnew]
            rfl
          simp [SerialTable.weightAt_of_some hafter, Job.isAhead, hnow, hclock]
  | some old =>
      rw [SerialTable.weightAt_of_some hlookup]
      cases hafter : w.jobAfter id' old r with
      | none =>
          have hgone : w.claims id' r = false := by
            cases r with
            | claimJob => cases hafter
            | _ => rfl
          have hnone := (exec_job (M := M) hlookup r).trans hafter
          rw [hgone, SerialTable.weightAt_of_none hnone]
          simp
      | some new =>
          have hsome := (exec_job (M := M) hlookup r).trans hafter
          rw [SerialTable.weightAt_of_some hsome]
          have hsame := createdAt_of_jobAfter hafter
          rcases attempts_of_jobAfter hafter with ⟨hattempts, hmax⟩
          unfold Job.isAhead
          rw [hsame, hattempts, hmax]
          cases hclaims : w.claims id' r with
          | false => simp
          | true =>
              have hold : old.createdAt ≤ created ∧
                  old.attempts < old.maxAttempts := by
                cases r with
                | claimJob =>
                    rcases exists_claimed hjob hclaimable with
                      ⟨first, older, hfirst, hfound, hready, hle⟩
                    rw [claims_iff, hfirst] at hclaims
                    cases hclaims
                    rw [hlookup] at hfound
                    cases hfound
                    rw [Job.claimable, decide_eq_true_eq] at hready
                    exact ⟨hcreated ▸ hle, hready.right⟩
                | _ => cases hclaims
              by_cases hid : id' = id
              · simp [hid]
              · simp [hid, hold.left]
                omega

theorem not_waiting_of_claims {created : Time} (h : w.claims id r = true) :
    ¬ (w.exec M r).2.Waiting id created := by
  intro hwaiting
  rcases hwaiting with ⟨job', hjob', hclaimable, _⟩
  rcases job_of_claims h with ⟨job, hjob, _⟩
  cases r with
  | claimJob =>
      rw [exec_job hjob] at hjob'
      cases hjob'
      rw [claims_iff, claimedId] at h
      rw [if_pos h, exec_now] at hclaimable
      simp [Job.claimable, Job.claimed] at hclaimable
  | _ => cases h

end World

namespace Deployment

variable {M : EmbeddingModel} {d d' : Deployment} {a : Action} {id : Nat}
  {created : Time}

/-- Whether a step is a call of `claim_job` that got through. -/
def claimCall (M : EmbeddingModel) (d : Deployment) (a : Action) : Bool :=
  match event M d a with
  | some ⟨.claimJob, .ok _⟩ => true
  | _ => false

def claimCalls (M : EmbeddingModel) (trace : List (Deployment × Action)) : Nat :=
  trace.countP fun step => claimCall M step.1 step.2

def passesOver (M : EmbeddingModel) (id : Nat) (d : Deployment) (a : Action) :
    Bool :=
  (((returned M d a).map JobRow.id).filter fun id' => id' ≠ id).isSome

theorem returned_id_of_exec {r : Request}
    (h : event M d a = some ⟨r, (d.world.exec M r).1⟩) :
    (returned M d a).map JobRow.id = d.world.claimedId r := by
  unfold returned
  rw [h, Option.bind_some]
  exact World.returnedRow_exec_id

theorem handOuts_eq_traceCost (id : Nat)
    (trace : List (Deployment × Action)) :
    handOuts M id trace =
      traceCost (fun d a =>
        (decide ((returned M d a).map JobRow.id = some id)).toNat) trace :=
  (traceCost_toNat
    (fun d a => decide ((returned M d a).map JobRow.id = some id)) trace).symm

theorem passesOver_add_attemptsAhead (h : act M d a = some d')
    (hwaiting : d.world.Waiting id created) (hclock : created < d.world.now) :
    (passesOver M id d a).toNat + d'.world.db.attemptsAhead id created ≤
      d.world.db.attemptsAhead id created := by
  rcases world_of_acted (acted_of_act h) with
    ⟨hdb, _, _, hraise⟩ | ⟨_, r, _, hevent, hworld⟩
  · unfold passesOver
    rw [hdb, returned_of_raise hraise]
    simp
  · unfold passesOver
    rw [returned_id_of_exec hevent, hworld]
    exact World.attemptsAhead_exec hwaiting hclock

theorem claimCall_of_waiting (hact : act M d a = some d')
    (hwaiting : d.world.Waiting id created) :
    (claimCall M d a).toNat =
      (passesOver M id d a).toNat +
        (decide ((returned M d a).map JobRow.id = some id)).toNat := by
  rcases world_of_acted (acted_of_act hact) with
    ⟨_, _, _, hraise⟩ | ⟨_, r, _, hevent, _⟩
  · have hcall : claimCall M d a = false := by
      unfold claimCall
      split
      · next row hcall =>
          rcases hraise _ _ hcall with ⟨e, he⟩
          cases he
      · rfl
    unfold passesOver
    rw [hcall, returned_of_raise hraise]
    rfl
  · unfold passesOver
    rw [returned_id_of_exec hevent]
    unfold claimCall
    rw [hevent]
    cases r with
    | claimJob =>
        rcases hwaiting with ⟨job, hjob, hclaimable, _⟩
        rcases World.exists_claimed hjob hclaimable with ⟨first, _, hfirst, _⟩
        rw [hfirst]
        by_cases hid : first = id <;> simp [hid, World.exec]
    | _ => rfl

/-!
# Stretches of a run
-/

def waits (d : Deployment) (id : Nat) : Bool :=
  (d.world.db.jobs.lookup id).any fun job => job.claimable d.world.now

structure Placed (id : Nat) (created : Time) (d : Deployment) : Prop where
  issued : id < d.world.db.jobs.next
  createdAt : forall {job}, d.world.db.jobs.lookup id = some job ->
    job.createdAt = created
  before : created < d.world.now

theorem waiting_of_waits (hplaced : Placed id created d)
    (hwaits : waits d id = true) : d.world.Waiting id created := by
  rcases (Option.any_eq_true _ _).mp hwaits with ⟨job, hjob, hclaimable⟩
  exact ⟨job, hjob, hclaimable, hplaced.createdAt hjob⟩

theorem placed_of_act (hact : act M d a = some d')
    (hplaced : Placed id created d) : Placed id created d' := by
  rcases world_of_acted (acted_of_act hact) with
    ⟨hdb, _, hnow, _⟩ | ⟨_, r, _, _, hworld⟩
  · constructor
    · rw [hdb]
      exact hplaced.issued
    · intro job hjob
      rw [hdb] at hjob
      exact hplaced.createdAt hjob
    · exact Nat.lt_of_lt_of_le hplaced.before hnow
  · constructor
    · rw [hworld]
      exact Nat.lt_of_lt_of_le hplaced.issued (World.jobs_next_le r)
    · intro job' hjob'
      rw [hworld] at hjob'
      cases hjob : d.world.db.jobs.lookup id with
      | none =>
          rcases World.exec_job_new hjob hjob' with ⟨_, _, _, _, hid, _⟩
          exact absurd hplaced.issued (hid ▸ Nat.lt_irrefl _)
      | some job =>
          rw [World.exec_job hjob] at hjob'
          rw [World.createdAt_of_jobAfter hjob', hplaced.createdAt hjob]
    · rw [hworld, World.exec_now]
      exact hplaced.before

theorem not_waits_of_returned (hact : act M d a = some d')
    (hplaced : Placed id created d)
    (hreturned : (returned M d a).map JobRow.id = some id) :
    waits d' id = false := by
  by_contra hwaits
  have hwaiting := waiting_of_waits (placed_of_act hact hplaced)
    (eq_true_of_ne_false hwaits)
  rcases world_of_acted (acted_of_act hact) with
    ⟨_, _, _, hraise⟩ | ⟨_, r, _, hevent, hworld⟩
  · rw [returned_of_raise hraise] at hreturned
    cases hreturned
  · rw [returned_id_of_exec hevent] at hreturned
    rw [hworld] at hwaiting
    exact World.not_waiting_of_claims (World.claims_iff.mpr hreturned) hwaiting

section Stretch

variable {s : Deployment} {wait : List (Deployment × Action)}

theorem placed_of_run (hwait : Run (act M) s wait d)
    (hplaced : Placed id created s) : Placed id created d := by
  induction hwait with
  | nil => exact hplaced
  | snoc _ hact ih => exact placed_of_act hact ih

/-- A job is handed out at most once in a stretch through which it waits, and
then by the last step. -/
theorem handOuts_of_waits (hwait : Run (act M) s wait d)
    (hplaced : Placed id created s)
    (hwaits : EachStep (fun d _ => waits d id = true) wait) :
    handOuts M id wait ≤ 1 ∧
      (waits d id = true -> handOuts M id wait = 0) := by
  induction hwait with
  | nil => exact ⟨Nat.zero_le _, fun _ => rfl⟩
  | @snoc wait d d' a hprev hact ih =>
      rcases eachStep_snoc.mp hwaits with ⟨hbefore, hlast⟩
      have hnone := (ih hbefore).right hlast
      have hplaced' := placed_of_run hprev hplaced
      rw [handOuts_snoc, hnone, Nat.zero_add]
      refine ⟨Bool.toNat_le _, ?_⟩
      intro hstill
      rw [Bool.toNat_eq_zero, decide_eq_false_iff_not]
      intro hreturned
      rw [not_waits_of_returned hact hplaced' hreturned] at hstill
      cases hstill

/-- What a stretch spends of the attempts ahead of a job that waits. -/
theorem claimCalls_le (hwait : Run (act M) s wait d)
    (hplaced : Placed id created s)
    (hwaits : EachStep (fun d _ => waits d id = true) wait) :
    claimCalls M wait ≤
      s.world.db.attemptsAhead id created + handOuts M id wait := by
  have hspent := hwait.traceCost_add_le (Placed id created)
    (fun d _ => waits d id = true)
    (fun d a => (passesOver M id d a).toNat)
    (fun d => d.world.db.attemptsAhead id created)
    hplaced
    (fun _ _ _ hinv _ hact => placed_of_act hact hinv)
    (fun _ _ _ hinv hready hact => passesOver_add_attemptsAhead hact
      (waiting_of_waits hinv hready) hinv.before)
    hwaits
  have hcalls : claimCalls M wait =
      traceCost (fun d a => (passesOver M id d a).toNat) wait +
        handOuts M id wait := by
    unfold claimCalls
    rw [← traceCost_toNat, handOuts_eq_traceCost, ← traceCost_add]
    apply traceCost_congr
    intro step hstep
    rcases hwait.eachStep_act step hstep with ⟨d', hact⟩
    rcases hwait.exists_prefix hstep with ⟨before, _, _, hbefore⟩
    exact claimCall_of_waiting hact
      (waiting_of_waits (placed_of_run hbefore hplaced) (hwaits step hstep))
  omega

theorem attemptsAhead_le {before : List (Deployment × Action)}
    (hbefore : Run (act M) init before s) (id : Nat) (created : Time) :
    s.world.db.attemptsAhead id created ≤
      defaultMaxAttempts * s.world.db.jobsAhead id created := by
  apply SerialTable.weight_le_mul
  intro id' job hjob
  rw [(counted_of_run hbefore).budget hjob]
  cases job.isAhead id created id' <;> simp

/-- No job starves.  From any reachable state on, as long as a job waits, all
calls of `claim_job` that get through are for jobs created no later, and there
are at most as many of them as these jobs have attempts left, three for each. -/
theorem waiting_bounded {before : List (Deployment × Action)} {job : Job}
    (hbefore : Run (act M) init before s)
    (hjob : s.world.db.jobs.lookup id = some job)
    (hclock : job.createdAt < s.world.now)
    (hwait : Run (act M) s wait d)
    (hwaits : EachStep (fun d _ => waits d id = true) wait) :
    handOuts M id wait ≤ 1 ∧ (waits d id = true -> handOuts M id wait = 0) ∧
      claimCalls M wait ≤
        s.world.db.attemptsAhead id job.createdAt + handOuts M id wait ∧
      s.world.db.attemptsAhead id job.createdAt ≤
        defaultMaxAttempts * s.world.db.jobsAhead id job.createdAt := by
  have hplaced : Placed id job.createdAt s := by
    constructor
    · exact SerialTable.lt_next_of_lookup hjob
    · intro job' hjob'
      rw [hjob] at hjob'
      cases hjob'
      rfl
    · exact hclock
  rcases handOuts_of_waits hwait hplaced hwaits with ⟨honce, hnone⟩
  exact ⟨honce, hnone, claimCalls_le hwait hplaced hwaits,
    attemptsAhead_le hbefore id job.createdAt⟩

end Stretch

/-- The second of two uploads waits while a worker claims the first and a third
upload arrives. -/
theorem waiting_bounded_uploads :
    exists before s wait d,
      Run (act lengthModel) init before s ∧ Run (act lengthModel) s wait d ∧
      claimCalls lengthModel wait = 1 ∧ waits d 2 = true ∧
      s.world.db.jobsAhead 2 0 = 1 ∧
      handOuts lengthModel 2 wait ≤ 1 ∧
      (waits d 2 = true -> handOuts lengthModel 2 wait = 0) ∧
      claimCalls lengthModel wait ≤
        s.world.db.attemptsAhead 2 0 + handOuts lengthModel 2 wait ∧
      s.world.db.attemptsAhead 2 0 ≤
        defaultMaxAttempts * s.world.db.jobsAhead 2 0 := by
  have hfollow : (follow (act lengthModel) init
      (uploaded 0 1 "0123456789ab" onePage ++
        uploaded 1 1 "123456789abc" onePage ++ [.tick 1])).any
      (fun out =>
        (out.2.world.db.jobs.lookup 2).any (fun job => job.createdAt = 0) &&
          decide (out.2.world.now = 1) &&
          decide (out.2.world.db.jobsAhead 2 0 = 1) &&
          (follow (act lengthModel) out.2
            (claimed 2 ++ uploaded 3 1 "23456789abcd" onePage)).any
          (fun out => decide (claimCalls lengthModel out.1 = 1) &&
            waits out.2 2 &&
            out.1.all fun step => waits step.1 2)) = true := by
    decide +kernel
  rcases (Option.any_eq_true _ _).mp hfollow with ⟨⟨before, s⟩, hbefore, hgood⟩
  replace hbefore := run_of_follow hbefore
  simp only [Bool.and_eq_true, decide_eq_true_eq] at hgood
  rcases hgood with ⟨⟨⟨hjob, hnow⟩, hahead⟩, hsecond⟩
  rcases (Option.any_eq_true _ _).mp hsecond with ⟨⟨wait, d⟩, hwait, hcalls⟩
  replace hwait := run_of_follow hwait
  simp only [Bool.and_eq_true, decide_eq_true_eq, List.all_eq_true] at hcalls
  rcases hcalls with ⟨⟨hone, hlast⟩, hwaits⟩
  rcases (Option.any_eq_true _ _).mp hjob with ⟨job, hlookup, hcreated⟩
  have hzero := of_decide_eq_true hcreated
  have hclock : job.createdAt < s.world.now := by
    rw [hzero, hnow]
    exact Nat.zero_lt_one
  have hbounded := waiting_bounded hbefore hlookup hclock hwait hwaits
  rw [hzero] at hbounded
  exact ⟨before, s, wait, d, hbefore, hwait, hone, hlast, hahead, hbounded⟩

end Deployment
end ChatDoc
