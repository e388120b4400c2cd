import ChatDoc.Jobs.Attempts

/-!
# Leases

A worker that `claim_job` hands a job to holds a lease on it: the returned row
and the `visible_at` of that claim.  The row's `attempts` number the claims of
a job, so a lease is the job's latest exactly when its number is the job's
current one.  Any number of processes can hold leases on one job, each of them
with a number of its own.
-/

namespace ChatDoc

open Foundation

namespace World

variable {M : EmbeddingModel} {w : World} {id : Nat}

theorem attempts_le_of_jobAfter {job job' : Job} {r : Request}
    (h : w.jobAfter id job r = some job') : job.attempts ≤ job'.attempts := by
  rw [(attempts_of_jobAfter h).left]
  exact Nat.le_add_right _ _

theorem row_of_claim {row : JobRow}
    (h : (w.exec M .claimJob).1 = .ok (some row)) :
    exists job, w.db.jobs.lookup row.id = some job ∧
      job.claimable w.now = true ∧ row = (job.claimed w.now).toRow row.id ∧
        w.claims row.id .claimJob = true := by
  replace h : (Except.ok (w.db.claimJob w.now).1 : Except Exn (Option JobRow)) =
    .ok (some row) := h
  rw [Except.ok.injEq] at h
  unfold Database.claimJob at h
  cases hcandidate : w.db.claimCandidate w.now with
  | none =>
      rw [hcandidate] at h
      cases h
  | some entry =>
      rw [hcandidate] at h
      cases h
      rcases lookup_claimCandidate hcandidate with ⟨hjob, hclaimable⟩
      refine ⟨entry.2, hjob, hclaimable, rfl, ?_⟩
      unfold claims
      rw [hcandidate]
      simp [Job.toRow]

theorem job_after_claim {job : Job}
    (hjob : w.db.jobs.lookup id = some job)
    (hclaims : w.claims id .claimJob = true) :
    (w.exec M .claimJob).2.db.jobs.lookup id = some (job.claimed w.now) := by
  rw [exec_job hjob, jobAfter, if_pos (of_decide_eq_true hclaims)]

end World

namespace Deployment

variable {M : EmbeddingModel} {d d' : Deployment} {a : Action}

def Holds (d : Deployment) (pid : Nat) (l : Lease) : Prop :=
  exists p, d.processes.lookup pid = some p ∧ p.lease = some l

theorem holds_of_acted {pid : Nat} {l : Lease} (h : Acted M d a d')
    (hl : Holds d' pid l) :
    Holds d pid l ∨
      (a = .step pid none ∧
        event M d a = some ⟨.claimJob, (d.world.exec M .claimJob).1⟩ ∧
        (d.world.exec M .claimJob).1 = .ok (some l.job) ∧
        d'.world = (d.world.exec M .claimJob).2 ∧
        l.expires = d.world.now + seconds visibilityTimeoutS) := by
  rcases hl with ⟨q, hq, hlease⟩
  cases h with
  | spawn hfree hfresh =>
      rcases lookup_spawn hq with ⟨_, hstart⟩ | ⟨_, hold⟩
      · subst hstart
        cases hlease
      · exact .inl ⟨q, hold, hlease⟩
  | @step pid' fault p r next hp hrest =>
      rcases lookup_resume hq with ⟨hpid, hnext⟩ | ⟨_, hold⟩
      · subst hpid hnext
        replace hlease : Process.leaseAfter d.world.now p.lease r
          (d.world.answer M fault r).1 = some l := hlease
        unfold Process.leaseAfter at hlease
        split at hlease
        · next job hanswer =>
            cases hlease
            cases fault with
            | some e => cases hanswer
            | none =>
                exact .inr ⟨rfl, event_step hp hrest, hanswer, rfl, rfl⟩
        · exact .inl ⟨p, hp, hlease⟩
      · exact .inl ⟨q, hold, hlease⟩
  | crash => exact .inl ⟨q, (lookup_erase hq).right, hlease⟩
  | tick => exact .inl ⟨q, hq, hlease⟩

theorem world_of_returned {row : JobRow} (hact : act M d a = some d')
    (h : returned M d a = some row) :
    (d.world.exec M .claimJob).1 = .ok (some row) ∧
      d'.world = (d.world.exec M .claimJob).2 := by
  rcases world_of_acted (acted_of_act hact) with
    ⟨_, _, _, hraise⟩ | ⟨_, r, _, hevent, hworld⟩
  · rw [returned_of_raise hraise] at h
    cases h
  · unfold returned at h
    rw [hevent, Option.bind_some] at h
    cases r with
    | claimJob => exact ⟨congrArg Except.ok h, hworld⟩
    | _ => cases h

/-!
# The lease invariant
-/

/-- Every lease is a past or present claim of its job, and no two leases are
the same claim. -/
structure Leased (d : Deployment) : Prop where
  issued : forall {pid l}, Holds d pid l -> l.job.id < d.world.db.jobs.next
  columns : forall {pid l job}, Holds d pid l ->
    d.world.db.jobs.lookup l.job.id = some job ->
      l.job.documentId = job.documentId ∧ l.job.docKey = job.docKey ∧
        l.job.pdfPath = job.pdfPath
  attempts : forall {pid l job}, Holds d pid l ->
    d.world.db.jobs.lookup l.job.id = some job -> l.job.attempts ≤ job.attempts
  distinct : forall {pid pid' l l'}, Holds d pid l -> Holds d pid' l' ->
    l.job.id = l'.job.id -> l.job.attempts = l'.job.attempts -> pid = pid'

theorem leased_init : Leased init := by
  constructor
  · intro pid l hall
    rcases hall with ⟨p, hp, _⟩
    cases hp
  · intro pid l job hall
    rcases hall with ⟨p, hp, _⟩
    cases hp
  · intro pid l job hall
    rcases hall with ⟨p, hp, _⟩
    cases hp
  · intro pid pid' l l' hall
    rcases hall with ⟨p, hp, _⟩
    cases hp

theorem leased_of_same {d d' : Deployment} (h : Leased d)
    (hdb : d'.world.db = d.world.db)
    (hholds : forall {pid l}, Holds d' pid l -> Holds d pid l) : Leased d' := by
  constructor
  · intro pid l hl
    rw [hdb]
    exact h.issued (hholds hl)
  · intro pid l job hl hjob
    rw [hdb] at hjob
    exact h.columns (hholds hl) hjob
  · intro pid l job hl hjob
    rw [hdb] at hjob
    exact h.attempts (hholds hl) hjob
  · intro pid pid' l l' hl hl'
    exact h.distinct (hholds hl) (hholds hl')

theorem job_before_exec {w : World} {id : Nat} {job : Job} {r : Request}
    (hid : id < w.db.jobs.next)
    (hjob : (w.exec M r).2.db.jobs.lookup id = some job) :
    exists old, w.db.jobs.lookup id = some old ∧
      w.jobAfter id old r = some job := by
  cases hold : w.db.jobs.lookup id with
  | none =>
      rcases World.exec_job_new hold hjob with ⟨_, _, _, _, hnext, _, _⟩
      rw [hnext] at hid
      exact absurd hid (Nat.lt_irrefl _)
  | some old =>
      rw [World.exec_job hold] at hjob
      exact ⟨old, rfl, hjob⟩

theorem attempts_lt_of_claim {pid : Nat} {l : Lease} {row : JobRow}
    (h : Leased d) (hl : Holds d pid l) (hid : l.job.id = row.id)
    (hclaim : (d.world.exec M .claimJob).1 = .ok (some row)) :
    l.job.attempts < row.attempts := by
  rcases World.row_of_claim hclaim with ⟨job, hjob, _, hrow, _⟩
  rw [← hid] at hjob
  rw [hrow]
  exact Nat.lt_succ_of_le (h.attempts hl hjob)

theorem leased_step (h : Leased d) (hact : act M d a = some d') :
    Leased d' := by
  have hacted := acted_of_act hact
  rcases world_of_acted hacted with ⟨hdb, _, _, hraise⟩ | ⟨_, r, _, hevent, hworld⟩
  · apply leased_of_same h hdb
    intro pid l hl
    rcases holds_of_acted hacted hl with hold | ⟨_, hclaim, hok, _, _⟩
    · exact hold
    · rcases hraise _ _ hclaim with ⟨e, he⟩
      rw [hok] at he
      cases he
  · have hcases : forall {pid l}, Holds d' pid l ->
        Holds d pid l ∨ (a = .step pid none ∧ r = .claimJob ∧
          (d.world.exec M .claimJob).1 = .ok (some l.job)) := by
      intro pid l hl
      rcases holds_of_acted hacted hl with hold | ⟨ha, hclaim, hok, _, _⟩
      · exact .inl hold
      · rw [hevent] at hclaim
        cases hclaim
        exact .inr ⟨ha, rfl, hok⟩
    constructor
    · intro pid l hl
      rw [hworld]
      rcases hcases hl with hold | ⟨_, _, hok⟩
      · exact Nat.lt_of_lt_of_le (h.issued hold) (World.jobs_next_le r)
      · rcases World.row_of_claim hok with ⟨job, hjob, _⟩
        exact Nat.lt_of_lt_of_le (SerialTable.lt_next_of_lookup hjob)
          (World.jobs_next_le r)
    · intro pid l job hl hjob
      rw [hworld] at hjob
      rcases hcases hl with hold | ⟨_, hr, hok⟩
      · rcases job_before_exec (h.issued hold) hjob with ⟨old, hbefore, hafter⟩
        rcases World.columns_of_jobAfter hafter with ⟨hdocument, hkey, hpath⟩
        rw [hdocument, hkey, hpath]
        exact h.columns hold hbefore
      · subst hr
        rcases World.row_of_claim hok with ⟨old, hbefore, _, hrow, hclaims⟩
        rw [World.job_after_claim hbefore hclaims] at hjob
        cases hjob
        rw [hrow]
        exact ⟨rfl, rfl, rfl⟩
    · intro pid l job hl hjob
      rw [hworld] at hjob
      rcases hcases hl with hold | ⟨_, hr, hok⟩
      · rcases job_before_exec (h.issued hold) hjob with ⟨old, hbefore, hafter⟩
        exact Nat.le_trans (h.attempts hold hbefore)
          (World.attempts_le_of_jobAfter hafter)
      · subst hr
        rcases World.row_of_claim hok with ⟨old, hbefore, _, hrow, hclaims⟩
        rw [World.job_after_claim hbefore hclaims] at hjob
        cases hjob
        rw [hrow]
        exact Nat.le_refl _
    · intro pid pid' l l' hl hl' hid hattempts
      rcases hcases hl with hold | ⟨ha, _, hok⟩
      · rcases hcases hl' with hold' | ⟨_, _, hok'⟩
        · exact h.distinct hold hold' hid hattempts
        · have hlt := attempts_lt_of_claim h hold hid hok'
          rw [hattempts] at hlt
          exact absurd hlt (Nat.lt_irrefl _)
      · rcases hcases hl' with hold' | ⟨ha', _, _⟩
        · have hlt := attempts_lt_of_claim h hold' hid.symm hok
          rw [hattempts] at hlt
          exact absurd hlt (Nat.lt_irrefl _)
        · rw [ha] at ha'
          cases ha'
          rfl

theorem leased_of_run {trace : List (Deployment × Action)}
    (hrun : Run (act M) init trace d) : Leased d := by
  induction hrun with
  | nil => exact leased_init
  | snoc _ hact ih => exact leased_step ih hact

end Deployment
end ChatDoc
