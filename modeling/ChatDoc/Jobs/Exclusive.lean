import ChatDoc.Jobs.Lease

/-!
# Exclusive claims

A claim is meant to keep other claimants away until its holder reports or the
visibility timeout lapses.  `complete_job` and `fail_job` name the job only, so
a worker whose claim has been superseded can still move the job under the
current holder.  Claims are exclusive in every run in which no such report
takes the job out of the hands of its holder, or out of `done`.
-/

namespace ChatDoc

open Foundation

def Request.reportsOn (jobId : Nat) : Request -> Bool
  | .completeJob id => id = jobId
  | .readAttempts id => id = jobId
  | .requeueJob id _ => id = jobId
  | .deadLetterJob id _ => id = jobId
  | _ => false

/-- The statements that end a claim, or that take a job out of `done`. -/
def Request.releases (jobId : Nat) (status : JobStatus) : Request -> Bool
  | .completeJob id => id = jobId ∧ status = .processing
  | .requeueJob id _ =>
      id = jobId ∧ (status = .processing ∨ status = .done)
  | .deadLetterJob id _ =>
      id = jobId ∧ (status = .processing ∨ status = .done)
  | _ => false

namespace Deployment

variable {M : EmbeddingModel} {d d' : Deployment} {a : Action}

def Reports (pid : Nat) (row : JobRow) (d : Deployment) (a : Action) : Prop :=
  exists fault p expires r next,
    a = .step pid fault ∧ d.processes.lookup pid = some p ∧
      p.lease = some ⟨row, expires⟩ ∧ p.rest = .call r next ∧
        r.reportsOn row.id = true

def HoldsLatest (d : Deployment) (pid id : Nat) (job : Job) : Prop :=
  exists l, Holds d pid l ∧ l.job.id = id ∧ l.job.attempts = job.attempts

/-- Between two hand-outs of a job, the process that got the first one reports
on it, or the visibility timeout passes. -/
def Exclusive (M : EmbeddingModel) (trace : List (Deployment × Action)) :
    Prop :=
  forall before first mid second after pid row row',
    trace = before ++ first :: (mid ++ second :: after) ->
      first.2.actor = some pid ->
        returned M first.1 first.2 = some row ->
          returned M second.1 second.2 = some row' -> row'.id = row.id ->
            (exists step, step ∈ mid ∧ Reports pid row step.1 step.2) ∨
              first.1.world.now + seconds visibilityTimeoutS <
                second.1.world.now

/-- A report by a process that does not hold the latest claim of the job moves
the job neither out of the hands of its holder nor out of `done`. -/
def LateReportHarmless (M : EmbeddingModel) (d : Deployment) (a : Action) :
    Prop :=
  forall pid fault r answer id job d' job',
    a = .step pid fault -> event M d a = some ⟨r, answer⟩ ->
      r.reportsOn id = true -> d.world.db.jobs.lookup id = some job ->
        ¬ HoldsLatest d pid id job -> act M d a = some d' ->
          d'.world.db.jobs.lookup id = some job' ->
            job.status = .processing ∨ job.status = .done ->
              job'.status = job.status

/-- Whoever ends a claim, or takes a job out of `done`, holds the latest claim
of the job. -/
def ReleasedByHolder (M : EmbeddingModel) (d : Deployment) (a : Action) :
    Prop :=
  forall pid r id job,
    a = .step pid none -> event M d a = some ⟨r, (d.world.exec M r).1⟩ ->
      d.world.db.jobs.lookup id = some job ->
        r.releases id job.status = true -> HoldsLatest d pid id job

/-!
# Late reports
-/

theorem reportsOn_of_releases {id : Nat} {status : JobStatus} {r : Request}
    (h : r.releases id status = true) : r.reportsOn id = true := by
  cases r with
  | completeJob jobId => exact decide_eq_true (of_decide_eq_true h).left
  | requeueJob jobId error => exact decide_eq_true (of_decide_eq_true h).left
  | deadLetterJob jobId error =>
      exact decide_eq_true (of_decide_eq_true h).left
  | _ => cases h

theorem status_of_report {w : World} {id : Nat} {job job' : Job} {r : Request}
    (hreport : r.reportsOn id = true)
    (hstatus : job.status = .processing ∨ job.status = .done)
    (hafter : w.jobAfter id job r = some job') :
    job'.status = job.status <-> r.releases id job.status = false := by
  cases r with
  | completeJob jobId =>
      have hid := of_decide_eq_true hreport
      subst hid
      rw [World.jobAfter, if_pos rfl] at hafter
      cases hafter
      rcases hstatus with hstatus | hstatus <;>
        simp [Job.completed, Request.releases, hstatus]
  | readAttempts jobId =>
      cases hafter
      simp [Request.releases]
  | requeueJob jobId error =>
      have hid := of_decide_eq_true hreport
      subst hid
      rw [World.jobAfter, if_pos rfl] at hafter
      cases hafter
      rcases hstatus with hstatus | hstatus <;>
        simp [Job.requeued, Request.releases, hstatus]
  | deadLetterJob jobId error =>
      have hid := of_decide_eq_true hreport
      subst hid
      rw [World.jobAfter, if_pos rfl] at hafter
      cases hafter
      rcases hstatus with hstatus | hstatus <;>
        simp [Job.deadLettered, Request.releases, hstatus]
  | _ => cases hreport

theorem held_or_done_of_releases {id : Nat} {status : JobStatus} {r : Request}
    (h : r.releases id status = true) :
    status = .processing ∨ status = .done := by
  cases r with
  | completeJob jobId => exact .inl (of_decide_eq_true h).right
  | requeueJob jobId error => exact (of_decide_eq_true h).right
  | deadLetterJob jobId error => exact (of_decide_eq_true h).right
  | _ => cases h

theorem exists_jobAfter_of_report (w : World) {id : Nat} (job : Job)
    {r : Request} (hreport : r.reportsOn id = true) :
    exists job', w.jobAfter id job r = some job' := by
  cases r with
  | completeJob jobId => exact ⟨_, rfl⟩
  | readAttempts jobId => exact ⟨_, rfl⟩
  | requeueJob jobId error => exact ⟨_, rfl⟩
  | deadLetterJob jobId error => exact ⟨_, rfl⟩
  | _ => cases hreport

theorem lateReportHarmless_iff (hact : act M d a = some d') :
    LateReportHarmless M d a <-> ReleasedByHolder M d a := by
  have hacted := acted_of_act hact
  constructor
  · intro h pid r id job ha hevent hjob hreleases
    by_contra hlatest
    have hreport := reportsOn_of_releases hreleases
    have hstatus := held_or_done_of_releases hreleases
    have hworld : d'.world = (d.world.exec M r).2 := by
      subst ha
      cases hacted with
      | step hp hrest =>
          rw [event_step hp hrest] at hevent
          cases hevent
          rfl
    rcases exists_jobAfter_of_report d.world job hreport with ⟨job', hafter⟩
    have hjob' : d'.world.db.jobs.lookup id = some job' := by
      rw [hworld, World.exec_job hjob, hafter]
    have hsame := h pid none r _ id job d' job' ha hevent hreport hjob hlatest
      hact hjob' hstatus
    rw [status_of_report hreport hstatus hafter, hreleases] at hsame
    cases hsame
  · intro h pid fault r answer id job d'' job' ha hevent hreport hjob hlatest
      hact' hjob' hstatus
    rw [hact] at hact'
    cases hact'
    rcases world_of_acted hacted with
      ⟨hdb, _⟩ | ⟨pid', r', ha', hevent', hworld⟩
    · rw [hdb, hjob] at hjob'
      cases hjob'
      rfl
    · rw [hevent] at hevent'
      cases hevent'
      rw [hworld, World.exec_job hjob] at hjob'
      rw [status_of_report hreport hstatus hjob']
      cases hreleases : r.releases id job.status with
      | false => rfl
      | true =>
          rw [ha] at ha'
          cases ha'
          exact absurd (h pid r id job ha hevent hjob hreleases) hlatest

/-!
# Between two hand-outs
-/

/-- What holds from a hand-out on, as long as its holder does not report: the
claim has expired, or the job row is still the claim's. -/
def HeldSince (pid : Nat) (row : JobRow) (expiry : Time) (d : Deployment) :
    Prop :=
  expiry < d.world.now ∨
    (row.id < d.world.db.jobs.next ∧
      (forall job, d.world.db.jobs.lookup row.id = some job ->
        job.status = .processing ∧ job.attempts = row.attempts ∧
          job.visibleAt = expiry) ∧
      forall pid' l, Holds d pid' l -> l.job.id = row.id ->
        l.job.attempts = row.attempts -> pid' = pid ∧ l.job = row)

theorem expired_of_visible {job : Job} {expiry now : Time}
    (hstatus : job.status = .processing) (hvisible : job.visibleAt = expiry)
    (h : job.claimable now = true ∨ job.reapable now = true) :
    expiry < now := by
  rw [← hvisible]
  rcases h with h | h
  · rcases (of_decide_eq_true h).left with hqueued | ⟨_, hlt⟩
    · rw [hstatus] at hqueued
      cases hqueued
    · exact hlt
  · exact (of_decide_eq_true h).right.left

/-- A held job whose claim has not expired keeps its row, unless it is
released or deleted. -/
theorem job_kept {w : World} {id : Nat} {job job' : Job} {r : Request}
    (hjob : w.db.jobs.lookup id = some job)
    (hstatus : job.status = .processing) (hvisible : ¬ job.visibleAt < w.now)
    (hreleases : r.releases id job.status = false)
    (hafter : w.jobAfter id job r = some job') : job' = job := by
  have hnot : ¬ (job.claimable w.now = true ∨ job.reapable w.now = true) :=
    fun h => hvisible (expired_of_visible hstatus rfl h)
  cases r with
  | claimJob =>
      have hclaims : ¬ (w.db.claimCandidate w.now).map Prod.fst = some id := by
        intro h
        rcases World.job_of_claims (r := .claimJob) (decide_eq_true h) with
          ⟨old, hold, hclaimable⟩
        rw [hjob] at hold
        cases hold
        exact hnot (.inl hclaimable)
      rw [World.jobAfter, if_neg hclaims] at hafter
      cases hafter
      rfl
  | reapExhaustedJobs =>
      rw [World.jobAfter, if_neg fun h => hnot (.inr h)] at hafter
      cases hafter
      rfl
  | completeJob jobId =>
      have hne : ¬ id = jobId := by
        intro hid
        simp [Request.releases, hid, hstatus] at hreleases
      rw [World.jobAfter, if_neg hne] at hafter
      cases hafter
      rfl
  | requeueJob jobId error =>
      have hne : ¬ id = jobId := by
        intro hid
        simp [Request.releases, hid, hstatus] at hreleases
      rw [World.jobAfter, if_neg hne] at hafter
      cases hafter
      rfl
  | deadLetterJob jobId error =>
      have hne : ¬ id = jobId := by
        intro hid
        simp [Request.releases, hid, hstatus] at hreleases
      rw [World.jobAfter, if_neg hne] at hafter
      cases hafter
      rfl
  | deleteDocument userId documentId =>
      cases (Option.ite_none_left_eq_some.mp hafter).right
      rfl
  | _ =>
      cases hafter
      rfl

theorem reports_of_releases {pid : Nat} {row : JobRow} {r : Request}
    {status : JobStatus} (ha : a = .step pid none)
    (hevent : event M d a = some ⟨r, (d.world.exec M r).1⟩)
    (hreleases : r.releases row.id status = true)
    (hholds : exists expires, Holds d pid ⟨row, expires⟩) :
    Reports pid row d a := by
  rcases hholds with ⟨expires, p, hp, hlease⟩
  subst ha
  have hreport := reportsOn_of_releases hreleases
  cases hrest : p.rest with
  | ret value => simp [event, hp, hrest] at hevent
  | raise fault => simp [event, hp, hrest] at hevent
  | call r' next =>
      rw [event_step hp hrest] at hevent
      cases hevent
      exact ⟨none, p, expires, _, next, rfl, hp, hlease, hrest, hreport⟩

theorem heldSince_step {pid : Nat} {row : JobRow} {expiry : Time}
    (h : HeldSince pid row expiry d) (hrelease : ReleasedByHolder M d a)
    (hreports : ¬ Reports pid row d a) (hact : act M d a = some d') :
    HeldSince pid row expiry d' := by
  have hacted := acted_of_act hact
  by_cases hexpired : expiry < d.world.now
  · left
    rcases world_of_acted hacted with ⟨_, _, hnow, _⟩ | ⟨_, r, _, _, hworld⟩
    · exact Nat.lt_of_lt_of_le hexpired hnow
    · rw [hworld, World.exec_now]
      exact hexpired
  rcases h with h | ⟨hnext, hrow, hunique⟩
  · exact absurd h hexpired
  have hunclaimed : forall {l : Lease}, l.job.id = row.id ->
      (d.world.exec M .claimJob).1 ≠ .ok (some l.job) := by
    intro l hid hok
    rcases World.row_of_claim hok with ⟨job, hjob, hclaimable, _⟩
    rw [hid] at hjob
    rcases hrow job hjob with ⟨hstatus, _, hvisible⟩
    exact hexpired (expired_of_visible hstatus hvisible (.inl hclaimable))
  have hunique' : forall pid' l, Holds d' pid' l -> l.job.id = row.id ->
      l.job.attempts = row.attempts -> pid' = pid ∧ l.job = row := by
    intro pid' l hl hid hattempts
    rcases holds_of_acted hacted hl with hold | ⟨_, _, hok, _⟩
    · exact hunique pid' l hold hid hattempts
    · exact absurd hok (hunclaimed hid)
  rcases world_of_acted hacted with
    ⟨hdb, _⟩ | ⟨pid', r, ha, hevent, hworld⟩
  · right
    rw [hdb]
    exact ⟨hnext, hrow, hunique'⟩
  · right
    rw [hworld]
    refine ⟨Nat.lt_of_lt_of_le hnext (World.jobs_next_le r), ?_, hunique'⟩
    intro job' hjob'
    rcases job_before_exec hnext hjob' with ⟨job, hjob, hafter⟩
    rcases hrow job hjob with ⟨hstatus, hattempts, hvisible⟩
    have hreleases : r.releases row.id job.status = false := by
      cases hcase : r.releases row.id job.status with
      | false => rfl
      | true =>
          rcases hrelease pid' r row.id job ha hevent hjob hcase with
            ⟨l, hl, hid, hnumber⟩
          rcases hunique pid' l hl hid (hnumber.trans hattempts) with
            ⟨hpid, hlrow⟩
          subst hpid hlrow
          exact absurd (reports_of_releases ha hevent hcase ⟨l.expires, hl⟩)
            hreports
    rw [← hvisible] at hexpired
    rw [job_kept hjob hstatus hexpired hreleases hafter]
    exact ⟨hstatus, hattempts, hvisible⟩

theorem heldSince_of_returned {pid : Nat} {row : JobRow}
    (h : Leased d) (hact : act M d a = some d') (hactor : a.actor = some pid)
    (hreturned : returned M d a = some row) :
    HeldSince pid row (d.world.now + seconds visibilityTimeoutS) d' := by
  have hacted := acted_of_act hact
  rcases world_of_returned hact hreturned with ⟨hok, hworld⟩
  rcases World.row_of_claim hok with ⟨job, hjob, _, hrow, hclaims⟩
  right
  rw [hworld]
  refine ⟨?_, ?_, ?_⟩
  · exact Nat.lt_of_lt_of_le (SerialTable.lt_next_of_lookup hjob)
      (World.jobs_next_le _)
  · intro job' hjob'
    rw [World.job_after_claim hjob hclaims] at hjob'
    cases hjob'
    refine ⟨rfl, ?_, rfl⟩
    rw [hrow]
    rfl
  · intro pid'' l hl hid hattempts
    rcases holds_of_acted hacted hl with hold | ⟨hstep, _, hok', _⟩
    · have hlt := attempts_lt_of_claim h hold hid hok
      rw [hattempts] at hlt
      exact absurd hlt (Nat.lt_irrefl _)
    · rw [hok, Except.ok.injEq, Option.some.injEq] at hok'
      subst hstep
      cases hactor
      exact ⟨rfl, hok'.symm⟩

theorem expired_of_returned {pid : Nat} {row row' : JobRow} {expiry : Time}
    (h : HeldSince pid row expiry d) (hact : act M d a = some d')
    (hreturned : returned M d a = some row') (hid : row'.id = row.id) :
    expiry < d.world.now := by
  rcases h with h | ⟨_, hrow, _⟩
  · exact h
  rcases world_of_acted (acted_of_act hact) with
    ⟨_, _, _, hraise⟩ | ⟨_, r, _, hevent, _⟩
  · rw [returned_of_raise hraise] at hreturned
    cases hreturned
  · have hclaims : d.world.claims row.id r = true := by
      rw [← returned_of_exec hevent, hreturned]
      simp [hid]
    rcases World.job_of_claims hclaims with ⟨job, hjob, hclaimable⟩
    rcases hrow job hjob with ⟨hstatus, _, hvisible⟩
    exact expired_of_visible hstatus hvisible (.inl hclaimable)

theorem exclusive_of_releasedByHolder {trace : List (Deployment × Action)}
    (hrun : Run (act M) init trace d)
    (hrelease : EachStep (ReleasedByHolder M) trace) : Exclusive M trace := by
  intro before first mid second after pid row row' htrace hfirst hrow hrow' hid
  by_cases hreports : exists step, step ∈ mid ∧ Reports pid row step.1 step.2
  · exact .inl hreports
  right
  rw [htrace] at hrun hrelease
  rcases hrun.split with ⟨d1, hbefore, hrest⟩
  rcases first with ⟨d1', a1⟩
  rcases hrest.uncons with ⟨hd1, d2, hclaim, hafter⟩
  subst hd1
  rcases hafter.split with ⟨d3, hmid, hlast⟩
  rcases second with ⟨d3', a3⟩
  rcases hlast.uncons with ⟨hd3, d4, hreclaim, _⟩
  subst hd3
  have hsteps : EachStep
      (fun d a => ReleasedByHolder M d a ∧ ¬ Reports pid row d a) mid := by
    intro step hstep
    refine ⟨hrelease step ?_, fun h => hreports ⟨step, hstep, h⟩⟩
    exact List.mem_append_right _
      (List.mem_cons_of_mem _ (List.mem_append_left _ hstep))
  have hheld : HeldSince pid row
      (d1'.world.now + seconds visibilityTimeoutS) d3' := by
    refine hmid.invariant ?_ ?_ hsteps
    · exact heldSince_of_returned (leased_of_run hbefore) hclaim hfirst hrow
    · intro s a s' hs hcond hact
      exact heldSince_step hs hcond.left hcond.right hact
  exact expired_of_returned hheld hreclaim hrow' hid

theorem exclusiveLease_of_releasedByHolder {trace : List (Deployment × Action)}
    (hrun : Run (act M) init trace d) (h : EachStep (ReleasedByHolder M) trace) :
    Exclusive M trace ∧ EachStep (LateReportHarmless M) trace := by
  refine ⟨exclusive_of_releasedByHolder hrun h, ?_⟩
  intro step hstep
  rcases hrun.eachStep_act step hstep with ⟨d', hact⟩
  exact (lateReportHarmless_iff hact).mpr (h step hstep)

/-- Claims are exclusive, and late reports harmless, in exactly those runs in
which only the holder of a job's latest claim ends it or reopens the job. -/
theorem exclusiveLease_iff_releasedByHolder
    {trace : List (Deployment × Action)} (hrun : Run (act M) init trace d) :
    (Exclusive M trace ∧ EachStep (LateReportHarmless M) trace) <->
      EachStep (ReleasedByHolder M) trace := by
  constructor
  · intro h step hstep
    rcases hrun.eachStep_act step hstep with ⟨d', hact⟩
    exact (lateReportHarmless_iff hact).mp (h.right step hstep)
  · exact exclusiveLease_of_releasedByHolder hrun

/-!
# Superseded workers

A worker is superseded once its job has been handed out again.  Reports of such workers
are the only way to lose a claim.
-/

/-- The process was handed the job, and since then neither it nor the job has been part of
another hand-out. -/
def LastHandedTo (M : EmbeddingModel) (before : List (Deployment × Action))
    (pid id : Nat) : Prop :=
  exists earlier first mid row, before = earlier ++ first :: mid ∧
    first.2.actor = some pid ∧ returned M first.1 first.2 = some row ∧ row.id = id ∧
      forall step, step ∈ mid ->
        (forall activity, step.2 ≠ .spawn pid activity) ∧
          forall row', returned M step.1 step.2 = some row' ->
            row'.id ≠ id ∧ step.2.actor ≠ some pid

/-- No report that gets through is one of a superseded worker. -/
def NoLateReport (M : EmbeddingModel) (trace : List (Deployment × Action)) : Prop :=
  forall before d pid after r answer id, trace = before ++ (d, .step pid none) :: after ->
    event M d (.step pid none) = some ⟨r, answer⟩ -> r.reportsOn id = true ->
      LastHandedTo M before pid id

structure HandedLast (pid : Nat) (row : JobRow) (d : Deployment) : Prop where
  process : d.processes.lookup pid = none ∨ exists expires, Holds d pid ⟨row, expires⟩
  issued : row.id < d.world.db.jobs.next
  attempts : forall job, d.world.db.jobs.lookup row.id = some job ->
    job.attempts = row.attempts

theorem process_step {pid : Nat} {row : JobRow} (hact : act M d a = some d')
    (hspawn : forall activity, a ≠ .spawn pid activity)
    (hclaim : forall row', returned M d a = some row' -> a.actor ≠ some pid)
    (h : d.processes.lookup pid = none ∨ exists expires, Holds d pid ⟨row, expires⟩) :
    d'.processes.lookup pid = none ∨ exists expires, Holds d' pid ⟨row, expires⟩ := by
  cases hgone : d'.processes.lookup pid with
  | none => exact .inl rfl
  | some q =>
      right
      have hkept (hq : d.processes.lookup pid = some q) :
          exists expires, Holds d' pid ⟨row, expires⟩ := by
        rcases h with hnone | ⟨expires, p, hp, hlease⟩
        · rw [hnone] at hq
          cases hq
        · rw [hq] at hp
          cases hp
          exact ⟨expires, q, hgone, hlease⟩
      cases acted_of_act hact with
      | spawn hfree hfresh =>
          rcases lookup_spawn hgone with ⟨hpid, _⟩ | ⟨_, hold⟩
          · subst hpid
            exact absurd rfl (hspawn _)
          · exact hkept hold
      | @step pid' fault p r next hp hrest =>
          rcases lookup_resume hgone with ⟨hpid, hq⟩ | ⟨_, hold⟩
          · subst hpid
            have hlease : q.lease = p.lease := by
              rw [hq]
              show Process.leaseAfter _ _ _ _ = _
              unfold Process.leaseAfter
              split
              · next job hanswer =>
                  have hreturned : returned M d (.step pid fault) = some job := by
                    unfold returned
                    rw [event_step hp hrest, hanswer]
                    rfl
                  exact absurd rfl (hclaim job hreturned)
              · rfl
            rcases h with hnone | ⟨expires, p', hp', hlease'⟩
            · rw [hnone] at hp
              cases hp
            · rw [hp] at hp'
              cases hp'
              exact ⟨expires, q, hgone, hlease.trans hlease'⟩
          · exact hkept hold
      | crash => exact hkept (lookup_erase hgone).right
      | tick => exact hkept hgone

theorem handedLast_step {pid : Nat} {row : JobRow} (h : HandedLast pid row d)
    (hspawn : forall activity, a ≠ .spawn pid activity)
    (hclaim : forall row', returned M d a = some row' ->
      row'.id ≠ row.id ∧ a.actor ≠ some pid)
    (hact : act M d a = some d') : HandedLast pid row d' := by
  have hprocess := process_step hact hspawn (fun row' hrow' => (hclaim row' hrow').right)
    h.process
  rcases world_of_acted (acted_of_act hact) with ⟨hdb, _⟩ | ⟨_, r, _, hevent, hworld⟩
  · refine ⟨hprocess, ?_, ?_⟩
    · rw [hdb]
      exact h.issued
    · rw [hdb]
      exact h.attempts
  · refine ⟨hprocess, ?_, ?_⟩
    · rw [hworld]
      exact Nat.lt_of_lt_of_le h.issued (World.jobs_next_le r)
    · intro job' hjob'
      rw [hworld] at hjob'
      rcases job_before_exec h.issued hjob' with ⟨job, hjob, hafter⟩
      have hother : d.world.claims row.id r = false := by
        rw [← returned_of_exec hevent, decide_eq_false_iff_not, Option.map_eq_some_iff]
        rintro ⟨row', hrow', hid⟩
        exact (hclaim row' hrow').left hid
      rw [(World.attempts_of_jobAfter hafter).left, hother, h.attempts job hjob]
      rfl

theorem handedLast_of_returned {pid : Nat} {row : JobRow} (hact : act M d a = some d')
    (hactor : a.actor = some pid) (hreturned : returned M d a = some row) :
    HandedLast pid row d' := by
  rcases world_of_returned hact hreturned with ⟨hok, hworld⟩
  rcases World.row_of_claim hok with ⟨job, hjob, _, hrow, hclaims⟩
  refine ⟨?_, ?_, ?_⟩
  · cases hgone : d'.processes.lookup pid with
    | none => exact .inl rfl
    | some q =>
        right
        cases acted_of_act hact with
        | spawn => cases hactor
        | crash => cases hactor
        | tick => cases hactor
        | @step pid' fault p r next hp hrest =>
            cases hactor
            rcases lookup_resume hgone with ⟨_, hq⟩ | ⟨hne, _⟩
            · unfold returned at hreturned
              rw [event_step hp hrest, Option.bind_some] at hreturned
              refine ⟨d.world.now + seconds visibilityTimeoutS, q, hgone, ?_⟩
              rw [hq]
              dsimp only
              generalize (d.world.answer M fault r).1 = answer at hreturned
              cases r with
              | claimJob =>
                  cases answer with
                  | error e => cases hreturned
                  | ok claimed =>
                      replace hreturned : claimed = some row := hreturned
                      rw [hreturned]
                      rfl
              | _ => cases hreturned
            · exact absurd rfl hne
  · rw [hworld]
    exact Nat.lt_of_lt_of_le (SerialTable.lt_next_of_lookup hjob) (World.jobs_next_le _)
  · intro job' hjob'
    rw [hworld, World.job_after_claim hjob hclaims] at hjob'
    cases hjob'
    rw [hrow]
    rfl

theorem holdsLatest_of_lastHandedTo {before : List (Deployment × Action)} {pid id : Nat}
    {job : Job} {p : Process} (hrun : Run (act M) init before d)
    (hlast : LastHandedTo M before pid id) (hp : d.processes.lookup pid = some p)
    (hjob : d.world.db.jobs.lookup id = some job) : HoldsLatest d pid id job := by
  rcases hlast with ⟨earlier, ⟨d1, a1⟩, mid, row, rfl, hactor, hreturned, rfl, hmid⟩
  rcases hrun.split with ⟨_, _, hrest⟩
  rcases hrest.uncons with ⟨rfl, d2, hact, hafter⟩
  have hsteps : EachStep (fun d a => (forall activity, a ≠ .spawn pid activity) ∧
      forall row', returned M d a = some row' -> row'.id ≠ row.id ∧ a.actor ≠ some pid) mid :=
    hmid
  have hheld : HandedLast pid row d :=
    hafter.invariant (handedLast_of_returned hact hactor hreturned)
      (fun _ _ _ hs hcond hstep => handedLast_step hs hcond.left hcond.right hstep) hsteps
  rcases hheld.process with hnone | ⟨expires, hholds⟩
  · rw [hnone] at hp
    cases hp
  · exact ⟨_, hholds, rfl, (hheld.attempts job hjob).symm⟩

/-- Claims are exclusive, and late reports harmless, where no superseded worker
reports. -/
theorem exclusiveLease_of_noLateReport {trace : List (Deployment × Action)}
    (hrun : Run (act M) init trace d) (h : NoLateReport M trace) :
    Exclusive M trace ∧ EachStep (LateReportHarmless M) trace := by
  apply exclusiveLease_of_releasedByHolder hrun
  rintro ⟨d1, a1⟩ hstep pid r id job rfl hevent hjob hreleases
  rcases List.mem_iff_append.mp hstep with ⟨before, after, htrace⟩
  have hlast := h before d1 pid after r _ id htrace hevent (reportsOn_of_releases hreleases)
  rw [htrace] at hrun
  rcases hrun.split with ⟨d2, hbefore, hrest⟩
  rcases hrest.uncons with ⟨rfl, _, _, _⟩
  rcases Option.bind_eq_some_iff.mp hevent with ⟨p, hp, _⟩
  exact holdsLatest_of_lastHandedTo hbefore hlast hp hjob

/-!
# A claim that is lost to a late report
-/

/-- The first worker's claim lapses and a second worker claims the job; then
the first one finds its PDF unreadable and requeues the job, and a third worker
claims it while the second one is still at work. -/
def lateFailure : List Action :=
  uploaded 0 1 "0123456789ab" onePage ++ claimed 1 ++ [.tick (seconds 601)] ++
    [.spawn 2 .worker, .step 2 none,
      .step 1 (some (.storageError "connection reset"))] ++
    answered 1 2 ++ [.spawn 3 .worker, .step 3 none]

def lostBySecond (trace : List (Deployment × Action)) : Bool :=
  match trace.drop 13 with
  | [] => false
  | first :: rest =>
      match rest.drop 4 with
      | [] => false
      | second :: _ =>
          first.2.actor = some 2 ∧
            (returned lengthModel first.1 first.2).map JobRow.id = some 1 ∧
            (returned lengthModel second.1 second.2).map JobRow.id = some 1 ∧
            (rest.take 4).all (fun step => step.2.actor ≠ some 2) ∧
            second.1.world.now ≤
              first.1.world.now + seconds visibilityTimeoutS

theorem not_exclusive_of_lostBySecond {trace : List (Deployment × Action)}
    (h : lostBySecond trace = true) : ¬ Exclusive lengthModel trace := by
  intro hexclusive
  unfold lostBySecond at h
  split at h
  · cases h
  next first rest hrest =>
  split at h
  · cases h
  next second after hafter =>
  rcases of_decide_eq_true h with ⟨hactor, hrow, hrow', hmid, hnow⟩
  rcases Option.map_eq_some_iff.mp hrow with ⟨row, hrow, hid⟩
  rcases Option.map_eq_some_iff.mp hrow' with ⟨row', hrow', hid'⟩
  have htrace : trace =
      trace.take 13 ++ first :: (rest.take 4 ++ second :: after) := by
    rw [← hafter, List.take_append_drop, ← hrest, List.take_append_drop]
  rcases hexclusive _ first _ second after 2 row row' htrace hactor hrow hrow'
    (hid'.trans hid.symm) with ⟨step, hstep, hreports⟩ | hexpired
  · rcases hreports with ⟨fault, _, _, _, _, ha, _⟩
    have hother := List.all_eq_true.mp hmid step hstep
    rw [ha] at hother
    simp [Action.actor] at hother
  · exact absurd hexpired (Nat.not_lt.mpr hnow)

theorem exists_run_lateFailure :
    exists trace d, Run (act lengthModel) init trace d ∧
      lostBySecond trace = true := by
  have hfollow : (follow (act lengthModel) init lateFailure).any
      (fun out => lostBySecond out.1) = true := by
    decide +kernel
  exact exists_run_of_follow (fun trace _ => lostBySecond trace) hfollow

theorem lateFailure_loses_claim :
    ¬ forall trace d, Run (act lengthModel) init trace d ->
      Exclusive lengthModel trace ∧
        EachStep (LateReportHarmless lengthModel) trace := by
  intro hclaim
  rcases exists_run_lateFailure with ⟨trace, d, hrun, hlost⟩
  exact not_exclusive_of_lostBySecond hlost (hclaim trace d hrun).left

theorem exclusiveLease_iff_releasedByHolder_lateFailure :
    exists trace d, Run (act lengthModel) init trace d ∧
      lostBySecond trace = true ∧
      ((Exclusive lengthModel trace ∧
          EachStep (LateReportHarmless lengthModel) trace) <->
        EachStep (ReleasedByHolder lengthModel) trace) := by
  rcases exists_run_lateFailure with ⟨trace, d, hrun, hlost⟩
  exact ⟨trace, d, hrun, hlost, exclusiveLease_iff_releasedByHolder hrun⟩

end Deployment
end ChatDoc
