import ChatDoc.Jobs.Lease
import ChatDoc.Jobs.Outline
import ChatDoc.Service.Uploading

/-!
# Who works on what

In a deployment of workers and uploads in which no job is taken from a worker
that is still running, every job has at most one worker, and that worker is the
only one to touch the job, its document and its chunks.  So the deployment does
to the slice of each job what the outline of `process_job` says, and what the
attempts keep between them holds of every job that nobody works on.

A regime says what a run is assumed to do, and what its attempts keep.
-/

namespace ChatDoc

open Foundation
open Foundation.Program

structure Regime where
  /-- The answers the worker of a job gets. -/
  allow : Slice.Allowance
  /-- What the deletion of old chunks says about the slice it started from. -/
  cleared : Slice -> Prop
  /-- The exceptions inside the `try` statement, by the slice the attempt
  started from and the one they leave. -/
  raised : Slice -> Exn -> Slice -> Prop
  /-- Whether attempts can break off. -/
  abandons : Prop
  /-- What holds of a slice that nobody works on. -/
  idle : Slice -> Prop

def Regime.attempt (R : Regime) (M : EmbeddingModel) (row : JobRow)
    (s : Slice) : Attempt where
  model := M
  row := row
  start := s
  allow := R.allow
  embedded := fun _ _ => True
  cleared := R.cleared s
  raised := R.raised s
  escapes := R.abandons

def Slice.claimed (s : Slice) (now : Time) : Slice :=
  { s with job := s.job.claimed now }

structure Regime.Keeps (R : Regime) (M : EmbeddingModel) : Prop where
  sound : forall row s, (R.attempt M row s).Sound
  fresh : forall {s : Slice} {now documentId docKey pdfPath},
    s.document.status = .processing ->
      s.job = .enqueued now documentId docKey pdfPath -> R.idle s
  returned : forall {row s now t}, R.idle s -> s.job.claimable now = true ->
    (R.attempt M row (s.claimed now)).Returned t -> R.idle t
  abandoned : forall {row s now t}, R.abandons -> R.idle s ->
    s.job.claimable now = true ->
      (R.attempt M row (s.claimed now)).Pending t -> R.idle t
  reaped : forall {s : Slice} {now}, R.idle s -> s.job.reapable now = true ->
    R.idle { s with job := s.job.reaped }
  marked : forall {s : Slice} {error}, R.idle s -> s.job.status = .failed ->
    R.idle { s with document := s.document.markedFailed error }

/-!
# Processes
-/

/-- A worker that found nothing to claim, about to look for exhausted jobs. -/
def reaping : Proc Unit := do
  let row ← (do
    reapExhaustedJobs
    pure (none : Option JobRow))
  match row with
  | none => pure ()
  | some job => processJob job

def marking (rows : List Nat) : Proc Unit := do
  let row ← (do
    markDocumentsFailed rows
    pure (none : Option JobRow))
  match row with
  | none => pure ()
  | some job => processJob job

namespace Deployment

/-- Nobody will touch the job of this document again, except to mark it. -/
structure Doomed (d : Deployment) (documentId : Nat) : Prop where
  job : exists id job, d.world.db.jobs.lookup id = some job ∧
    job.documentId = documentId
  failed : forall {id job}, d.world.db.jobs.lookup id = some job ->
    job.documentId = documentId -> job.status = .failed
  unheld : forall {id job pid l}, d.world.db.jobs.lookup id = some job ->
    job.documentId = documentId -> Holds d pid l -> l.job.id ≠ id

def Working (R : Regime) (M : EmbeddingModel) (w : World) (rest : Proc Unit)
    (l : Lease) : Prop :=
  exists s now t, R.idle s ∧ s.job.claimable now = true ∧
    l.expires = now + seconds visibilityTimeoutS ∧ Shows w l.job t ∧
      (R.attempt M l.job (s.claimed now)).Safe
        (fun _ t' => (R.attempt M l.job (s.claimed now)).Returned t')
        (fun _ t' => (R.attempt M l.job (s.claimed now)).Escaped t') rest t

def Polling (d : Deployment) (rest : Proc Unit) : Prop :=
  rest = runForeverBody ∨ rest = reaping ∨
    exists rows, rest = marking rows ∧
      forall documentId, documentId ∈ rows -> Doomed d documentId

def ProcessInv (R : Regime) (M : EmbeddingModel) (d : Deployment)
    (p : Process) : Prop :=
  match p.activity with
  | .worker =>
      match p.lease with
      | none => Polling d p.rest
      | some l => Working R M d.world p.rest l
  | .upload userId hex file =>
      p.lease = none ∧ docKey userId hex ∈ d.issued ∧
        exists v, UploadShows d.world (docKey userId hex) file.contents v ∧
          UploadView.Safe (docKey userId hex) file.contents p.rest v
  | _ => False

def Unheld (d : Deployment) (id : Nat) : Prop :=
  forall pid l, Holds d pid l -> l.job.id ≠ id

structure Owned (R : Regime) (M : EmbeddingModel) (d : Deployment) :
    Prop where
  leased : Leased d
  process : forall {pid p}, d.processes.lookup pid = some p ->
    ProcessInv R M d p
  running : forall {pid p l}, d.processes.lookup pid = some p ->
    p.lease = some l -> ¬ p.rest.Ended
  sole : forall {pid pid' l l'}, Holds d pid l -> Holds d pid' l' ->
    l.job.id = l'.job.id -> pid = pid'
  uploads : forall {pid pid' p p' userId userId' hex hex' file file'},
    d.processes.lookup pid = some p -> d.processes.lookup pid' = some p' ->
      p.activity = .upload userId hex file ->
        p'.activity = .upload userId' hex' file' ->
          docKey userId hex = docKey userId' hex' -> pid = pid'
  names : forall {id r}, d.world.db.documents.lookup id = some r ->
    r.docName ∈ d.issued
  path : forall {id job}, d.world.db.jobs.lookup id = some job ->
    job.pdfPath = storageKey job.docKey
  slice : forall {id job}, d.world.db.jobs.lookup id = some job ->
    exists s, Shows d.world (job.toRow id) s ∧ (Unheld d id -> R.idle s)
  single : forall {id id' job job'}, d.world.db.jobs.lookup id = some job ->
    d.world.db.jobs.lookup id' = some job' ->
      job.documentId = job'.documentId -> id = id'
  ready : forall {id r}, d.world.db.documents.lookup id = some r ->
    r.status = .ready ->
      exists jobId job, d.world.db.jobs.lookup jobId = some job ∧
        job.documentId = id

/-- What a step of a run must meet for the jobs to keep their owners. -/
structure Orderly (R : Regime) (M : EmbeddingModel) (d : Deployment)
    (a : Action) : Prop where
  spawned : forall {pid activity}, a = .spawn pid activity ->
    activity = .worker ∨
      exists userId hex file, activity = .upload userId hex file
  crashed : forall {pid l}, a = .crash pid -> Holds d pid l -> R.abandons
  claimed : forall row, returned M d a = some row -> Unheld d row.id
  reaped : forall {rows pid l job},
    event M d a = some ⟨.reapExhaustedJobs, .ok rows⟩ -> Holds d pid l ->
      d.world.db.jobs.lookup l.job.id = some job ->
        job.reapable d.world.now = false
  allowed : forall {pid fault p l r next s}, a = .step pid fault ->
    d.processes.lookup pid = some p -> p.lease = some l ->
      p.rest = .call r next -> Shows d.world l.job s ->
        R.allow r s (d.world.answer M fault r).1

/-!
# The calls of a process
-/

inductive Acts (d : Deployment) (p : Process) : Request -> Prop where
  | own {l : Lease} {s : Slice} {r : Request} :
      p.lease = some l -> Shows d.world l.job s -> Own l.job r -> Acts d p r
  | claim : p.lease = none -> Acts d p .claimJob
  | reap : p.lease = none -> Acts d p .reapExhaustedJobs
  | mark {documentId : Nat} {error : String} :
      p.lease = none -> Doomed d documentId ->
      Acts d p (.markDocumentFailed documentId error)
  | upload {userId : Nat} {hex : String} {file : UploadFile} {v : UploadView}
      {r : Request} :
      p.lease = none -> p.activity = .upload userId hex file ->
      docKey userId hex ∈ d.issued ->
      UploadShows d.world (docKey userId hex) file.contents v ->
      v.req (docKey userId hex) file.contents r -> Acts d p r

section Steps

variable {R : Regime} {M : EmbeddingModel} {d : Deployment} {pid : Nat}
  {fault : Option Exn} {p : Process} {r : Request}
  {next : Except Exn (Reply r) -> Proc Unit}

theorem acts_of_polling (h : Polling d p.rest) (hlease : p.lease = none)
    (hrest : p.rest = .call r next) : Acts d p r := by
  rcases h with hbody | hreaping | ⟨rows, hmarking, hdoomed⟩
  · rw [hbody] at hrest
    cases hrest
    exact .claim hlease
  · rw [hreaping] at hrest
    cases hrest
    exact .reap hlease
  · rw [hmarking] at hrest
    cases rows with
    | nil => cases hrest
    | cons documentId rows =>
        cases hrest
        exact .mark hlease (hdoomed documentId List.mem_cons_self)

theorem acts_of_processInv (h : ProcessInv R M d p)
    (hrest : p.rest = .call r next) : Acts d p r := by
  unfold ProcessInv at h
  split at h
  · split at h
    · next hactivity hlease => exact acts_of_polling h hlease hrest
    · next l hlease =>
        rcases h with ⟨s, now, t, _, _, _, hshows, hsafe⟩
        rw [hrest] at hsafe
        exact .own hlease hshows hsafe.left.left
  · next hactivity =>
      rcases h with ⟨hlease, hissued, v, hshows, hsafe⟩
      rw [hrest] at hsafe
      exact .upload hlease hactivity hissued hshows hsafe.left
  · exact h.elim

/-!
# One slice through one call
-/

/-- What a call of a process that does not work on a job does to its slice. -/
inductive SliceMove (d : Deployment) (w' : World) (fault : Option Exn)
    (r : Request) (row : JobRow) (s : Slice) : Prop where
  | kept : Shows w' row s -> SliceMove d w' fault r row s
  | claimed :
      fault = none -> r = .claimJob -> s.job.claimable d.world.now = true ->
      d.world.claims row.id .claimJob = true ->
      Shows w' row (s.claimed d.world.now) -> SliceMove d w' fault r row s
  | reaped :
      fault = none -> r = .reapExhaustedJobs ->
      s.job.reapable d.world.now = true ->
      Shows w' row { s with job := s.job.reaped } ->
      SliceMove d w' fault r row s
  | marked (error : String) :
      s.job.status = .failed -> Unheld d row.id ->
      Shows w' row { s with document := s.document.markedFailed error } ->
      SliceMove d w' fault r row s

theorem documentId_ne_of_row {w : World} {row row' : JobRow} {s s' : Slice}
    (hshows : Shows w row s) (hshows' : Shows w row' s')
    (hdocument : row'.documentId ≠ row.documentId) :
    row'.docKey ≠ row.docKey := by
  intro hkey
  refine hdocument (w.db.docName_unique hshows'.document hshows.document ?_)
  rw [hshows'.docName, hshows.docName, hkey]

theorem foreign_of_acts (hd : Owned R M d) (hacts : Acts d p r) {id : Nat}
    {job : Job} {s : Slice} (hjob : d.world.db.jobs.lookup id = some job)
    (hshows : Shows d.world (job.toRow id) s)
    (hown : forall l, p.lease = some l -> l.job.id ≠ id)
    (hclaim : r ≠ .claimJob) (hreap : r ≠ .reapExhaustedJobs)
    (hmark : forall documentId error, p.lease = none ->
      r = .markDocumentFailed documentId error ->
        documentId ≠ job.documentId) :
    Foreign (job.toRow id) r := by
  cases hacts with
  | @own l s' r hlease hshows' hown' =>
      have hid := hown l hlease
      have hdocument : l.job.documentId ≠ job.documentId := by
        intro heq
        refine hid (hd.single hshows'.job hjob ?_)
        rw [hshows'.documentId, heq]
      exact foreign_of_own hown' hid hdocument
        (documentId_ne_of_row hshows hshows' hdocument)
  | claim _ => exact absurd rfl hclaim
  | reap _ => exact absurd rfl hreap
  | mark hlease hdoomed => exact hmark _ _ hlease rfl
  | @upload userId hex file v r hlease hactivity hissued hupload hreq =>
      cases r with
      | storageSave key' data =>
          rcases hreq with ⟨hkey, _, hv⟩
          subst hkey hv
          show storageKey (docKey userId hex) ≠ job.pdfPath
          rw [hd.path hjob]
          intro heq
          have hname := storageKey_injective heq
          exact Database.findDocument_eq_none_iff.mp hupload _ _
            hshows.document (hshows.docName.trans hname.symm)
      | queueDepth => exact True.intro
      | getStorage => exact True.intro
      | getDocument userId documentId => exact True.intro
      | createPendingDocument userId docName displayName sourcePath =>
          exact True.intro
      | enqueueJob documentId docKey pdfPath => exact True.intro
      | _ => exact hreq.elim

theorem slice_move (fault : Option Exn) (hd : Owned R M d)
    (hacts : Acts d p r) {id : Nat} {job : Job} {s : Slice} (hjob : d.world.db.jobs.lookup id = some job)
    (hshows : Shows d.world (job.toRow id) s)
    (hown : forall l, p.lease = some l -> l.job.id ≠ id) :
    SliceMove d (d.world.answer M fault r).2 fault r (job.toRow id) s := by
  cases fault with
  | some e => exact .kept hshows
  | none =>
      rw [World.answer_none]
      by_cases hclaim : r = .claimJob
      · subst hclaim
        have hmoved := shows_claim (M := M) hshows
        by_cases hclaims :
            d.world.claims (job.toRow id).id .claimJob = true
        · rw [if_pos hclaims] at hmoved
          rcases World.job_of_claims hclaims with ⟨job', hjob', hclaimable⟩
          have heq := hshows.job.symm.trans hjob'
          cases heq
          exact .claimed rfl rfl hclaimable hclaims hmoved
        · rw [if_neg hclaims] at hmoved
          exact .kept hmoved
      by_cases hreap : r = .reapExhaustedJobs
      · subst hreap
        have hmoved := shows_reap (M := M) hshows
        by_cases hreapable : s.job.reapable d.world.now = true
        · rw [if_pos hreapable] at hmoved
          exact .reaped rfl rfl hreapable hmoved
        · rw [if_neg hreapable] at hmoved
          exact .kept hmoved
      by_cases hmark : exists documentId error, p.lease = none ∧
          r = .markDocumentFailed documentId error ∧
            documentId = job.documentId
      · rcases hmark with ⟨documentId, error, hlease, hr, hdocument⟩
        subst hr
        cases hacts with
        | own hlease' _ _ =>
            rw [hlease] at hlease'
            cases hlease'
        | mark _ hdoomed =>
            have hmarked : Own (job.toRow id)
                (.markDocumentFailed documentId error) := hdocument
            rcases shows_own (M := M) hshows hmarked none with ⟨s', hs', heq⟩
            cases heq
            refine .marked error ?_ ?_ hs'
            · exact hdoomed.failed hshows.job
                (hshows.documentId.trans hdocument.symm)
            · intro pid l hl
              exact hdoomed.unheld hjob hdocument.symm hl
        | upload _ _ _ _ hreq => exact hreq.elim
      · refine .kept (shows_foreign hshows
          (foreign_of_acts hd hacts hjob hshows hown hclaim hreap ?_))
        intro documentId error hlease hr hdocument
        exact hmark ⟨documentId, error, hlease, hr, hdocument⟩

/-!
# One step
-/

def stepped (M : EmbeddingModel) (d : Deployment) (pid : Nat)
    (fault : Option Exn) (p : Process) (r : Request)
    (next : Except Exn (Reply r) -> Proc Unit) : Deployment :=
  { d with
    world := (d.world.answer M fault r).2
    processes := resume d.processes pid
      { p with
        rest := next (d.world.answer M fault r).1
        lease := Process.leaseAfter d.world.now p.lease r
          (d.world.answer M fault r).1 } }

theorem act_stepped (M : EmbeddingModel) (fault : Option Exn)
    (hp : d.processes.lookup pid = some p)
    (hrest : p.rest = .call r next) :
    act M d (.step pid fault) = some (stepped M d pid fault p r next) := by
  rw [act, hp, Option.bind_some, stepProcess, hrest]
  rfl

theorem lookup_stepped_ne {pid' : Nat} (hne : pid' ≠ pid) :
    (stepped M d pid fault p r next).processes.lookup pid' =
      d.processes.lookup pid' := by
  unfold stepped resume
  split
  · exact AList.lookup_erase_ne hne
  · exact AList.lookup_insert_ne hne

theorem lookup_stepped (hended : ¬ (next (d.world.answer M fault r).1).Ended) :
    (stepped M d pid fault p r next).processes.lookup pid =
      some
        { p with
          rest := next (d.world.answer M fault r).1
          lease := Process.leaseAfter d.world.now p.lease r
            (d.world.answer M fault r).1 } := by
  unfold stepped resume
  rw [if_neg hended]
  exact AList.lookup_insert _

theorem holds_stepped_ne {pid' : Nat} {l : Lease} (hne : pid' ≠ pid)
    (hl : Holds d pid' l) : Holds (stepped M d pid fault p r next) pid' l := by
  rcases hl with ⟨q, hq, hlease⟩
  exact ⟨q, (lookup_stepped_ne hne).trans hq, hlease⟩

theorem unheld_of_stepped {id : Nat}
    (h : Unheld (stepped M d pid fault p r next) id)
    (hp : d.processes.lookup pid = some p)
    (hown : forall l, p.lease = some l -> l.job.id ≠ id) : Unheld d id := by
  intro pid' l hl
  by_cases hpid : pid' = pid
  · subst hpid
    rcases hl with ⟨q, hq, hlease⟩
    rw [hp] at hq
    cases hq
    exact hown l hlease
  · exact h pid' l (holds_stepped_ne hpid hl)

theorem shows_row {w : World} {row row' : JobRow} {s : Slice}
    (h : Shows w row s) (hid : row'.id = row.id)
    (hdocument : row'.documentId = row.documentId)
    (hkey : row'.docKey = row.docKey) (hpath : row'.pdfPath = row.pdfPath) :
    Shows w row' s := by
  constructor
  · rw [hdocument]
    exact h.document
  · rw [hkey]
    exact h.docName
  · rw [hdocument]
    exact h.chunks
  · rw [hid]
    exact h.job
  · rw [hdocument]
    exact h.documentId
  · rw [hpath]
    exact h.blob

/-- The row a worker holds and the row of its job show the same slice. -/
theorem shows_lease_iff {w : World} {l : Lease} {job : Job} {s : Slice}
    (h : Leased d) (hl : Holds d pid l)
    (hjob : d.world.db.jobs.lookup l.job.id = some job) :
    Shows w l.job s <-> Shows w (job.toRow l.job.id) s := by
  rcases h.columns hl hjob with ⟨hdocument, hkey, hpath⟩
  constructor
  · intro hs
    exact shows_row hs rfl hdocument.symm hkey.symm hpath.symm
  · intro hs
    exact shows_row hs rfl hdocument hkey hpath

theorem processInv_lease {l : Lease} (h : ProcessInv R M d p)
    (hlease : p.lease = some l) : Working R M d.world p.rest l := by
  unfold ProcessInv at h
  split at h
  · split at h
    · next hnone =>
        rw [hnone] at hlease
        cases hlease
    · next l' hsome =>
        rw [hsome] at hlease
        cases hlease
        exact h
  · rw [h.left] at hlease
    cases hlease
  · exact h.elim

theorem working_step {l : Lease} (hd : Owned R M d)
    (horderly : Orderly R M d (.step pid fault))
    (hp : d.processes.lookup pid = some p) (hlease : p.lease = some l)
    (hrest : p.rest = .call r next) :
    Working R M (d.world.answer M fault r).2
      (next (d.world.answer M fault r).1) l := by
  rcases processInv_lease (hd.process hp) hlease with
    ⟨s, now, t, hidle, hclaimable, hexpires, hshows, hsafe⟩
  rw [hrest] at hsafe
  rcases shows_own (M := M) hshows hsafe.left.left fault with ⟨t', ht', heq⟩
  refine ⟨s, now, t', hidle, hclaimable, hexpires, ht', ?_⟩
  refine hsafe.right _ t' ⟨?_, d.world.now, fault, heq⟩
  exact horderly.allowed rfl hp hlease hrest hshows

theorem own_of_working {l : Lease} {w : World}
    (h : Working R M w (.call r next) l) : Own l.job r := by
  rcases h with ⟨s, now, t, _, _, _, _, hsafe⟩
  exact hsafe.left.left

theorem leaseAfter_own {row : JobRow} (hown : Own row r) (now : Time)
    (lease : Option Lease) (answer : Except Exn (Reply r)) :
    Process.leaseAfter now lease r answer = lease := by
  cases r with
  | claimJob => exact hown.elim
  | _ => rfl

theorem idle_of_ended {w : World} {rest : Proc Unit} {l : Lease}
    (hR : R.Keeps M) (h : Working R M w rest l) (hended : rest.Ended) :
    exists t, Shows w l.job t ∧ R.idle t := by
  rcases h with ⟨s, now, t, hidle, hclaimable, _, hshows, hsafe⟩
  refine ⟨t, hshows, ?_⟩
  cases rest with
  | ret a => exact hR.returned hidle hclaimable hsafe
  | raise e => exact hR.abandoned hsafe.right hidle hclaimable hsafe.left
  | call r next => exact hended.elim

theorem polling_of_claim (hd : Owned R M d)
    (hp : d.processes.lookup pid = some p)
    {next : Except Exn (Option JobRow) -> Proc Unit}
    (hrest : p.rest = .call .claimJob next) :
    p.lease = none ∧ p.activity = .worker ∧ p.rest = runForeverBody := by
  have hinv := hd.process hp
  have hacts := acts_of_processInv hinv hrest
  have hlease : p.lease = none := by
    cases hacts with
    | own _ _ hown => exact hown.elim
    | claim hlease => exact hlease
    | upload _ _ _ _ hreq => exact hreq.elim
  unfold ProcessInv at hinv
  split at hinv
  · next hactivity =>
      rw [hlease] at hinv
      refine ⟨hlease, hactivity, ?_⟩
      rcases hinv with hbody | hreaping | ⟨rows, hmarking, _⟩
      · exact hbody
      · rw [hreaping] at hrest
        cases hrest
      · rw [hmarking] at hrest
        cases rows <;> cases hrest
  · rcases hinv with ⟨_, _, v, _, hsafe⟩
    rw [hrest] at hsafe
    exact hsafe.left.elim
  · exact hinv.elim

theorem holds_of_claim (hd : Owned R M d)
    (hp : d.processes.lookup pid = some p)
    {next : Except Exn (Option JobRow) -> Proc Unit}
    (hrest : p.rest = .call .claimJob next) {row : JobRow}
    (hok : (d.world.exec M .claimJob).1 = .ok (some row)) :
    (stepped M d pid none p .claimJob next).processes.lookup pid =
        some
          { p with
            rest := processJob row
            lease := some
              { job := row
                expires := d.world.now + seconds visibilityTimeoutS } } := by
  rcases polling_of_claim hd hp hrest with ⟨_, _, hbody⟩
  rw [hbody] at hrest
  cases hrest
  have hanswer : (d.world.answer M none .claimJob).1 = .ok (some row) := hok
  rw [lookup_stepped (by rw [hanswer]; exact id), hanswer]
  rfl

theorem exists_row_of_claims {id : Nat}
    (hclaims : d.world.claims id .claimJob = true) :
    exists row, (d.world.exec M .claimJob).1 = .ok (some row) ∧
      row.id = id := by
  have hrow := (World.returnedRow_exec (M := M) .claimJob).mpr hclaims
  show exists row, Except.ok (d.world.db.claimJob d.world.now).1 = _ ∧ _
  rcases Option.map_eq_some_iff.mp hrow with ⟨row, hreturned, hid⟩
  exact ⟨row, congrArg Except.ok hreturned, hid⟩

/-- Every job keeps its slice, and nobody leaves it but idle. -/
theorem slice_step (hR : R.Keeps M) (hd : Owned R M d)
    (horderly : Orderly R M d (.step pid fault))
    (hp : d.processes.lookup pid = some p) (hrest : p.rest = .call r next)
    {id : Nat} {job : Job} (hjob : d.world.db.jobs.lookup id = some job) :
    exists s', Shows (d.world.answer M fault r).2 (job.toRow id) s' ∧
      (Unheld (stepped M d pid fault p r next) id -> R.idle s') := by
  by_cases hheld : exists l, p.lease = some l ∧ l.job.id = id
  · rcases hheld with ⟨l, hlease, hid⟩
    subst hid
    have hl : Holds d pid l := ⟨p, hp, hlease⟩
    have hworking := working_step hd horderly hp hlease hrest
    have hown : Own l.job r := by
      have hbefore := processInv_lease (hd.process hp) hlease
      rw [hrest] at hbefore
      exact own_of_working hbefore
    by_cases hended : (next (d.world.answer M fault r).1).Ended
    · rcases idle_of_ended hR hworking hended with ⟨t, ht, hidle⟩
      exact ⟨t, (shows_lease_iff hd.leased hl hjob).mp ht, fun _ => hidle⟩
    · rcases hworking with ⟨_, _, t, _, _, _, ht, _⟩
      refine ⟨t, (shows_lease_iff hd.leased hl hjob).mp ht, ?_⟩
      intro hunheld
      refine absurd rfl (hunheld pid l ⟨_, lookup_stepped hended, ?_⟩)
      exact (leaseAfter_own hown _ _ _).trans hlease
  · replace hheld : forall l, p.lease = some l -> l.job.id ≠ id :=
      fun l hlease hid => hheld ⟨l, hlease, hid⟩
    rcases hd.slice hjob with ⟨s, hshows, hidle⟩
    have hacts := acts_of_processInv (hd.process hp) hrest
    cases slice_move fault hd hacts hjob hshows hheld with
    | kept hmoved =>
        exact ⟨s, hmoved, fun h => hidle (unheld_of_stepped h hp hheld)⟩
    | claimed hfault hr _ hclaims hmoved =>
        subst hfault hr
        refine ⟨_, hmoved, ?_⟩
        intro hunheld
        rcases exists_row_of_claims (M := M) hclaims with ⟨row, hok, hid⟩
        exact absurd hid
          (hunheld pid _ ⟨_, holds_of_claim hd hp hrest hok, rfl⟩)
    | reaped hfault hr hreapable hmoved =>
        refine ⟨_, hmoved, ?_⟩
        intro hunheld
        exact hR.reaped (hidle (unheld_of_stepped hunheld hp hheld)) hreapable
    | marked error hfailed hunheld hmoved =>
        exact ⟨_, hmoved, fun _ => hR.marked (hidle hunheld) hfailed⟩

theorem job_new_step (hd : Owned R M d) (hp : d.processes.lookup pid = some p)
    (hrest : p.rest = .call r next) {id : Nat} {job : Job}
    (hnone : d.world.db.jobs.lookup id = none)
    (hjob : (d.world.answer M fault r).2.db.jobs.lookup id = some job) :
    exists key document contents,
      job = .enqueued d.world.now job.documentId key (storageKey key) ∧
      d.world.db.documents.lookup job.documentId = some document ∧
      document.status = .processing ∧
      (forall id' job', d.world.db.jobs.lookup id' = some job' ->
        job'.documentId ≠ job.documentId) ∧
      Shows (d.world.answer M fault r).2 (job.toRow id)
        { document := document
          chunks := (d.world.answer M fault r).2.db.chunksOf job.documentId
          job := job
          blob := contents } := by
  cases fault with
  | some e =>
      rw [World.answer_some, hnone] at hjob
      cases hjob
  | none =>
      rw [World.answer_none] at hjob ⊢
      rcases World.exec_job_new hnone hjob with
        ⟨documentId, key, pdfPath, hr, _, _, hnew⟩
      subst hr hnew
      cases acts_of_processInv (hd.process hp) hrest with
      | own _ _ hown => exact hown.elim
      | @upload userId hex file v r _ _ _ hupload hreq =>
          rcases hreq with ⟨hkey, hpath, hv⟩
          subst hkey hpath hv
          rcases hupload with
            ⟨⟨document, hdocument, hname, hstatus⟩, hjobs, hblob⟩
          refine ⟨docKey userId hex, document, file.contents, rfl, hdocument,
            hstatus, hjobs, ?_⟩
          exact ⟨World.exec_document hdocument _, hname, rfl, hjob, rfl,
            (World.exec_blob _ _).trans hblob⟩

theorem columns_of_answer {w : World} {id : Nat} {old job : Job}
    (hold : w.db.jobs.lookup id = some old)
    (hjob : (w.answer M fault r).2.db.jobs.lookup id = some job) :
    job.documentId = old.documentId ∧ job.docKey = old.docKey ∧
      job.pdfPath = old.pdfPath := by
  cases fault with
  | some e =>
      rw [World.answer_some, hold] at hjob
      cases hjob
      exact ⟨rfl, rfl, rfl⟩
  | none =>
      rw [World.answer_none, World.exec_job hold] at hjob
      exact World.columns_of_jobAfter hjob

theorem failed_step (hd : Owned R M d) (hp : d.processes.lookup pid = some p)
    (hrest : p.rest = .call r next) {id : Nat} {old job : Job}
    (hold : d.world.db.jobs.lookup id = some old)
    (hfailed : old.status = .failed) (hunheld : Unheld d id)
    (hjob : (d.world.answer M fault r).2.db.jobs.lookup id = some job) :
    job.status = .failed ∧ Unheld (stepped M d pid fault p r next) id := by
  have hown : forall l, p.lease = some l -> l.job.id ≠ id :=
    fun l hlease => hunheld pid l ⟨p, hp, hlease⟩
  rcases hd.slice hold with ⟨s, hshows, _⟩
  have hs := hshows.job.symm.trans hold
  cases hs
  have hnot : ¬ (s.job.claimable d.world.now = true ∨
      s.job.reapable d.world.now = true) := by
    intro hcases
    rcases hcases with h | h
    · rcases (of_decide_eq_true h).left with hqueued | ⟨hprocessing, _⟩
      · rw [hfailed] at hqueued
        cases hqueued
      · rw [hfailed] at hprocessing
        cases hprocessing
    · have hprocessing := (of_decide_eq_true h).left
      rw [hfailed] at hprocessing
      cases hprocessing
  constructor
  · have hacts := acts_of_processInv (hd.process hp) hrest
    cases slice_move fault hd hacts hold hshows hown with
    | kept hmoved =>
        have heq := hmoved.job.symm.trans hjob
        cases heq
        exact hfailed
    | claimed _ _ hclaimable _ _ => exact absurd (.inl hclaimable) hnot
    | reaped _ _ hreapable _ => exact absurd (.inr hreapable) hnot
    | marked error _ _ hmoved =>
        have heq := hmoved.job.symm.trans hjob
        cases heq
        exact hfailed
  · intro pid' l hl hid
    have hacted := acted_of_act (act_stepped M fault hp hrest)
    rcases holds_of_acted hacted hl with hbefore | ⟨_, _, hok, _, _⟩
    · exact hunheld pid' l hbefore hid
    · rcases World.row_of_claim hok with ⟨job', hjob', hclaimable, _⟩
      rw [hid, hold] at hjob'
      cases hjob'
      exact hnot (.inl hclaimable)

theorem doomed_step (hR : R.Keeps M) (hd : Owned R M d)
    (horderly : Orderly R M d (.step pid fault))
    (hp : d.processes.lookup pid = some p) (hrest : p.rest = .call r next)
    {documentId : Nat} (h : Doomed d documentId) :
    Doomed (stepped M d pid fault p r next) documentId := by
  have hold : forall {id job},
      (d.world.answer M fault r).2.db.jobs.lookup id = some job ->
        job.documentId = documentId ->
          exists old, d.world.db.jobs.lookup id = some old ∧
            old.documentId = documentId := by
    intro id job hjob hdocument
    cases hlookup : d.world.db.jobs.lookup id with
    | none =>
        rcases job_new_step hd hp hrest hlookup hjob with
          ⟨_, _, _, _, _, _, hjobs, _⟩
        rcases h.job with ⟨id', job', hjob', hdocument'⟩
        exact absurd (hdocument'.trans hdocument.symm) (hjobs id' job' hjob')
    | some old =>
        refine ⟨old, rfl, ?_⟩
        rw [← (columns_of_answer hlookup hjob).left]
        exact hdocument
  constructor
  · rcases h.job with ⟨id, job, hjob, hdocument⟩
    rcases slice_step hR hd horderly hp hrest hjob with ⟨s, hs, _⟩
    exact ⟨id, s.job, hs.job, hs.documentId.trans hdocument⟩
  · intro id job hjob hdocument
    rcases hold hjob hdocument with ⟨old, hlookup, hdocument'⟩
    exact (failed_step hd hp hrest hlookup (h.failed hlookup hdocument')
      (fun _ _ hl => h.unheld hlookup hdocument' hl) hjob).left
  · intro id job pid' l hjob hdocument hl
    rcases hold hjob hdocument with ⟨old, hlookup, hdocument'⟩
    exact (failed_step hd hp hrest hlookup (h.failed hlookup hdocument')
      (fun _ _ hl => h.unheld hlookup hdocument' hl) hjob).right pid' l hl

theorem working_step_ne (hd : Owned R M d)
    (horderly : Orderly R M d (.step pid fault))
    (hp : d.processes.lookup pid = some p) (hrest : p.rest = .call r next)
    {pid' : Nat} {q : Process} {l : Lease} (hne : pid' ≠ pid)
    (hq : d.processes.lookup pid' = some q) (hlease : q.lease = some l)
    (h : Working R M d.world q.rest l) :
    Working R M (d.world.answer M fault r).2 q.rest l := by
  rcases h with ⟨s, now, t, hidle, hclaimable, hexpires, hshows, hsafe⟩
  have hl : Holds d pid' l := ⟨q, hq, hlease⟩
  have hother : forall l', p.lease = some l' -> l'.job.id ≠ l.job.id := by
    intro l' hlease' hid
    exact hne (hd.sole hl ⟨p, hp, hlease'⟩ hid.symm)
  have hjob := hshows.job
  have hrow := (shows_lease_iff hd.leased hl hjob).mp hshows
  have hacts := acts_of_processInv (hd.process hp) hrest
  refine ⟨s, now, t, hidle, hclaimable, hexpires, ?_, hsafe⟩
  apply (shows_lease_iff hd.leased hl hjob).mpr
  cases slice_move fault hd hacts hjob hrow hother with
  | kept hmoved => exact hmoved
  | claimed hfault hr _ hclaims _ =>
      subst hfault hr
      rcases exists_row_of_claims (M := M) hclaims with ⟨row, hok, hid⟩
      refine absurd hid.symm (horderly.claimed row ?_ pid' l hl)
      unfold returned
      rw [event_step hp hrest]
      exact congrArg (fun answer => Option.bind
        (some (⟨.claimJob, answer⟩ : Event service)) returnedRow) hok
  | reaped hfault hr hreapable _ =>
      subst hfault hr
      have hnot := horderly.reaped (event_step hp hrest) hl hjob
      rw [hreapable] at hnot
      cases hnot
  | marked error _ hunheld _ => exact absurd rfl (hunheld pid' l hl)

theorem uploadShows_step_ne (hd : Owned R M d)
    (hp : d.processes.lookup pid = some p) (hrest : p.rest = .call r next)
    {pid' : Nat} {q : Process} {userId : Nat} {hex : String}
    {file : UploadFile} {v : UploadView} (hne : pid' ≠ pid)
    (hq : d.processes.lookup pid' = some q)
    (hactivity : q.activity = .upload userId hex file)
    (h : UploadShows d.world (docKey userId hex) file.contents v) :
    UploadShows (d.world.answer M fault r).2 (docKey userId hex)
      file.contents v := by
  cases fault with
  | some e => exact h
  | none =>
      by_cases hv : v = .enqueued
      · subst hv
        exact True.intro
      rw [World.answer_none]
      apply uploadShows_foreign h
      cases acts_of_processInv (hd.process hp) hrest with
      | own _ hshows hown => exact uploadForeign_of_own h hv hshows hown
      | claim _ => exact True.intro
      | reap _ => exact True.intro
      | mark _ hdoomed =>
          intro document hdocument
          rcases hdoomed.job with ⟨id, job, hjob, hid⟩
          rw [← hid] at hdocument
          exact docName_ne_of_job h hv hjob hdocument
      | upload _ hactivity' _ hupload hreq =>
          apply uploadForeign_of_upload hupload hreq
          intro hkey
          exact hne (hd.uploads hq hp hactivity hactivity' hkey.symm)

end Steps

end Deployment
end ChatDoc
