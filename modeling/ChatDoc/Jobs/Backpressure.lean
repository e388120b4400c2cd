import ChatDoc.Service.Deployment
import ChatDoc.Service.Effects
import ChatDoc.Service.Origins
import Mathlib.Data.Finset.Card

/-!
# Backpressure

An upload reads the depth of the queue and inserts its job several calls later.
The depth also grows when a late `fail_job` puts a job back that is done or failed
by then.  It stays within its bound exactly in the runs where each of these steps
still finds room.
-/

namespace ChatDoc

open Foundation

def Job.Counted (job : Job) : Prop := job.status = .queued ∨ job.status = .processing

instance (job : Job) : Decidable job.Counted := inferInstanceAs (Decidable (_ ∨ _))

namespace Database

variable {db : Database}

def countedIds (db : Database) : Finset Nat :=
  ((db.jobs.rows.filter fun entry => entry.2.Counted).map Prod.fst).toFinset

theorem mem_countedIds {id : Nat} :
    id ∈ db.countedIds <-> exists job, db.jobs.lookup id = some job ∧ job.Counted := by
  unfold countedIds
  rw [List.mem_toFinset, List.mem_map]
  constructor
  · intro hall
    rcases hall with ⟨⟨id', job⟩, hentry, rfl⟩
    rcases List.mem_filter.mp hentry with ⟨hrow, hcounted⟩
    exact ⟨job, SerialTable.lookup_eq_some_iff.mpr hrow, of_decide_eq_true hcounted⟩
  · intro hall
    rcases hall with ⟨job, hjob, hcounted⟩
    exact ⟨(id, job), List.mem_filter.mpr ⟨SerialTable.lookup_eq_some_iff.mp hjob,
      decide_eq_true hcounted⟩, rfl⟩

theorem queueDepth_eq_card (db : Database) : db.queueDepth = db.countedIds.card := by
  have hnodup : ((db.jobs.rows.filter fun entry => entry.2.Counted).map
      Prod.fst).Nodup :=
    db.jobs.nodup.sublist (List.filter_sublist.map Prod.fst)
  unfold countedIds
  rw [List.toFinset_card_of_nodup hnodup, List.length_map]
  unfold queueDepth SerialTable.select
  rw [List.filter_map, List.length_map]
  rfl

theorem enqueueJob_of_document {now : Time} {documentId : Nat} {docKey pdfPath : String}
    (h : (db.documents.lookup documentId).isSome) :
    db.enqueueJob now documentId docKey pdfPath =
      (.ok db.jobs.next, db.insertJob (.enqueued now documentId docKey pdfPath) h) :=
  dif_pos h

end Database

namespace World

variable {M : EmbeddingModel} {w : World}

def Enters (w : World) : Request -> Prop
  | .enqueueJob documentId _ _ => (w.db.documents.lookup documentId).isSome
  | .requeueJob jobId _ =>
      exists job, w.db.jobs.lookup jobId = some job ∧ ¬ job.Counted
  | _ => False

theorem counted_of_jobAfter {id : Nat} {job job' : Job} {r : Request}
    (hjob : w.db.jobs.lookup id = some job) (hr : ¬ w.Enters r)
    (hafter : w.jobAfter id job r = some job') (hcounted : job'.Counted) :
    job.Counted := by
  cases r with
  | claimJob =>
      cases hafter
      split at hcounted
      next hcandidate =>
        rcases Option.map_eq_some_iff.mp hcandidate with ⟨entry, hentry, rfl⟩
        rcases lookup_claimCandidate hentry with ⟨hlookup, hclaimable⟩
        rw [hjob] at hlookup
        cases hlookup
        rcases of_decide_eq_true hclaimable with ⟨hqueued | ⟨hprocessing, _⟩, _⟩
        · exact .inl hqueued
        · exact .inr hprocessing
      next => exact hcounted
  | reapExhaustedJobs =>
      cases hafter
      split at hcounted
      next => rcases hcounted with hstatus | hstatus <;> cases hstatus
      next => exact hcounted
  | completeJob jobId =>
      cases hafter
      split at hcounted
      next => rcases hcounted with hstatus | hstatus <;> cases hstatus
      next => exact hcounted
  | requeueJob jobId error =>
      cases hafter
      split at hcounted
      next hid =>
        by_contra hnot
        exact hr ⟨job, hid ▸ hjob, hnot⟩
      next => exact hcounted
  | deadLetterJob jobId error =>
      cases hafter
      split at hcounted
      next => rcases hcounted with hstatus | hstatus <;> cases hstatus
      next => exact hcounted
  | deleteDocument userId documentId =>
      cases (Option.ite_none_left_eq_some.mp hafter).right
      exact hcounted
  | _ =>
      cases hafter
      exact hcounted

theorem queueDepth_exec_le {r : Request} (hr : ¬ w.Enters r) :
    (w.exec M r).2.db.queueDepth ≤ w.db.queueDepth := by
  rw [Database.queueDepth_eq_card, Database.queueDepth_eq_card]
  apply Finset.card_le_card
  intro id hid
  rcases Database.mem_countedIds.mp hid with ⟨job', hjob', hcounted⟩
  rcases hjob : w.db.jobs.lookup id with _ | job
  · rcases exec_job_new hjob hjob' with ⟨documentId, docKey, pdfPath, rfl, _, hsome, _⟩
    exact absurd hsome hr
  · rw [exec_job hjob] at hjob'
    exact Database.mem_countedIds.mpr
      ⟨job, hjob, counted_of_jobAfter hjob hr hjob' hcounted⟩

def entering (w : World) : Request -> Nat
  | .requeueJob jobId _ => jobId
  | _ => w.db.jobs.next

theorem countedIds_exec {r : Request} (hr : w.Enters r) :
    w.entering r ∉ w.db.countedIds ∧
      (w.exec M r).2.db.countedIds = insert (w.entering r) w.db.countedIds := by
  cases r with
  | enqueueJob documentId docKey pdfPath =>
      have hjobs : (w.exec M (.enqueueJob documentId docKey pdfPath)).2.db.jobs =
          w.db.jobs.insert (.enqueued w.now documentId docKey pdfPath) := by
        show (w.db.enqueueJob _ _ _ _).2.jobs = _
        rw [Database.enqueueJob_of_document hr]
        rfl
      have hkey : w.entering (.enqueueJob documentId docKey pdfPath) = w.db.jobs.next :=
        rfl
      rw [hkey]
      constructor
      · intro hin
        rcases Database.mem_countedIds.mp hin with ⟨job, hjob, _⟩
        rw [SerialTable.lookup_next] at hjob
        cases hjob
      · ext id
        rw [Finset.mem_insert, Database.mem_countedIds, Database.mem_countedIds, hjobs,
          SerialTable.lookup_insert]
        by_cases hid : id = w.db.jobs.next
        · rw [if_pos hid]
          exact iff_of_true ⟨_, rfl, .inl rfl⟩ (.inl hid)
        · rw [if_neg hid]
          simp [hid]
  | requeueJob jobId error =>
      rcases hr with ⟨job, hjob, hnot⟩
      constructor
      · intro hin
        rcases Database.mem_countedIds.mp hin with ⟨job', hjob', hcounted⟩
        rw [entering, hjob] at hjob'
        cases hjob'
        exact hnot hcounted
      · ext id
        rw [Finset.mem_insert, Database.mem_countedIds, Database.mem_countedIds]
        by_cases hid : id = jobId
        · subst hid
          have hafter := exec_job (M := M) hjob (.requeueJob id error)
          rw [jobAfter, if_pos rfl] at hafter
          exact iff_of_true ⟨_, hafter, .inl rfl⟩ (.inl rfl)
        · have hsame : (w.exec M (.requeueJob jobId error)).2.db.jobs.lookup id =
              w.db.jobs.lookup id := by
            show (w.db.requeueJob _ _ _).jobs.lookup id = _
            unfold Database.requeueJob
            rw [lookup_updateJob]
            simp [hid]
          rw [hsame]
          simp [entering, hid]
  | _ => cases hr

theorem queueDepth_exec_enters {r : Request} (hr : w.Enters r) :
    (w.exec M r).2.db.queueDepth = w.db.queueDepth + 1 := by
  rcases countedIds_exec (M := M) hr with ⟨hnew, hids⟩
  rw [Database.queueDepth_eq_card, Database.queueDepth_eq_card, hids,
    Finset.card_insert_of_notMem hnew]

/-- A call keeps the queue within its bound exactly if it adds no job to a full
one. -/
theorem queueDepth_exec_le_iff (h : w.db.queueDepth ≤ maxQueueDepth) (r : Request) :
    (w.exec M r).2.db.queueDepth ≤ maxQueueDepth <->
      (w.Enters r -> w.db.queueDepth < maxQueueDepth) := by
  by_cases hr : w.Enters r
  · rw [queueDepth_exec_enters hr, Nat.add_one_le_iff]
    constructor
    · intro hroom _
      exact hroom
    · intro hroom
      exact hroom hr
  · apply iff_of_true ((queueDepth_exec_le hr).trans h)
    intro henters
    exact absurd henters hr

end World

namespace Deployment

variable {M : EmbeddingModel} {d d' : Deployment}

/-- A step that adds a job to the queue finds the room that the depth check of an
upload asks for. -/
def EntersWithRoom (M : EmbeddingModel) (d : Deployment) (a : Action) : Prop :=
  forall r answer, event M d a = some ⟨r, .ok answer⟩ -> d.world.Enters r ->
    d.world.db.queueDepth < maxQueueDepth

/-- The queue is no longer than `MAX_QUEUE_DEPTH`. -/
def WithinDepth (d : Deployment) : Prop := d.world.db.queueDepth ≤ maxQueueDepth

theorem exec_ok_of_enters {w : World} {r : Request} (h : w.Enters r) :
    exists answer, (w.exec M r).1 = .ok answer := by
  cases r with
  | enqueueJob documentId docKey pdfPath =>
      refine ⟨w.db.jobs.next, ?_⟩
      show (w.db.enqueueJob _ _ _ _).1 = _
      rw [Database.enqueueJob_of_document h]
  | requeueJob jobId error => exact ⟨(), rfl⟩
  | _ => cases h

theorem withinDepth_step {a : Action} (h : d.WithinDepth)
    (hact : act M d a = some d') : d'.WithinDepth <-> EntersWithRoom M d a := by
  unfold WithinDepth EntersWithRoom
  rcases world_of_acted (acted_of_act hact) with
    ⟨hdb, _, _, hraise⟩ | ⟨_, r, _, hevent, hworld⟩
  · rw [hdb]
    apply iff_of_true h
    intro r answer hevent
    rcases hraise _ _ hevent with ⟨e, he⟩
    cases he
  · rw [hworld, World.queueDepth_exec_le_iff h, hevent]
    constructor
    · intro hroom r' answer heq henters
      generalize (d.world.exec M r).1 = reply at heq
      cases heq
      exact hroom henters
    · intro hroom henters
      rcases exec_ok_of_enters (M := M) henters with ⟨answer, hanswer⟩
      exact hroom r answer (by rw [hanswer]) henters

theorem withinDepth_init : init.WithinDepth := Nat.zero_le _

/-- In every state of a run the queue is within its bound exactly when no step of
the run adds a job to a full queue. -/
theorem withinDepth_iff_entersWithRoom {trace : List (Deployment × Action)}
    (hrun : Run (act M) init trace d) :
    (EachStep (fun d _ => d.WithinDepth) trace ∧ d.WithinDepth) <->
      EachStep (EntersWithRoom M) trace :=
  hrun.always_iff withinDepth_init fun _ _ _ _ _ h _ hact => withinDepth_step h hact

/-!
# Uploads that nobody comes between

An upload has found room when it inserts its job.  So the queue can only be overfilled by a
job that enters it between the two, or by a late `fail_job`.
-/

def Entering (M : EmbeddingModel) (d : Deployment) (a : Action) : Prop :=
  exists r answer, event M d a = some ⟨r, .ok answer⟩ ∧ d.world.Enters r

/-- No job enters the queue between the depth check of an upload and its insert. -/
def UploadsAlone (M : EmbeddingModel) (trace : List (Deployment × Action)) : Prop :=
  forall before check mid insert after pid depth documentId docKey pdfPath answer,
    trace = before ++ check :: (mid ++ insert :: after) ->
      check.2 = .step pid none ->
        event M check.1 check.2 = some ⟨.queueDepth, .ok depth⟩ ->
          insert.2 = .step pid none ->
            event M insert.1 insert.2 = some ⟨.enqueueJob documentId docKey pdfPath, answer⟩ ->
              (forall step, step ∈ mid -> forall activity, step.2 ≠ .spawn pid activity) ->
                forall step, step ∈ mid -> ¬ Entering M step.1 step.2

/-- `fail_job` does not put back a job that is done or failed by then. -/
def NoLateRequeue (M : EmbeddingModel) (d : Deployment) (a : Action) : Prop :=
  forall jobId error answer, event M d a = some ⟨.requeueJob jobId error, .ok answer⟩ ->
    forall job, d.world.db.jobs.lookup jobId = some job -> job.Counted

def FoundRoom (M : EmbeddingModel) (trace : List (Deployment × Action)) (pid : Nat) : Prop :=
  exists before check mid depth, trace = before ++ check :: mid ∧
    check.2 = .step pid none ∧ event M check.1 check.2 = some ⟨.queueDepth, .ok depth⟩ ∧
      depth < maxQueueDepth ∧
        forall step, step ∈ mid -> forall activity, step.2 ≠ .spawn pid activity

section Room

variable {trace : List (Deployment × Action)} {pid : Nat} {a : Action}

theorem FoundRoom.snoc (h : FoundRoom M trace pid)
    (hspawn : forall activity, a ≠ .spawn pid activity) :
    FoundRoom M (trace ++ [(d, a)]) pid := by
  rcases h with ⟨before, check, mid, depth, rfl, hstep, hevent, hroom, hmid⟩
  refine ⟨before, check, mid ++ [(d, a)], depth, ?_, hstep, hevent, hroom, ?_⟩
  · rw [List.append_assoc, List.cons_append]
  · intro step hin
    rcases List.mem_append.mp hin with hold | hnew
    · exact hmid step hold
    · rw [List.mem_singleton.mp hnew]
      exact hspawn

def ChecksFirst : Proc Unit -> Prop
  | .call .queueDepth next =>
      (forall e, (next (.error e)).Ended) ∧
        forall depth, maxQueueDepth ≤ depth -> (next (.ok depth)).Ended
  | .call _ _ => False
  | _ => True

theorem upload_checksFirst (userId : Nat) (hex : String) (file : UploadFile) :
    ChecksFirst (Activity.upload userId hex file).program := by
  show ChecksFirst (uploadDoc userId hex file >>= fun _ => pure ())
  unfold uploadDoc
  split
  · exact True.intro
  · refine And.intro (fun e => True.intro) ?_
    intro depth hfull
    have hraises (more : Proc Document) :
        ((if depth ≥ maxQueueDepth then
          Program.raise (Exn.http 429 "ingest queue is full, try again shortly")
          else more) >>= fun _ => (pure () : Proc Unit)).Ended := by
      rw [if_pos hfull]
      exact True.intro
    exact hraises _

theorem ended_resume {processes : AList fun _ : Nat => Process} {p q : Process}
    (h : (resume processes pid p).lookup pid = some q) : ¬ p.rest.Ended := by
  intro hended
  unfold resume at h
  rw [if_pos hended, AList.lookup_erase] at h
  cases h

theorem looked_of_run (hrun : Run (act M) init trace d) {p : Process}
    (hp : d.processes.lookup pid = some p) {u : Upload} (hu : p.activity.uploading = some u) :
    p.rest = p.activity.program ∨ FoundRoom M trace pid := by
  induction hrun generalizing p with
  | nil => cases hp
  | @snoc trace s s' a _ hact ih =>
      cases acted_of_act hact with
      | @spawn pid' activity hfree hfresh =>
          rcases lookup_spawn hp with ⟨_, hstart⟩ | ⟨hne, hold⟩
          · left
            rw [hstart]
            rfl
          · refine (ih hold hu).imp_right fun hroom => hroom.snoc ?_
            rintro _ heq
            cases heq
            exact hne rfl
      | @step pid' fault old r next hold hrest =>
          rcases lookup_resume hp with ⟨hpid, hq⟩ | ⟨_, hother⟩
          · subst hpid
            rw [hq] at hu
            right
            rcases ih hold hu with hprogram | hroom
            · have hchecks : ChecksFirst (.call r next) := by
                rw [← hrest, hprogram]
                cases hactivity : old.activity with
                | upload userId hex file => exact upload_checksFirst userId hex file
                | _ =>
                    dsimp only at hu
                    rw [hactivity] at hu
                    cases hu
              have hended := ended_resume hp
              have hevent : event M s (.step pid fault) =
                  some ⟨r, (s.world.answer M fault r).1⟩ := event_step hold hrest
              dsimp only at hended
              cases r with
              | queueDepth =>
                  cases fault with
                  | some e => exact absurd (hchecks.left e) hended
                  | none =>
                      refine ⟨trace, _, [], _, rfl, rfl, hevent, ?_, List.forall_mem_nil _⟩
                      by_contra hfull
                      exact hended (hchecks.right _ (Nat.le_of_not_lt hfull))
              | _ => exact hchecks.elim
            · exact hroom.snoc nofun
          · exact (ih hother hu).imp_right fun hroom => hroom.snoc nofun
      | crash =>
          exact (ih (lookup_erase hp).right hu).imp_right fun hroom => hroom.snoc nofun
      | tick => exact (ih hp hu).imp_right fun hroom => hroom.snoc nofun

theorem queueDepth_step (hact : act M d a = some d') (h : ¬ Entering M d a) :
    d'.world.db.queueDepth ≤ d.world.db.queueDepth := by
  rcases world_of_acted (acted_of_act hact) with ⟨hdb, _⟩ | ⟨_, r, _, hevent, hworld⟩
  · rw [hdb]
  · rw [hworld]
    apply World.queueDepth_exec_le
    intro henters
    rcases exec_ok_of_enters (M := M) henters with ⟨answer, hanswer⟩
    exact h ⟨r, answer, by rw [hevent, hanswer], henters⟩

theorem queueDepth_run (hrun : Run (act M) d trace d')
    (h : EachStep (fun d a => ¬ Entering M d a) trace) :
    d'.world.db.queueDepth ≤ d.world.db.queueDepth := by
  induction hrun with
  | nil => exact Nat.le_refl _
  | snoc _ hact ih =>
      rcases eachStep_snoc.mp h with ⟨htrace, hlast⟩
      exact (queueDepth_step hact hlast).trans (ih htrace)

/-- What a depth check has read bounds the queue until a job enters it. -/
theorem queueDepth_since {check : Deployment × Action} {mid : List (Deployment × Action)}
    {depth : Nat} (hrun : Run (act M) check.1 (check :: mid) d)
    (hevent : event M check.1 check.2 = some ⟨.queueDepth, .ok depth⟩)
    (hmid : EachStep (fun d a => ¬ Entering M d a) mid) :
    d.world.db.queueDepth ≤ depth := by
  rcases check with ⟨d1, a1⟩
  rcases hrun.uncons with ⟨_, d2, hact, hafter⟩
  have hread : d1.world.db.queueDepth = depth := by
    rcases world_of_acted (acted_of_act hact) with ⟨_, _, _, hraise⟩ | ⟨_, r, _, hcall, _⟩
    · rcases hraise _ _ hevent with ⟨e, he⟩
      cases he
    · rw [hevent] at hcall
      cases hcall
      rfl
  have hcheck : ¬ Entering M d1 a1 := by
    rintro ⟨r, answer, hcall, henters⟩
    rw [hevent] at hcall
    cases hcall
    exact henters
  calc d.world.db.queueDepth
      ≤ d2.world.db.queueDepth := queueDepth_run hafter hmid
    _ ≤ d1.world.db.queueDepth := queueDepth_step hact hcheck
    _ = depth := hread

theorem uploading_of_enqueue (hrun : Run (act M) init trace d) {fault : Option Exn}
    {documentId : Nat} {docKey pdfPath : String} {answer : Except Exn Nat}
    (hevent : event M d (.step pid fault) = some ⟨.enqueueJob documentId docKey pdfPath, answer⟩) :
    exists p u, d.processes.lookup pid = some p ∧ p.activity.uploading = some u ∧
      p.rest ≠ p.activity.program := by
  rcases Option.bind_eq_some_iff.mp hevent with ⟨p, hp, hcall⟩
  rcases (honest_run hrun).processes hp with ⟨_, v, hsafe, _⟩
  cases hrest : p.rest with
  | ret a =>
      rw [hrest] at hcall
      cases hcall
  | raise e =>
      rw [hrest] at hcall
      cases hcall
  | call r next =>
      rw [hrest] at hcall hsafe
      cases hcall
      rcases hsafe.left with ⟨u, hu, _⟩
      refine ⟨p, u, hp, hu, ?_⟩
      intro hprogram
      rw [hprogram] at hrest
      cases hactivity : p.activity with
      | upload userId hex file =>
          have hchecks := upload_checksFirst userId hex file
          rw [← hactivity, hrest] at hchecks
          exact hchecks
      | _ =>
          rw [hactivity] at hu
          cases hu

/-- Where no job enters between the depth check and the insert of an upload, and no late
`fail_job` puts one back, the queue stays within its bound. -/
theorem withinDepth_of_uploadsAlone (hrun : Run (act M) init trace d)
    (halone : UploadsAlone M trace) (hrequeue : EachStep (NoLateRequeue M) trace) :
    EachStep (fun d _ => d.WithinDepth) trace ∧ d.WithinDepth := by
  have hroom : EachStep (EntersWithRoom M) trace := by
    rintro ⟨d1, a1⟩ hstep r answer hevent henters
    rcases List.mem_iff_append.mp hstep with ⟨before, after, htrace⟩
    subst htrace
    rcases hrun.split with ⟨d2, hbefore, hrest⟩
    rcases hrest.uncons with ⟨rfl, _, hact, _⟩
    cases r with
    | requeueJob jobId error =>
        rcases henters with ⟨job, hjob, hnot⟩
        exact absurd (hrequeue _ hstep jobId error answer hevent job hjob) hnot
    | enqueueJob documentId docKey pdfPath =>
        rcases world_of_acted (acted_of_act hact) with ⟨_, _, _, hraise⟩ | ⟨pid, _, rfl, _, _⟩
        · rcases hraise _ _ hevent with ⟨e, he⟩
          cases he
        rcases uploading_of_enqueue hbefore hevent with ⟨p, u, hp, hu, hlater⟩
        rcases (looked_of_run hbefore hp hu).resolve_left hlater with
          ⟨earlier, check, mid, depth, rfl, hcheck, hread, hlt, hspawn⟩
        have hnone := halone earlier check mid _ after pid depth documentId docKey pdfPath _
          (by rw [List.append_assoc, List.cons_append]) hcheck hread rfl hevent hspawn
        rcases hbefore.split with ⟨_, _, hsince⟩
        rcases check with ⟨d3, a3⟩
        rcases hsince.uncons with ⟨rfl, _⟩
        exact Nat.lt_of_le_of_lt (queueDepth_since hsince hread hnone) hlt
    | _ => exact henters.elim
  exact (hrun.always_iff withinDepth_init
    fun _ _ _ _ _ h _ hact => withinDepth_step h hact).mpr hroom

end Room

/-!
# Uploads side by side
-/

/-- One upload more than the queue has room for; each reads the depth before any of
them inserts its job. -/
def crowd : List Action :=
  (List.range (maxQueueDepth + 1)).flatMap (fun pid =>
    .spawn pid (.upload 1 (toString pid) onePage) :: answered pid 1) ++
    (List.range (maxQueueDepth + 1)).flatMap fun pid => answered pid 4

def endsOverfull (d : Deployment) : Bool := maxQueueDepth < d.world.db.queueDepth

theorem exists_run_crowd :
    exists trace d, Run (act lengthModel) init trace d ∧ endsOverfull d = true := by
  have hfollow : (follow (act lengthModel) init crowd).any
      (fun out => endsOverfull out.2) = true := by
    decide +kernel
  exact exists_run_of_follow (fun _ d => endsOverfull d) hfollow

theorem crowd_overfills :
    ¬ forall trace d, Run (act lengthModel) init trace d -> d.WithinDepth := by
  intro hclaim
  rcases exists_run_crowd with ⟨trace, d, hrun, hover⟩
  exact absurd (hclaim trace d hrun) (Nat.not_le.mpr (of_decide_eq_true hover))

theorem withinDepth_iff_entersWithRoom_crowd :
    exists trace d, Run (act lengthModel) init trace d ∧ endsOverfull d = true ∧
      ((EachStep (fun d _ => d.WithinDepth) trace ∧ d.WithinDepth) <->
        EachStep (EntersWithRoom lengthModel) trace) := by
  rcases exists_run_crowd with ⟨trace, d, hrun, hover⟩
  exact ⟨trace, d, hrun, hover, withinDepth_iff_entersWithRoom hrun⟩

end Deployment
end ChatDoc
