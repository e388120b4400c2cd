import ChatDoc.Jobs.Ownership

/-!
# Orderly runs

Every orderly step keeps the owners of the jobs.
-/

namespace ChatDoc

open Foundation
open Foundation.Program

namespace Deployment

section Steps

variable {R : Regime} {M : EmbeddingModel} {d d' : Deployment} {pid : Nat}
  {fault : Option Exn} {p : Process} {r : Request}
  {next : Except Exn (Reply r) -> Proc Unit}

/-!
# The process that made the call
-/

theorem unheld_of_claim (horderly : Orderly R M d (.step pid fault))
    {row : JobRow}
    (hevent : event M d (.step pid fault) = some ⟨.claimJob, .ok (some row)⟩) :
    Unheld d row.id := by
  apply horderly.claimed row
  unfold returned
  rw [hevent]
  rfl

theorem working_of_claim (hR : R.Keeps M) (hd : Owned R M d)
    (horderly : Orderly R M d (.step pid none)) {row : JobRow}
    (hevent : event M d (.step pid none) = some ⟨.claimJob, .ok (some row)⟩)
    (hok : (d.world.exec M .claimJob).1 = .ok (some row)) :
    Working R M (d.world.exec M .claimJob).2 (processJob row)
      { job := row
        expires := d.world.now + seconds visibilityTimeoutS } := by
  rcases World.row_of_claim hok with ⟨job, hjob, hclaimable, hrow, hclaims⟩
  rcases hd.slice hjob with ⟨s, hshows, hidle⟩
  have heq := hshows.job.symm.trans hjob
  cases heq
  have hmoved := shows_claim (M := M) hshows
  rw [show (s.job.toRow row.id).id = row.id from rfl, if_pos hclaims] at hmoved
  have hcolumns : row.documentId = s.job.documentId ∧
      row.docKey = s.job.docKey ∧ row.pdfPath = s.job.pdfPath := by
    rw [hrow]
    exact ⟨rfl, rfl, rfl⟩
  have hshows' : Shows (d.world.exec M .claimJob).2 row
      (s.claimed d.world.now) :=
    shows_row hmoved rfl hcolumns.left hcolumns.right.left hcolumns.right.right
  exact ⟨s, d.world.now, s.claimed d.world.now,
    hidle (unheld_of_claim horderly hevent), hclaimable, rfl, hshows',
    Attempt.processJob_safe (hR.sound row (s.claimed d.world.now))⟩

theorem doomed_of_reaped (hd : Owned R M d)
    (horderly : Orderly R M d (.step pid none))
    (hp : d.processes.lookup pid = some p)
    {next : Except Exn (List Nat) -> Proc Unit}
    (hrest : p.rest = .call .reapExhaustedJobs next) {documentId : Nat}
    (hrow : documentId ∈ (d.world.db.reapExhaustedJobs d.world.now).1) :
    Doomed (stepped M d pid none p .reapExhaustedJobs next) documentId := by
  rcases List.mem_map.mp hrow with ⟨job, hselect, hdocument⟩
  rcases SerialTable.mem_select.mp hselect with ⟨id, hjob, hreapable⟩
  have hafter : forall {i : Nat} {j : Job},
      d.world.db.jobs.lookup i = some j ->
        (d.world.exec M .reapExhaustedJobs).2.db.jobs.lookup i =
          some (if j.reapable d.world.now then j.reaped else j) :=
    fun h => World.exec_job h _
  have hbefore : forall {i : Nat} {j : Job},
      (d.world.exec M .reapExhaustedJobs).2.db.jobs.lookup i = some j ->
        j.documentId = documentId -> i = id := by
    intro i j hj hdoc
    cases hold : d.world.db.jobs.lookup i with
    | none =>
        rcases World.exec_job_new hold hj with ⟨_, _, _, hr, _⟩
        cases hr
    | some old =>
        rw [World.exec_job hold] at hj
        have hcolumn := (World.columns_of_jobAfter hj).left
        exact hd.single hold hjob (by rw [← hcolumn, hdoc, hdocument])
  constructor
  · refine ⟨id, job.reaped, ?_, hdocument⟩
    show (d.world.exec M .reapExhaustedJobs).2.db.jobs.lookup id = _
    rw [hafter hjob, if_pos hreapable]
  · intro i j hj hdoc
    have hid := hbefore hj hdoc
    subst hid
    have heq := (hafter hjob).symm.trans hj
    rw [if_pos hreapable] at heq
    cases heq
    rfl
  · intro i j pid' l hj hdoc hl hid
    have hid' := hbefore hj hdoc
    subst hid'
    have hacted := acted_of_act (act_stepped M none hp hrest)
    have hevent : event M d (.step pid none) = some ⟨.reapExhaustedJobs, _⟩ :=
      event_step hp hrest
    rcases holds_of_acted hacted hl with hold | ⟨_, hclaim, _⟩
    · have hnot := horderly.reaped hevent hold (hid ▸ hjob)
      rw [hreapable] at hnot
      cases hnot
    · rw [hevent] at hclaim
      cases hclaim

theorem polling_step (hR : R.Keeps M) (hd : Owned R M d)
    (horderly : Orderly R M d (.step pid fault))
    (hp : d.processes.lookup pid = some p) (hactivity : p.activity = .worker)
    (hlease : p.lease = none) (h : Polling d p.rest)
    (hrest : p.rest = .call r next)
    (hended : ¬ (next (d.world.answer M fault r).1).Ended) :
    ProcessInv R M (stepped M d pid fault p r next)
      { p with
        rest := next (d.world.answer M fault r).1
        lease := Process.leaseAfter d.world.now p.lease r
          (d.world.answer M fault r).1 } := by
  unfold ProcessInv
  rw [hactivity, hlease]
  rcases h with hbody | hreaping | ⟨rows, hmarking, hdoomed⟩
  · have hcall := hbody.symm.trans hrest
    cases hcall
    cases fault with
    | some e => exact absurd True.intro hended
    | none =>
        cases hok : (d.world.exec M .claimJob).1 with
        | error e =>
            rw [World.answer_none, hok] at hended
            exact absurd True.intro hended
        | ok row =>
            dsimp only
            rw [World.answer_none, hok]
            cases row with
            | none => exact .inr (.inl rfl)
            | some row =>
                refine working_of_claim hR hd horderly ?_ hok
                rw [event_step hp hrest, World.answer_none, hok]
  · have hcall := hreaping.symm.trans hrest
    cases hcall
    cases fault with
    | some e => exact absurd True.intro hended
    | none =>
        refine .inr (.inr ⟨_, rfl, ?_⟩)
        intro documentId hrow
        exact doomed_of_reaped hd horderly hp hrest hrow
  · cases rows with
    | nil =>
        rw [hmarking] at hrest
        cases hrest
    | cons documentId rows =>
        have hcall := hmarking.symm.trans hrest
        cases hcall
        cases fault with
        | some e => exact absurd True.intro hended
        | none =>
            refine .inr (.inr ⟨rows, rfl, ?_⟩)
            intro documentId' hrow
            exact doomed_step hR hd horderly hp hrest
              (hdoomed documentId' (List.mem_cons_of_mem _ hrow))

theorem processInv_step (hR : R.Keeps M) (hd : Owned R M d)
    (horderly : Orderly R M d (.step pid fault))
    (hp : d.processes.lookup pid = some p) (hrest : p.rest = .call r next)
    (hended : ¬ (next (d.world.answer M fault r).1).Ended) :
    ProcessInv R M (stepped M d pid fault p r next)
      { p with
        rest := next (d.world.answer M fault r).1
        lease := Process.leaseAfter d.world.now p.lease r
          (d.world.answer M fault r).1 } := by
  have hinv := hd.process hp
  cases hlease : p.lease with
  | some l =>
      have hworking := processInv_lease hinv hlease
      rw [hrest] at hworking
      have hafter := leaseAfter_own (own_of_working hworking) d.world.now
        (some l) (d.world.answer M fault r).1
      have hnext := working_step hd horderly hp hlease hrest
      unfold ProcessInv at hinv ⊢
      rw [hafter]
      split at hinv
      · next hactivity =>
          rw [hactivity]
          exact hnext
      · rw [hinv.left] at hlease
        cases hlease
      · exact hinv.elim
  | none =>
      unfold ProcessInv at hinv
      split at hinv
      · next hactivity =>
          rw [hlease] at hinv
          rw [← hlease]
          exact polling_step hR hd horderly hp hactivity hlease hinv hrest hended
      · next userId hex file hactivity =>
          rcases hinv with ⟨_, hissued, v, hshows, hsafe⟩
          rw [hrest] at hsafe
          unfold ProcessInv
          rw [hactivity]
          refine ⟨?_, hissued, _, uploadShows_own hshows hsafe.left fault, ?_⟩
          · cases r with
            | claimJob => exact hsafe.left.elim
            | _ => rfl
          · exact hsafe.right _ _ rfl
      · exact hinv.elim

/-!
# Everybody else
-/

theorem processInv_step_ne (hR : R.Keeps M) (hd : Owned R M d)
    (horderly : Orderly R M d (.step pid fault))
    (hp : d.processes.lookup pid = some p) (hrest : p.rest = .call r next)
    {pid' : Nat} {q : Process} (hne : pid' ≠ pid)
    (hq : d.processes.lookup pid' = some q) :
    ProcessInv R M (stepped M d pid fault p r next) q := by
  have hinv := hd.process hq
  unfold ProcessInv at hinv ⊢
  split at hinv
  · split at hinv
    · next hlease =>
        rcases hinv with hbody | hreaping | ⟨rows, hmarking, hdoomed⟩
        · exact .inl hbody
        · exact .inr (.inl hreaping)
        · refine .inr (.inr ⟨rows, hmarking, ?_⟩)
          intro documentId hrow
          exact doomed_step hR hd horderly hp hrest (hdoomed documentId hrow)
    · next l hlease =>
        exact working_step_ne hd horderly hp hrest hne hq hlease hinv
  · next userId hex file hactivity =>
      rcases hinv with ⟨hlease, hissued, v, hshows, hsafe⟩
      exact ⟨hlease, hissued, v,
        uploadShows_step_ne hd hp hrest hne hq hactivity hshows, hsafe⟩
  · exact hinv.elim

theorem holds_step (horderly : Orderly R M d (.step pid fault))
    (hp : d.processes.lookup pid = some p) (hrest : p.rest = .call r next)
    {pid' : Nat} {l : Lease}
    (hl : Holds (stepped M d pid fault p r next) pid' l) :
    Holds d pid' l ∨ (pid' = pid ∧ Unheld d l.job.id) := by
  have hacted := acted_of_act (act_stepped M fault hp hrest)
  rcases holds_of_acted hacted hl with hold | ⟨haction, hevent, hok, _, _⟩
  · exact .inl hold
  · by_cases hpid : pid' = pid
    · rw [hok] at hevent
      exact .inr ⟨hpid, unheld_of_claim horderly hevent⟩
    · rcases hl with ⟨q, hq, hlease⟩
      rw [lookup_stepped_ne hpid] at hq
      exact .inl ⟨q, hq, hlease⟩

theorem sole_step (hd : Owned R M d)
    (horderly : Orderly R M d (.step pid fault))
    (hp : d.processes.lookup pid = some p) (hrest : p.rest = .call r next)
    {pid1 pid2 : Nat} {l1 l2 : Lease}
    (hl1 : Holds (stepped M d pid fault p r next) pid1 l1)
    (hl2 : Holds (stepped M d pid fault p r next) pid2 l2)
    (hid : l1.job.id = l2.job.id) : pid1 = pid2 := by
  rcases holds_step horderly hp hrest hl1 with hold1 | ⟨hpid1, hunheld1⟩
  · rcases holds_step horderly hp hrest hl2 with hold2 | ⟨_, hunheld2⟩
    · exact hd.sole hold1 hold2 hid
    · exact absurd hid (hunheld2 pid1 l1 hold1)
  · rcases holds_step horderly hp hrest hl2 with hold2 | ⟨hpid2, _⟩
    · exact absurd hid.symm (hunheld1 pid2 l2 hold2)
    · rw [hpid1, hpid2]

theorem not_ended_of_resume {processes : AList fun _ : Nat => Process}
    {p q : Process} (hq : (resume processes pid p).lookup pid = some q) :
    ¬ q.rest.Ended := by
  unfold resume at hq
  split at hq
  · rw [AList.lookup_erase] at hq
    cases hq
  · next hended =>
      rw [AList.lookup_insert] at hq
      cases hq
      exact hended

theorem activity_step (hp : d.processes.lookup pid = some p) {pid' : Nat}
    {q : Process}
    (hq : (stepped M d pid fault p r next).processes.lookup pid' = some q) :
    exists q', d.processes.lookup pid' = some q' ∧
      q.activity = q'.activity := by
  rcases lookup_resume hq with ⟨hpid, hnext⟩ | ⟨_, hold⟩
  · subst hpid hnext
    exact ⟨p, hp, rfl⟩
  · exact ⟨q, hold, rfl⟩

/-!
# Documents
-/

theorem document_new_step (hd : Owned R M d)
    (hp : d.processes.lookup pid = some p) (hrest : p.rest = .call r next)
    {id : Nat} {document : Document}
    (hnone : d.world.db.documents.lookup id = none)
    (hnew : (d.world.answer M fault r).2.db.documents.lookup id =
      some document) :
    document.docName ∈ d.issued ∧ document.status = .processing := by
  cases fault with
  | some e =>
      rw [World.answer_some, hnone] at hnew
      cases hnew
  | none =>
      have hacts := acts_of_processInv (hd.process hp) hrest
      rcases World.exec_document_new hnone hnew with
        ⟨_, hfree, ⟨userId, docName, displayName, sourcePath, hr, hdocument⟩ |
          ⟨docName, sourcePath, pageCount, hr, hdocument⟩⟩
      · subst hr hdocument
        cases hacts with
        | own _ _ hown => exact hown.elim
        | upload _ _ hissued _ hreq =>
            refine ⟨?_, rfl⟩
            show docName ∈ d.issued
            rw [hreq.left]
            exact hissued
      · subst hr hdocument
        cases hacts with
        | own _ hshows hown =>
            exact absurd (hshows.docName.trans hown.left.symm)
              (Database.findDocument_eq_none_iff.mp hfree _ _ hshows.document)
        | upload _ _ _ _ hreq => exact hreq.elim

theorem docName_step {id : Nat} {old document : Document}
    (hold : d.world.db.documents.lookup id = some old)
    (hnew : (d.world.answer M fault r).2.db.documents.lookup id =
      some document) :
    document.docName = old.docName := by
  cases fault with
  | some e =>
      rw [World.answer_some, hold] at hnew
      cases hnew
      rfl
  | none =>
      rw [World.answer_none, World.exec_document hold] at hnew
      exact (World.identity_of_documentAfter hnew).1

/-- A document that becomes ready has a job whose worker marked it. -/
theorem ready_step (hR : R.Keeps M) (hd : Owned R M d)
    (horderly : Orderly R M d (.step pid fault))
    (hp : d.processes.lookup pid = some p) (hrest : p.rest = .call r next)
    {id : Nat} {document : Document}
    (hdocument : (d.world.answer M fault r).2.db.documents.lookup id =
      some document)
    (hready : document.status = .ready) :
    exists jobId job,
      (d.world.answer M fault r).2.db.jobs.lookup jobId = some job ∧
        job.documentId = id := by
  have hjob : exists jobId job, d.world.db.jobs.lookup jobId = some job ∧
      job.documentId = id := by
    cases hold : d.world.db.documents.lookup id with
    | none =>
        have hstatus := (document_new_step hd hp hrest hold hdocument).right
        rw [hready] at hstatus
        cases hstatus
    | some old =>
        by_cases hwas : old.status = .ready
        · exact hd.ready hold hwas
        · have hacts := acts_of_processInv (hd.process hp) hrest
          cases fault with
          | some e =>
              rw [World.answer_some, hold] at hdocument
              cases hdocument
              exact absurd hready hwas
          | none =>
              rw [World.answer_none, World.exec_document hold] at hdocument
              rcases World.ready_of_documentAfter hdocument hwas hready with
                ⟨chunkCount, hr⟩
              subst hr
              cases hacts with
              | own _ hshows hown =>
                  exact ⟨_, _, hshows.job, hshows.documentId.trans hown.symm⟩
              | upload _ _ _ _ hreq => exact hreq.elim
  rcases hjob with ⟨jobId, job, hlookup, hid⟩
  rcases slice_step hR hd horderly hp hrest hlookup with ⟨s, hs, _⟩
  exact ⟨jobId, s.job, hs.job, hs.documentId.trans hid⟩

theorem id_of_new {w : World} {id id' : Nat} {job job' : Job}
    (hnone : w.db.jobs.lookup id = none)
    (hjob : (w.answer M fault r).2.db.jobs.lookup id = some job)
    (hnone' : w.db.jobs.lookup id' = none)
    (hjob' : (w.answer M fault r).2.db.jobs.lookup id' = some job') :
    id = id' := by
  cases fault with
  | some e =>
      rw [World.answer_some, hnone] at hjob
      cases hjob
  | none =>
      rcases World.exec_job_new hnone hjob with ⟨_, _, _, _, hid, _⟩
      rcases World.exec_job_new hnone' hjob' with ⟨_, _, _, _, hid', _⟩
      rw [hid, hid']

/-!
# Every step
-/

theorem owned_stepped (hR : R.Keeps M) (hd : Owned R M d)
    (horderly : Orderly R M d (.step pid fault))
    (hp : d.processes.lookup pid = some p) (hrest : p.rest = .call r next) :
    Owned R M (stepped M d pid fault p r next) := by
  have hbefore : forall {id : Nat} {job : Job},
      (d.world.answer M fault r).2.db.jobs.lookup id = some job ->
        d.world.db.jobs.lookup id = none ∨
          exists old, d.world.db.jobs.lookup id = some old ∧
            job.documentId = old.documentId ∧ job.docKey = old.docKey ∧
              job.pdfPath = old.pdfPath := by
    intro id job hjob
    cases hold : d.world.db.jobs.lookup id with
    | none => exact .inl rfl
    | some old => exact .inr ⟨old, rfl, columns_of_answer hold hjob⟩
  constructor
  · exact leased_step hd.leased (act_stepped M fault hp hrest)
  · intro pid' q hq
    by_cases hpid : pid' = pid
    · subst hpid
      have hended : ¬ (next (d.world.answer M fault r).1).Ended := by
        intro hended
        exact absurd hq (by simp [stepped, resume, hended])
      rw [lookup_stepped hended] at hq
      cases hq
      exact processInv_step hR hd horderly hp hrest hended
    · rw [lookup_stepped_ne hpid] at hq
      exact processInv_step_ne hR hd horderly hp hrest hpid hq
  · intro pid' q l hq hlease
    by_cases hpid : pid' = pid
    · subst hpid
      exact not_ended_of_resume hq
    · rw [lookup_stepped_ne hpid] at hq
      exact hd.running hq hlease
  · intro pid1 pid2 l1 l2 hl1 hl2 hid
    exact sole_step hd horderly hp hrest hl1 hl2 hid
  · intro pid1 pid2 q1 q2 _ _ _ _ _ _ hq1 hq2 hactivity1 hactivity2 hkey
    rcases activity_step hp hq1 with ⟨q1', hold1, heq1⟩
    rcases activity_step hp hq2 with ⟨q2', hold2, heq2⟩
    exact hd.uploads hold1 hold2 (heq1.symm.trans hactivity1)
      (heq2.symm.trans hactivity2) hkey
  · intro id document hdocument
    cases hold : d.world.db.documents.lookup id with
    | none => exact (document_new_step hd hp hrest hold hdocument).left
    | some old =>
        rw [docName_step hold hdocument]
        exact hd.names hold
  · intro id job hjob
    rcases hbefore hjob with hnone | ⟨old, hold, _, hkey, hpath⟩
    · rcases job_new_step hd hp hrest hnone hjob with
        ⟨key, _, _, hnew, _⟩
      rw [hnew]
      rfl
    · rw [hpath, hkey]
      exact hd.path hold
  · intro id job hjob
    rcases hbefore hjob with hnone | ⟨old, hold, hdocument, hkey, hpath⟩
    · rcases job_new_step hd hp hrest hnone hjob with
        ⟨key, document, contents, hnew, _, hstatus, _, hshows⟩
      exact ⟨_, hshows, fun _ => hR.fresh hstatus hnew⟩
    · rcases slice_step hR hd horderly hp hrest hold with ⟨s, hs, hidle⟩
      exact ⟨s, shows_row hs rfl hdocument hkey hpath, hidle⟩
  · intro id1 id2 job1 job2 hjob1 hjob2 hdocument
    rcases hbefore hjob1 with hnone1 | ⟨old1, hold1, hcolumn1, _⟩
    · rcases hbefore hjob2 with hnone2 | ⟨old2, hold2, hcolumn2, _⟩
      · exact id_of_new hnone1 hjob1 hnone2 hjob2
      · rcases job_new_step hd hp hrest hnone1 hjob1 with
          ⟨_, _, _, _, _, _, hjobs, _⟩
        exact absurd (hcolumn2.symm.trans hdocument.symm) (hjobs _ _ hold2)
    · rcases hbefore hjob2 with hnone2 | ⟨old2, hold2, hcolumn2, _⟩
      · rcases job_new_step hd hp hrest hnone2 hjob2 with
          ⟨_, _, _, _, _, _, hjobs, _⟩
        exact absurd (hcolumn1.symm.trans hdocument) (hjobs _ _ hold1)
      · apply hd.single hold1 hold2
        rw [← hcolumn1, ← hcolumn2, hdocument]
  · intro id document hdocument hready
    exact ready_step hR hd horderly hp hrest hdocument hready

theorem idle_of_crashed (hR : R.Keeps M) {w : World} {rest : Proc Unit}
    {l : Lease} (h : Working R M w rest l) (habandons : R.abandons) :
    exists t, Shows w l.job t ∧ R.idle t := by
  cases rest with
  | ret a => exact idle_of_ended hR h True.intro
  | raise e => exact idle_of_ended hR h True.intro
  | call r next =>
      rcases h with ⟨s, now, t, hidle, hclaimable, _, hshows, hsafe⟩
      exact ⟨t, hshows, hR.abandoned habandons hidle hclaimable
        (Attempt.pending_of_req hsafe.left)⟩

theorem processInv_of_same {q : Process} (h : ProcessInv R M d q)
    (hdb : d'.world.db = d.world.db) (hblobs : d'.world.blobs = d.world.blobs)
    (hissued : forall key, key ∈ d.issued -> key ∈ d'.issued)
    (hholds : forall {pid l}, Holds d' pid l -> Holds d pid l) :
    ProcessInv R M d' q := by
  unfold ProcessInv at h ⊢
  split at h
  · split at h
    · rcases h with hbody | hreaping | ⟨rows, hmarking, hdoomed⟩
      · exact .inl hbody
      · exact .inr (.inl hreaping)
      · refine .inr (.inr ⟨rows, hmarking, ?_⟩)
        intro documentId hrow
        have h := hdoomed documentId hrow
        constructor
        · rw [hdb]
          exact h.job
        · rw [hdb]
          exact h.failed
        · intro id job pid l hjob hid hl
          rw [hdb] at hjob
          exact h.unheld hjob hid (hholds hl)
    · rcases h with ⟨s, now, t, hidle, hclaimable, hexpires, hshows, hsafe⟩
      exact ⟨s, now, t, hidle, hclaimable, hexpires,
        shows_of_same hshows hdb hblobs, hsafe⟩
  · rcases h with ⟨hlease, hkey, v, hshows, hsafe⟩
    exact ⟨hlease, hissued _ hkey, v, uploadShows_of_same hshows hdb hblobs,
      hsafe⟩
  · exact h.elim

theorem owned_crash (hR : R.Keeps M) (hd : Owned R M d)
    (horderly : Orderly R M d (.crash pid)) :
    Owned R M { d with processes := d.processes.erase pid } := by
  have hholds : forall {pid' l},
      Holds { d with processes := d.processes.erase pid } pid' l ->
        Holds d pid' l :=
    fun ⟨q, hq, hlease⟩ => ⟨q, (lookup_erase hq).right, hlease⟩
  constructor
  · exact leased_of_same hd.leased rfl hholds
  · intro pid' q hq
    exact processInv_of_same (hd.process (lookup_erase hq).right) rfl rfl
      (fun _ hkey => hkey) hholds
  · intro pid' q l hq hlease
    exact hd.running (lookup_erase hq).right hlease
  · intro pid1 pid2 l1 l2 hl1 hl2 hid
    exact hd.sole (hholds hl1) (hholds hl2) hid
  · intro pid1 pid2 q1 q2 _ _ _ _ _ _ hq1 hq2 hactivity1 hactivity2 hkey
    exact hd.uploads (lookup_erase hq1).right (lookup_erase hq2).right
      hactivity1 hactivity2 hkey
  · exact hd.names
  · exact hd.path
  · intro id job hjob
    by_cases hheld : exists l, Holds d pid l ∧ l.job.id = id
    · rcases hheld with ⟨l, hl, hid⟩
      subst hid
      have habandons := horderly.crashed rfl hl
      have hworking : exists rest, Working R M d.world rest l := by
        rcases hl with ⟨q, hq, hlease⟩
        exact ⟨q.rest, processInv_lease (hd.process hq) hlease⟩
      rcases hworking with ⟨rest, hworking⟩
      rcases idle_of_crashed hR hworking habandons with ⟨t, ht, hidle⟩
      exact ⟨t, (shows_lease_iff hd.leased hl hjob).mp ht, fun _ => hidle⟩
    · rcases hd.slice hjob with ⟨s, hs, hidle⟩
      refine ⟨s, hs, ?_⟩
      intro hunheld
      apply hidle
      intro pid' l hl hid
      by_cases hpid : pid' = pid
      · subst hpid
        exact hheld ⟨l, hl, hid⟩
      · rcases hl with ⟨q, hq, hlease⟩
        exact hunheld pid' l
          ⟨q, (AList.lookup_erase_ne hpid).trans hq, hlease⟩ hid
  · exact hd.single
  · exact hd.ready

theorem processInv_start (hd : Owned R M d) {activity : Activity}
    (horderly : Orderly R M d (.spawn pid activity))
    (hfresh : forall key, key ∈ activity.issues -> key ∉ d.issued) :
    ProcessInv R M
      { d with
        processes := d.processes.insert pid (.start activity)
        issued := activity.issues ++ d.issued } (.start activity) := by
  rcases horderly.spawned rfl with hworker | ⟨userId, hex, file, hupload⟩
  · subst hworker
    exact .inl rfl
  · subst hupload
    refine ⟨rfl, List.mem_append_left _ List.mem_cons_self, .reserved, ?_,
      upload_safe userId hex file⟩
    apply Database.findDocument_eq_none_iff.mpr
    intro id document hdocument hname
    apply hfresh (docKey userId hex) List.mem_cons_self
    rw [← hname]
    exact hd.names hdocument

theorem holds_of_spawn {activity : Activity} {issued : List String} {pid' : Nat}
    {l : Lease}
    (hl : Holds
      { d with
        processes := d.processes.insert pid (.start activity)
        issued := issued } pid' l) :
    Holds d pid' l := by
  rcases hl with ⟨q, hq, hlease⟩
  rcases lookup_spawn hq with ⟨_, hstart⟩ | ⟨_, hold⟩
  · subst hstart
    cases hlease
  · exact ⟨q, hold, hlease⟩

theorem unheld_of_spawn {activity : Activity} {issued : List String} {id : Nat}
    (hfree : d.processes.lookup pid = none)
    (hunheld : Unheld
      { d with
        processes := d.processes.insert pid (.start activity)
        issued := issued } id) :
    Unheld d id := by
  intro pid' l hl
  rcases hl with ⟨q, hq, hlease⟩
  refine hunheld pid' l ⟨q, (AList.lookup_insert_ne ?_).trans hq, hlease⟩
  intro hpid
  rw [hpid, hfree] at hq
  cases hq

theorem docKey_not_mem_issues (hd : Owned R M d) {activity : Activity}
    (hfresh : forall key, key ∈ activity.issues -> key ∉ d.issued) {pid' : Nat}
    {q : Process} {userId : Nat} {hex : String} {file : UploadFile}
    (hq : d.processes.lookup pid' = some q)
    (hactivity : q.activity = .upload userId hex file) :
    docKey userId hex ∉ activity.issues := by
  intro hkey
  have hinv := hd.process hq
  unfold ProcessInv at hinv
  rw [hactivity] at hinv
  exact hfresh _ hkey hinv.right.left

theorem owned_spawn (hd : Owned R M d) {activity : Activity}
    (horderly : Orderly R M d (.spawn pid activity))
    (hfree : d.processes.lookup pid = none)
    (hfresh : forall key, key ∈ activity.issues -> key ∉ d.issued) :
    Owned R M
      { d with
        processes := d.processes.insert pid (.start activity)
        issued := activity.issues ++ d.issued } := by
  constructor
  · exact leased_of_same hd.leased rfl holds_of_spawn
  · intro pid' q hq
    rcases lookup_spawn hq with ⟨_, hstart⟩ | ⟨_, hold⟩
    · rw [hstart]
      exact processInv_start hd horderly hfresh
    · exact processInv_of_same (hd.process hold) rfl rfl
        (fun _ hkey => List.mem_append_right _ hkey) holds_of_spawn
  · intro pid' q l hq hlease
    rcases lookup_spawn hq with ⟨_, hstart⟩ | ⟨_, hold⟩
    · subst hstart
      cases hlease
    · exact hd.running hold hlease
  · intro pid1 pid2 l1 l2 hl1 hl2 hid
    exact hd.sole (holds_of_spawn hl1) (holds_of_spawn hl2) hid
  · intro pid1 pid2 q1 q2 _ _ _ _ _ _ hq1 hq2 hactivity1 hactivity2 hkey
    rcases lookup_spawn hq1 with ⟨hpid1, hstart1⟩ | ⟨_, hold1⟩
    · rcases lookup_spawn hq2 with ⟨hpid2, _⟩ | ⟨_, hold2⟩
      · rw [hpid1, hpid2]
      · refine absurd ?_ (docKey_not_mem_issues hd hfresh hold2 hactivity2)
        rw [hstart1] at hactivity1
        replace hactivity1 : activity = .upload _ _ _ := hactivity1
        rw [hactivity1, ← hkey]
        exact List.mem_cons_self
    · rcases lookup_spawn hq2 with ⟨_, hstart2⟩ | ⟨_, hold2⟩
      · refine absurd ?_ (docKey_not_mem_issues hd hfresh hold1 hactivity1)
        rw [hstart2] at hactivity2
        replace hactivity2 : activity = .upload _ _ _ := hactivity2
        rw [hactivity2, hkey]
        exact List.mem_cons_self
      · exact hd.uploads hold1 hold2 hactivity1 hactivity2 hkey
  · intro id document hdocument
    exact List.mem_append_right _ (hd.names hdocument)
  · exact hd.path
  · intro id job hjob
    rcases hd.slice hjob with ⟨s, hs, hidle⟩
    exact ⟨s, hs, fun hunheld => hidle (unheld_of_spawn hfree hunheld)⟩
  · exact hd.single
  · exact hd.ready

theorem owned_tick (hd : Owned R M d) (elapsed : Time) :
    Owned R M
      { d with world := { d.world with now := d.world.now + elapsed } } := by
  constructor
  · exact leased_of_same hd.leased rfl id
  · intro pid p hp
    exact processInv_of_same (hd.process hp) rfl rfl (fun _ hkey => hkey) id
  · exact hd.running
  · exact hd.sole
  · exact hd.uploads
  · exact hd.names
  · exact hd.path
  · intro id job hjob
    rcases hd.slice hjob with ⟨s, hs, hidle⟩
    exact ⟨s, shows_of_same hs rfl rfl, hidle⟩
  · exact hd.single
  · exact hd.ready

theorem owned_init : Owned R M init := by
  constructor
  · exact leased_init
  · intro pid p hp
    cases hp
  · intro pid p l hp
    cases hp
  · intro pid pid' l l' hall
    rcases hall with ⟨p, hp, _⟩
    cases hp
  · intro pid pid' p p' _ _ _ _ _ _ hp
    cases hp
  · intro id r hr
    cases hr
  · intro id job hjob
    cases hjob
  · intro id job hjob
    cases hjob
  · intro id id' job job' hjob
    cases hjob
  · intro id r hr
    cases hr

theorem owned_step (hR : R.Keeps M) (hd : Owned R M d) {a : Action}
    (horderly : Orderly R M d a) (hact : act M d a = some d') :
    Owned R M d' := by
  cases acted_of_act hact with
  | spawn hfree hfresh => exact owned_spawn hd horderly hfree hfresh
  | step hp hrest => exact owned_stepped hR hd horderly hp hrest
  | crash => exact owned_crash hR hd horderly
  | tick => exact owned_tick hd _

/-!
# Workers within their visibility timeouts
-/

/-- No worker holds a claim past its `visible_at`. -/
def InTime (d : Deployment) : Prop :=
  forall pid l, Holds d pid l -> d.world.now ≤ l.expires

theorem job_of_holds (hd : Owned R M d) {l : Lease} (hl : Holds d pid l)
    {job : Job} (hjob : d.world.db.jobs.lookup l.job.id = some job) :
    (job.status = .processing ∧ job.visibleAt = l.expires) ∨
      job.status = .failed := by
  rcases hl with ⟨p, hp, hlease⟩
  have hrunning := hd.running hp hlease
  rcases processInv_lease (hd.process hp) hlease with
    ⟨s, now, t, _, _, hexpires, hshows, hsafe⟩
  have heq := hshows.job.symm.trans hjob
  cases heq
  rcases exists_call_of_not_ended hrunning with ⟨r, next, hrest⟩
  rw [hrest] at hsafe
  rcases Attempt.pending_of_req hsafe.left with hunreported |
    ⟨exc, t', error, _, _, ht⟩
  · left
    have hclaimed := Attempt.job_of_unreported hunreported
    rw [hclaimed, hexpires]
    exact ⟨rfl, rfl⟩
  · right
    rw [ht]
    rfl

/-- In time, nobody else can claim or reap a job that a worker holds. -/
theorem not_available_of_holds (hd : Owned R M d) (htime : InTime d)
    {l : Lease} (hl : Holds d pid l) {job : Job}
    (hjob : d.world.db.jobs.lookup l.job.id = some job) :
    job.claimable d.world.now = false ∧ job.reapable d.world.now = false := by
  have hnow := htime pid l hl
  rcases job_of_holds hd hl hjob with ⟨hstatus, hvisible⟩ | hfailed
  · have hlate : ¬ job.visibleAt < d.world.now := by
      rw [hvisible]
      exact Nat.not_lt.mpr hnow
    constructor
    · simp [Job.claimable, hstatus, hlate]
    · simp [Job.reapable, hlate]
  · constructor
    · simp [Job.claimable, hfailed]
    · simp [Job.reapable, hfailed]

theorem claim_of_returned {a : Action} {row : JobRow}
    (h : returned M d a = some row) :
    (d.world.exec M .claimJob).1 = .ok (some row) := by
  rcases Option.bind_eq_some_iff.mp h with ⟨event, hevent, hrow⟩
  cases a with
  | step pid fault =>
      rcases Option.bind_eq_some_iff.mp hevent with ⟨p, _, hcall⟩
      split at hcall
      · next r _ _ =>
          cases hcall
          cases r with
          | claimJob =>
              cases fault with
              | some e => cases hrow
              | none => exact congrArg Except.ok hrow
          | _ => cases hrow
      · cases hcall
  | spawn pid activity => cases hevent
  | crash pid => cases hevent
  | tick elapsed => cases hevent

theorem unheld_of_inTime (hd : Owned R M d) (htime : InTime d) {a : Action}
    {row : JobRow} (hreturned : returned M d a = some row) :
    Unheld d row.id := by
  intro pid l hl hid
  rcases World.row_of_claim (claim_of_returned hreturned) with
    ⟨job, hjob, hclaimable, _⟩
  rw [← hid] at hjob
  have hnot := not_available_of_holds hd htime hl hjob
  exact absurd hclaimable (by rw [hnot.left]; exact Bool.false_ne_true)

end Steps

end Deployment
end ChatDoc
