import ChatDoc.Jobs.Recovery
import ChatDoc.Service.Uploading

/-!
# Deleting a document that is being processed

`delete_doc` and `process_job` work on the same rows without knowing of each
other.  Once the document's row is gone, every statement of `process_job` has
no effect or fails, except `upsert_document`: its `INSERT` creates the document
anew, for nobody, and the chunks follow it there.
-/

namespace ChatDoc

open Foundation
open Foundation.Program

/-!
# The calls of `process_job`

The document that chunks are written to is the one the last `upsert_document`
returned.
-/

def Touches (row : JobRow) (target : Nat) : Request -> Prop
  | .deleteChunksForDocument documentId => documentId = target
  | .insertChunk chunk => chunk.documentId = target
  | .storageDelete key => key = row.pdfPath
  | r => Own row r

def retarget (target : Nat) : (r : Request) -> Except Exn (Reply r) -> Nat
  | .upsertDocument _ _ _, .ok documentId => documentId
  | _, _ => target

def targetSem : Semantics service Nat :=
  fun r target reply target' => target' = retarget target r reply

abbrev Targets {alpha : Type} (row : JobRow) (post : alpha -> Nat -> Prop)
    (p : Proc alpha) (target : Nat) : Prop :=
  Safe targetSem (fun r target => Touches row target r) post (fun _ _ => True)
    p target

section Calls

variable {row : JobRow} {target : Nat}

theorem ask_targets {r : Request} {post : Reply r -> Nat -> Prop}
    (hreq : Touches row target r)
    (hpost : forall a, post a (retarget target r (.ok a))) :
    Targets row post (ask r) target := by
  refine safe_perform hreq ?_ fun _ _ _ => True.intro
  intro a target' htarget
  rw [show target' = retarget target r (.ok a) from htarget]
  exact hpost a

theorem onProgress_targets (st : ProgressState) (stage : Stage)
    (current total : Nat) :
    Targets row (fun _ target' => target' = target)
      (onProgress row.documentId st stage current total) target := by
  apply safe_bind
  refine ask_targets True.intro fun now => ?_
  dsimp only
  split
  · rfl
  · apply safe_bind
    apply safe_handle
    refine ⟨rfl, ?_⟩
    intro answer target' htarget
    cases answer with
    | ok a => exact htarget
    | error e => exact htarget

theorem insertChunks_targets (rows : List (Chunk × Embedding)) (i : Nat) :
    Targets row (fun _ target' => target' = target)
      (insertChunks target rows i) target := by
  induction rows generalizing i with
  | nil => rfl
  | cons chunk rest ih =>
      apply safe_bind
      exact ask_targets rfl fun _ => ih (i + 1)

theorem flushBatch_targets (st : IngestState ProgressState) :
    Targets row (fun _ target' => target' = target) (flushBatch target st)
      target := by
  unfold flushBatch
  split
  · rfl
  · apply safe_bind
    refine ask_targets True.intro fun embeddings => ?_
    apply safe_bind
    refine safe_mono (insertChunks_targets _ _) ?_ fun _ _ h => h
    intro _ target' htarget
    exact htarget

theorem pullChunks_targets (events : List ChunkEvent)
    (st : IngestState ProgressState) :
    Targets row (fun _ target' => target' = target)
      (pullChunks (onProgress row.documentId) target events st) target := by
  induction events generalizing st with
  | nil =>
      apply safe_bind
      exact ask_targets True.intro fun _ => rfl
  | cons event rest ih =>
      cases event with
      | onPage pagesDone pageCount chunksSoFar =>
          apply safe_bind
          refine ask_targets True.intro fun _ => ?_
          apply safe_bind
          refine safe_mono (onProgress_targets _ _ _ _) ?_ fun _ _ h => h
          intro p target' htarget
          rw [htarget]
          exact ih _
      | chunk c =>
          apply safe_bind
          refine ask_targets True.intro fun _ => ?_
          dsimp only
          split
          · apply safe_bind
            refine safe_mono (flushBatch_targets _) ?_ fun _ _ h => h
            intro st' target' htarget
            rw [htarget]
            apply safe_bind
            refine safe_mono (onProgress_targets _ _ _ _) ?_ fun _ _ h => h
            intro p target' htarget
            rw [htarget]
            exact ih _
          · exact ih _

theorem embedAndInsert_targets (pageCount : Nat) (file : LocalFile)
    (start : ProgressState) :
    Targets row (fun _ _ => True)
      (embedAndInsert (onProgress row.documentId) target pageCount file
        noneExcluded start) target := by
  apply safe_bind
  refine safe_mono (onProgress_targets _ _ _ _) ?_ fun _ _ h => h
  intro p _ heq
  subst heq
  apply safe_bind
  refine safe_mono (onProgress_targets _ _ _ _) ?_ fun _ _ h => h
  intro p _ heq
  subst heq
  apply safe_bind
  refine safe_mono (pullChunks_targets _ _) ?_ fun _ _ h => h
  intro st _ heq
  subst heq
  split
  · apply safe_bind
    refine safe_mono (flushBatch_targets _) ?_ fun _ _ h => h
    intro st' _ heq
    subst heq
    apply safe_bind
    refine safe_mono (onProgress_targets _ _ _ _) ?_ fun _ _ h => h
    intro p _ heq
    subst heq
    exact safe_mono (onProgress_targets _ _ _ _) (fun _ _ _ => True.intro)
      fun _ _ h => h
  · exact True.intro

theorem ingestPdf_targets (file : LocalFile) (start : ProgressState) :
    Targets row (fun _ _ => True)
      (ingestPdf (onProgress row.documentId) file noneExcluded row.docKey
        row.pdfPath start) target := by
  apply safe_bind
  refine safe_mono (onProgress_targets _ _ _ _) ?_ fun _ _ h => h
  intro p _ heq
  subst heq
  apply safe_bind
  refine ask_targets True.intro fun pageCount => ?_
  apply safe_bind
  refine safe_mono (onProgress_targets _ _ _ _) ?_ fun _ _ h => h
  intro p _ heq
  subst heq
  apply safe_bind
  refine ask_targets ⟨rfl, rfl⟩ fun documentId => ?_
  apply safe_bind
  refine ask_targets rfl fun _ => ?_
  apply safe_bind
  refine safe_mono (embedAndInsert_targets _ _ _) ?_ fun _ _ h => h
  intro _ _ _
  exact True.intro

theorem ingestFile_targets (file : LocalFile) :
    Targets row (fun _ _ => True) (ingestFile row file) target := by
  apply safe_bind
  refine ask_targets True.intro fun pageCount => ?_
  split
  · exact True.intro
  · apply safe_bind
    refine safe_mono (ingestPdf_targets _ _) ?_ fun _ _ h => h
    intro _ _ _
    exact True.intro

theorem withOpenLocal_targets :
    Targets row (fun _ _ => True) (withOpenLocal row.pdfPath (ingestFile row))
      target := by
  apply safe_bind
  refine ask_targets rfl fun file => ?_
  apply safe_bind
  apply safe_handle
  refine safe_mono (ingestFile_targets file) ?_ ?_
  · intro n target' _
    apply safe_bind
    exact ask_targets True.intro fun _ => True.intro
  · intro exc target' _
    apply safe_bind
    exact ask_targets True.intro fun _ => True.intro

theorem ingestJob_targets :
    Targets row (fun _ _ => True) (ingestJob row) target := by
  apply safe_bind
  refine safe_mono withOpenLocal_targets ?_ fun _ _ h => h
  intro n target' _
  apply safe_bind
  refine ask_targets rfl fun _ => ?_
  exact ask_targets rfl fun _ => True.intro

theorem failJob_targets (error : String) :
    Targets row (fun _ _ => True) (failJob row.id error) target := by
  apply safe_bind
  refine ask_targets rfl fun attempts => ?_
  split
  · exact True.intro
  · split
    · apply safe_bind
      exact ask_targets rfl fun _ => True.intro
    · apply safe_bind
      exact ask_targets rfl fun _ => True.intro

theorem ingestFailed_targets (exc : Exn) :
    Targets row (fun _ _ => True) (ingestFailed row exc) target := by
  have hgeneric : Targets row (fun _ _ => True)
      (failJob row.id exc.message >>= fun willRetry =>
        if willRetry = true then
          pure ()
        else
          ask (.markDocumentFailed row.documentId (truncate 500 exc.message)))
      target := by
    apply safe_bind
    refine safe_mono (failJob_targets _) ?_ fun _ _ h => h
    intro willRetry target' _
    dsimp only
    split
    · exact True.intro
    · exact ask_targets rfl fun _ => True.intro
  cases exc with
  | storageError key =>
      apply safe_bind
      refine safe_mono (failJob_targets _) ?_ fun _ _ h => h
      intro _ _ _
      exact True.intro
  | exception text => exact hgeneric
  | http statusCode detail => exact hgeneric

theorem processJob_targets :
    Targets row (fun _ _ => True) (processJob row) target := by
  apply safe_bind
  refine ask_targets True.intro fun _ => ?_
  apply safe_bind
  refine ask_targets rfl fun present => ?_
  split
  · apply safe_handle
    refine safe_mono ingestJob_targets (fun _ _ _ => True.intro) ?_
    intro exc target' _
    exact ingestFailed_targets exc
  · exact ask_targets rfl fun _ => True.intro

/-!
# The calls of `delete_doc`
-/

def DeleteCall (userId documentId : Nat) : Request -> Prop
  | .getDocument userId' documentId' =>
      userId' = userId ∧ documentId' = documentId
  | .deleteDocument userId' documentId' =>
      userId' = userId ∧ documentId' = documentId
  | .getStorage => True
  | .storageDelete _ => True
  | _ => False

abbrev Deletes {alpha : Type} (userId documentId : Nat)
    (post : alpha -> Unit -> Prop) (p : Proc alpha) : Prop :=
  Safe (fun _ _ _ _ => True) (fun r _ => DeleteCall userId documentId r) post
    (fun _ _ => True) p ()

theorem ask_deletes {userId documentId : Nat} {r : Request}
    {post : Reply r -> Unit -> Prop} (hreq : DeleteCall userId documentId r)
    (hpost : forall a, post a ()) : Deletes userId documentId post (ask r) := by
  refine ⟨hreq, ?_⟩
  intro answer _ _
  cases answer with
  | ok a => exact hpost a
  | error e => exact True.intro

theorem deleteDoc_deletes (userId documentId : Nat) :
    Deletes userId documentId (fun _ _ => True)
      (deleteDoc userId documentId) := by
  apply safe_bind
  refine ask_deletes ⟨rfl, rfl⟩ fun row => ?_
  apply safe_bind
  refine ask_deletes ⟨rfl, rfl⟩ fun deleted => ?_
  split
  · split
    · apply safe_bind
      refine ask_deletes True.intro fun _ => ?_
      exact ask_deletes True.intro fun _ => True.intro
    · exact True.intro
  · exact True.intro

end Calls

/-!
# The document's rows
-/

section Rows

variable {M : EmbeddingModel} {w w0 : World} {row : JobRow} {userId : Nat}
  {r : Request}

def Present (row : JobRow) (w : World) : Prop :=
  exists document, w.db.documents.lookup row.documentId = some document ∧
    document.docName = row.docKey

def Gone (row : JobRow) (w : World) : Prop :=
  w.db.findDocument row.docKey = none ∧
    w.db.documents.lookup row.documentId = none

/-- Nothing is left of the document, and other documents have their chunks. -/
def Erased (row : JobRow) (w0 w : World) : Prop :=
  (forall id document, w.db.documents.lookup id = some document ->
    document.docName ≠ row.docKey) ∧
  forall id, w.db.chunksOf id =
    if id = row.documentId then [] else w0.db.chunksOf id

def Confined (row : JobRow) (userId : Nat) (r : Request) : Prop :=
  Touches row row.documentId r ∨ DeleteCall userId row.documentId r

def Reinsert (row : JobRow) (w : World) : Request -> Prop
  | .upsertDocument docName _ _ =>
      docName = row.docKey ∧ w.db.findDocument row.docKey = none
  | _ => False

theorem not_create_of_confined (h : Confined row userId r) {userId' : Nat}
    {docName displayName sourcePath : String} :
    r ≠ .createPendingDocument userId' docName displayName sourcePath := by
  intro heq
  subst heq
  rcases h with htouches | hdelete
  · exact htouches.elim
  · exact hdelete.elim

theorem document_before_exec (h : Confined row userId r)
    (hkept : ¬ Reinsert row w r) {id : Nat} {document : Document}
    (hdocument : (w.exec M r).2.db.documents.lookup id = some document) :
    exists old, w.db.documents.lookup id = some old ∧
      old.docName = document.docName := by
  cases hold : w.db.documents.lookup id with
  | some old =>
      rw [World.exec_document hold] at hdocument
      exact ⟨old, rfl, (World.identity_of_documentAfter hdocument).1.symm⟩
  | none =>
      rcases World.exec_document_new hold hdocument with
        ⟨_, hfree, ⟨_, _, _, _, hr, _⟩ | ⟨docName, sourcePath, pageCount, hr, hnew⟩⟩
      · exact absurd hr (not_create_of_confined h)
      · subst hr hnew
        rcases h with htouches | hdelete
        · have hname : docName = row.docKey := htouches.left
          subst hname
          exact (hkept ⟨rfl, hfree⟩).elim
        · exact hdelete.elim

theorem gone_exec (h : Gone row w) (hconfined : Confined row userId r)
    (hkept : ¬ Reinsert row w r) : Gone row (w.exec M r).2 := by
  constructor
  · apply Database.findDocument_eq_none_iff.mpr
    intro id document hdocument
    rcases document_before_exec hconfined hkept hdocument with
      ⟨old, hold, hname⟩
    rw [← hname]
    exact Database.findDocument_eq_none_iff.mp h.left id old hold
  · cases hdocument : (w.exec M r).2.db.documents.lookup row.documentId with
    | none => rfl
    | some document =>
        rcases document_before_exec hconfined hkept hdocument with ⟨old, hold, _⟩
        rw [h.right] at hold
        cases hold

theorem present_exec (h : Present row w) (hconfined : Confined row userId r)
    (hkept : ¬ Reinsert row w r) :
    Present row (w.exec M r).2 ∨ Gone row (w.exec M r).2 := by
  rcases h with ⟨document, hdocument, hname⟩
  cases hafter : (w.exec M r).2.db.documents.lookup row.documentId with
  | some document' =>
      left
      refine ⟨document', hafter, ?_⟩
      rw [World.exec_document hdocument] at hafter
      rw [(World.identity_of_documentAfter hafter).1, hname]
  | none =>
      right
      refine ⟨Database.findDocument_eq_none_iff.mpr ?_, hafter⟩
      intro id other hother hkey
      rcases document_before_exec hconfined hkept hother with ⟨old, hold, hsame⟩
      have hid := w.db.docName_unique hold hdocument
        (hsame.trans (hkey.trans hname.symm))
      subst hid
      rw [hafter] at hother
      cases hother

theorem chunksOf_exec_ne (hconfined : Confined row userId r) {id : Nat}
    (hid : id ≠ row.documentId) :
    (w.exec M r).2.db.chunksOf id = w.db.chunksOf id := by
  rw [World.exec_chunksOf]
  cases r with
  | deleteChunksForDocument documentId =>
      rcases hconfined with htouches | hdelete
      · exact if_neg fun heq => hid (heq.trans htouches)
      · exact hdelete.elim
  | insertChunk chunk =>
      rcases hconfined with htouches | hdelete
      · exact if_neg fun heq => hid (heq.left.trans htouches)
      · exact hdelete.elim
  | deleteDocument userId' documentId =>
      rcases hconfined with htouches | hdelete
      · exact htouches.elim
      · exact if_neg fun heq => hid (heq.right.trans hdelete.right)
  | _ => rfl

theorem erased_of_gone (h : Gone row w)
    (hothers : forall id, id ≠ row.documentId ->
      w.db.chunksOf id = w0.db.chunksOf id) : Erased row w0 w := by
  constructor
  · exact Database.findDocument_eq_none_iff.mp h.left
  · intro id
    split
    · next hid =>
        rw [hid]
        exact Database.chunksOf_eq_nil h.right
    · next hid => exact hothers id hid

/-- While the document is there, its upsert finds it. -/
theorem retarget_answer (hrow : Present row w ∨ Gone row w)
    (hconfined : Touches row row.documentId r) (hkept : ¬ Reinsert row w r)
    (fault : Option Exn) :
    retarget row.documentId r (w.answer M fault r).1 = row.documentId := by
  cases r with
  | upsertDocument docName sourcePath pageCount =>
      have hname : docName = row.docKey := hconfined.left
      subst hname
      cases fault with
      | some e => rfl
      | none =>
          rcases hrow with ⟨document, hdocument, hname⟩ | hgone
          · have hfind := Database.findDocument_of_lookup hdocument
            rw [hname] at hfind
            show (w.db.upsertDocument w.now row.docKey sourcePath pageCount).1 =
              row.documentId
            unfold Database.upsertDocument
            split
            · next id document' hfind' =>
                rw [hfind] at hfind'
                cases hfind'
                rfl
            · next hnone =>
                rw [hfind] at hnone
                cases hnone
          · exact absurd ⟨rfl, hgone.left⟩ hkept
  | _ => rfl

/-!
# The document that nobody owns
-/

def Revived (row : JobRow) (w : World) : Prop :=
  exists id document, w.db.documents.lookup id = some document ∧
    document.docName = row.docKey ∧ document.userId = none

theorem revived_exec (h : Revived row w) (r : Request) :
    Revived row (w.exec M r).2 := by
  rcases h with ⟨id, document, hdocument, hname, howner⟩
  cases hafter : w.documentAfter id document r with
  | some document' =>
      refine ⟨id, document', ?_, ?_, ?_⟩
      · rw [World.exec_document hdocument, hafter]
      · rw [(World.identity_of_documentAfter hafter).1, hname]
      · rw [(World.identity_of_documentAfter hafter).2, howner]
  | none =>
      cases r with
      | deleteDocument userId documentId =>
          replace hafter :
            (if (w.db.getDocument userId documentId).isSome ∧ id = documentId
              then none else some document) = none := hafter
          split at hafter
          · next hdeletes =>
              rcases hdeletes with ⟨hsome, hid⟩
              subst hid
              unfold Database.getDocument at hsome
              rw [hdocument] at hsome
              simp [howner] at hsome
          · cases hafter
      | _ => cases hafter

theorem ok_of_reinsert (h : Reinsert row w r) :
    exists a, (w.exec M r).1 = .ok a := by
  cases r with
  | upsertDocument docName sourcePath pageCount => exact ⟨_, rfl⟩
  | _ => exact h.elim

theorem revived_of_reinsert {docName sourcePath : String} {pageCount : Nat}
    (h : Reinsert row w (.upsertDocument docName sourcePath pageCount)) :
    Revived row (w.exec M (.upsertDocument docName sourcePath pageCount)).2 := by
  rcases h with ⟨hname, hfree⟩
  subst hname
  refine ⟨w.db.documents.next, .inserted w.now row.docKey sourcePath pageCount,
    ?_, rfl, rfl⟩
  show (w.db.upsertDocument w.now row.docKey sourcePath
    pageCount).2.documents.lookup _ = _
  unfold Database.upsertDocument
  split
  · next hfind =>
      rw [hfree] at hfind
      cases hfind
  · exact (SerialTable.lookup_insert _ _ _).trans (if_pos rfl)

end Rows

namespace Deployment

section Runs

variable {M : EmbeddingModel} {w : World} {l : Lease} {userId : Nat}
  {d d' : Deployment} {a : Action}

/-!
# Interleavings of the two
-/

/-- A worker at the start of `process_job` and a request to delete the job's
document. -/
def deleting (w : World) (l : Lease) (userId : Nat) : Deployment where
  world := w
  processes :=
    (AList.insert 1 (Process.start (.delete userId l.job.documentId)) ∅).insert 0
      { activity := .worker
        rest := processJob l.job
        lease := some l }
  issued := []

def NoArrival : Action -> Prop
  | .spawn _ _ => False
  | _ => True

def deletesRow (userId documentId : Nat) : Event service -> Bool
  | ⟨.deleteDocument userId' documentId', .ok deleted⟩ =>
      userId' = userId ∧ documentId' = documentId ∧ deleted = true
  | _ => false

theorem eq_of_deletesRow {userId documentId : Nat} {event : Event service}
    (h : deletesRow userId documentId event = true) :
    event = ⟨.deleteDocument userId documentId, .ok true⟩ := by
  rcases event with ⟨r, answer⟩
  cases r with
  | deleteDocument userId' documentId' =>
      cases answer with
      | ok deleted =>
          rcases of_decide_eq_true h with ⟨huser, hdocument, hdeleted⟩
          rw [huser, hdocument, hdeleted]
      | error e => cases h
  | _ => cases h

def Deleted (M : EmbeddingModel) (row : JobRow) (userId : Nat) (d : Deployment)
    (a : Action) : Prop :=
  (event M d a).any (deletesRow userId row.documentId) = true

/-- The step upserts the document when it has no row. -/
def Reinserts (M : EmbeddingModel) (row : JobRow) (d : Deployment)
    (a : Action) : Prop :=
  exists r answer, event M d a = some ⟨r, .ok answer⟩ ∧ Reinsert row d.world r

def Engaged (row : JobRow) (userId : Nat) (p : Process) : Prop :=
  Targets row (fun _ _ => True) p.rest row.documentId ∨
    Deletes userId row.documentId (fun _ _ => True) p.rest

structure Contained (row : JobRow) (userId : Nat) (w0 : World)
    (d : Deployment) : Prop where
  document : Present row d.world ∨ Gone row d.world
  others : forall id, id ≠ row.documentId ->
    d.world.db.chunksOf id = w0.db.chunksOf id
  process : forall {pid p}, d.processes.lookup pid = some p ->
    Engaged row userId p

theorem confined_of_engaged {row : JobRow} {p : Process} {r : Request}
    {next : Except Exn (Reply r) -> Proc Unit} (h : Engaged row userId p)
    (hrest : p.rest = .call r next) : Confined row userId r := by
  unfold Engaged at h
  rw [hrest] at h
  rcases h with htargets | hdeletes
  · exact .inl htargets.left
  · exact .inr hdeletes.left

theorem contained_deleting (hpresent : Present l.job w) :
    Contained l.job userId w (deleting w l userId) := by
  constructor
  · exact .inl hpresent
  · intro id _
    rfl
  · intro pid p hp
    rcases lookup_spawn hp with ⟨_, hworker⟩ | ⟨_, hother⟩
    · subst hworker
      exact .inl processJob_targets
    · rcases lookup_spawn hother with ⟨_, hdelete⟩ | ⟨_, hnone⟩
      · subst hdelete
        exact .inr (deleteDoc_deletes userId l.job.documentId)
      · cases hnone

theorem not_reinsert_of_step {row : JobRow} {pid : Nat} {p : Process}
    {r : Request} {next : Except Exn (Reply r) -> Proc Unit}
    (hp : d.processes.lookup pid = some p) (hrest : p.rest = .call r next)
    (hkept : ¬ Reinserts M row d (.step pid none)) :
    ¬ Reinsert row d.world r := by
  intro hreinsert
  rcases ok_of_reinsert (M := M) hreinsert with ⟨answer, hok⟩
  refine hkept ⟨r, answer, ?_, hreinsert⟩
  rw [event_step hp hrest, World.answer_none, hok]

theorem engaged_step {row : JobRow} {pid : Nat} {p : Process} {r : Request}
    {next : Except Exn (Reply r) -> Proc Unit} {fault : Option Exn}
    {lease : Option Lease}
    (hrow : Present row d.world ∨ Gone row d.world)
    (hp : d.processes.lookup pid = some p) (hrest : p.rest = .call r next)
    (h : Engaged row userId p)
    (hkept : ¬ Reinserts M row d (.step pid fault)) :
    Engaged row userId
      { p with
        rest := next (d.world.answer M fault r).1
        lease := lease } := by
  unfold Engaged at h ⊢
  rw [hrest] at h
  rcases h with htargets | hdeletes
  · left
    have hsame : retarget row.documentId r (d.world.answer M fault r).1 =
        row.documentId := by
      cases fault with
      | some e => cases r <;> rfl
      | none =>
          exact retarget_answer hrow htargets.left
            (not_reinsert_of_step hp hrest hkept) none
    exact htargets.right _ _ hsame.symm
  · exact .inr (hdeletes.right _ () True.intro)

theorem contained_step {row : JobRow} {w0 : World}
    (h : Contained row userId w0 d) (halone : NoArrival a)
    (hkept : ¬ Reinserts M row d a) (hact : act M d a = some d') :
    Contained row userId w0 d' := by
  have hacted := acted_of_act hact
  cases hacted with
  | spawn => exact halone.elim
  | crash => exact ⟨h.document, h.others, fun hp => h.process (lookup_erase hp).right⟩
  | tick => exact ⟨h.document, h.others, h.process⟩
  | @step pid fault p r next hp hrest =>
      have hengaged := h.process hp
      have hconfined := confined_of_engaged hengaged hrest
      constructor
      · show Present row (d.world.answer M fault r).2 ∨
          Gone row (d.world.answer M fault r).2
        cases fault with
        | some e => exact h.document
        | none =>
            have hnone := not_reinsert_of_step hp hrest hkept
            rcases h.document with hpresent | hgone
            · exact present_exec hpresent hconfined hnone
            · exact .inr (gone_exec hgone hconfined hnone)
      · intro id hid
        show (d.world.answer M fault r).2.db.chunksOf id = _
        rw [← h.others id hid]
        cases fault with
        | some e => rfl
        | none => exact chunksOf_exec_ne hconfined hid
      · intro pid' q hq
        rcases lookup_resume hq with ⟨_, hnext⟩ | ⟨_, hold⟩
        · rw [hnext]
          exact engaged_step h.document hp hrest hengaged hkept
        · exact h.process hold

theorem gone_step {row : JobRow} {w0 : World}
    (h : Contained row userId w0 d) (hgone : Gone row d.world)
    (halone : NoArrival a) (hkept : ¬ Reinserts M row d a)
    (hact : act M d a = some d') : Gone row d'.world := by
  cases acted_of_act hact with
  | spawn => exact halone.elim
  | crash => exact hgone
  | tick => exact hgone
  | @step pid fault p r next hp hrest =>
      cases fault with
      | some e => exact hgone
      | none =>
          exact gone_exec hgone (confined_of_engaged (h.process hp) hrest)
            (not_reinsert_of_step hp hrest hkept)

theorem deleted_lookup {documentId : Nat}
    (h : (w.exec M (.deleteDocument userId documentId)).1 = .ok true) :
    (w.exec M (.deleteDocument userId documentId)).2.db.documents.lookup
      documentId = none := by
  have hdeleted := Except.ok.inj h
  replace hdeleted : (w.db.deleteDocument userId documentId).1 = true := hdeleted
  unfold Database.deleteDocument at hdeleted
  split at hdeleted
  · next hsome =>
      cases hlookup : w.db.documents.lookup documentId with
      | none =>
          unfold Database.getDocument at hsome
          rw [hlookup] at hsome
          cases hsome
      | some document =>
          rw [World.exec_document hlookup]
          exact if_pos ⟨hsome, rfl⟩
  · cases hdeleted

theorem gone_of_deleted {row : JobRow} {w0 : World}
    (h' : Contained row userId w0 d') (hdeleted : Deleted M row userId d a)
    (hact : act M d a = some d') : Gone row d'.world := by
  rcases h'.document with ⟨document, hdocument, _⟩ | hgone
  · rcases Option.any_eq_true _ _ |>.mp hdeleted with ⟨event', hevent, hrow⟩
    have hcall := eq_of_deletesRow hrow
    rw [hcall] at hevent
    rcases world_of_acted (acted_of_act hact) with
      ⟨_, _, _, hraise⟩ | ⟨_, r, _, hexec, hworld⟩
    · rcases hraise _ _ hevent with ⟨e, he⟩
      cases he
    · rw [hexec] at hevent
      have hr := congrArg Event.request (Option.some.inj hevent)
      replace hr : r = .deleteDocument userId row.documentId := hr
      subst hr
      simp only [Option.some.injEq, Event.mk.injEq, heq_eq_eq, true_and]
        at hevent
      rw [hworld, deleted_lookup hevent] at hdocument
      cases hdocument
  · exact hgone

/-!
# Finality
-/

theorem contained_of_run (hpresent : Present l.job w)
    {trace : List (Deployment × Action)}
    (hrun : Run (act M) (deleting w l userId) trace d)
    (halone : EachStep (fun _ a => NoArrival a) trace)
    (hkept : EachStep (fun d a => ¬ Reinserts M l.job d a) trace) :
    Contained l.job userId w d ∧
      ((exists step, step ∈ trace ∧
        Deleted M l.job userId step.1 step.2) -> Gone l.job d.world) := by
  induction hrun with
  | nil =>
      refine ⟨contained_deleting hpresent, ?_⟩
      intro hall
      rcases hall with ⟨step, hin, _⟩
      cases hin
  | @snoc trace s s' a hprev hact ih =>
      rcases eachStep_snoc.mp halone with ⟨hbefore, hlast⟩
      rcases eachStep_snoc.mp hkept with ⟨hkept, hkeptLast⟩
      rcases ih hbefore hkept with ⟨hcontained, hgone⟩
      have hnext := contained_step hcontained hlast hkeptLast hact
      refine ⟨hnext, ?_⟩
      intro hall
      rcases hall with ⟨step, hin, hdeleted⟩
      rcases List.mem_append.mp hin with hearlier | hnow
      · exact gone_step hcontained (hgone ⟨step, hearlier, hdeleted⟩) hlast
          hkeptLast hact
      · rw [List.mem_singleton.mp hnow] at hdeleted
        exact gone_of_deleted hnext hdeleted hact

theorem revived_step {row : JobRow} (h : Revived row d.world)
    (hact : act M d a = some d') : Revived row d'.world := by
  rcases world_of_acted (acted_of_act hact) with
    ⟨hdb, _⟩ | ⟨_, r, _, _, hworld⟩
  · unfold Revived
    rw [hdb]
    exact h
  · rw [hworld]
    exact revived_exec h r

theorem revived_of_run {row : JobRow} {trace : List (Deployment × Action)}
    (hrun : Run (act M) d trace d') (h : Revived row d.world) :
    Revived row d'.world := by
  induction hrun with
  | nil => exact h
  | snoc _ hact ih => exact revived_step ih hact

theorem revived_of_reinserts {row : JobRow} (h : Reinserts M row d a)
    (hact : act M d a = some d') : Revived row d'.world := by
  rcases h with ⟨r, answer, hevent, hreinsert⟩
  rcases world_of_acted (acted_of_act hact) with
    ⟨_, _, _, hraise⟩ | ⟨_, r', _, hexec, hworld⟩
  · rcases hraise _ _ hevent with ⟨e, he⟩
    cases he
  · rw [hexec] at hevent
    have hr := congrArg Event.request (Option.some.inj hevent)
    replace hr : r' = r := hr
    subst hr
    rw [hworld]
    cases r' with
    | upsertDocument docName sourcePath pageCount =>
        exact revived_of_reinsert hreinsert
    | _ => exact hreinsert.elim

theorem not_erased_of_revived {row : JobRow} {w0 w : World}
    (h : Revived row w) : ¬ Erased row w0 w := by
  rcases h with ⟨id, document, hdocument, hname, _⟩
  intro herased
  exact herased.left id document hdocument hname

/-- After a deletion nothing is left of the document, exactly if no
`upsert_document` has run while its row was gone. -/
theorem erased_iff_not_reinserts (hpresent : Present l.job w)
    {trace : List (Deployment × Action)}
    (hrun : Run (act M) (deleting w l userId) trace d)
    (halone : EachStep (fun _ a => NoArrival a) trace)
    (hdeleted : exists step, step ∈ trace ∧
      Deleted M l.job userId step.1 step.2) :
    Erased l.job w d.world <->
      EachStep (fun d a => ¬ Reinserts M l.job d a) trace := by
  constructor
  · intro herased step hstep hreinserts
    rcases hrun.exists_prefix hstep with ⟨before, after, htrace, _⟩
    rw [htrace] at hrun
    rcases hrun.split with ⟨middle, _, hrest⟩
    rcases step with ⟨d1, a1⟩
    rcases hrest.uncons with ⟨hd1, d2, hact, hafter⟩
    subst hd1
    exact not_erased_of_revived
      (revived_of_run hafter (revived_of_reinserts hreinserts hact)) herased
  · intro hkept
    rcases contained_of_run hpresent hrun halone hkept with ⟨hcontained, hgone⟩
    exact erased_of_gone (hgone hdeleted) hcontained.others

end Runs

/-!
# A deletion that the worker undoes
-/

def claimedUpload : World := (freshUpload.exec lengthModel .claimJob).2

def claimedLease : Lease where
  job := firstClaim
  expires := seconds visibilityTimeoutS

/-- The document is deleted while the worker is about to upsert it. -/
def deletedBeforeUpsert : List Action :=
  answered 0 8 ++ answered 1 4 ++ answered 0 20

def undoneDelete (trace : List (Deployment × Action)) (d : Deployment) : Bool :=
  (trace.all fun step => step.2.actor.isSome) ∧
    (trace.any fun step =>
      (event lengthModel step.1 step.2).any (deletesRow 1 1)) ∧
        d.processes.keys = [] ∧ d.world.db.chunksOf 2 ≠ [] ∧
          (d.world.db.documents.lookup 2).any fun document =>
            document.docName = firstClaim.docKey ∧ document.status = .ready

theorem present_claimedUpload : Present firstClaim claimedUpload := by
  have hany : (claimedUpload.db.documents.lookup 1).any
      (fun document => document.docName = firstClaim.docKey) = true := by
    decide +kernel
  rcases Option.any_eq_true _ _ |>.mp hany with ⟨document, hdocument, hname⟩
  exact ⟨document, hdocument, of_decide_eq_true hname⟩

theorem exists_run_deletedBeforeUpsert :
    exists trace d,
      Run (act lengthModel) (deleting claimedUpload claimedLease 1) trace d ∧
        undoneDelete trace d = true := by
  have hfollow :
      (follow (act lengthModel) (deleting claimedUpload claimedLease 1)
        deletedBeforeUpsert).any (fun out => undoneDelete out.1 out.2) = true := by
    decide +kernel
  exact exists_run_of_follow undoneDelete hfollow

theorem not_erased_of_undoneDelete {trace : List (Deployment × Action)}
    {d : Deployment} (h : undoneDelete trace d = true) :
    EachStep (fun _ a => NoArrival a) trace ∧
      (exists step, step ∈ trace ∧
        Deleted lengthModel firstClaim 1 step.1 step.2) ∧
      d.processes.keys = [] ∧ ¬ Erased firstClaim claimedUpload d.world := by
  rcases of_decide_eq_true h with ⟨halone, hdeleted, hkeys, _, hdocument⟩
  refine ⟨?_, ?_, hkeys, ?_⟩
  · intro step hstep
    have hactor := List.all_eq_true.mp halone step hstep
    rcases step with ⟨s, a⟩
    cases a with
    | spawn pid activity => cases hactor
    | _ => exact True.intro
  · rcases List.any_eq_true.mp hdeleted with ⟨step, hstep, hevent⟩
    exact ⟨step, hstep, hevent⟩
  · intro herased
    rcases Option.any_eq_true _ _ |>.mp hdocument with ⟨document, hlookup, hrow⟩
    exact herased.left 2 document hlookup (of_decide_eq_true hrow).left

theorem deletedBeforeUpsert_undoes_deletion :
    ¬ forall (w : World) (l : Lease) (userId : Nat) trace d,
      Present l.job w ->
      Run (act lengthModel) (deleting w l userId) trace d ->
      EachStep (fun _ a => NoArrival a) trace ->
      (exists step, step ∈ trace ∧
        Deleted lengthModel l.job userId step.1 step.2) ->
      d.processes.keys = [] -> Erased l.job w d.world := by
  intro hclaim
  rcases exists_run_deletedBeforeUpsert with ⟨trace, d, hrun, hundone⟩
  rcases not_erased_of_undoneDelete hundone with
    ⟨halone, hdeleted, hkeys, hrevived⟩
  exact hrevived (hclaim claimedUpload claimedLease 1 trace d
    present_claimedUpload hrun halone hdeleted hkeys)

theorem erased_iff_not_reinserts_deletedBeforeUpsert :
    exists trace d,
      Run (act lengthModel) (deleting claimedUpload claimedLease 1) trace d ∧
        ¬ Erased firstClaim claimedUpload d.world ∧
        (Erased firstClaim claimedUpload d.world <->
          EachStep (fun d a => ¬ Reinserts lengthModel firstClaim d a) trace) := by
  rcases exists_run_deletedBeforeUpsert with ⟨trace, d, hrun, hundone⟩
  rcases not_erased_of_undoneDelete hundone with
    ⟨halone, hdeleted, _, hrevived⟩
  exact ⟨trace, d, hrun, hrevived,
    erased_iff_not_reinserts present_claimedUpload hrun halone hdeleted⟩

end Deployment
end ChatDoc
