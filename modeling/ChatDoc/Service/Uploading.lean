import ChatDoc.Jobs.Slice
import ChatDoc.Service.Deployment

/-!
# Uploads in progress

An upload files a blob, a document and a job under a key of its own.  Until the
job is enqueued nobody else touches them, so how far an upload has come is a
fact about the world that only its own calls change.
-/

namespace ChatDoc

open Foundation
open Foundation.Program

theorem storageKey_injective {key key' : String}
    (h : storageKey key = storageKey key') : key = key' := by
  unfold storageKey at h
  exact String.append_left_inj _ |>.mp h

inductive UploadView where
  | reserved
  | saved
  | created (documentId : Nat)
  | enqueued

def UploadShows (w : World) (key : String) (contents : Pdf) :
    UploadView -> Prop
  | .reserved => w.db.findDocument key = none
  | .saved =>
      w.db.findDocument key = none ∧
        w.blobs (storageKey key) = some contents
  | .created documentId =>
      (exists d, w.db.documents.lookup documentId = some d ∧
        d.docName = key ∧ d.status = .processing) ∧
      (forall id job, w.db.jobs.lookup id = some job ->
        job.documentId ≠ documentId) ∧
      w.blobs (storageKey key) = some contents
  | .enqueued => True

theorem uploadShows_of_same {w w' : World} {key : String} {contents : Pdf}
    {v : UploadView} (h : UploadShows w key contents v) (hdb : w'.db = w.db)
    (hblobs : w'.blobs = w.blobs) : UploadShows w' key contents v := by
  unfold UploadShows
  rw [hdb, hblobs]
  exact h

namespace UploadView

def req (key : String) (contents : Pdf) (v : UploadView) : Request -> Prop
  | .queueDepth => True
  | .getStorage => True
  | .getDocument _ _ => True
  | .storageSave key' data =>
      key' = storageKey key ∧ data = contents ∧ v = .reserved
  | .createPendingDocument _ docName _ sourcePath =>
      docName = key ∧ sourcePath = storageKey key ∧ v = .saved
  | .enqueueJob documentId docKey pdfPath =>
      docKey = key ∧ pdfPath = storageKey key ∧ v = .created documentId
  | _ => False

def after (v : UploadView) : (r : Request) -> Except Exn (Reply r) -> UploadView
  | .storageSave _ _, .ok _ => .saved
  | .createPendingDocument _ _ _ _, .ok documentId => .created documentId
  | .enqueueJob _ _ _, .ok _ => .enqueued
  | _, _ => v

def sem : Semantics service UploadView :=
  fun r v reply v' => v' = v.after r reply

abbrev Safe {alpha : Type} (key : String) (contents : Pdf) (p : Proc alpha)
    (v : UploadView) : Prop :=
  Program.Safe sem (fun r v => v.req key contents r) (fun _ _ => True)
    (fun _ _ => True) p v

variable {key : String} {contents : Pdf} {v : UploadView}

theorem ask_safe {r : Request} {post : Reply r -> UploadView -> Prop}
    (hreq : v.req key contents r)
    (hpost : forall a, post a (v.after r (.ok a))) :
    Program.Safe sem (fun r v => v.req key contents r) post
      (fun _ _ => True) (ask r) v := by
  refine safe_perform hreq ?_ fun _ _ _ => True.intro
  intro a v' hv
  rw [show v' = v.after r (.ok a) from hv]
  exact hpost a

end UploadView

theorem uploadDoc_safe (userId : Nat) (hex : String) (file : UploadFile) :
    UploadView.Safe (docKey userId hex) file.contents
      (uploadDoc userId hex file) .reserved := by
  unfold uploadDoc
  split
  · exact True.intro
  apply safe_bind
  refine UploadView.ask_safe True.intro fun depth => ?_
  split
  · exact True.intro
  split
  · exact True.intro
  apply safe_bind
  refine UploadView.ask_safe True.intro fun _ => ?_
  apply safe_bind
  refine UploadView.ask_safe ⟨rfl, rfl, rfl⟩ fun _ => ?_
  apply safe_bind
  refine UploadView.ask_safe ⟨rfl, rfl, rfl⟩ fun documentId => ?_
  apply safe_bind
  refine UploadView.ask_safe ⟨rfl, rfl, rfl⟩ fun _ => ?_
  apply safe_bind
  refine UploadView.ask_safe True.intro fun row => ?_
  cases row with
  | none => exact True.intro
  | some document => exact True.intro

theorem upload_safe (userId : Nat) (hex : String) (file : UploadFile) :
    UploadView.Safe (docKey userId hex) file.contents
      (Activity.upload userId hex file).program .reserved := by
  apply safe_bind
  exact safe_mono (uploadDoc_safe userId hex file)
    (fun _ _ _ => True.intro) fun _ _ _ => True.intro

/-!
# The upload's own calls
-/

section Shows

variable {M : EmbeddingModel} {w : World} {key : String} {contents : Pdf}

theorem exec_findDocument_none {r : Request}
    (h : w.db.findDocument key = none)
    (hcreate : forall userId displayName sourcePath,
      r ≠ .createPendingDocument userId key displayName sourcePath)
    (hupsert : forall sourcePath pageCount,
      r ≠ .upsertDocument key sourcePath pageCount) :
    (w.exec M r).2.db.findDocument key = none := by
  rw [Database.findDocument_eq_none_iff] at h ⊢
  intro id d' hd' hname
  cases hd : w.db.documents.lookup id with
  | none =>
      rcases World.exec_document_new hd hd' with
        ⟨_, _, ⟨userId, docName, displayName, sourcePath, hr, hnew⟩ |
          ⟨docName, sourcePath, pageCount, hr, hnew⟩⟩
      · rw [hnew] at hname
        replace hname : docName = key := hname
        subst hname
        exact hcreate _ _ _ hr
      · rw [hnew] at hname
        replace hname : docName = key := hname
        subst hname
        exact hupsert _ _ hr
  | some d =>
      rw [World.exec_document hd] at hd'
      apply h id d hd
      rw [← hname]
      exact (World.identity_of_documentAfter hd').1.symm

theorem after_error (v : UploadView) (r : Request) (e : Exn) :
    v.after r (.error e) = v := by
  cases r <;> rfl

theorem exec_createPendingDocument {userId : Nat} {docName displayName : String}
    {sourcePath : String} (h : w.db.findDocument docName = none) :
    w.exec M (.createPendingDocument userId docName displayName sourcePath) =
      (.ok w.db.documents.next,
        { w with
          db := w.db.insertDocument
            (.pending w.now userId docName displayName sourcePath) h }) := by
  have hcreate : w.db.createPendingDocument w.now userId docName displayName
      sourcePath = (.ok w.db.documents.next, w.db.insertDocument
        (.pending w.now userId docName displayName sourcePath) h) := dif_pos h
  show (_, World.mk _ _ _) = _
  rw [hcreate]

theorem uploadShows_own {v : UploadView} {r : Request}
    (h : UploadShows w key contents v) (hreq : v.req key contents r)
    (fault : Option Exn) :
    UploadShows (w.answer M fault r).2 key contents
      (v.after r (w.answer M fault r).1) := by
  cases fault with
  | some e =>
      rw [World.answer_some, after_error]
      exact h
  | none =>
      rw [World.answer_none]
      cases r with
      | queueDepth => exact h
      | getStorage => exact h
      | getDocument userId documentId => exact h
      | storageSave key' data =>
          rcases hreq with ⟨hkey, hdata, hv⟩
          subst hkey hdata hv
          exact ⟨h, if_pos rfl⟩
      | createPendingDocument userId docName displayName sourcePath =>
          rcases hreq with ⟨hname, _, hv⟩
          subst hname hv
          rcases h with ⟨hfree, hblob⟩
          rw [exec_createPendingDocument hfree]
          refine ⟨⟨.pending w.now userId docName displayName sourcePath,
            (SerialTable.lookup_insert _ _ _).trans (if_pos rfl), rfl, rfl⟩,
            ?_, hblob⟩
          intro id job hjob hdocument
          have hsome := w.db.job_document hjob
          rw [hdocument, SerialTable.lookup_next] at hsome
          cases hsome
      | enqueueJob documentId docKey pdfPath =>
          rcases hreq with ⟨_, _, hv⟩
          subst hv
          rcases h with ⟨⟨d, hd, _⟩, _⟩
          have hsome : (w.db.documents.lookup documentId).isSome = true := by
            rw [hd]
            rfl
          have hok : (w.db.enqueueJob w.now documentId docKey pdfPath).1 =
              .ok w.db.jobs.next := by
            unfold Database.enqueueJob
            split
            · rfl
            · next hnone => exact absurd hsome hnone
          show UploadShows _ _ _ (UploadView.after _ (.enqueueJob _ _ _)
            (w.db.enqueueJob w.now documentId docKey pdfPath).1)
          rw [hok]
          exact True.intro
      | _ => exact hreq.elim

/-!
# Everybody else's calls
-/

/-- The calls that do not concern an upload in progress. -/
def UploadView.Foreign (w : World) (key : String) : Request -> Prop
  | .upsertDocument docName _ _ => docName ≠ key
  | .createPendingDocument _ docName _ _ => docName ≠ key
  | .enqueueJob documentId _ _ =>
      forall d, w.db.documents.lookup documentId = some d -> d.docName ≠ key
  | .updateDocumentStage documentId _ _ _ =>
      forall d, w.db.documents.lookup documentId = some d -> d.docName ≠ key
  | .markDocumentReady documentId _ =>
      forall d, w.db.documents.lookup documentId = some d -> d.docName ≠ key
  | .markDocumentFailed documentId _ =>
      forall d, w.db.documents.lookup documentId = some d -> d.docName ≠ key
  | .storageSave key' _ => key' ≠ storageKey key
  | .storageDelete key' => key' ≠ storageKey key
  | .deleteDocument _ _ => False
  | _ => True

theorem document_kept {id : Nat} {d : Document} {r : Request}
    (hd : w.db.documents.lookup id = some d) (hname : d.docName = key)
    (hforeign : UploadView.Foreign w key r) :
    (w.exec M r).2.db.documents.lookup id = some d := by
  have hother : forall {documentId : Nat},
      (forall d, w.db.documents.lookup documentId = some d ->
        d.docName ≠ key) -> id ≠ documentId := by
    intro documentId hne hid
    subst hid
    exact hne d hd hname
  rw [World.exec_document hd]
  cases r with
  | upsertDocument docName sourcePath pageCount =>
      refine congrArg some (if_neg ?_)
      rw [hname]
      exact Ne.symm hforeign
  | updateDocumentStage documentId stage current total =>
      exact congrArg some (if_neg (hother hforeign))
  | markDocumentReady documentId chunkCount =>
      exact congrArg some (if_neg (hother hforeign))
  | markDocumentFailed documentId error =>
      exact congrArg some (if_neg (hother hforeign))
  | deleteDocument userId documentId => exact hforeign.elim
  | _ => rfl

theorem blob_kept {r : Request} (hforeign : UploadView.Foreign w key r) :
    (w.exec M r).2.blobs (storageKey key) = w.blobs (storageKey key) := by
  rw [World.exec_blob]
  cases r with
  | storageSave key' data => exact if_neg (Ne.symm hforeign)
  | storageDelete key' => exact if_neg (Ne.symm hforeign)
  | _ => rfl

theorem free_kept {r : Request} (h : w.db.findDocument key = none)
    (hforeign : UploadView.Foreign w key r) :
    (w.exec M r).2.db.findDocument key = none := by
  apply exec_findDocument_none h
  · intro userId displayName sourcePath hr
    subst hr
    exact hforeign rfl
  · intro sourcePath pageCount hr
    subst hr
    exact hforeign rfl

theorem uploadShows_foreign {v : UploadView} {r : Request}
    (h : UploadShows w key contents v)
    (hforeign : UploadView.Foreign w key r) :
    UploadShows (w.exec M r).2 key contents v := by
  cases v with
  | reserved => exact free_kept h hforeign
  | saved =>
      exact ⟨free_kept h.left hforeign, (blob_kept hforeign).trans h.right⟩
  | created documentId =>
      rcases h with ⟨⟨d, hd, hname, hstatus⟩, hjobs, hblob⟩
      refine ⟨⟨d, document_kept hd hname hforeign, hname, hstatus⟩, ?_,
        (blob_kept hforeign).trans hblob⟩
      intro id job hjob
      cases hold : w.db.jobs.lookup id with
      | none =>
          rcases World.exec_job_new hold hjob with
            ⟨documentId', _, _, hr, _, hsome, hnew⟩
          subst hr hnew
          intro hid
          replace hid : documentId' = documentId := hid
          subst hid
          exact hforeign d hd hname
      | some old =>
          rw [World.exec_job hold] at hjob
          rw [(World.columns_of_jobAfter hjob).left]
          exact hjobs id old hold
  | enqueued => exact True.intro

theorem docName_ne_of_job {v : UploadView} {id : Nat} {job : Job}
    {d : Document} (h : UploadShows w key contents v) (hv : v ≠ .enqueued)
    (hjob : w.db.jobs.lookup id = some job)
    (hd : w.db.documents.lookup job.documentId = some d) :
    d.docName ≠ key := by
  cases v with
  | reserved => exact Database.findDocument_eq_none_iff.mp h _ d hd
  | saved => exact Database.findDocument_eq_none_iff.mp h.left _ d hd
  | created documentId =>
      rcases h with ⟨⟨d', hd', hname', _⟩, hjobs, _⟩
      intro hname
      exact hjobs id job hjob
        (w.db.docName_unique hd hd' (hname.trans hname'.symm))
  | enqueued => exact absurd rfl hv

theorem uploadForeign_of_own {row : JobRow} {s : Slice} {v : UploadView}
    {r : Request} (h : UploadShows w key contents v) (hv : v ≠ .enqueued)
    (hshows : Shows w row s) (hown : Own row r) :
    UploadView.Foreign w key r := by
  have hdocument : forall d,
      w.db.documents.lookup row.documentId = some d -> d.docName ≠ key := by
    intro d hd
    rw [← hshows.documentId] at hd
    exact docName_ne_of_job h hv hshows.job hd
  cases r with
  | upsertDocument docName sourcePath pageCount =>
      show docName ≠ key
      rw [hown.left, ← hshows.docName]
      exact hdocument _ hshows.document
  | updateDocumentStage documentId stage current total =>
      rw [show documentId = row.documentId from hown]
      exact hdocument
  | markDocumentReady documentId chunkCount =>
      rw [show documentId = row.documentId from hown]
      exact hdocument
  | markDocumentFailed documentId error =>
      rw [show documentId = row.documentId from hown]
      exact hdocument
  | createPendingDocument userId docName displayName sourcePath =>
      exact hown.elim
  | enqueueJob documentId docKey pdfPath => exact hown.elim
  | storageSave key' data => exact hown.elim
  | storageDelete key' => exact hown.elim
  | deleteDocument userId documentId => exact hown.elim
  | _ => exact True.intro

theorem uploadForeign_of_upload {key' : String} {contents' : Pdf}
    {v' : UploadView} {r : Request} (h' : UploadShows w key' contents' v')
    (hreq : v'.req key' contents' r) (hne : key' ≠ key) :
    UploadView.Foreign w key r := by
  cases r with
  | storageSave key'' data =>
      rw [hreq.left]
      exact fun heq => hne (storageKey_injective heq)
  | createPendingDocument userId docName displayName sourcePath =>
      show docName ≠ key
      rw [hreq.left]
      exact hne
  | enqueueJob documentId docKey pdfPath =>
      rcases hreq with ⟨_, _, hv⟩
      subst hv
      rcases h' with ⟨⟨d, hd, hname, _⟩, _⟩
      intro d' hd'
      rw [hd] at hd'
      cases hd'
      rw [hname]
      exact hne
  | upsertDocument docName sourcePath pageCount => exact hreq.elim
  | updateDocumentStage documentId stage current total => exact hreq.elim
  | markDocumentReady documentId chunkCount => exact hreq.elim
  | markDocumentFailed documentId error => exact hreq.elim
  | storageDelete key'' => exact hreq.elim
  | deleteDocument userId documentId => exact hreq.elim
  | _ => exact True.intro

end Shows

end ChatDoc
