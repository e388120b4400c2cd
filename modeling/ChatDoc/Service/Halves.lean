import ChatDoc.Service.Deployment
import ChatDoc.Service.Uploading

/-!
# Half states

An upload writes a blob, a document and a job, a delete removes a document and its
blob, and nothing makes the writes of a request one.  A request that is stopped
between them, or within the file that it saves, leaves something behind.
-/

namespace ChatDoc

open Foundation
open Foundation.Program

namespace World

def Orphan (w : World) (key : String) : Prop :=
  (w.blobs key).isSome ∧ w.Unreferenced key

def Bare (w : World) (documentId : Nat) : Prop :=
  exists d, w.db.documents.lookup documentId = some d ∧ w.blobs d.sourcePath = none

/-- A processing document without a job that is still to be done. -/
def Stranded (w : World) (documentId : Nat) : Prop :=
  (exists d, w.db.documents.lookup documentId = some d ∧ d.status = .processing) ∧
    forall id job, w.db.jobs.lookup id = some job -> job.documentId = documentId ->
      job.status ≠ .queued ∧ job.status ≠ .processing

structure Whole (w : World) : Prop where
  referenced : forall key, ¬ w.Orphan key
  stored : forall documentId, ¬ w.Bare documentId
  queued : forall documentId, ¬ w.Stranded documentId

structure Intact (w w' : World) : Prop where
  referenced : forall key, w'.Orphan key -> w.Orphan key
  stored : forall documentId, w'.Bare documentId -> w.Bare documentId
  queued : forall documentId, w'.Stranded documentId -> w.Stranded documentId

theorem whole_iff_intact {w w' : World} (h : w.Whole) : w'.Whole <-> w.Intact w' := by
  constructor
  · intro hwhole
    exact ⟨fun key hkey => absurd hkey (hwhole.referenced key),
      fun id hid => absurd hid (hwhole.stored id),
      fun id hid => absurd hid (hwhole.queued id)⟩
  · intro hintact
    exact ⟨fun key hkey => h.referenced key (hintact.referenced key hkey),
      fun id hid => h.stored id (hintact.stored id hid),
      fun id hid => h.queued id (hintact.queued id hid)⟩

def Same (w w' : World) : Prop := w'.db = w.db ∧ w'.blobs = w.blobs

theorem intact_of_same {v w w' : World} (h : w.Same w') : v.Intact w' <-> v.Intact w := by
  have horphan (key : String) : w'.Orphan key <-> w.Orphan key := by
    unfold Orphan Unreferenced
    rw [h.1, h.2]
  have hbare (id : Nat) : w'.Bare id <-> w.Bare id := by
    unfold Bare
    rw [h.1, h.2]
  have hstranded (id : Nat) : w'.Stranded id <-> w.Stranded id := by
    unfold Stranded
    rw [h.1]
  constructor
  · intro hintact
    exact ⟨fun key hkey => hintact.referenced key ((horphan key).mpr hkey),
      fun id hid => hintact.stored id ((hbare id).mpr hid),
      fun id hid => hintact.queued id ((hstranded id).mpr hid)⟩
  · intro hintact
    exact ⟨fun key hkey => hintact.referenced key ((horphan key).mp hkey),
      fun id hid => hintact.stored id ((hbare id).mp hid),
      fun id hid => hintact.queued id ((hstranded id).mp hid)⟩

theorem intact_refl (w : World) : w.Intact w :=
  ⟨fun _ h => h, fun _ h => h, fun _ h => h⟩

end World

/-!
# Where a request has stopped
-/

/-- A request comes to a stop: it has ended, or its process is killed before or within a call.
A call may raise without effect or after its effect, and saving a file may stop in the middle
of the file.  The list has the calls that had an effect.  A process that is killed within a call
leaves what the call leaves when it raises. -/
inductive Stops (M : EmbeddingModel) {alpha : Type} :
    Proc alpha -> World -> List Request -> World -> Prop where
  | here (p : Proc alpha) (w : World) : Stops M p w [] w
  | answered {r : Request} {next : service.Answer r -> Proc alpha} {a : Reply r}
      {w v w' : World} {elapsed : Time} {rest : List Request} :
      (w.elapse elapsed).exec M r = (.ok a, v) ->
      Stops M (next (.ok a)) v rest w' -> Stops M (.call r next) w (r :: rest) w'
  | raised {r : Request} {next : service.Answer r -> Proc alpha} {e : Exn} {w w' : World}
      {elapsed : Time} {rest : List Request} :
      Stops M (next (.error e)) (w.elapse elapsed) rest w' -> Stops M (.call r next) w rest w'
  | landed {r : Request} {next : service.Answer r -> Proc alpha} {a : Reply r} {e : Exn}
      {w v w' : World} {elapsed : Time} {rest : List Request} :
      (w.elapse elapsed).exec M r = (.ok a, v) ->
      Stops M (next (.error e)) v rest w' -> Stops M (.call r next) w (r :: rest) w'
  | torn {key : String} {data part : Pdf}
      {next : service.Answer (.storageSave key data) -> Proc alpha} {e : Exn} {w v w' : World}
      {elapsed : Time} {rest : List Request} :
      (w.elapse elapsed).exec M (.storageSave key part) = (.ok (), v) ->
      Stops M (next (.error e)) v rest w' ->
      Stops M (.call (.storageSave key data) next) w (.storageSave key data :: rest) w'

inductive Milestone where
  | saved
  | enqueued
  | rowDeleted
  | blobDeleted
deriving DecidableEq

def milestone : Request -> Option Milestone
  | .storageSave _ _ => some .saved
  | .enqueueJob _ _ _ => some .enqueued
  | .deleteDocument _ _ => some .rowDeleted
  | .storageDelete _ => some .blobDeleted
  | _ => none

def Reached (effects : List Request) (m : Milestone) : Prop :=
  exists r, r ∈ effects ∧ milestone r = some m

instance (effects : List Request) (m : Milestone) : Decidable (Reached effects m) :=
  decidable_of_iff (effects.any fun r => milestone r = some m) (by
    unfold Reached
    rw [List.any_eq_true]
    simp)

theorem not_reached_nil (m : Milestone) : ¬ Reached [] m := by
  rintro ⟨r, hr, _⟩
  cases hr

theorem reached_cons {r : Request} {effects : List Request} {m : Milestone} :
    Reached (r :: effects) m <-> milestone r = some m ∨ Reached effects m := by
  constructor
  · rintro ⟨r', hin, hm⟩
    rcases List.mem_cons.mp hin with rfl | hrest
    · exact .inl hm
    · exact .inr ⟨r', hrest, hm⟩
  · rintro (hm | ⟨r', hin, hm⟩)
    · exact ⟨r, List.mem_cons_self, hm⟩
    · exact ⟨r', List.mem_cons_of_mem _ hin, hm⟩

section Calls

variable {M : EmbeddingModel} {w v w' : World} {alpha : Type} {p : Proc alpha}
  {effects : List Request}

theorem exec_error {r : Request} {e : Exn} (h : (w.exec M r).1 = .error e) :
    (w.exec M r).2 = w := by
  cases r with
  | createPendingDocument userId docName displayName sourcePath =>
      show World.mk (w.db.createPendingDocument w.now userId docName displayName
        sourcePath).2 w.blobs w.now = w
      replace h : (w.db.createPendingDocument w.now userId docName displayName
        sourcePath).1 = .error e := h
      unfold Database.createPendingDocument at h ⊢
      split at h
      next => cases h
      next hname => rw [dif_neg hname]
  | enqueueJob documentId docKey pdfPath =>
      show World.mk (w.db.enqueueJob w.now documentId docKey pdfPath).2 w.blobs w.now = w
      replace h : (w.db.enqueueJob w.now documentId docKey pdfPath).1 = .error e := h
      unfold Database.enqueueJob at h ⊢
      split at h
      next => cases h
      next hdocument => rw [dif_neg hdocument]
  | insertChunk row =>
      show World.mk (w.db.insertChunk row).2 w.blobs w.now = w
      replace h : (w.db.insertChunk row).1 = .error e := h
      unfold Database.insertChunk at h ⊢
      split at h
      next => cases h
      next hdocument => rw [dif_neg hdocument]
  | openLocal key => rfl
  | _ => cases h

def answeredCall : Event service -> Option Request
  | ⟨r, .ok _⟩ => some r
  | ⟨_, .error _⟩ => none

theorem stops_of_steps {q : Proc alpha} {events : List (Event service)}
    (h : Steps (World.sem M) p w events q w') :
    Stops M p w (events.filterMap answeredCall) w' := by
  induction h with
  | refl p w => exact .here p w
  | @call r next answer w v w' events q hsem hrest ih =>
      rcases hsem with ⟨elapsed, fault, hanswer⟩
      cases fault with
      | some e =>
          cases hanswer
          exact .raised ih
      | none =>
          rw [World.answer_none] at hanswer
          cases answer with
          | ok a => exact .answered hanswer ih
          | error e =>
              have hkept := exec_error (congrArg Prod.fst hanswer)
              rw [hanswer] at hkept
              rw [show v = w.elapse elapsed from hkept] at ih
              exact .raised ih

theorem stops_of_ended (hended : p.Ended) (h : Stops M p w effects w') :
    w' = w ∧ effects = [] := by
  cases h with
  | here _ _ => exact ⟨rfl, rfl⟩
  | answered _ _ => exact hended.elim
  | raised _ => exact hended.elim
  | landed _ _ => exact hended.elim
  | torn _ _ => exact hended.elim

/-- A request has stopped at a call, or within one that saves a file, or has gone on from a
reply.  When a call raises after its effect, the request stops as if it had been killed there. -/
theorem stops_ask {r : Request} {f : Reply r -> Proc alpha}
    (h : Stops M (ask r >>= f) w effects w') :
    (w.Same w' ∧ effects = []) ∨
      (exists key data part, r = .storageSave key data ∧ effects = [.storageSave key data] ∧
        w'.db = w.db ∧
        w'.blobs = fun k => if k = key then some part else w.blobs k) ∨
      exists a v rest elapsed, (w.elapse elapsed).exec M r = (.ok a, v) ∧
        effects = r :: rest ∧ Stops M (f a) v rest w' := by
  cases h with
  | here _ _ => exact .inl ⟨⟨rfl, rfl⟩, rfl⟩
  | @answered _ _ a _ v _ elapsed rest hexec hrest =>
      exact .inr (.inr ⟨a, v, rest, elapsed, hexec, rfl, hrest⟩)
  | @raised _ _ e _ _ elapsed rest hrest =>
      rcases stops_of_ended (p := Program.raise e) True.intro hrest with ⟨rfl, rfl⟩
      exact .inl ⟨⟨rfl, rfl⟩, rfl⟩
  | @landed _ _ a e _ v _ elapsed rest hexec hrest =>
      rcases stops_of_ended (p := Program.raise e) True.intro hrest with ⟨rfl, rfl⟩
      exact .inr (.inr ⟨a, _, [], elapsed, hexec, rfl, .here _ _⟩)
  | @torn key data part _ e _ v _ elapsed rest hexec hrest =>
      rcases stops_of_ended (p := Program.raise e) True.intro hrest with ⟨rfl, rfl⟩
      cases hexec
      exact .inr (.inl ⟨key, data, part, rfl, rfl, rfl, rfl⟩)

theorem stops_ask_atomic {r : Request} {f : Reply r -> Proc alpha}
    (hatomic : milestone r ≠ some .saved) (h : Stops M (ask r >>= f) w effects w') :
    (w.Same w' ∧ effects = []) ∨
      exists a v rest elapsed, (w.elapse elapsed).exec M r = (.ok a, v) ∧
        effects = r :: rest ∧ Stops M (f a) v rest w' := by
  rcases stops_ask h with hsame | ⟨key, data, part, rfl, _⟩ | hanswered
  · exact .inl hsame
  · exact absurd rfl hatomic
  · exact .inr hanswered

variable {P : List Request -> Prop}

theorem intact_iff_of_end (hnone : P []) (hended : p.Ended) (h : Stops M p v effects w')
    (hv : w.Same v) : w.Intact w' <-> P effects := by
  rcases stops_of_ended hended h with ⟨rfl, rfl⟩
  rw [World.intact_of_same hv]
  exact iff_of_true w.intact_refl hnone

theorem intact_iff_of_ask {r : Request} {f : Reply r -> Proc alpha} (hnone : P [])
    (hatomic : milestone r ≠ some .saved) (hquiet : forall rest, P (r :: rest) <-> P rest)
    (h : Stops M (ask r >>= f) v effects w') (hv : w.Same v)
    (hnext : forall a u rest elapsed, (v.elapse elapsed).exec M r = (.ok a, u) ->
      Stops M (f a) u rest w' -> (w.Intact w' <-> P rest)) :
    w.Intact w' <-> P effects := by
  rcases stops_ask_atomic hatomic h with ⟨hsame, rfl⟩ | ⟨a, u, rest, elapsed, hexec, rfl, hrest⟩
  · rw [World.intact_of_same hsame, World.intact_of_same hv]
    exact iff_of_true w.intact_refl hnone
  · rw [hquiet rest]
    exact hnext a u rest elapsed hexec hrest

end Calls

/-!
# Uploads
-/

structure World.Unused (w : World) (key : String) : Prop where
  document : w.db.findDocument key = none
  blob : w.blobs (storageKey key) = none
  reference : w.Unreferenced (storageKey key)

section Upload

variable {M : EmbeddingModel} {w v w' : World} {key : String} {contents : Pdf}
  {documentId : Nat}

structure Saved (w v : World) (key : String) (contents : Pdf) : Prop where
  db : v.db = w.db
  blobs : v.blobs = fun k => if k = storageKey key then some contents else w.blobs k

structure Filed (w v : World) (key : String) (contents : Pdf) (documentId : Nat) :
    Prop where
  fresh : w.db.documents.lookup documentId = none
  documents : exists d, d.status = .processing ∧ d.sourcePath = storageKey key ∧
    forall id, v.db.documents.lookup id =
      if id = documentId then some d else w.db.documents.lookup id
  blobs : v.blobs = fun k => if k = storageKey key then some contents else w.blobs k

structure Created (w v : World) (key : String) (contents : Pdf) (documentId : Nat) :
    Prop extends Filed w v key contents documentId where
  jobs : v.db.jobs = w.db.jobs

structure Enqueued (w v : World) (key : String) (contents : Pdf) (documentId : Nat) :
    Prop extends Filed w v key contents documentId where
  job : exists id job, v.db.jobs.lookup id = some job ∧ job.documentId = documentId ∧
    job.status = .queued
  jobs : forall id job, w.db.jobs.lookup id = some job ->
    v.db.jobs.lookup id = some job

theorem not_intact_of_saved (hunused : w.Unused key) (h : Saved w v key contents) :
    ¬ w.Intact v := by
  intro hintact
  have horphan : v.Orphan (storageKey key) := by
    refine ⟨?_, ?_⟩
    · rw [h.blobs]
      dsimp only
      rw [if_pos rfl]
      rfl
    · unfold World.Unreferenced
      rw [h.db]
      exact hunused.reference
  have hbefore := (hintact.referenced _ horphan).1
  rw [hunused.blob] at hbefore
  cases hbefore

theorem not_intact_of_created (h : Created w v key contents documentId) :
    ¬ w.Intact v := by
  intro hintact
  have hstranded : v.Stranded documentId := by
    rcases h.documents with ⟨d, hstatus, _, hlookup⟩
    refine ⟨⟨d, ?_, hstatus⟩, ?_⟩
    · rw [hlookup, if_pos rfl]
    · intro id job hjob hdocument
      rw [h.jobs] at hjob
      have hsome := w.db.job_document hjob
      rw [hdocument, h.fresh] at hsome
      cases hsome
  rcases (hintact.queued _ hstranded).1 with ⟨d, hd, _⟩
  rw [h.fresh] at hd
  cases hd

theorem intact_of_enqueued (hunused : w.Unused key)
    (h : Enqueued w v key contents documentId) : w.Intact v := by
  rcases h.documents with ⟨d, hstatus, hpath, hlookup⟩
  have hold {id : Nat} {d' : Document} (hid : id ≠ documentId)
      (hd' : v.db.documents.lookup id = some d') :
      w.db.documents.lookup id = some d' := by
    rw [hlookup, if_neg hid] at hd'
    exact hd'
  constructor
  · rintro k ⟨hblob, hfree⟩
    have hk : k ≠ storageKey key := by
      rintro rfl
      refine hfree documentId d ?_ hpath
      rw [hlookup, if_pos rfl]
    rw [h.blobs] at hblob
    dsimp only at hblob
    rw [if_neg hk] at hblob
    refine ⟨hblob, ?_⟩
    intro id d' hd'
    apply hfree id d'
    rw [hlookup, if_neg ?_]
    · exact hd'
    · rintro rfl
      rw [h.fresh] at hd'
      cases hd'
  · rintro id ⟨d', hd', hnone⟩
    rw [h.blobs] at hnone
    dsimp only at hnone
    by_cases hid : id = documentId
    · rw [hlookup, if_pos hid] at hd'
      cases hd'
      rw [hpath, if_pos rfl] at hnone
      cases hnone
    · have hd := hold hid hd'
      rw [if_neg (hunused.reference id d' hd)] at hnone
      exact ⟨d', hd, hnone⟩
  · rintro id ⟨⟨d', hd', hprocessing⟩, hjobs⟩
    by_cases hid : id = documentId
    · rcases h.job with ⟨jobId, job, hjob, hdocument, hqueued⟩
      exact absurd hqueued (hjobs jobId job hjob (hdocument.trans hid.symm)).1
    · exact ⟨⟨d', hold hid hd', hprocessing⟩,
        fun jobId job hjob => hjobs jobId job (h.jobs jobId job hjob)⟩

/-!
# Stopping an upload
-/

variable {userId : Nat} {effects : List Request}

def Reads {alpha : Type} (M : EmbeddingModel) (p : Proc alpha) : Prop :=
  forall v effects w', Stops M p v effects w' -> v.Same w'

theorem exec_enqueueJob (h : (w.db.documents.lookup documentId).isSome = true) :
    w.exec M (.enqueueJob documentId key (storageKey key)) =
      (.ok w.db.jobs.next,
        { w with
          db := w.db.insertJob (.enqueued w.now documentId key (storageKey key)) h }) := by
  have hinsert : w.db.enqueueJob w.now documentId key (storageKey key) =
      (.ok w.db.jobs.next,
        w.db.insertJob (.enqueued w.now documentId key (storageKey key)) h) := dif_pos h
  show (_, World.mk _ _ _) = _
  rw [hinsert]

theorem enqueued_of_created {elapsed jobId : Nat} {u : World}
    (h : Created w v key contents documentId)
    (hexec : (v.elapse elapsed).exec M (.enqueueJob documentId key (storageKey key)) =
      (.ok jobId, u)) : Enqueued w u key contents documentId := by
  have hdocument :
      ((v.elapse elapsed).db.documents.lookup documentId).isSome = true := by
    rcases h.documents with ⟨d, _, _, hlookup⟩
    show (v.db.documents.lookup documentId).isSome = true
    rw [hlookup, if_pos rfl]
    rfl
  rw [exec_enqueueJob hdocument] at hexec
  cases hexec
  refine ⟨⟨h.fresh, h.documents, h.blobs⟩, ?_, ?_⟩
  · refine ⟨v.db.jobs.next,
      .enqueued (v.elapse elapsed).now documentId key (storageKey key), ?_, rfl, rfl⟩
    exact (SerialTable.lookup_insert _ _ _).trans (if_pos rfl)
  · intro id job hjob
    rw [← h.jobs] at hjob
    exact SerialTable.lookup_insert_of_some hjob

theorem created_iff_enqueued {rest : Proc Document} (hrest : Reads M rest)
    (hunused : w.Unused key) (h : Created w v key contents documentId)
    (hstops : Stops M (do
      let _ ← ask (.enqueueJob documentId key (storageKey key))
      rest) v effects w') :
    w.Intact w' <-> Reached effects .enqueued := by
  rcases stops_ask_atomic (by simp [milestone]) hstops with
    ⟨hsame, rfl⟩ | ⟨jobId, u, later, elapsed, hexec, rfl, hlater⟩
  · rw [World.intact_of_same hsame]
    exact iff_of_false (not_intact_of_created h) (not_reached_nil .enqueued)
  · refine iff_of_true ?_ (reached_cons.mpr (.inl rfl))
    rw [World.intact_of_same (hrest _ _ _ hlater)]
    exact intact_of_enqueued hunused (enqueued_of_created h hexec)

theorem saved_iff_enqueued {name : String} {rest : Nat -> Proc Document}
    (hrest : forall documentId, Reads M (rest documentId)) (hunused : w.Unused key)
    (h : Saved w v key contents)
    (hstops : Stops M (do
      let documentId ← ask (.createPendingDocument userId key name (storageKey key))
      let _ ← ask (.enqueueJob documentId key (storageKey key))
      rest documentId) v effects w') :
    w.Intact w' <-> Reached effects .enqueued := by
  rcases stops_ask_atomic (by simp [milestone]) hstops with
    ⟨hsame, rfl⟩ | ⟨documentId, u, later, elapsed, hexec, rfl, hlater⟩
  · rw [World.intact_of_same hsame]
    exact iff_of_false (not_intact_of_saved hunused h) (not_reached_nil .enqueued)
  · have hname : (v.elapse elapsed).db.findDocument key = none := by
      show v.db.findDocument key = none
      rw [h.db]
      exact hunused.document
    rw [exec_createPendingDocument hname] at hexec
    cases hexec
    have hcreated : Created w { v.elapse elapsed with
        db := v.db.insertDocument
          (.pending (v.elapse elapsed).now userId key name (storageKey key)) hname }
        key contents v.db.documents.next := by
      refine ⟨⟨?_, ?_, h.blobs⟩, ?_⟩
      · rw [h.db, SerialTable.lookup_next]
      · refine ⟨.pending (v.elapse elapsed).now userId key name (storageKey key), rfl, rfl,
          ?_⟩
        intro id
        rw [← h.db]
        exact SerialTable.lookup_insert _ _ _
      · show v.db.jobs = w.db.jobs
        rw [h.db]
    rw [created_iff_enqueued (hrest _) hunused hcreated hlater, reached_cons]
    exact (or_iff_right (by simp [milestone])).symm

theorem reads_response {respond : Option Document -> Proc Document}
    (hended : forall row, (respond row).Ended) (documentId : Nat) :
    Reads M (ask (.getDocument userId documentId) >>= respond) := by
  intro v effects w' h
  rcases stops_ask_atomic (by simp [milestone]) h with
    ⟨hsame, _⟩ | ⟨row, u, rest, elapsed, hexec, _, hrest⟩
  · exact hsame
  · have hend := (stops_of_ended (hended row) hrest).1
    cases hexec
    rw [hend]
    exact ⟨rfl, rfl⟩

/-- The statements of an upload from the one that saves its blob, in whole or in part. -/
theorem intact_iff_of_saving {name : String} {rest : Nat -> Proc Document}
    (hrest : forall documentId, Reads M (rest documentId)) (hunused : w.Unused key)
    (hstops : Stops M (do
      ask (.storageSave (storageKey key) contents)
      let documentId ← ask (.createPendingDocument userId key name (storageKey key))
      let _ ← ask (.enqueueJob documentId key (storageKey key))
      rest documentId) v effects w')
    (hv : w.Same v) :
    w.Intact w' <-> (Reached effects .saved -> Reached effects .enqueued) := by
  rcases stops_ask hstops with
    ⟨hsame, rfl⟩ | ⟨k, data, part, hsave, rfl, hdb, hblobs⟩ |
      ⟨_, u, rest, elapsed, hexec, rfl, h⟩
  · rw [World.intact_of_same hsame, World.intact_of_same hv]
    exact iff_of_true w.intact_refl fun hsaved => absurd hsaved (not_reached_nil .saved)
  · cases hsave
    have hpart : Saved w w' key part := by
      refine ⟨hdb.trans hv.1, ?_⟩
      rw [hblobs, hv.2]
    refine iff_of_false (not_intact_of_saved hunused hpart) ?_
    simp [Reached, milestone]
  · cases hexec
    have hsaved : Saved w { v.elapse elapsed with
        blobs := fun k => if k = storageKey key then some contents else v.blobs k }
        key contents := by
      refine ⟨hv.1, ?_⟩
      rw [hv.2]
    rw [saved_iff_enqueued hrest hunused hsaved h, reached_cons, reached_cons]
    simp [milestone]

/-- An upload leaves something half done exactly if it is stopped after it has written to its
blob and before it has queued its job. -/
theorem upload_intact_iff {hex : String} {file : UploadFile}
    (hunused : w.Unused (docKey userId hex))
    (hstops : Stops M (uploadDoc userId hex file) w effects w') :
    w.Intact w' <-> (Reached effects .saved -> Reached effects .enqueued) := by
  let P (effects : List Request) := Reached effects .saved -> Reached effects .enqueued
  have hnone : P [] := fun hsaved => absurd hsaved (not_reached_nil .saved)
  have hquiet {r : Request} (hr : milestone r = none) (rest : List Request) :
      P (r :: rest) <-> P rest := by
    simp only [P, reached_cons, hr, reduceCtorEq, false_or]
  have hatomic {r : Request} (hr : milestone r = none) : milestone r ≠ some .saved := by
    rw [hr]
    simp
  unfold uploadDoc at hstops
  split at hstops
  next => exact intact_iff_of_end hnone (p := Program.raise _) True.intro hstops ⟨rfl, rfl⟩
  next =>
    refine intact_iff_of_ask hnone (hatomic rfl) (hquiet rfl) hstops ⟨rfl, rfl⟩ ?_
    intro depth v rest elapsed hexec h
    cases hexec
    split at h
    next => exact intact_iff_of_end hnone (p := Program.raise _) True.intro h ⟨rfl, rfl⟩
    next =>
      split at h
      next => exact intact_iff_of_end hnone (p := Program.raise _) True.intro h ⟨rfl, rfl⟩
      next =>
        refine intact_iff_of_ask hnone (hatomic rfl) (hquiet rfl) h ⟨rfl, rfl⟩ ?_
        intro _ v rest elapsed' hexec h
        cases hexec
        refine intact_iff_of_saving ?_ hunused h ⟨rfl, rfl⟩
        intro documentId
        refine reads_response ?_ documentId
        intro row
        cases row with
        | none => exact True.intro
        | some document => exact True.intro

end Upload

/-!
# Deletes
-/

section Delete

variable {M : EmbeddingModel} {w v w' : World} {userId documentId : Nat} {d : Document}

theorem lookup_of_getDocument (h : w.db.getDocument userId documentId = some d) :
    w.db.documents.lookup documentId = some d :=
  (Option.filter_eq_some_iff.mp h).1

theorem not_intact_of_rowDeleted (hunique : w.KeysUnique)
    (hd : w.db.documents.lookup documentId = some d)
    (hblob : (w.blobs d.sourcePath).isSome = true)
    (hdb : v.db = w.db.deleteDocumentRow documentId) (hblobs : v.blobs = w.blobs) :
    ¬ w.Intact v := by
  intro hintact
  have horphan : v.Orphan d.sourcePath := by
    refine ⟨?_, World.unreferenced_of_unique hunique hd hdb⟩
    rw [hblobs]
    exact hblob
  exact (hintact.referenced _ horphan).2 documentId d hd rfl

theorem intact_of_deleted (hunique : w.KeysUnique)
    (hd : w.db.documents.lookup documentId = some d)
    (hdb : v.db = w.db.deleteDocumentRow documentId)
    (hblob : v.blobs d.sourcePath = none)
    (hother : forall key, key ≠ d.sourcePath -> v.blobs key = w.blobs key) :
    w.Intact v := by
  have hlookup (id : Nat) : v.db.documents.lookup id =
      if id = documentId then none else w.db.documents.lookup id := by
    rw [hdb, Database.lookup_deleteDocumentRow]
  constructor
  · rintro key ⟨hsome, hfree⟩
    have hkey : key ≠ d.sourcePath := by
      rintro rfl
      rw [hblob] at hsome
      cases hsome
    refine ⟨hother key hkey ▸ hsome, ?_⟩
    intro id d' hd' hpath
    refine hfree id d' ?_ hpath
    rw [hlookup, if_neg ?_]
    · exact hd'
    · rintro rfl
      rw [hd] at hd'
      cases hd'
      exact hkey hpath.symm
  · rintro id ⟨d', hd', hnone⟩
    rw [hlookup] at hd'
    split at hd'
    next => cases hd'
    next hid =>
      refine ⟨d', hd', ?_⟩
      rw [← hother d'.sourcePath fun hpath => hid (hunique id documentId d' d hd' hd hpath)]
      exact hnone
  · rintro id ⟨⟨d', hd', hprocessing⟩, hjobs⟩
    rw [hlookup] at hd'
    split at hd'
    next => cases hd'
    next hid =>
      refine ⟨⟨d', hd', hprocessing⟩, ?_⟩
      intro jobId job hjob hdocument
      refine hjobs jobId job ?_ hdocument
      rw [hdb]
      show (w.db.jobs.delete fun _ r => r.documentId = documentId).lookup jobId = some job
      rw [SerialTable.lookup_delete, hjob]
      simp [Option.filter, hdocument, hid]

variable {effects : List Request}

theorem exec_deleteDocument_eq {found : Bool} {db : Database}
    (h : w.db.deleteDocument userId documentId = (found, db)) :
    w.exec M (.deleteDocument userId documentId) = (.ok found, { w with db := db }) := by
  show (Except.ok (w.db.deleteDocument userId documentId).1,
    World.mk (w.db.deleteDocument userId documentId).2 w.blobs w.now) = _
  rw [h]

theorem exec_deleteDocument (hd : w.db.getDocument userId documentId = some d) :
    w.exec M (.deleteDocument userId documentId) =
      (.ok true, { w with db := w.db.deleteDocumentRow documentId }) := by
  apply exec_deleteDocument_eq
  unfold Database.deleteDocument
  rw [hd]
  rfl

theorem exec_deleteDocument_none (hd : w.db.getDocument userId documentId = none) :
    w.exec M (.deleteDocument userId documentId) = (.ok false, w) := by
  apply exec_deleteDocument_eq
  unfold Database.deleteDocument
  rw [hd]
  rfl

theorem rowDeleted_iff (hunique : w.KeysUnique)
    (hd : w.db.documents.lookup documentId = some d)
    (hdb : v.db = w.db.deleteDocumentRow documentId) (hblobs : v.blobs = w.blobs)
    (hstops : Stops M (do
      ask .getStorage
      ask (.storageDelete d.sourcePath)) v effects w') :
    w.Intact w' <->
      ((w.blobs d.sourcePath).isSome = true -> Reached effects .blobDeleted) := by
  have hstopped {u : World} (hu : u.db = w.db.deleteDocumentRow documentId)
      (hkept : u.blobs = w.blobs) (hsame : u.Same w') :
      w.Intact w' <->
        ((w.blobs d.sourcePath).isSome = true -> Reached [] .blobDeleted) := by
    rw [World.intact_of_same hsame]
    cases hblob : (w.blobs d.sourcePath).isSome with
    | true =>
        exact iff_of_false (not_intact_of_rowDeleted hunique hd hblob hu hkept)
          fun hreached => not_reached_nil .blobDeleted (hreached rfl)
    | false =>
        refine iff_of_true (intact_of_deleted hunique hd hu ?_ ?_) fun hsome => nomatch hsome
        · rw [hkept]
          exact Option.isSome_eq_false_iff.mp hblob |> Option.isNone_iff_eq_none.mp
        · intro key _
          rw [hkept]
  rcases stops_ask_atomic (by simp [milestone]) hstops with
    ⟨hsame, rfl⟩ | ⟨_, u, rest, elapsed, hexec, rfl, h⟩
  · exact hstopped hdb hblobs hsame
  · cases hexec
    rw [reached_cons, or_iff_right (by simp [milestone])]
    rw [← bind_ret (ask (.storageDelete d.sourcePath))] at h
    rcases stops_ask_atomic (by simp [milestone]) h with
      ⟨hsame, rfl⟩ | ⟨_, u, rest, elapsed', hexec, rfl, hlast⟩
    · exact hstopped hdb hblobs hsame
    · have hend := (stops_of_ended (p := Program.ret _) True.intro hlast).1
      cases hexec
      rw [hend]
      refine iff_of_true (intact_of_deleted hunique hd hdb (if_pos rfl) ?_)
        fun _ => reached_cons.mpr (.inl rfl)
      intro key hkey
      rw [← hblobs]
      exact if_neg hkey

/-- A delete leaves something half done exactly if it is stopped after it has deleted
the row of a document with a blob and before it has deleted the blob. -/
theorem delete_intact_iff (hunique : w.KeysUnique)
    (hstops : Stops M (deleteDoc userId documentId) w effects w') :
    w.Intact w' <->
      forall d, w.db.getDocument userId documentId = some d ->
        (w.blobs d.sourcePath).isSome = true ->
          Reached effects .rowDeleted -> Reached effects .blobDeleted := by
  have hnone : forall d, w.db.getDocument userId documentId = some d ->
      (w.blobs d.sourcePath).isSome = true ->
        Reached [] .rowDeleted -> Reached [] .blobDeleted :=
    fun _ _ _ hdeleted => absurd hdeleted (not_reached_nil .rowDeleted)
  unfold deleteDoc at hstops
  rcases stops_ask_atomic (by simp [milestone]) hstops with
    ⟨hsame, rfl⟩ | ⟨row, v, rest, elapsed, hexec, rfl, h⟩
  · rw [World.intact_of_same hsame]
    exact iff_of_true w.intact_refl hnone
  · cases hexec
    rcases stops_ask_atomic (by simp [milestone]) h with
      ⟨hsame, rfl⟩ | ⟨_, u, rest, elapsed', hexec, rfl, h⟩
    · have hread : w.Same (w.elapse elapsed) := ⟨rfl, rfl⟩
      rw [World.intact_of_same hsame, World.intact_of_same hread]
      refine iff_of_true w.intact_refl ?_
      simp [reached_cons, milestone, not_reached_nil]
    · cases hread : w.db.getDocument userId documentId with
      | none =>
          have hmissing : ((w.elapse elapsed).elapse elapsed').db.getDocument userId
              documentId = none := hread
          rw [exec_deleteDocument_none hmissing] at hexec
          cases hexec
          have hend := (stops_of_ended (p := Program.raise _) True.intro h).1
          have hkept : w.Same ((w.elapse elapsed).elapse elapsed') := ⟨rfl, rfl⟩
          rw [hend, World.intact_of_same hkept]
          exact iff_of_true w.intact_refl fun d hd => nomatch hd
      | some d =>
          have hfound : ((w.elapse elapsed).elapse elapsed').db.getDocument userId
              documentId = some d := hread
          rw [exec_deleteDocument hfound] at hexec
          cases hexec
          have hrow : (w.elapse elapsed).db.getDocument userId documentId = some d := hread
          rw [hrow] at h
          rw [rowDeleted_iff hunique (lookup_of_getDocument hread) (by rfl) (by rfl) h]
          simp [reached_cons, milestone]

end Delete

/-!
# Requests that are stopped
-/

/-- An upload or a delete that is stopped at or within some call, by an exception or because
its process is killed, leaves nothing new half done exactly if an upload does not stop between
writing to its blob and queueing its job, and a delete of a document with a blob not between
deleting the row and deleting the blob.  From a state with nothing half done it then leads to
such a state. -/
theorem noHalfState_iff (M : EmbeddingModel) {w w' : World} (hunique : w.KeysUnique) :
    (forall userId hex file effects, w.Unused (docKey userId hex) ->
      Stops M (uploadDoc userId hex file) w effects w' ->
        (w.Intact w' <-> (Reached effects .saved -> Reached effects .enqueued))) ∧
      (forall userId documentId effects,
        Stops M (deleteDoc userId documentId) w effects w' ->
          (w.Intact w' <->
            forall d, w.db.getDocument userId documentId = some d ->
              (w.blobs d.sourcePath).isSome = true ->
                Reached effects .rowDeleted -> Reached effects .blobDeleted)) ∧
        (w.Whole -> (w'.Whole <-> w.Intact w')) :=
  ⟨fun _ _ _ _ hunused hstops => upload_intact_iff hunused hstops,
    fun _ _ _ hstops => delete_intact_iff hunique hstops,
    fun hwhole => World.whole_iff_intact hwhole⟩

theorem sem_exec (M : EmbeddingModel) (r : Request) (w : World) :
    World.sem M r w (w.exec M r).1 (w.exec M r).2 := ⟨0, none, rfl⟩

def firstCalls {alpha : Type} (calls : Nat) (p : Proc alpha) (w : World) :
    List (Event service) × Proc alpha × World :=
  advance (fun r w => w.exec Deployment.lengthModel r) calls p w

theorem stops_firstCalls {alpha : Type} (calls : Nat) (p : Proc alpha) (w : World) :
    Stops Deployment.lengthModel p w ((firstCalls calls p w).1.filterMap answeredCall)
      (firstCalls calls p w).2.2 :=
  stops_of_steps (steps_advance (sem_exec Deployment.lengthModel) calls p w)

theorem unused_init (key : String) : Deployment.init.world.Unused key :=
  ⟨rfl, rfl, fun _ _ hd => nomatch hd⟩

theorem keysUnique_init : Deployment.init.world.KeysUnique :=
  fun _ _ _ _ hd => nomatch hd

theorem whole_init : Deployment.init.world.Whole := by
  constructor
  · rintro key ⟨hsome, _⟩
    cases hsome
  · rintro id ⟨d, hd, _⟩
    cases hd
  · rintro id ⟨⟨d, hd, _⟩, _⟩
    cases hd

/-- An upload to an empty service that is killed after some of its six calls. -/
def uploadKilledAfter (calls : Nat) : World :=
  (firstCalls calls (uploadDoc 1 "a" Deployment.onePage) Deployment.init.world).2.2

theorem keysUnique_uploaded : (uploadKilledAfter 6).KeysUnique := by
  have hone : forall entry, entry ∈ (uploadKilledAfter 6).db.documents.rows ->
      entry.1 = 1 := by
    decide +kernel
  intro id id' d d' hd hd' _
  rw [SerialTable.lookup_eq_some_iff] at hd hd'
  exact (hone _ hd).trans (hone _ hd').symm

/-- An upload that is killed before its job is queued, one that stops within the file it saves,
one that comes to its end, and a delete of what that one has uploaded, killed before the blob
is deleted. -/
theorem noHalfState_iff_killed :
    ¬ Deployment.init.world.Intact (uploadKilledAfter 4) ∧
      ¬ (uploadKilledAfter 4).Whole ∧
      (exists w, Stops Deployment.lengthModel (uploadDoc 1 "a" Deployment.onePage)
        Deployment.init.world [.queueDepth, .getStorage,
          .storageSave "user1_a.pdf" Deployment.onePage.contents] w ∧
        ¬ Deployment.init.world.Intact w) ∧
      Deployment.init.world.Intact (uploadKilledAfter 6) ∧
      ¬ (uploadKilledAfter 6).Intact
        (firstCalls 3 (deleteDoc 1 1) (uploadKilledAfter 6)).2.2 := by
  have hall {w' : World} :=
    @noHalfState_iff Deployment.lengthModel Deployment.init.world w' keysUnique_init
  have hkilled : ¬ Deployment.init.world.Intact (uploadKilledAfter 4) := by
    rw [uploadKilledAfter, hall.1 1 "a" Deployment.onePage _ (unused_init _)
      (stops_firstCalls 4 _ _)]
    decide +kernel
  refine ⟨hkilled, (hall.2.2 whole_init).not.mpr hkilled, ?_, ?_, ?_⟩
  · have hdepth : (Deployment.init.world.elapse 0).exec Deployment.lengthModel .queueDepth =
        (.ok 0, Deployment.init.world) := rfl
    have hstorage : (Deployment.init.world.elapse 0).exec Deployment.lengthModel .getStorage =
        (.ok (), Deployment.init.world) := rfl
    have hpart : (Deployment.init.world.elapse 0).exec Deployment.lengthModel
        (.storageSave "user1_a.pdf" ⟨[]⟩) = (.ok (), _) := rfl
    let full : Exn := .exception "[Errno 28] No space left on device"
    have htorn : Stops Deployment.lengthModel (uploadDoc 1 "a" Deployment.onePage)
        Deployment.init.world _ _ :=
      .answered hdepth (.answered hstorage (.torn hpart (.here (Program.raise full) _)))
    refine ⟨_, htorn, ?_⟩
    rw [hall.1 1 "a" Deployment.onePage _ (unused_init _) htorn]
    decide +kernel
  · rw [uploadKilledAfter, hall.1 1 "a" Deployment.onePage _ (unused_init _)
      (stops_firstCalls 6 _ _)]
    decide +kernel
  · rw [(noHalfState_iff Deployment.lengthModel keysUnique_uploaded).2.1 1 1 _
      (stops_firstCalls 3 _ _)]
    intro hkept
    have hrow : (uploadKilledAfter 6).db.getDocument 1 1 =
        some (.pending 0 1 "user1_a" (displayName Deployment.onePage) "user1_a.pdf") := by
      decide +kernel
    have hdeleted := hkept _ hrow (by decide +kernel) (by decide +kernel)
    exact absurd hdeleted (by decide +kernel)

/-- There was nothing half done before, and there is afterwards. -/
theorem exists_halfState :
    exists w w' effects, w.Whole ∧ w.KeysUnique ∧ w.Unused (docKey 1 "a") ∧
      Stops Deployment.lengthModel (uploadDoc 1 "a" Deployment.onePage) w effects w' ∧
        ¬ w'.Whole := by
  refine ⟨_, _, _, whole_init, keysUnique_init, unused_init _, stops_firstCalls 4 _ _, ?_⟩
  rw [World.whole_iff_intact whole_init,
    upload_intact_iff (unused_init _) (stops_firstCalls 4 _ _)]
  decide +kernel

end ChatDoc
