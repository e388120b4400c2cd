import ChatDoc.Jobs.Orderly

/-!
# Ready means complete

A document that is ready has exactly the chunks of its PDF.  An attempt keeps
this from one state to the next, with one exception: it deletes the chunks that
an earlier attempt wrote, and when that attempt had marked the document ready
and was stopped before `complete_job`, the document stays ready meanwhile.
-/

namespace ChatDoc

open Foundation
open Foundation.Program

/-!
# Numbered chunks
-/

def Pdf.numbered (pdf : Pdf) : List (Nat × Chunk) :=
  pdf.chunks.zipIdx.map Prod.swap

def ChunkRow.numbered (row : ChunkRow) : Nat × Chunk :=
  (row.chunkIndex, row.chunk)

theorem numbered_chunkRows (documentId i : Nat)
    (rows : List (Chunk × Embedding)) :
    (chunkRows documentId i rows).map ChunkRow.numbered =
      ((rows.map Prod.fst).zipIdx i).map Prod.swap := by
  induction rows generalizing i with
  | nil => rfl
  | cons row rest ih =>
      rw [chunkRows, List.map_cons, ih, List.map_cons, List.zipIdx_cons,
        List.map_cons]
      rfl

theorem Pdf.numbered_eq_nil_iff {pdf : Pdf} :
    pdf.numbered = [] <-> pdf.chunks = [] := by
  unfold Pdf.numbered
  rw [List.map_eq_nil_iff, List.zipIdx_eq_nil_iff]

def Slice.Complete (s : Slice) : Prop :=
  s.document.status = .ready ->
    s.chunks.map ChunkRow.numbered = s.blob.numbered ∧
      s.document.chunkCount = s.blob.chunks.length

/-!
# What attempts keep

No attempt deletes the chunks of a document that is ready and has some.
-/

def readiness : Regime where
  allow := fun r s answer =>
    forall id, r = .deleteChunksForDocument id ->
      (exists a, answer = .ok a) -> s.document.status = .ready -> s.chunks = []
  cleared := fun s => s.document.status = .ready -> s.chunks = []
  raised := fun _ _ _ => True
  abandons := True
  idle := Slice.Complete

section Attempts

variable {A : Attempt} {t : Slice}

theorem complete_of_job {s : Slice} (h : s.Complete) (job : Job) :
    Slice.Complete { s with job := job } := h

theorem complete_of_core {s : Slice} (h : s.Complete)
    (hdocument : t.document.core = s.document.core)
    (hchunks : t.chunks = s.chunks) (hblob : t.blob = s.blob) :
    t.Complete := by
  intro hready
  have hcount := congrArg Document.chunkCount hdocument
  replace hcount : t.document.chunkCount = s.document.chunkCount := hcount
  rw [hchunks, hblob, hcount]
  exact h ((Document.status_of_core hdocument).symm.trans hready)

theorem complete_of_writing {rows : List (Chunk × Embedding)}
    (hstart : A.start.Complete)
    (hcleared : A.cleared -> A.start.document.status = .ready ->
      A.start.chunks = [])
    (h : A.Writing rows t) : t.Complete := by
  intro hready
  have hcore : t.document.core = A.upserted.core :=
    Document.core_of_unstaged h.document
  replace hcore : t.document.core = A.start.document.core := hcore
  have hstatus := (Document.status_of_core hcore).symm.trans hready
  have hcomplete := hstart hstatus
  rw [hcleared h.cleared hstatus] at hcomplete
  have hnone : A.chunks = [] :=
    Pdf.numbered_eq_nil_iff.mp hcomplete.left.symm
  have hrows : rows = [] := by
    have hprefix := h.written
    rw [hnone, List.prefix_nil, List.map_eq_nil_iff] at hprefix
    exact hprefix
  have hsame : t.chunks = A.start.chunks := by
    rw [h.chunks, hrows, hcleared h.cleared hstatus]
    rfl
  exact complete_of_core hstart hcore hsame h.blob hready

theorem complete_of_ready (h : A.Ready t) : t.Complete := by
  rcases h with ⟨s, ⟨rows, hwriting, hrows⟩, ht⟩
  subst ht
  intro _
  have hblob : s.blob = A.start.blob := hwriting.blob
  constructor
  · show s.chunks.map ChunkRow.numbered = s.blob.numbered
    rw [hwriting.chunks, numbered_chunkRows, hrows, hblob]
    rfl
  · show A.chunks.length = s.blob.chunks.length
    rw [hblob]
    rfl

theorem complete_of_unreported (hstart : A.start.Complete)
    (hcleared : A.cleared -> A.start.document.status = .ready ->
      A.start.chunks = [])
    (h : A.Unreported t) : t.Complete := by
  rcases h with (hbefore | ⟨rows, hwriting⟩) | hready
  · exact complete_of_core hstart hbefore.document hbefore.chunks hbefore.blob
  · exact complete_of_writing hstart hcleared hwriting
  · exact complete_of_ready hready

theorem complete_of_deadLettered {exc : Exn} (hstart : A.start.Complete)
    (hcleared : A.cleared -> A.start.document.status = .ready ->
      A.start.chunks = [])
    (h : A.DeadLettered exc t) : t.Complete := by
  rcases h with ⟨s, error, hraised, _, ht⟩
  subst ht
  exact complete_of_job
    (complete_of_unreported hstart hcleared hraised.left) _

theorem complete_of_pending (hstart : A.start.Complete)
    (hcleared : A.cleared -> A.start.document.status = .ready ->
      A.start.chunks = [])
    (h : A.Pending t) : t.Complete := by
  rcases h with hunreported | ⟨exc, hdead⟩
  · exact complete_of_unreported hstart hcleared hunreported
  · exact complete_of_deadLettered hstart hcleared hdead

theorem complete_of_returned (hstart : A.start.Complete)
    (hcleared : A.cleared -> A.start.document.status = .ready ->
      A.start.chunks = [])
    (h : A.Returned t) : t.Complete := by
  rcases h with ⟨s, hready, ht⟩ | ⟨s, exc, now, error, hraised, _, ht⟩ |
    ⟨s, exc, error, _, ht⟩ | ⟨key, hdead⟩
  · subst ht
    exact complete_of_job (complete_of_ready hready) _
  · subst ht
    exact complete_of_job
      (complete_of_unreported hstart hcleared hraised.left) _
  · subst ht
    intro hready
    cases hready
  · exact complete_of_deadLettered hstart hcleared hdead

end Attempts

theorem readiness_sound (M : EmbeddingModel) (row : JobRow) (s : Slice) :
    (readiness.attempt M row s).Sound := by
  constructor
  · intro batch row _
    exact True.intro
  · intro t hbefore hallow hready
    have hstatus := Document.status_of_core hbefore.document
    have hchunks := hallow row.documentId rfl ⟨(), rfl⟩ (hstatus.trans hready)
    exact hbefore.chunks.symm.trans hchunks
  · intro r t e _ _ _
    exact True.intro
  · intro t text _
    exact True.intro
  · intro r t e _ _
    exact True.intro

theorem readiness_keeps (M : EmbeddingModel) : readiness.Keeps M := by
  constructor
  · exact readiness_sound M
  · intro s now documentId docKey pdfPath hstatus _ hready
    rw [hstatus] at hready
    cases hready
  · intro row s now t hidle _ hreturned
    have hstart : (s.claimed now).Complete := complete_of_job hidle _
    exact complete_of_returned hstart id hreturned
  · intro row s now t _ hidle _ hpending
    have hstart : (s.claimed now).Complete := complete_of_job hidle _
    exact complete_of_pending hstart id hpending
  · intro s now hidle _
    exact hidle
  · intro s error _ _ hready
    cases hready

/-!
# Complete runs
-/

namespace Deployment

variable {M : EmbeddingModel} {d d' : Deployment} {a : Action}

/-- Every ready document has exactly the chunks of its PDF. -/
def ReadyComplete (d : Deployment) : Prop :=
  forall id r, d.world.db.documents.lookup id = some r -> r.status = .ready ->
    exists pdf, d.world.blobs (storageKey r.docName) = some pdf ∧
      (d.world.db.chunksOf id).map ChunkRow.numbered = pdf.numbered ∧
        r.chunkCount = pdf.chunks.length

def ByWorkers : Action -> Prop
  | .spawn _ .worker => True
  | .spawn _ (.upload _ _ _) => True
  | .spawn _ _ => False
  | _ => True

/-- The step deletes chunks of a document that is ready. -/
def ClearsReady (M : EmbeddingModel) (d : Deployment) (a : Action) : Prop :=
  exists id r, event M d a = some ⟨.deleteChunksForDocument id, .ok ()⟩ ∧
    d.world.db.documents.lookup id = some r ∧ r.status = .ready ∧
      d.world.db.chunksOf id ≠ []

theorem spawned_of_byWorkers {pid : Nat} {activity : Activity}
    (h : ByWorkers (.spawn pid activity)) :
    activity = .worker ∨
      exists userId hex file, activity = .upload userId hex file := by
  cases activity with
  | worker => exact .inl rfl
  | upload userId hex file => exact .inr ⟨userId, hex, file, rfl⟩
  | delete userId documentId => exact h.elim
  | complete jobId => exact h.elim
  | fail jobId error => exact h.elim

theorem orderly_of_inTime (hd : Owned readiness M d) (hworkers : ByWorkers a)
    (htime : InTime d) (hkept : ¬ ClearsReady M d a) :
    Orderly readiness M d a := by
  constructor
  · intro pid activity ha
    subst ha
    exact spawned_of_byWorkers hworkers
  · intro pid l _ _
    exact True.intro
  · intro row hreturned
    exact unheld_of_inTime hd htime hreturned
  · intro rows pid l job _ hl hjob
    exact (not_available_of_holds hd htime hl hjob).right
  · intro pid fault p l r next s ha hp hlease hrest hshows id hr hok hready
    subst ha hr
    have hworking := processInv_lease (hd.process hp) hlease
    rw [hrest] at hworking
    have hown := own_of_working hworking
    replace hown : id = l.job.documentId := hown
    subst hown
    by_contra hchunks
    refine hkept ⟨l.job.documentId, s.document, ?_, hshows.document, hready, ?_⟩
    · rcases hok with ⟨answer, hanswer⟩
      rw [event_step hp hrest, hanswer]
    · rw [hshows.chunks]
      exact hchunks

theorem complete_of_owned (hd : Owned readiness M d) {id : Nat} {job : Job}
    (hjob : d.world.db.jobs.lookup id = some job) :
    exists s, Shows d.world (job.toRow id) s ∧ s.Complete := by
  rcases hd.slice hjob with ⟨s, hs, hidle⟩
  refine ⟨s, hs, ?_⟩
  by_cases hheld : Unheld d id
  · exact hidle hheld
  · unfold Unheld at hheld
    push Not at hheld
    rcases hheld with ⟨pid, l, hl, hid⟩
    subst hid
    have hrow := (shows_lease_iff hd.leased hl hjob).mpr hs
    rcases hl with ⟨p, hp, hlease⟩
    have hrunning := hd.running hp hlease
    rcases processInv_lease (hd.process hp) hlease with
      ⟨start, now, t, hstart, _, _, ht, hsafe⟩
    have heq := shows_unique ht hrow
    subst heq
    have hclaimed : (start.claimed now).Complete := complete_of_job hstart _
    rcases exists_call_of_not_ended hrunning with ⟨r, next, hrest⟩
    rw [hrest] at hsafe
    exact complete_of_pending hclaimed id (Attempt.pending_of_req hsafe.left)

theorem readyComplete_of_owned (hd : Owned readiness M d) :
    ReadyComplete d := by
  intro id r hr hready
  rcases hd.ready hr hready with ⟨jobId, job, hjob, hid⟩
  subst hid
  rcases complete_of_owned hd hjob with ⟨s, hs, hcomplete⟩
  have heq := hs.document.symm.trans hr
  cases heq
  have hpath : storageKey s.document.docName = job.pdfPath := by
    rw [hd.path hjob, hs.docName]
    rfl
  refine ⟨s.blob, ?_, ?_, (hcomplete hready).right⟩
  · rw [hpath]
    exact hs.blob
  · have hchunks : d.world.db.chunksOf job.documentId = s.chunks := hs.chunks
    rw [hchunks]
    exact (hcomplete hready).left

theorem not_readyComplete_of_clearsReady (h : ReadyComplete d)
    (hact : act M d a = some d') (hclears : ClearsReady M d a) :
    ¬ ReadyComplete d' := by
  intro h'
  rcases hclears with ⟨id, r, hevent, hr, hready, hchunks⟩
  rcases world_of_acted (acted_of_act hact) with
    ⟨_, _, _, hraise⟩ | ⟨_, r', _, hevent', hworld⟩
  · rcases hraise _ _ hevent with ⟨e, he⟩
    cases he
  · rw [hevent] at hevent'
    cases hevent'
    rcases h id r hr hready with ⟨pdf, hblob, hnumbered, _⟩
    have hr' : d'.world.db.documents.lookup id = some r := by
      rw [hworld]
      exact World.exec_document hr _
    have hcleared : d'.world.db.chunksOf id = [] := by
      rw [hworld, World.exec_chunksOf]
      exact if_pos rfl
    rcases h' id r hr' hready with ⟨pdf', hblob', hnumbered', _⟩
    have hpdf : pdf' = pdf := by
      rw [hworld, World.exec_blob] at hblob'
      exact Option.some.inj (hblob'.symm.trans hblob)
    rw [hcleared, hpdf] at hnumbered'
    rw [← hnumbered', List.map_nil, List.map_eq_nil_iff] at hnumbered
    exact hchunks hnumbered

/-- The runs of uploads and workers in which no living worker holds a claim
past its `visible_at`. -/
def WorkersInTime (trace : List (Deployment × Action)) : Prop :=
  EachStep (fun d a => ByWorkers a ∧ InTime d) trace

theorem owned_of_inTime {trace : List (Deployment × Action)}
    (hrun : Run (act M) init trace d) (hworkers : WorkersInTime trace)
    (hkept : EachStep (fun d a => ¬ ClearsReady M d a) trace) :
    Owned readiness M d := by
  have hsteps : EachStep
      (fun d a => (ByWorkers a ∧ InTime d) ∧ ¬ ClearsReady M d a) trace :=
    fun step hstep => ⟨hworkers step hstep, hkept step hstep⟩
  refine hrun.invariant owned_init ?_ hsteps
  intro s a s' hs hall hact
  rcases hall with ⟨⟨hbyWorkers, htime⟩, hclears⟩
  exact owned_step (readiness_keeps M) hs
    (orderly_of_inTime hs hbyWorkers htime hclears) hact

/-- In these runs, ready documents are complete in every state exactly if no
step deletes the chunks of a ready document. -/
theorem readyComplete_iff_not_clearsReady {trace : List (Deployment × Action)}
    (hrun : Run (act M) init trace d) (hworkers : WorkersInTime trace) :
    (EachStep (fun d _ => ReadyComplete d) trace ∧ ReadyComplete d) <->
      EachStep (fun d a => ¬ ClearsReady M d a) trace := by
  refine hrun.always_iff_assuming
    (readyComplete_of_owned (owned_init (M := M))) ?_ hworkers
  intro before s a s' hbefore hgiven hlast hs hkept hact
  constructor
  · intro hs' hclears
    exact not_readyComplete_of_clearsReady hs hact hclears hs'
  · intro hclears
    have howned := owned_of_inTime hbefore hgiven hkept
    exact readyComplete_of_owned (owned_step (readiness_keeps M) howned
      (orderly_of_inTime howned hlast.left hlast.right hclears) hact)

/-!
# A ready document without chunks
-/

instance : DecidablePred ByWorkers
  | .spawn _ .worker => .isTrue True.intro
  | .spawn _ (.upload _ _ _) => .isTrue True.intro
  | .spawn _ (.delete _ _) => .isFalse id
  | .spawn _ (.complete _) => .isFalse id
  | .spawn _ (.fail _ _) => .isFalse id
  | .step _ _ => .isTrue True.intro
  | .crash _ => .isTrue True.intro
  | .tick _ => .isTrue True.intro

theorem inTime_iff :
    InTime d <-> ∀ entry ∈ d.processes.entries, ∀ l ∈ entry.2.lease,
      d.world.now ≤ l.expires := by
  constructor
  · intro h entry hentry l hl
    exact h entry.1 l ⟨entry.2, AList.mem_lookup_iff.mpr hentry, hl⟩
  · intro h pid l hall
    rcases hall with ⟨p, hp, hlease⟩
    exact h ⟨pid, p⟩ (AList.mem_lookup_iff.mp hp) l hlease

instance (d : Deployment) : Decidable (InTime d) :=
  decidable_of_iff' _ inTime_iff

instance (trace : List (Deployment × Action)) :
    Decidable (WorkersInTime trace) :=
  inferInstanceAs (Decidable (∀ step ∈ trace, ByWorkers step.2 ∧ InTime step.1))

/-- A worker dies between `mark_document_ready` and `complete_job`.  Its job is
claimed again after the timeout, and the second attempt has just deleted the
chunks of the first. -/
def killedAfterReady : List Action :=
  uploaded 0 1 "0123456789ab" onePage ++ [.spawn 1 .worker] ++ answered 1 28 ++
    [.crash 1, .tick (seconds 601), .spawn 2 .worker] ++ answered 2 11

def emptyReady (trace : List (Deployment × Action)) (d : Deployment) : Bool :=
  WorkersInTime trace ∧ InTime d ∧
    (d.world.db.documents.lookup 1).any fun r =>
      r.status = .ready ∧ d.world.db.chunksOf 1 = [] ∧
        d.world.blobs (storageKey r.docName) = some onePage.contents

theorem exists_run_killedAfterReady :
    exists trace d, Run (act lengthModel) init trace d ∧
      emptyReady trace d = true := by
  have hfollow : (follow (act lengthModel) init killedAfterReady).any
      (fun out => emptyReady out.1 out.2) = true := by
    decide +kernel
  exact exists_run_of_follow emptyReady hfollow

theorem not_readyComplete_of_emptyReady {trace : List (Deployment × Action)}
    (h : emptyReady trace d = true) :
    WorkersInTime trace ∧ InTime d ∧ ¬ ReadyComplete d := by
  rcases of_decide_eq_true h with ⟨hworkers, htime, hany⟩
  refine ⟨hworkers, htime, ?_⟩
  intro hcomplete
  rcases Option.any_eq_true _ _ |>.mp hany with ⟨r, hr, hempty⟩
  rcases of_decide_eq_true hempty with ⟨hready, hchunks, hblob⟩
  rcases hcomplete 1 r hr hready with ⟨pdf, hpdf, hnumbered, _⟩
  rw [hblob] at hpdf
  cases hpdf
  rw [hchunks] at hnumbered
  have hnone := Pdf.numbered_eq_nil_iff.mp hnumbered.symm
  revert hnone
  decide

theorem killedAfterReady_leaves_no_chunks :
    ¬ forall trace d, Run (act lengthModel) init trace d ->
      WorkersInTime trace -> InTime d -> ReadyComplete d := by
  intro hclaim
  rcases exists_run_killedAfterReady with ⟨trace, d, hrun, hempty⟩
  rcases not_readyComplete_of_emptyReady hempty with
    ⟨hworkers, htime, hincomplete⟩
  exact hincomplete (hclaim trace d hrun hworkers htime)

theorem readyComplete_iff_not_clearsReady_killed :
    exists trace d, Run (act lengthModel) init trace d ∧
      WorkersInTime trace ∧ ¬ ReadyComplete d ∧
      ((EachStep (fun d _ => ReadyComplete d) trace ∧ ReadyComplete d) <->
        EachStep (fun d a => ¬ ClearsReady lengthModel d a) trace) := by
  rcases exists_run_killedAfterReady with ⟨trace, d, hrun, hempty⟩
  rcases not_readyComplete_of_emptyReady hempty with
    ⟨hworkers, _, hincomplete⟩
  exact ⟨trace, d, hrun, hworkers, hincomplete,
    readyComplete_iff_not_clearsReady hrun hworkers⟩

end Deployment
end ChatDoc
