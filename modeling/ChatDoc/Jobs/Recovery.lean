import ChatDoc.Jobs.Outline
import ChatDoc.Service.Deployment

/-!
# Recovery after crashes

Attempts on one document follow one another, each of them stopped by a crash or
an exception at any call, and leave whatever rows they wrote.  An attempt that
runs to completion then leaves the same rows as one that nothing preceded.
-/

namespace ChatDoc

open Foundation
open Foundation.Program

namespace Document

def finished (sourcePath : String) (pageCount chunkCount : Nat)
    (r : Document) : Document :=
  { r with
    sourcePath := sourcePath
    pageCount := pageCount
    status := .ready
    error := none
    stage := some .done
    stageCurrent := 0
    stageTotal := 0
    chunkCount := chunkCount }

def uncounted (r : Document) : Document :=
  { r with stageCurrent := 0, stageTotal := 0 }

theorem uncounted_markedReady {r r' : Document} {sourcePath : String}
    {pageCount : Nat} (chunkCount : Nat)
    (h : r.unstaged = (r'.upserted sourcePath pageCount).unstaged) :
    (r.markedReady chunkCount).uncounted =
      r'.finished sourcePath pageCount chunkCount :=
  congrArg
    (fun d : Document =>
      { d with
        status := .ready
        error := none
        stage := some .done
        chunkCount := chunkCount }) h

end Document

/-!
# Attempts one after another
-/

/-- What happens between two attempts: anything that leaves the document, its
chunks and its blob alone and does not delete the job. -/
def Between (row : JobRow) (w w' : World) : Prop :=
  forall s, Shows w row s -> exists job, Shows w' row { s with job := job }

/-- Attempts that were stopped at any call, one after another. -/
inductive EarlierAttempts (M : EmbeddingModel) (row : JobRow) :
    World -> World -> Prop where
  | start (w : World) : EarlierAttempts M row w w
  | stopped {w before after next : World} {attempts : Nat}
      {events : List (Event service)} {rest : Proc Unit} :
      EarlierAttempts M row w before ->
      Steps (World.sem M) (processJob { row with attempts := attempts })
        before events rest after ->
      Between row after next ->
      EarlierAttempts M row w next

def RunsToCompletion (M : EmbeddingModel) (row : JobRow) (w w' : World) :
    Prop :=
  exists attempts events,
    Steps (World.sem M) (processJob { row with attempts := attempts }) w
      (events ++ [⟨.completeJob row.id, .ok ()⟩]) (.ret ()) w'

/-- Two worlds agree on the document and the chunks of a job, up to the
progress counters. -/
structure SameRows (row : JobRow) (w w' : World) : Prop where
  document : exists d d',
    w.db.documents.lookup row.documentId = some d ∧
      w'.db.documents.lookup row.documentId = some d' ∧
        d.uncounted = d'.uncounted
  chunks : w.db.chunksOf row.documentId = w'.db.chunksOf row.documentId

/-!
# What every call keeps
-/

def Kept (s0 s : Slice) : Prop :=
  s.blob = s0.blob ∧
    forall sourcePath pageCount chunkCount,
      s.document.finished sourcePath pageCount chunkCount =
        s0.document.finished sourcePath pageCount chunkCount

theorem kept_answer (M : EmbeddingModel) (row : JobRow) (now : Time)
    (fault : Option Exn) {s0 s : Slice} (h : Kept s0 s) (r : Request) :
    Kept s0 (s.answer M row now fault r).2 := by
  cases fault with
  | some e => exact h
  | none => cases r <;> exact h

theorem kept_sem {M : EmbeddingModel} {row : JobRow} {allow : Slice.Allowance}
    {s0 : Slice} (r : Request) (s : Slice) (reply : Except Exn (Reply r))
    (s' : Slice) (hsem : Slice.sem M row allow r s reply s')
    (h : Kept s0 s) : Kept s0 s' := by
  rcases hsem with ⟨_, now, fault, heq⟩
  have hkept := kept_answer M row now fault h r
  rw [heq] at hkept
  exact hkept

/-!
# One attempt
-/

def unrestricted (M : EmbeddingModel) (vector : String -> Embedding)
    (row : JobRow) (s : Slice) : Attempt where
  model := M
  row := row
  start := s
  allow := fun _ _ _ => True
  embedded := fun c embedding => embedding = vector c.text
  cleared := True
  raised := fun _ _ => True
  escapes := True

section Attempts

variable {M : EmbeddingModel} {vector : String -> Embedding} {row : JobRow}
  {w w' : World} {s : Slice}

theorem unrestricted_sound (row : JobRow) (s : Slice)
    (hM : forall texts, M.embedTexts texts = texts.map vector) :
    (unrestricted M vector row s).Sound where
  embedded := by
    intro batch pair hpair
    replace hpair : pair ∈ batch.zip (M.embedTexts (batch.map Chunk.text)) :=
      hpair
    rw [hM, List.map_map, ← List.map_prod_left_eq_zip] at hpair
    rcases List.mem_map.mp hpair with ⟨c, _, hc⟩
    subst hc
    rfl
  cleared := fun _ _ => True.intro
  raised := fun _ _ _ => True.intro
  own := fun _ _ => True.intro
  escapes := fun _ _ => True.intro

/-- The world simulates the slice in an attempt's calls. -/
theorem attempt_steps {events : List (Event service)} {rest : Proc Unit}
    (hM : forall texts, M.embedTexts texts = texts.map vector)
    (hshows : Shows w row s)
    (hsteps : Steps (World.sem M) (processJob row) w events rest w') :
    exists t,
      Steps (Slice.sem M row fun _ _ _ => True) (processJob row) s events rest
        t ∧ Shows w' row t := by
  have hsafe := Attempt.processJob_safe (unrestricted_sound row s hM)
  refine steps_of_simulation (fun w s => Shows w row s) ?_ hsteps hshows hsafe
  intro r w s reply w' hshows hreq hall
  rcases hall with ⟨elapsed, fault, hanswer⟩
  have hlater : Shows (w.elapse elapsed) row s := shows_of_same hshows rfl rfl
  rcases shows_own (M := M) hlater hreq.left fault with ⟨s', hs', hslice⟩
  rw [hanswer] at hs' hslice
  exact ⟨s', ⟨True.intro, _, fault, hslice⟩, hs'⟩

theorem kept_of_attempt {events : List (Event service)} {rest : Proc Unit}
    (hM : forall texts, M.embedTexts texts = texts.map vector)
    (hshows : Shows w row s)
    (hsteps : Steps (World.sem M) (processJob row) w events rest w') :
    exists t, Shows w' row t ∧ Kept s t := by
  rcases attempt_steps hM hshows hsteps with ⟨t, hslice, ht⟩
  exact ⟨t, ht, steps_invariant kept_sem hslice ⟨rfl, fun _ _ _ => rfl⟩⟩

theorem shows_attempts (attempts : Nat) :
    Shows w { row with attempts := attempts } s <-> Shows w row s :=
  ⟨fun h => ⟨h.document, h.docName, h.chunks, h.job, h.documentId, h.blob⟩,
    fun h => ⟨h.document, h.docName, h.chunks, h.job, h.documentId, h.blob⟩⟩

/-- Whatever the attempts before it left, the job still has its slice, and the
columns that no attempt changes are the original ones. -/
theorem kept_of_earlierAttempts
    (hM : forall texts, M.embedTexts texts = texts.map vector)
    (hshows : Shows w row s) (hearlier : EarlierAttempts M row w w') :
    exists t, Shows w' row t ∧ Kept s t := by
  induction hearlier with
  | start => exact ⟨s, hshows, rfl, fun _ _ _ => rfl⟩
  | stopped _ hsteps hbetween ih =>
      rcases ih with ⟨t, ht, hkept⟩
      rcases kept_of_attempt hM ((shows_attempts _).mpr ht) hsteps with
        ⟨t', ht', hkept'⟩
      rcases hbetween t' ((shows_attempts _).mp ht') with ⟨job, hnext⟩
      refine ⟨_, hnext, hkept'.left.trans hkept.left, ?_⟩
      intro sourcePath pageCount chunkCount
      exact (hkept'.right _ _ _).trans (hkept.right _ _ _)

def embeddedRows (vector : String -> Embedding) (documentId : Nat) (pdf : Pdf) :
    List ChunkRow :=
  chunkRows documentId 0 (pdf.chunks.map fun c => (c, vector c.text))

theorem eq_embedded {rows : List (Chunk × Embedding)}
    (h : forall {pair}, pair ∈ rows -> pair.2 = vector pair.1.text) :
    rows = (rows.map Prod.fst).map fun c => (c, vector c.text) := by
  calc
    rows = rows.map id := (List.map_id rows).symm
    _ = rows.map fun pair => (pair.1, vector pair.1.text) :=
      List.map_congr_left fun pair hpair => Prod.ext rfl (h hpair)
    _ = (rows.map Prod.fst).map fun c => (c, vector c.text) := by
      rw [List.map_map]
      rfl

theorem rows_of_completion
    (hM : forall texts, M.embedTexts texts = texts.map vector)
    (hshows : Shows w row s) (hcompletes : RunsToCompletion M row w w') :
    exists t, Shows w' row t ∧
      t.document.uncounted =
        s.document.finished row.pdfPath s.blob.pages.length
          s.blob.chunks.length ∧
      t.chunks = embeddedRows vector row.documentId s.blob := by
  rcases hcompletes with ⟨attempts, events, hsteps⟩
  have hshows' := (shows_attempts attempts).mpr hshows
  rcases attempt_steps hM hshows' hsteps with ⟨t, hslice, ht⟩
  have hsafe := Attempt.processJob_safe
    (unrestricted_sound { row with attempts := attempts } s hM)
  rcases last_call_of_steps hslice hsafe with
    ⟨before, ⟨_, hready⟩, _, now, fault, hanswer⟩
  refine ⟨t, (shows_attempts _).mp ht, ?_⟩
  rcases hready with ⟨written, ⟨rows, hwriting, hall⟩, hbefore⟩
  have hcompleted : t = { before with job := before.job.completed } := by
    cases fault with
    | none =>
        cases hanswer
        rfl
    | some e => cases hanswer
  rw [hcompleted, hbefore]
  constructor
  · exact Document.uncounted_markedReady _ hwriting.document
  · show written.chunks = _
    rw [hwriting.chunks, eq_embedded hwriting.embedded, hall]
    rfl

/-- After any attempts that were stopped anywhere, one attempt that runs to
completion makes the document ready, with exactly the chunks of its PDF, and
leaves the rows that it would have left without the others. -/
theorem crashRecovery_converges {w0 : World}
    (hM : forall texts, M.embedTexts texts = texts.map vector)
    (hshows : Shows w0 row s) (hearlier : EarlierAttempts M row w0 w)
    (hcompletes : RunsToCompletion M row w w') :
    (exists d, w'.db.documents.lookup row.documentId = some d ∧
      d.status = .ready ∧ d.error = none ∧ d.sourcePath = row.pdfPath ∧
        d.chunkCount = s.blob.chunks.length) ∧
      w'.db.chunksOf row.documentId =
        embeddedRows vector row.documentId s.blob ∧
      forall w1, RunsToCompletion M row w0 w1 -> SameRows row w' w1 := by
  rcases kept_of_earlierAttempts hM hshows hearlier with ⟨t, ht, hblob, hdocument⟩
  rcases rows_of_completion hM ht hcompletes with ⟨last, hlast, hrow, hchunks⟩
  rw [hblob, hdocument] at hrow
  rw [hblob] at hchunks
  refine ⟨⟨last.document, hlast.document, ?_, ?_, ?_, ?_⟩, ?_, ?_⟩
  · exact congrArg Document.status hrow
  · exact congrArg Document.error hrow
  · exact congrArg Document.sourcePath hrow
  · exact congrArg Document.chunkCount hrow
  · rw [hlast.chunks, hchunks]
  · intro w1 hsingle
    rcases rows_of_completion hM hshows hsingle with ⟨only, honly, hrow1, hchunks1⟩
    refine ⟨⟨last.document, only.document, hlast.document, honly.document, ?_⟩, ?_⟩
    · rw [hrow, hrow1]
    · rw [hlast.chunks, honly.chunks, hchunks, hchunks1]

end Attempts

/-!
# A recovery to look at
-/

/-- Let a program make calls, each of which may raise. -/
def World.play {alpha : Type} (M : EmbeddingModel) :
    World -> Proc alpha -> List (Option Exn) ->
      List (Event service) × Proc alpha × World
  | w, .call r next, fault :: faults =>
      let answered := w.answer M fault r
      let rest := play M answered.2 (next answered.1) faults
      (⟨r, answered.1⟩ :: rest.1, rest.2)
  | w, p, _ => ([], p, w)

theorem World.steps_play {alpha : Type} (M : EmbeddingModel) (w : World)
    (p : Proc alpha) (faults : List (Option Exn)) :
    Steps (World.sem M) p w (play M w p faults).1 (play M w p faults).2.1
      (play M w p faults).2.2 := by
  induction faults generalizing w p with
  | nil =>
      cases p <;> exact .refl _ _
  | cons fault faults ih =>
      cases p with
      | ret a => exact .refl _ _
      | raise e => exact .refl _ _
      | call r next => exact .call ⟨0, fault, rfl⟩ (ih _ _)

section Example

open Deployment

def freshUpload : World :=
  (init.world.play lengthModel (uploadDoc 1 "0123456789ab" onePage)
    (List.replicate 6 none)).2.2

def firstClaim : JobRow where
  id := 1
  documentId := 1
  docKey := "user1_0123456789ab"
  pdfPath := "user1_0123456789ab.pdf"
  attempts := 1

def killedAttempt : List (Event service) × Proc Unit × World :=
  freshUpload.play lengthModel (processJob firstClaim) (List.replicate 21 none)

def lastAttempt : List (Event service) × Proc Unit × World :=
  killedAttempt.2.2.play lengthModel (processJob firstClaim)
    (List.replicate 28 none)

def completes (jobId : Nat) : Event service -> Bool
  | ⟨.completeJob id, .ok _⟩ => id = jobId
  | _ => false

theorem eq_of_completes {jobId : Nat} {event : Event service}
    (h : completes jobId event = true) :
    event = ⟨.completeJob jobId, .ok ()⟩ := by
  rcases event with ⟨r, answer⟩
  cases r with
  | completeJob id =>
      cases answer with
      | ok a =>
          rw [show id = jobId from of_decide_eq_true h]
      | error e => cases h
  | _ => cases h

theorem ended_lastAttempt : lastAttempt.2.1 = .ret () := by
  rfl

theorem runsToCompletion_lastAttempt :
    RunsToCompletion lengthModel firstClaim killedAttempt.2.2
      lastAttempt.2.2 := by
  have hlast : lastAttempt.1.getLast?.any (completes 1) = true := by
    decide +kernel
  rcases Option.any_eq_true_iff_get _ _ |>.mp hlast with ⟨hsome, hcompletes⟩
  have hevent := (Option.some_get hsome).symm
  rw [eq_of_completes hcompletes] at hevent
  have hevents := (List.dropLast_append_getLast? _ hevent).symm
  have hsteps : Steps (World.sem lengthModel) (processJob firstClaim)
      killedAttempt.2.2 lastAttempt.1 lastAttempt.2.1 lastAttempt.2.2 :=
    World.steps_play lengthModel killedAttempt.2.2 (processJob firstClaim) _
  rw [hevents, ended_lastAttempt] at hsteps
  exact ⟨1, lastAttempt.1.dropLast, hsteps⟩

theorem shows_freshUpload :
    exists s, Shows freshUpload firstClaim s ∧ s.blob = onePage.contents := by
  refine ⟨
    { document := .pending 0 1 "user1_0123456789ab" "10-K.pdf"
        "user1_0123456789ab.pdf"
      chunks := []
      job := .enqueued 0 1 "user1_0123456789ab" "user1_0123456789ab.pdf"
      blob := onePage.contents }, ?_, rfl⟩
  constructor <;> decide +kernel

theorem crashRecovery_converges_killed :
    EarlierAttempts lengthModel firstClaim freshUpload killedAttempt.2.2 ∧
      killedAttempt.2.2.db.chunksOf 1 ≠ [] ∧
      (exists d, lastAttempt.2.2.db.documents.lookup 1 = some d ∧
        d.status = .ready ∧ d.error = none ∧
          d.sourcePath = "user1_0123456789ab.pdf" ∧ d.chunkCount = 1) ∧
      lastAttempt.2.2.db.chunksOf 1 =
        embeddedRows (fun text => [text.length]) 1 onePage.contents ∧
      forall w1, RunsToCompletion lengthModel firstClaim freshUpload w1 ->
        SameRows firstClaim lastAttempt.2.2 w1 := by
  rcases shows_freshUpload with ⟨s, hshows, hblob⟩
  have hearlier : EarlierAttempts lengthModel firstClaim freshUpload
      killedAttempt.2.2 :=
    .stopped (.start freshUpload)
      (World.steps_play lengthModel freshUpload (processJob firstClaim) _)
      fun t ht => ⟨t.job, ht⟩
  have hresult := crashRecovery_converges (fun texts => rfl) hshows hearlier
    runsToCompletion_lastAttempt
  rw [hblob] at hresult
  refine ⟨hearlier, ?_, hresult⟩
  decide +kernel

end Example

end ChatDoc
