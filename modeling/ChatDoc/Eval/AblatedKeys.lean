import ChatDoc.Eval.Resuming
import ChatDoc.Foundation.Separated

/-!
# The keys of ablated documents

`ablated_doc_key` of `eval/runner_v2.py` writes the excluded pages behind the name.  Names
without the mark of an ablation and pages from 0 on can be read back, so an ingestion
leaves the documents of all other names and pages as they are.
-/

namespace ChatDoc

open Foundation
open Foundation.Program

/-!
# Reading a key
-/

def ablateWord : List Char := "__ablate".toList

def ablateMark : List Char := ablateWord ++ ['_']

def pagesText (pages : List Int) : List (List Char) := pages.dedup.mergeSort.map intText

theorem joinedPages_toList (pages : List Int) :
    (joinedPages pages).toList = ['-'].intercalate (pagesText pages) := by
  have hdash : "-".toList = ['-'] := rfl
  rw [joinedPages, String.toList_intercalate, List.map_map, hdash, pagesText]
  congr 1
  exact List.map_congr_left fun p _ => String.toList_ofList

theorem ablatedDocKey_nil (docName : String) : ablatedDocKey docName [] = docName := if_pos rfl

theorem ablatedDocKey_toList (docName : String) {pages : List Int} (h : pages ≠ []) :
    (ablatedDocKey docName pages).toList =
      docName.toList ++ (ablateMark ++ ['-'].intercalate (pagesText pages)) := by
  have hself : forall text : String, toString text = text := fun _ => rfl
  have hmark : "__ablate_".toList = ablateMark := by decide
  rw [ablatedDocKey, if_neg h, ← joinedPages_toList]
  simp only [hself, String.toList_append, hmark, List.append_assoc]

theorem digits_intText {n : Int} (h : 0 <= n) : Digits (intText n) := by
  rw [intText, if_neg (Int.not_lt.mpr h)]
  exact digits_toDigits _

variable {pages pages' : List Int}

theorem pagesText_ne_nil (h : pages ≠ []) : pagesText pages ≠ [] := by
  rcases List.exists_mem_of_ne_nil pages h with ⟨p, hp⟩
  apply List.ne_nil_of_mem (a := intText p)
  exact List.mem_map_of_mem (List.mem_mergeSort.mpr (List.mem_dedup.mpr hp))

theorem pagesText_of_joined (hpages : forall p, p ∈ pages -> 0 <= p)
    (hpages' : forall p, p ∈ pages' -> 0 <= p) (hnil : pages ≠ []) (hnil' : pages' ≠ [])
    (h : ['-'].intercalate (pagesText pages) = ['-'].intercalate (pagesText pages')) :
    pagesText pages = pagesText pages' := by
  have hdash : forall {pages : List Int}, (forall p, p ∈ pages -> 0 <= p) ->
      forall word, word ∈ pagesText pages -> '-' ∉ word := by
    intro pages hpages word hword hin
    rcases List.mem_map.mp hword with ⟨p, hp, rfl⟩
    have hnat := hpages p (List.mem_dedup.mp (List.mem_mergeSort.mp hp))
    exact absurd (digits_intText hnat '-' hin) (by decide)
  rw [← List.splitOn_intercalate '-' (hdash hpages) (pagesText_ne_nil hnil), h,
    List.splitOn_intercalate '-' (hdash hpages') (pagesText_ne_nil hnil')]

theorem mem_iff_of_pagesText (h : pagesText pages = pagesText pages') (p : Int) :
    p ∈ pages <-> p ∈ pages' := by
  have hsorted := List.map_injective_iff.mpr intText_injective h
  rw [← List.mem_dedup (l := pages), ← List.mem_dedup (l := pages'),
    ← List.mem_mergeSort (l := pages.dedup), hsorted, List.mem_mergeSort]

theorem underscore_notMem_joined (pages : List Int) :
    '_' ∉ ['-'].intercalate (pagesText pages) := by
  apply notMem_intercalate (by decide)
  intro word hword hin
  rcases List.mem_map.mp hword with ⟨p, _, rfl⟩
  rcases mem_intText hin with hsign | hdigit
  · exact absurd hsign (by decide)
  · exact absurd hdigit (by decide)

theorem ablated_split {name name' joined joined' : List Char} (h : '_' ∉ joined)
    (h' : '_' ∉ joined')
    (heq : name ++ (ablateMark ++ joined) = name' ++ (ablateMark ++ joined')) :
    name = name' ∧ joined = joined' := by
  simp only [ablateMark, List.append_assoc, List.singleton_append] at heq
  rw [← List.append_assoc, ← List.append_assoc] at heq
  rcases last_field_unique h h' heq with ⟨hname, hjoined⟩
  exact ⟨List.append_cancel_right hname, hjoined⟩

namespace IngestCall

/-- The name of the file does not look ablated, and the pages are page numbers. -/
structure Named (c : IngestCall) : Prop where
  unmarked : ¬ ablateMark <:+: c.docName.toList
  pages : forall p, p ∈ c.excludedPages -> 0 <= p

def SameDocument (c other : IngestCall) : Prop :=
  c.docName = other.docName ∧ forall p, p ∈ c.excludedPages <-> p ∈ other.excludedPages

variable {c other : IngestCall}

theorem sameDocument_of_key (hc : c.Named) (hother : other.Named) (h : c.key = other.key) :
    c.SameDocument other := by
  rcases c with ⟨name, pages⟩
  rcases other with ⟨name', pages'⟩
  dsimp only [key] at h
  have hmarked : forall {name name' : String} {pages : List Int}, pages ≠ [] ->
      name = ablatedDocKey name' pages -> ablateMark <:+: name.toList := by
    intro name name' pages hnil hname
    rw [hname, ablatedDocKey_toList name' hnil]
    exact ⟨name'.toList, ['-'].intercalate (pagesText pages), List.append_assoc _ _ _⟩
  by_cases hnil : pages = []
  · by_cases hnil' : pages' = []
    · rw [hnil, hnil', ablatedDocKey_nil, ablatedDocKey_nil] at h
      exact ⟨h, fun p => by rw [hnil, hnil']⟩
    · rw [hnil, ablatedDocKey_nil] at h
      exact absurd (hmarked hnil' h) hc.unmarked
  · by_cases hnil' : pages' = []
    · rw [hnil', ablatedDocKey_nil] at h
      exact absurd (hmarked hnil h.symm) hother.unmarked
    · rw [← String.toList_inj, ablatedDocKey_toList name hnil,
        ablatedDocKey_toList name' hnil'] at h
      rcases ablated_split (underscore_notMem_joined pages) (underscore_notMem_joined pages') h
        with ⟨hname, hjoined⟩
      exact ⟨String.toList_inj.mp hname,
        mem_iff_of_pagesText (pagesText_of_joined hc.pages hother.pages hnil hnil' hjoined)⟩

end IngestCall

theorem Resumption.keysApart_of_named {pdfs : PdfDir}
    {trace : List (Resumption × ResumeAction)}
    (h : forall c, Resumption.Asked trace c -> c.Named) : Resumption.KeysApart pdfs trace := by
  intro c other hc hother hkey
  rcases IngestCall.sameDocument_of_key (h c hc) (h other hother) hkey with ⟨hname, hpages⟩
  have hexcludes : c.excludes = other.excludes :=
    funext fun pageNum => decide_eq_decide.mpr (hpages pageNum)
  rw [IngestCall.content, IngestCall.content, hname]
  congr 1
  funext pdf
  rw [IngestCall.sequence, IngestCall.sequence, hexcludes]

/-!
# What an ingestion touches
-/

section OnKey

variable {M : EmbeddingModel} {key : String} {w w' : World} {id : Nat}

def Owns (key : String) (id : Nat) (db : Database) : Prop :=
  exists d, db.documents.lookup id = some d ∧ d.docName = key

/-- The request is one of an ingestion, and the document it concerns has the key. -/
def OnKey (key : String) (r : Request) (w : World) : Prop :=
  match r with
  | .upsertDocument docName _ _ => docName = key
  | .deleteChunksForDocument documentId => Owns key documentId w.db
  | .insertChunk row => Owns key row.documentId w.db
  | .pymupdfOpen _ => True
  | .nextChunk => True
  | .embedTexts _ => True
  | _ => False

theorem exec_untouched {r : Request} {d : Document} (h : OnKey key r w)
    (hlookup : w.db.documents.lookup id = some d) (hname : d.docName ≠ key) :
    (w.exec M r).2.db.documents.lookup id = some d ∧
      (w.exec M r).2.db.chunksOf id = w.db.chunksOf id := by
  have hother : forall documentId, Owns key documentId w.db -> id ≠ documentId := by
    rintro documentId ⟨d', hlookup', hname'⟩ rfl
    rw [hlookup] at hlookup'
    cases hlookup'
    exact hname hname'
  rw [World.exec_document hlookup, World.exec_chunksOf]
  cases r with
  | upsertDocument docName sourcePath pageCount =>
      have hkey : docName = key := h
      exact ⟨congrArg some (if_neg (hkey ▸ hname)), rfl⟩
  | deleteChunksForDocument documentId => exact ⟨rfl, if_neg (hother documentId h)⟩
  | insertChunk row => exact ⟨rfl, if_neg fun hid => hother row.documentId h hid.left⟩
  | pymupdfOpen file => exact ⟨rfl, rfl⟩
  | nextChunk => exact ⟨rfl, rfl⟩
  | embedTexts texts => exact ⟨rfl, rfl⟩
  | _ => exact False.elim h

theorem exec_owns {r : Request} (h : OnKey key r w) (howns : Owns key id w.db) :
    Owns key id (w.exec M r).2.db := by
  rcases howns with ⟨d, hlookup, hname⟩
  rw [Owns, World.exec_document hlookup]
  cases hafter : w.documentAfter id d r with
  | some d' =>
      exact ⟨d', rfl, (World.identity_of_documentAfter hafter).left.trans hname⟩
  | none =>
      cases r with
      | deleteDocument userId documentId => exact False.elim h
      | _ => cases hafter

theorem sem_cases {r : Request} {a : Except Exn (Reply r)} (h : World.sem M r w a w') :
    w'.db = w.db ∨ exists w1 : World, w1.db = w.db ∧ w' = (w1.exec M r).2 := by
  rcases h with ⟨elapsed, fault, hanswer⟩
  cases fault with
  | some e =>
      cases hanswer
      exact .inl rfl
  | none =>
      rw [World.answer_none] at hanswer
      exact .inr ⟨w.elapse elapsed, rfl, congrArg Prod.snd hanswer.symm⟩

theorem onKey_of_db {r : Request} {w1 : World} (hdb : w1.db = w.db) (h : OnKey key r w) :
    OnKey key r w1 := by
  cases r with
  | upsertDocument docName sourcePath pageCount => exact h
  | deleteChunksForDocument documentId =>
      rw [OnKey, hdb]
      exact h
  | insertChunk row =>
      rw [OnKey, hdb]
      exact h
  | pymupdfOpen file => exact True.intro
  | nextChunk => exact True.intro
  | embedTexts texts => exact True.intro
  | _ => exact False.elim h

theorem sem_untouched {r : Request} {a : Except Exn (Reply r)} {d : Document}
    (h : OnKey key r w) (hsem : World.sem M r w a w')
    (hlookup : w.db.documents.lookup id = some d) (hname : d.docName ≠ key) :
    w'.db.documents.lookup id = some d ∧ w'.db.chunksOf id = w.db.chunksOf id := by
  rcases sem_cases hsem with hdb | ⟨w1, hdb, rfl⟩
  · rw [hdb]
    exact ⟨hlookup, rfl⟩
  · rw [← hdb] at hlookup ⊢
    exact exec_untouched (onKey_of_db hdb h) hlookup hname

theorem sem_owns {r : Request} {a : Except Exn (Reply r)} (h : OnKey key r w)
    (hsem : World.sem M r w a w') (howns : Owns key id w.db) : Owns key id w'.db := by
  rcases sem_cases hsem with hdb | ⟨w1, hdb, rfl⟩
  · rw [hdb]
    exact howns
  · rw [← hdb] at howns
    exact exec_owns (onKey_of_db hdb h) howns

/-!
# The calls of an ingestion
-/

abbrev KeySafe (M : EmbeddingModel) (key : String) {alpha : Type}
    (post : alpha -> World -> Prop) (p : Proc alpha) (w : World) : Prop :=
  Safe (World.sem M) (OnKey key) post (fun _ _ => True) p w

theorem ask_keySafe {r : Request} {post : Reply r -> World -> Prop} (h : OnKey key r w)
    (hpost : forall a w', World.sem M r w (.ok a) w' -> post a w') :
    KeySafe M key post (ask r) w :=
  safe_perform h hpost fun _ _ _ => True.intro

theorem ask_owning {r : Request} {post : Reply r -> World -> Prop} (howns : Owns key id w.db)
    (h : OnKey key r w) (hpost : forall a w', Owns key id w'.db -> post a w') :
    KeySafe M key post (ask r) w :=
  ask_keySafe h fun a w' hsem => hpost a w' (sem_owns h hsem howns)

theorem insertChunks_keySafe {rows : List (Chunk × Embedding)} {i : Nat}
    (h : Owns key id w.db) :
    KeySafe M key (fun _ w => Owns key id w.db) (insertChunks id rows i) w := by
  induction rows generalizing w i with
  | nil => exact h
  | cons row rest ih =>
      apply safe_bind
      refine ask_owning h ?_ ?_
      · exact h
      · intro _ w1 howns
        exact ih howns

theorem flushBatch_keySafe {st : IngestState Unit} (h : Owns key id w.db) :
    KeySafe M key (fun _ w => Owns key id w.db) (flushBatch id st) w := by
  unfold flushBatch
  split
  · exact h
  · apply safe_bind
    refine ask_owning h ?_ ?_
    · exact True.intro
    · intro embeddings w1 howns
      apply safe_bind
      exact safe_mono (insertChunks_keySafe howns) (fun _ _ hafter => hafter)
        fun _ _ hfail => hfail

theorem pullChunks_keySafe {events : List ChunkEvent} {st : IngestState Unit}
    (h : Owns key id w.db) :
    KeySafe M key (fun _ w => Owns key id w.db) (pullChunks noReport id events st) w := by
  induction events generalizing w st with
  | nil =>
      apply safe_bind
      refine ask_owning h ?_ ?_
      · exact True.intro
      · intro _ w1 howns
        exact howns
  | cons event rest ih =>
      cases event with
      | onPage pagesDone pageCount chunksSoFar =>
          apply safe_bind
          refine ask_owning h ?_ ?_
          · exact True.intro
          · intro _ w1 howns
            exact ih howns
      | chunk c =>
          apply safe_bind
          refine ask_owning h ?_ ?_
          · exact True.intro
          · intro _ w1 howns
            dsimp only
            split
            · apply safe_bind
              refine safe_mono (flushBatch_keySafe howns) ?_ fun _ _ hfail => hfail
              intro st' w2 hflushed
              exact ih hflushed
            · exact ih howns

theorem embedAndInsert_keySafe {pageCount : Nat} {file : LocalFile}
    {excludedPages : Nat -> Bool} (h : Owns key id w.db) :
    KeySafe M key (fun _ w => Owns key id w.db)
      (embedAndInsert noReport id pageCount file excludedPages ()) w := by
  apply safe_bind
  refine safe_bind (safe_bind (safe_mono (pullChunks_keySafe h) ?_ fun _ _ hfail => hfail))
  intro st w1 hpulled
  split
  · apply safe_bind
    refine safe_mono (flushBatch_keySafe hpulled) ?_ fun _ _ hfail => hfail
    intro st' w2 hflushed
    exact hflushed
  · exact True.intro

theorem ingestPdf_keySafe (M : EmbeddingModel) (key : String) (file : LocalFile)
    (excludedPages : Nat -> Bool) (sourcePath : String) (w : World) :
    KeySafe M key (fun out w => Owns key out.1 w.db)
      (ingestPdf noReport file excludedPages key sourcePath ()) w := by
  apply safe_bind
  apply safe_bind
  refine ask_keySafe ?_ ?_
  · exact True.intro
  intro pageCount w1 _
  refine safe_bind (safe_bind ?_)
  refine ask_keySafe ?_ ?_
  · exact rfl
  intro documentId w2 hupsert
  have howns : Owns key documentId w2.db := by
    rcases hupsert with ⟨elapsed, fault, hanswer⟩
    cases fault with
    | some e => cases hanswer
    | none =>
        cases hanswer
        exact (upsertDocument_spec w1.db _ key sourcePath pageCount).left
  apply safe_bind
  refine ask_owning howns ?_ ?_
  · exact howns
  intro _ w3 hdeleted
  apply safe_bind
  refine safe_mono (embedAndInsert_keySafe hdeleted) ?_ fun _ _ hfail => hfail
  intro _ w4 hdone
  exact hdone

end OnKey

/-!
# Runs
-/

namespace Resumption

variable {M : EmbeddingModel} {pdfs : PdfDir} {s s' : Resumption} {a : ResumeAction}
  {c other : IngestCall}

def Serves (s : Resumption) (a : ResumeAction) (c : IngestCall) : Prop :=
  a = .ensure c ∨ exists p, s.running = some (c, p)

def LeavesAlone (s s' : Resumption) (other : IngestCall) : Prop :=
  forall id d, s.world.db.findDocument other.key = some (id, d) ->
    s'.world.db.findDocument other.key = some (id, d) ∧
      s'.world.db.chunksOf id = s.world.db.chunksOf id

/-- The document that is returned for a call is not the one of the other. -/
def NotReused (s' : Resumption) (c other : IngestCall) : Prop :=
  forall id, s'.returned = some (c, id) ->
    forall d, s'.world.db.findDocument other.key ≠ some (id, d)

def KeyBound (M : EmbeddingModel) (s : Resumption) : Prop :=
  forall c p, s.running = some (c, p) ->
    KeySafe M c.key (fun out w => Owns c.key out.1 w.db) p s.world

theorem keyBound_act (h : KeyBound M s) (hact : act M pdfs s a = some s') :
    KeyBound M s' := by
  intro c p hrunning
  cases a with
  | ensure c0 =>
      unfold act at hact
      dsimp only at hact
      split at hact
      next => cases hact
      next =>
        split at hact
        next => cases hact; cases hrunning
        next =>
          cases hact
          cases hrunning
          unfold IngestCall.ingest
          split
          · exact ingestPdf_keySafe M _ _ _ _ _
          · exact True.intro
  | step elapsed fault =>
      unfold act at hact
      dsimp only at hact
      split at hact
      next c0 r next hbusy =>
        cases hact
        cases hrunning
        exact (h _ _ hbusy).right _ _ ⟨elapsed, fault, rfl⟩
      next => cases hact
  | leave =>
      unfold act at hact
      dsimp only at hact
      split at hact
      next => cases hact; cases hrunning
      next => cases hact; cases hrunning
      next => cases hact
  | kill =>
      cases hact
      cases hrunning

theorem leavesAlone_of_world (hworld : s'.world = s.world) : LeavesAlone s s' other := by
  intro id d hfind
  rw [hworld]
  exact ⟨hfind, rfl⟩

theorem notReused_of_owns (hkey : c.key ≠ other.key) (howns : forall id,
    s'.returned = some (c, id) -> Owns c.key id s'.world.db) : NotReused s' c other := by
  intro id hreturned d hfind
  rcases howns id hreturned with ⟨d', hlookup', hname'⟩
  rcases Database.lookup_of_findDocument hfind with ⟨hlookup, hname⟩
  rw [hlookup] at hlookup'
  cases hlookup'
  exact hkey (hname'.symm.trans hname)

theorem apart_of_act (h : KeyBound M s) (hact : act M pdfs s a = some s')
    (hserves : Serves s a c) (hkey : c.key ≠ other.key) :
    LeavesAlone s s' other ∧ NotReused s' c other := by
  cases a with
  | ensure c0 =>
      unfold act at hact
      dsimp only at hact
      split at hact
      next => cases hact
      next hidle =>
        have hcall : c0 = c := by
          rcases hserves with hensure | ⟨p, hrunning⟩
          · exact ResumeAction.ensure.inj hensure
          · rw [hidle] at hrunning
            cases hrunning
        split at hact
        next existing hfind =>
          cases hact
          refine ⟨leavesAlone_of_world rfl, notReused_of_owns hkey ?_⟩
          intro id hreturned
          cases hreturned
          rcases Option.bind_eq_some_iff.mp hfind with ⟨⟨id', d⟩, hfound, hsome⟩
          rw [Option.ite_none_right_eq_some] at hsome
          rcases hsome with ⟨_, hid⟩
          cases hid
          exact ⟨d, hcall ▸ Database.lookup_of_findDocument hfound⟩
        next =>
          cases hact
          exact ⟨leavesAlone_of_world rfl, fun id hreturned => nomatch hreturned⟩
  | step elapsed fault =>
      unfold act at hact
      dsimp only at hact
      split at hact
      next c0 r next hbusy =>
        have hcall : c0 = c := by
          rcases hserves with hensure | ⟨p, hrunning⟩
          · cases hensure
          · rw [hbusy] at hrunning
            cases hrunning
            rfl
        subst hcall
        cases hact
        refine ⟨?_, fun id hreturned => nomatch hreturned⟩
        intro id d hfind
        rcases Database.lookup_of_findDocument hfind with ⟨hlookup, hname⟩
        have hsem : World.sem M r s.world ((s.world.elapse elapsed).answer M fault r).1
            ((s.world.elapse elapsed).answer M fault r).2 := ⟨elapsed, fault, rfl⟩
        have hsame := sem_untouched (h _ _ hbusy).left hsem hlookup
          (fun heq => hkey (heq.symm.trans hname))
        have hfound := Database.findDocument_of_lookup hsame.left
        rw [hname] at hfound
        exact ⟨hfound, hsame.right⟩
      next => cases hact
  | leave =>
      unfold act at hact
      dsimp only at hact
      split at hact
      next c0 out hbusy =>
        cases hact
        refine ⟨leavesAlone_of_world rfl, notReused_of_owns hkey ?_⟩
        intro id hreturned
        cases hreturned
        exact h _ _ hbusy
      next =>
        cases hact
        exact ⟨leavesAlone_of_world rfl, fun id hreturned => nomatch hreturned⟩
      next => cases hact
  | kill =>
      cases hact
      exact ⟨leavesAlone_of_world rfl, fun id hreturned => nomatch hreturned⟩

end Resumption

/-- Equal keys are keys of the same file without the same pages.  So in every run, whatever
fails or is killed, a call of `ensure_ingested` neither overwrites nor returns the document
of another file or of other pages. -/
theorem ablated_documents_apart (c other : IngestCall) (hc : c.Named) (hother : other.Named) :
    (c.key = other.key -> c.SameDocument other) ∧
    (¬ c.SameDocument other ->
      forall (M : EmbeddingModel) (pdfs : PdfDir) (trace : List (Resumption × ResumeAction))
        (s s' : Resumption) (a : ResumeAction),
        Run (Resumption.act M pdfs) Resumption.init trace s ->
        Resumption.act M pdfs s a = some s' -> s.Serves a c ->
          s.LeavesAlone s' other ∧ s'.NotReused c other) := by
  refine ⟨IngestCall.sameDocument_of_key hc hother, ?_⟩
  intro hdiffer M pdfs trace s s' a hrun hact hserves
  have hstart : Resumption.KeyBound M Resumption.init := by
    intro c p hrunning
    cases hrunning
  have hany : EachStep (fun (_ : Resumption) (_ : ResumeAction) => True) trace :=
    fun _ _ => True.intro
  have hbound : Resumption.KeyBound M s := hrun.invariant hstart
    (fun _ _ _ hkept _ hstep => Resumption.keyBound_act hkept hstep) hany
  exact Resumption.apart_of_act hbound hact hserves
    (fun hkey => hdiffer (IngestCall.sameDocument_of_key hc hother hkey))

namespace Resumption

def wholeAmd : IngestCall := ⟨"AMD", []⟩

def withoutOne : IngestCall := ⟨"AMD", [3]⟩

/-- The whole file has been ingested, and the file without a page is about to be. -/
def bothIngested : List ResumeAction :=
  .ensure wholeAmd :: List.replicate 10 (.step 0 none) ++
    [.leave, .ensure withoutOne] ++ List.replicate 10 (.step 0 none)

def leavesSecond (s : Resumption) : Bool :=
  decide ((s.world.db.chunksOf 1).length = 2) &&
    (s.running.any fun call => decide (call.1 = withoutOne)) &&
      (act Deployment.lengthModel (fun _ => some twoChunks) s .leave).any
        fun s' => decide (s'.returned = some (withoutOne, 2))

theorem named_amd {excludedPages : List Int}
    (hpages : forall p, p ∈ excludedPages -> 0 <= p) :
    IngestCall.Named ⟨"AMD", excludedPages⟩ := by
  refine ⟨?_, hpages⟩
  have hshort : "AMD".toList.length < ablateMark.length := by decide
  exact fun hin => absurd hin.length_le (Nat.not_le.mpr hshort)

/-- Pages in another order give the same key, and the document without a page does not
replace that of the whole file. -/
theorem ablated_documents_apart_both :
    (IngestCall.key ⟨"AMD", [12, 3]⟩ = IngestCall.key ⟨"AMD", [3, 12, 3]⟩ ∧
      IngestCall.SameDocument ⟨"AMD", [12, 3]⟩ ⟨"AMD", [3, 12, 3]⟩) ∧
    exists trace s s',
      Run (act Deployment.lengthModel fun _ => some twoChunks) init trace s ∧
        act Deployment.lengthModel (fun _ => some twoChunks) s .leave = some s' ∧
        s'.returned = some (withoutOne, 2) ∧ (s.world.db.chunksOf 1).length = 2 ∧
        s.LeavesAlone s' wholeAmd ∧ s'.NotReused withoutOne wholeAmd := by
  have hwhole : wholeAmd.Named := named_amd (by decide)
  have hone : withoutOne.Named := named_amd (by decide)
  constructor
  · have hdedup : ([3, 12, 3] : List Int).dedup = ([12, 3] : List Int).dedup := by decide
    have hkey : IngestCall.key ⟨"AMD", [12, 3]⟩ = IngestCall.key ⟨"AMD", [3, 12, 3]⟩ := by
      unfold IngestCall.key ablatedDocKey joinedPages
      rw [hdedup]
      rfl
    exact ⟨hkey, (ablated_documents_apart _ _ (named_amd (by decide))
      (named_amd (by decide))).left hkey⟩
  · have hfollow : (follow (act Deployment.lengthModel fun _ => some twoChunks) init
        bothIngested).any (fun out => leavesSecond out.2) = true := by
      decide +kernel
    rcases exists_run_of_follow (fun _ s => leavesSecond s) hfollow with
      ⟨trace, s, hrun, hgood⟩
    unfold leavesSecond at hgood
    rw [Bool.and_eq_true, Bool.and_eq_true, decide_eq_true_eq, Option.any_eq_true,
      Option.any_eq_true] at hgood
    rcases hgood with ⟨⟨hchunks, ⟨c, p⟩, hrunning, hc⟩, s', hact, hreturned⟩
    rw [decide_eq_true_eq] at hc hreturned
    have hserves : s.Serves .leave withoutOne := by
      right
      refine ⟨p, ?_⟩
      rw [← hc]
      exact hrunning
    have hdiffer : ¬ withoutOne.SameDocument wholeAmd := by
      intro hsame
      exact absurd ((hsame.right 3).mp (by decide)) (by decide)
    exact ⟨trace, s, s', hrun, hact, hreturned, hchunks,
      (ablated_documents_apart withoutOne wholeAmd hone hwhole).right hdiffer _ _ trace s s'
        .leave hrun hact hserves⟩

end Resumption

end ChatDoc
