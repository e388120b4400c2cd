import ChatDoc.Foundation.Integer
import ChatDoc.Foundation.KeyedRows
import ChatDoc.Service.Query
import Mathlib.Data.List.Dedup

/-!
# The generation cache

The table `eval_generations` of `eval/cache.py`, one row for a question of a
run, and the dict of `eval/runner_v2.py` that a row holds.  What the database
has of a dict is its JSON text: there every key is a string.
-/

namespace ChatDoc

open Foundation

/-!
# Rows
-/

/-- A row of `eval_generations`; `raw` is what its `raw_json` says. -/
structure GenerationRow (α : Type) where
  runId : String
  questionId : String
  raw : α
deriving DecidableEq

/-- `PRIMARY KEY (run_id, question_id)`. -/
def GenerationRow.key {α : Type} (row : GenerationRow α) : String × String :=
  (row.runId, row.questionId)

structure GenerationCache (α : Type) where
  rows : List (GenerationRow α)

namespace GenerationCache

variable {α : Type}

def empty : GenerationCache α := ⟨[]⟩

def find (cache : GenerationCache α) (runId questionId : String) :
    Option (GenerationRow α) :=
  cache.rows.find? fun row => row.key = (runId, questionId)

def alreadyHasRunResult (cache : GenerationCache α) (runId questionId : String) :
    Bool :=
  (cache.find runId questionId).isSome

def getRunResult (cache : GenerationCache α) (runId questionId : String) :
    Option α :=
  (cache.find runId questionId).map GenerationRow.raw

/-- `INSERT OR REPLACE INTO eval_generations`. -/
def record (cache : GenerationCache α) (runId questionId : String) (raw : α) :
    GenerationCache α where
  rows := cache.rows.filter (fun row => row.key ≠ (runId, questionId)) ++
    [⟨runId, questionId, raw⟩]

theorem find_record_self (cache : GenerationCache α) (runId questionId : String)
    (raw : α) :
    (cache.record runId questionId raw).find runId questionId =
      some ⟨runId, questionId, raw⟩ :=
  findByKey_insertOrReplace_self GenerationRow.key ⟨runId, questionId, raw⟩ cache.rows

@[simp] theorem getRunResult_record_self (cache : GenerationCache α)
    (runId questionId : String) (raw : α) :
    (cache.record runId questionId raw).getRunResult runId questionId = some raw := by
  unfold getRunResult
  rw [find_record_self]
  rfl

theorem find_record_of_ne (cache : GenerationCache α) {runId questionId : String}
    {runId' questionId' : String} (raw : α)
    (h : (runId', questionId') ≠ (runId, questionId)) :
    (cache.record runId questionId raw).find runId' questionId' =
      cache.find runId' questionId' :=
  findByKey_insertOrReplace_of_ne GenerationRow.key (r := ⟨runId, questionId, raw⟩) h
    cache.rows

end GenerationCache

/-!
# Records
-/

/-- A line of `answerable.jsonl` or `negatives.jsonl`, with the keys that the
runner and the grading read; a line need not have all of them. -/
structure EvalRecord where
  financebenchId : String
  question : String
  docName : Option String
  servedDocName : Option String
  ablatedPages : Option (List Int)
  tier : Option String
  goldValue : Option PyFloat
deriving DecidableEq

/-!
# What a row holds
-/

/-- What `generate_structured` returns. -/
structure StructuredResult where
  text : String
  parsed : GateAnswer
  promptTokens : Option Int
  completionTokens : Option Int
  latencyMs : PyFloat

/-- The dict of `generate_for_record`; `κ` is the type of the keys of the dicts
in it. -/
structure RawGeneration (κ : Type) where
  parsed : GateAnswer
  text : String
  promptTokens : Option Int
  completionTokens : Option Int
  latencyMs : PyFloat
  servedDocName : String
  retrievedChunkIds : List Int
  chunkTextById : List (κ × String)
  chunkScaleById : List (κ × Option String)
  chunkPageById : List (κ × Int)
  top1Score : Option PyFloat
  top2Score : Option PyFloat

/-- `{cid: f(chunk_by_id[cid]) for cid in cited_ids if cid in chunk_by_id}`. -/
def citedChunks {β : Type} (ctx : RetrievalContext) (answer : GateAnswer)
    (f : RetrievedChunk -> β) : List (Int × β) :=
  (citedIds answer).dedup.filterMap fun cid =>
    (ctx.chunksById cid).map fun chunk => (cid, f chunk)

/-- `generate_for_record` from what retrieval and the model returned. -/
def generateForRecord (docName : String) (ctx : RetrievalContext)
    (result : StructuredResult) : RawGeneration Int where
  parsed := result.parsed
  text := result.text
  promptTokens := result.promptTokens
  completionTokens := result.completionTokens
  latencyMs := result.latencyMs
  servedDocName := docName
  retrievedChunkIds := ctx.chunkIds
  chunkTextById := citedChunks ctx result.parsed RetrievedChunk.text
  chunkScaleById := citedChunks ctx result.parsed RetrievedChunk.unitScale
  chunkPageById := citedChunks ctx result.parsed RetrievedChunk.pageNum
  top1Score := (ctx.scored.map Prod.snd)[0]?
  top2Score := (ctx.scored.map Prod.snd)[1]?

def stringKeys {β : Type} (entries : List (Int × β)) : List (String × β) :=
  entries.map fun entry => (String.ofList (intText entry.1), entry.2)

/-- `json.loads(json.dumps(raw))`: floats, strings and lists come back as they
were, and the keys of the dicts as strings. -/
def RawGeneration.reloaded (raw : RawGeneration Int) : RawGeneration String where
  parsed := raw.parsed
  text := raw.text
  promptTokens := raw.promptTokens
  completionTokens := raw.completionTokens
  latencyMs := raw.latencyMs
  servedDocName := raw.servedDocName
  retrievedChunkIds := raw.retrievedChunkIds
  chunkTextById := stringKeys raw.chunkTextById
  chunkScaleById := stringKeys raw.chunkScaleById
  chunkPageById := stringKeys raw.chunkPageById
  top1Score := raw.top1Score
  top2Score := raw.top2Score

/-- `{int(k): v for k, v in entries.items()}`. -/
def intKeys {β : Type} (entries : List (String × β)) : Except Exn (List (Int × β)) :=
  entries.mapM fun entry =>
    match readInt entry.1.toList with
    | some key => .ok (key, entry.2)
    | none => .error (.exception s!"invalid literal for int() with base 10: '{entry.1}'")

theorem intKeys_stringKeys {β : Type} (entries : List (Int × β)) :
    intKeys (stringKeys entries) = .ok entries := by
  unfold intKeys stringKeys
  induction entries with
  | nil => rfl
  | cons entry rest ih =>
      rw [List.map_cons, List.mapM_cons, ih]
      dsimp only
      rw [String.toList_ofList, readInt_intText]
      rfl

/-- `entries[id]`: of two entries with one key the last counts. -/
def dictGet {β : Type} (entries : List (Int × β)) (id : Int) : Option β :=
  entries.reverse.lookup id

theorem dictGet_citedChunks {β : Type} {ctx : RetrievalContext} {answer : GateAnswer}
    (f : RetrievedChunk -> β) {id : Int} (h : id ∈ citedIds answer) :
    dictGet (citedChunks ctx answer f) id = (ctx.chunksById id).map f := by
  have hids (ids : List Int) (hmem : id ∈ ids) :
      (ids.filterMap fun cid =>
        (ctx.chunksById cid).map fun chunk => (cid, f chunk)).lookup id =
        (ctx.chunksById id).map f := by
    induction ids with
    | nil => cases hmem
    | cons first rest ih =>
        rw [List.filterMap_cons]
        by_cases heq : id = first
        · subst heq
          cases hchunk : ctx.chunksById id with
          | none =>
              rw [Option.map_none, Option.map_none]
              dsimp only
              rw [List.lookup_eq_none_iff]
              intro entry hentry
              rcases List.mem_filterMap.mp hentry with ⟨cid, _, hcid⟩
              rcases Option.map_eq_some_iff.mp hcid with ⟨chunk, hfound, hpair⟩
              rw [← hpair]
              dsimp only
              rw [bne_iff_ne]
              intro hsame
              rw [← hsame, hchunk] at hfound
              cases hfound
          | some chunk => simp
        · have hrest := ih (List.mem_of_ne_of_mem heq hmem)
          cases hchunk : ctx.chunksById first with
          | none => simpa [hchunk] using hrest
          | some chunk =>
              have hne : (id == first) = false := beq_eq_false_iff_ne.mpr heq
              simp only [Option.map_some, List.lookup_cons, hne]
              exact hrest
  unfold dictGet citedChunks
  rw [← List.filterMap_reverse]
  exact hids _ (List.mem_reverse.mpr (List.mem_dedup.mpr h))

end ChatDoc
