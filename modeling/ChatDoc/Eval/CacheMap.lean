import ChatDoc.Eval.Baseline
import ChatDoc.Foundation.JsonRoundTrip
import ChatDoc.Foundation.Separated
import Mathlib.Data.List.Lex
import Mathlib.Order.Fin.Basic

/-!
# The cache as a map

`GenerationCache` of `eval/cache.py` with arbitrary prompts, models and parameters: both
tables with all their columns, and what the lookups return after any sequence of records.
-/

namespace ChatDoc

open Foundation

/-!
# The key
-/

abbrev JsonObject := List (List CodePoint × PyValue)

mutual

/-- A value with the members of its objects in the order of their keys. -/
def sortKeys : PyValue -> PyValue
  | .array items => .array (sortItems items)
  | .object members =>
      .object ((sortMembers members).mergeSort fun m m' => decide (m.1 <= m'.1))
  | v => v

def sortItems : List PyValue -> List PyValue
  | [] => []
  | v :: rest => sortKeys v :: sortItems rest

def sortMembers : JsonObject -> JsonObject
  | [] => []
  | (key, v) :: rest => (key, sortKeys v) :: sortMembers rest

end

/-- `json.dumps(params, sort_keys=True)`. -/
def sortedJson (params : JsonObject) : String :=
  String.ofList (dumps (sortKeys (.object params)))

/-- The digest is a function. -/
def cacheKey (sha256 : String -> String) (prompt model : String) (params : JsonObject) :
    String :=
  sha256 s!"{model}\n{sortedJson params}\n{prompt}"

theorem Baseline.cacheKey_eq (B : Baseline) (prompt : String) :
    B.cacheKey prompt = ChatDoc.cacheKey B.sha256 prompt B.model
      [("model".toList.map codePoint, .string (B.model.toList.map codePoint))] := by
  have hsorted : sortKeys (.object
      [("model".toList.map codePoint, .string (B.model.toList.map codePoint))]) =
      .object [("model".toList.map codePoint, .string (B.model.toList.map codePoint))] := by
    rw [sortKeys, sortMembers, sortMembers, List.mergeSort_singleton, sortKeys]
    all_goals nofun
  rw [Baseline.cacheKey, Baseline.paramsJson, ChatDoc.cacheKey, sortedJson, hsorted]

theorem newline_notMem_sortedJson (params : JsonObject) :
    '\n' ∉ (sortedJson params).toList := by
  intro hin
  rw [sortedJson, String.toList_ofList] at hin
  exact absurd (printable_dumps _ '\n' hin).left (by decide)

theorem keyText_toList (prompt model params : String) :
    s!"{model}\n{params}\n{prompt}".toList =
      model.toList ++ '\n' :: (params.toList ++ '\n' :: prompt.toList) := by
  have hself : forall text : String, toString text = text := fun _ => rfl
  have hline : "\n".toList = ['\n'] := rfl
  simp only [hself, String.toList_append, hline, List.append_assoc, List.cons_append,
    List.nil_append]

/-- The lines before the prompt have no line breaks, so the prompt is what follows the
second one. -/
theorem cacheKey_inj {sha256 : String -> String} (hsha : Function.Injective sha256)
    {model model' : String} (hmodel : '\n' ∉ model.toList) (hmodel' : '\n' ∉ model'.toList)
    (prompt prompt' : String) (params params' : JsonObject) :
    cacheKey sha256 prompt model params = cacheKey sha256 prompt' model' params' <->
      prompt = prompt' ∧ model = model' ∧ sortedJson params = sortedJson params' := by
  constructor
  · intro h
    have htext := hsha h
    rw [← String.toList_inj, keyText_toList, keyText_toList] at htext
    rcases field_unique_of_notMem hmodel hmodel' htext with ⟨hm, hrest⟩
    rcases field_unique_of_notMem (newline_notMem_sortedJson params)
      (newline_notMem_sortedJson params') hrest with ⟨hp, htail⟩
    exact ⟨String.toList_inj.mp htail, String.toList_inj.mp hm, String.toList_inj.mp hp⟩
  · rintro ⟨rfl, rfl, hp⟩
    rw [cacheKey, hp, cacheKey]

/-!
# The tables
-/

/-- A row of `llm_cache`.  A latency is finite. -/
structure LlmCacheRow where
  cacheKey : String
  model : String
  prompt : String
  paramsJson : String
  rawJson : String
  latencyMs : Rat
  promptTokens : Option Int
  completionTokens : Option Int
  createdAt : String

structure EvalGenerationRow where
  runId : String
  questionId : String
  promptHash : String
  cacheKey : String
  rawJson : String
  latencyMs : Rat
  promptTokens : Option Int
  completionTokens : Option Int
  cacheHit : Bool
  createdAt : String

/-- `PRIMARY KEY (run_id, question_id)`. -/
def EvalGenerationRow.key (row : EvalGenerationRow) : String × String :=
  (row.runId, row.questionId)

structure CacheTables where
  llmCache : List LlmCacheRow
  evalGenerations : List EvalGenerationRow

def CacheTables.empty : CacheTables := ⟨[], []⟩

/-- The arguments of `record`, and the time at which it is called. -/
structure RecordArgs (ρ : Type) where
  runId : String
  questionId : String
  prompt : String
  model : String
  params : JsonObject
  raw : ρ
  cacheHit : Bool
  latencyMs : Rat
  promptTokens : Option Int
  completionTokens : Option Int
  now : String

namespace CacheTables

section Methods

variable {ρ : Type} (sha256 : String -> String) (dumpsRaw : ρ -> String)
  (loads : String -> ρ)

def lookup (cache : CacheTables) (prompt model : String) (params : JsonObject) : Option ρ :=
  (findByKey LlmCacheRow.cacheKey (cacheKey sha256 prompt model params) cache.llmCache).map
    fun row => loads row.rawJson

def getRunResult (cache : CacheTables) (runId questionId : String) : Option ρ :=
  (findByKey EvalGenerationRow.key (runId, questionId) cache.evalGenerations).map
    fun row => loads row.rawJson

variable (call : RecordArgs ρ)

/-- The row that `record` writes to `llm_cache` for a fresh generation. -/
def llmRow : LlmCacheRow where
  cacheKey := cacheKey sha256 call.prompt call.model call.params
  model := call.model
  prompt := call.prompt
  paramsJson := sortedJson call.params
  rawJson := dumpsRaw call.raw
  latencyMs := call.latencyMs
  promptTokens := call.promptTokens
  completionTokens := call.completionTokens
  createdAt := call.now

def generationRow : EvalGenerationRow where
  runId := call.runId
  questionId := call.questionId
  promptHash := cacheKey sha256 call.prompt call.model call.params
  cacheKey := cacheKey sha256 call.prompt call.model call.params
  rawJson := dumpsRaw call.raw
  latencyMs := call.latencyMs
  promptTokens := call.promptTokens
  completionTokens := call.completionTokens
  cacheHit := call.cacheHit
  createdAt := call.now

def record (cache : CacheTables) : CacheTables where
  llmCache :=
    if call.cacheHit then cache.llmCache
    else insertOrReplace LlmCacheRow.cacheKey (llmRow sha256 dumpsRaw call) cache.llmCache
  evalGenerations :=
    insertOrReplace EvalGenerationRow.key (generationRow sha256 dumpsRaw call)
      cache.evalGenerations

def recordAll (calls : List (RecordArgs ρ)) : CacheTables :=
  calls.foldl (fun cache call => record sha256 dumpsRaw call cache) empty

end Methods

/-!
# What the tables hold
-/

section Contents

variable {ρ : Type} {sha256 : String -> String} {dumpsRaw : ρ -> String}
  {loads : String -> ρ}

theorem foldl_record (calls : List (RecordArgs ρ)) (cache : CacheTables) :
    calls.foldl (fun cache call => record sha256 dumpsRaw call cache) cache =
      ⟨insertAll LlmCacheRow.cacheKey
          ((calls.filter fun call => !call.cacheHit).map (llmRow sha256 dumpsRaw))
          cache.llmCache,
        insertAll EvalGenerationRow.key (calls.map (generationRow sha256 dumpsRaw))
          cache.evalGenerations⟩ := by
  induction calls generalizing cache with
  | nil => rfl
  | cons call rest ih =>
      rw [List.foldl_cons, ih]
      cases hhit : call.cacheHit with
      | true =>
          rw [List.filter_cons_of_neg (by simp [hhit]), record, hhit]
          rfl
      | false =>
          rw [List.filter_cons_of_pos (by simp [hhit]), record, hhit]
          rfl

theorem recordAll_eq (calls : List (RecordArgs ρ)) :
    recordAll sha256 dumpsRaw calls =
      ⟨insertAll LlmCacheRow.cacheKey
          ((calls.filter fun call => !call.cacheHit).map (llmRow sha256 dumpsRaw)) [],
        insertAll EvalGenerationRow.key (calls.map (generationRow sha256 dumpsRaw)) []⟩ :=
  foldl_record calls empty

theorem map_raw_findRev? {calls : List (RecordArgs ρ)}
    (hjson : forall call, call ∈ calls -> loads (dumpsRaw call.raw) = call.raw)
    (p : RecordArgs ρ -> Bool) :
    (calls.findRev? p).map (fun call => loads (dumpsRaw call.raw)) =
      (calls.findRev? p).map RecordArgs.raw := by
  apply Option.map_congr
  intro call hcall
  exact hjson call (mem_of_findRev? hcall)

theorem lookup_recordAll (hsha : Function.Injective sha256) {calls : List (RecordArgs ρ)}
    (hjson : forall call, call ∈ calls -> loads (dumpsRaw call.raw) = call.raw)
    (hmodels : forall call, call ∈ calls -> '\n' ∉ call.model.toList)
    {prompt model : String} {params : JsonObject} (hmodel : '\n' ∉ model.toList) :
    (recordAll sha256 dumpsRaw calls).lookup sha256 loads prompt model params =
      (calls.findRev? fun call => call.cacheHit = false ∧ call.prompt = prompt ∧
        call.model = model ∧ sortedJson call.params = sortedJson params).map
          RecordArgs.raw := by
  have hkeys : (calls.findRev? fun call => !call.cacheHit &&
      decide (cacheKey sha256 call.prompt call.model call.params =
        cacheKey sha256 prompt model params)) =
      calls.findRev? fun call => call.cacheHit = false ∧ call.prompt = prompt ∧
        call.model = model ∧ sortedJson call.params = sortedJson params := by
    apply findRev?_congr
    intro call hcall
    have hsame := cacheKey_inj hsha (hmodels call hcall) hmodel call.prompt prompt
      call.params params
    cases call.cacheHit <;> simp [hsame]
  calc (recordAll sha256 dumpsRaw calls).lookup sha256 loads prompt model params
      = (calls.findRev? fun call => !call.cacheHit &&
          decide (cacheKey sha256 call.prompt call.model call.params =
            cacheKey sha256 prompt model params)).map
          (fun call => loads (dumpsRaw call.raw)) := by
        rw [lookup, recordAll_eq, findByKey_insertAll, findRev?_map, findRev?_filter]
        rw [findByKey, List.find?_nil, Option.or_none, Option.map_map]
        rfl
    _ = _ := by rw [map_raw_findRev? hjson, hkeys]

theorem getRunResult_recordAll {calls : List (RecordArgs ρ)}
    (hjson : forall call, call ∈ calls -> loads (dumpsRaw call.raw) = call.raw)
    (runId questionId : String) :
    (recordAll sha256 dumpsRaw calls).getRunResult loads runId questionId =
      (calls.findRev? fun call => call.runId = runId ∧ call.questionId = questionId).map
        RecordArgs.raw := by
  have hkeys : (calls.findRev? fun call => decide (
      (generationRow sha256 dumpsRaw call).key = (runId, questionId))) =
      calls.findRev? fun call => call.runId = runId ∧ call.questionId = questionId := by
    apply findRev?_congr
    intro call _
    exact decide_eq_decide.mpr Prod.mk_inj
  rw [← map_raw_findRev? hjson, ← hkeys, getRunResult, recordAll_eq, findByKey_insertAll,
    findRev?_map, findByKey, List.find?_nil, Option.or_none, Option.map_map]
  rfl

end Contents
end CacheTables

/-- Both tables are maps from their keys to what was recorded last, and a record under one
key makes no difference to the others, wherever it stands in the sequence. -/
theorem cache_is_a_map {ρ : Type} (sha256 : String -> String)
    (hsha : Function.Injective sha256) (dumpsRaw : ρ -> String) (loads : String -> ρ)
    (calls : List (RecordArgs ρ))
    (hjson : forall call, call ∈ calls -> loads (dumpsRaw call.raw) = call.raw)
    (hmodels : forall call, call ∈ calls -> '\n' ∉ call.model.toList) :
    (forall (prompt model : String) (params : JsonObject), '\n' ∉ model.toList ->
      (CacheTables.recordAll sha256 dumpsRaw calls).lookup sha256 loads prompt model params =
        (calls.findRev? fun call => call.cacheHit = false ∧ call.prompt = prompt ∧
          call.model = model ∧ sortedJson call.params = sortedJson params).map
            RecordArgs.raw) ∧
    (forall runId questionId : String,
      (CacheTables.recordAll sha256 dumpsRaw calls).getRunResult loads runId questionId =
        (calls.findRev? fun call => call.runId = runId ∧
          call.questionId = questionId).map RecordArgs.raw) ∧
    forall (before after : List (RecordArgs ρ)) (call : RecordArgs ρ),
      calls = before ++ call :: after ->
        (forall (prompt model : String) (params : JsonObject), '\n' ∉ model.toList ->
          ¬ (call.prompt = prompt ∧ call.model = model ∧
            sortedJson call.params = sortedJson params) ->
          (CacheTables.recordAll sha256 dumpsRaw calls).lookup sha256 loads prompt model
              params =
            (CacheTables.recordAll sha256 dumpsRaw (before ++ after)).lookup sha256 loads
              prompt model params) ∧
        forall runId questionId : String,
          ¬ (call.runId = runId ∧ call.questionId = questionId) ->
          (CacheTables.recordAll sha256 dumpsRaw calls).getRunResult loads runId questionId =
            (CacheTables.recordAll sha256 dumpsRaw (before ++ after)).getRunResult loads runId
              questionId := by
  refine ⟨fun prompt model params hmodel =>
      CacheTables.lookup_recordAll hsha hjson hmodels hmodel,
    CacheTables.getRunResult_recordAll hjson, ?_⟩
  intro before after call hcalls
  subst hcalls
  have hothers : forall other, other ∈ before ++ after ->
      other ∈ before ++ call :: after := by
    intro other hother
    rcases List.mem_append.mp hother with hin | hin
    · exact List.mem_append_left _ hin
    · exact List.mem_append_right _ (List.mem_cons_of_mem call hin)
  constructor
  · intro prompt model params hmodel hkey
    rw [CacheTables.lookup_recordAll hsha hjson hmodels hmodel,
      CacheTables.lookup_recordAll hsha (fun other hother => hjson other (hothers other hother))
        (fun other hother => hmodels other (hothers other hother)) hmodel,
      findRev?_remove]
    exact decide_eq_false fun h => hkey h.right
  · intro runId questionId hkey
    rw [CacheTables.getRunResult_recordAll hjson, CacheTables.getRunResult_recordAll
        fun other hother => hjson other (hothers other hother),
      findRev?_remove]
    exact decide_eq_false hkey

def oneParam : JsonObject := [("temperature".toList.map codePoint, .number (.int 0))]

def recordedCalls : List (RecordArgs PyValue) :=
  [⟨"run", "q1", "two\nlines", "gemini", oneParam, .array [], false,
      12, none, none, "2026-01-01T00:00:00Z"⟩,
    ⟨"run", "q2", "two\nlines", "gemini", oneParam, .array [], true,
      0, some 7, some 1, "2026-01-01T00:00:12Z"⟩,
    ⟨"run", "q1", "two\nlines", "gemini", [], .object [], false, 9, none, none,
      "2026-01-01T00:00:21Z"⟩]

def dumpsText (raw : PyValue) : String := String.ofList (dumps raw)

def loadsText (text : String) : PyValue :=
  if text = "{}" then .object [] else if text = "[]" then .array [] else .null

theorem cache_is_a_map_recorded :
    (CacheTables.recordAll id dumpsText recordedCalls).lookup id loadsText "two\nlines"
        "gemini" oneParam = some (.array []) ∧
      (CacheTables.recordAll id dumpsText recordedCalls).getRunResult loadsText "run" "q1" =
        some (.object []) ∧
      (CacheTables.recordAll id dumpsText recordedCalls).getRunResult loadsText "run" "q2" =
        (CacheTables.recordAll id dumpsText (recordedCalls.take 2)).getRunResult loadsText "run"
          "q2" := by
  have hjson : forall call, call ∈ recordedCalls -> loadsText (dumpsText call.raw) = call.raw := by
    simp [recordedCalls, dumpsText, loadsText, dumps, dumpsItems, dumpsMembers]
  rcases cache_is_a_map id Function.injective_id dumpsText loadsText recordedCalls hjson
    (by decide) with ⟨hlookup, hresult, hothers⟩
  have hparams : sortedJson [] ≠ sortedJson oneParam := by
    decide +kernel
  refine ⟨?_, ?_, ?_⟩
  · rw [hlookup _ _ _ (by decide)]
    simp [recordedCalls, hparams]
  · rw [hresult]
    simp [recordedCalls]
  · exact (hothers (recordedCalls.take 2) [] _ rfl).right "run" "q2" (by decide)

end ChatDoc
