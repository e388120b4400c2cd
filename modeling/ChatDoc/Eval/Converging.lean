import ChatDoc.Eval.Baseline

/-!
# Resumed runs

Whatever stops the invocations of a run, and wherever, the questions end up with
the same generations.  What a question ends up with is settled by the file that
the first invocation found: what is cached there, or what the first record with
the same key is answered.
-/

namespace ChatDoc

open Foundation
open Foundation.Program

namespace Baseline

variable (B : Baseline)

/-!
# Properties
-/

/-- An invocation over all records that sends its calls has reached the end. -/
def Finished (s : BaselineState) : Prop :=
  exists i, s.running = some (i, .ret .completed) ∧ i.dryRun = false ∧
    limited i.limit B.records = B.records

def Uninterrupted (trace : List (BaselineState × BaselineAction)) : Prop :=
  exists i rest, trace.map Prod.snd = .invoke i :: rest ∧
    forall a, a ∈ rest -> exists outcome, a = .call outcome

/-- What is stored for the run stays, nothing is recorded for a question that has
a row, and no prompt is sent that is in the cache. -/
structure Careful (s : BaselineState) (a : BaselineAction) : Prop where
  kept : forall s' questionId g, B.act s a = some s' ->
    B.stored s.file.cache questionId = some g ->
      B.stored s'.file.cache questionId = some g
  notOverwritten : forall i r next, s.running = some (i, .call (.record r) next) ->
    B.stored s.file.cache r.questionId = none
  notResent : forall i prompt next,
    s.running = some (i, .call (.generate prompt) next) ->
      B.lookup s.file.cache prompt = none

/-!
# What is settled from the start
-/

def found (cache : BaselineCache) (key : String) : Option RawText :=
  (findByKey LlmRow.cacheKey key cache.llmCache).map LlmRow.raw

def keyOf (r : EvalRecord) : Option String :=
  (B.buildPrompt r).toOption.map B.cacheKey

/-- The first record without a row whose prompt has the key. -/
def owner (start : BaselineCache) (key : String) : Option EvalRecord :=
  B.records.find? fun r =>
    (B.stored start r.financebenchId).isNone && B.keyOf r == some key

def hitCall (r : EvalRecord) (prompt : String) (raw : RawText) : RecordedCall where
  questionId := r.financebenchId
  prompt := prompt
  raw := raw
  cacheHit := true
  latencyMs := .finite 0
  promptTokens := none
  completionTokens := none

def freshCall (r : EvalRecord) (prompt : String) (raw : RawText) : RecordedCall where
  questionId := r.financebenchId
  prompt := prompt
  raw := raw
  cacheHit := false
  latencyMs := raw.latencyMs
  promptTokens := raw.promptTokens
  completionTokens := raw.completionTokens

/-- What a record without a row ends up with. -/
inductive Settled (start : BaselineCache) (r : EvalRecord) : BaselineGeneration -> Prop where
  | cached {prompt : String} {raw : RawText} :
      B.buildPrompt r = .ok prompt -> found start (B.cacheKey prompt) = some raw ->
        Settled start r (B.rowOf (hitCall r prompt raw))
  | first {prompt : String} :
      B.buildPrompt r = .ok prompt -> found start (B.cacheKey prompt) = none ->
        B.owner start (B.cacheKey prompt) = some r ->
          Settled start r (B.rowOf (freshCall r prompt (B.generate prompt)))
  | shared {prompt prompt' : String} {r' : EvalRecord} :
      B.buildPrompt r = .ok prompt -> found start (B.cacheKey prompt) = none ->
        B.owner start (B.cacheKey prompt) = some r' -> r' ≠ r ->
          B.buildPrompt r' = .ok prompt' ->
            Settled start r (B.rowOf (hitCall r prompt (B.generate prompt')))

variable {B} {start cache : BaselineCache}

theorem settled_unique {r : EvalRecord} {g g' : BaselineGeneration}
    (h : B.Settled start r g) (h' : B.Settled start r g') : g = g' := by
  cases h with
  | cached hprompt hfound =>
      cases h' with
      | cached hprompt' hfound' =>
          rw [hprompt] at hprompt'
          cases hprompt'
          rw [hfound] at hfound'
          cases hfound'
          rfl
      | first hprompt' hfound' _ =>
          rw [hprompt] at hprompt'
          cases hprompt'
          rw [hfound] at hfound'
          cases hfound'
      | shared hprompt' hfound' _ _ _ =>
          rw [hprompt] at hprompt'
          cases hprompt'
          rw [hfound] at hfound'
          cases hfound'
  | first hprompt hfound howner =>
      cases h' with
      | cached hprompt' hfound' =>
          rw [hprompt] at hprompt'
          cases hprompt'
          rw [hfound] at hfound'
          cases hfound'
      | first hprompt' _ _ =>
          rw [hprompt] at hprompt'
          cases hprompt'
          rfl
      | shared hprompt' _ howner' hne _ =>
          rw [hprompt] at hprompt'
          cases hprompt'
          rw [howner] at howner'
          cases howner'
          exact absurd rfl hne
  | shared hprompt hfound howner hne hprompt1 =>
      cases h' with
      | cached hprompt' hfound' =>
          rw [hprompt] at hprompt'
          cases hprompt'
          rw [hfound] at hfound'
          cases hfound'
      | first hprompt' _ howner' =>
          rw [hprompt] at hprompt'
          cases hprompt'
          rw [howner] at howner'
          cases howner'
          exact absurd rfl hne
      | shared hprompt' _ howner' _ hprompt2 =>
          rw [hprompt] at hprompt'
          cases hprompt'
          rw [howner] at howner'
          cases howner'
          rw [hprompt1] at hprompt2
          cases hprompt2
          rfl

/-!
# What a record does to the file
-/

theorem found_record (r : RecordedCall) (key : String) :
    found (B.record cache r) key =
      if r.cacheHit = false ∧ key = B.cacheKey r.prompt then some r.raw
      else found cache key := by
  unfold found record
  dsimp only
  cases r.cacheHit with
  | true => simp
  | false =>
      rw [if_neg (by decide)]
      by_cases hkey : key = B.cacheKey r.prompt
      · rw [if_pos ⟨rfl, hkey⟩, hkey]
        exact congrArg (Option.map LlmRow.raw)
          (findByKey_insertOrReplace_self LlmRow.cacheKey (B.llmRow r) cache.llmCache)
      · rw [if_neg (fun hall => hkey hall.2),
          findByKey_insertOrReplace_of_ne LlmRow.cacheKey hkey]

theorem stored_record (r : RecordedCall) (questionId : String) :
    B.stored (B.record cache r) questionId =
      if questionId = r.questionId then some (B.rowOf r)
      else B.stored cache questionId := by
  unfold stored
  by_cases hid : questionId = r.questionId
  · rw [if_pos hid, hid]
    exact GenerationCache.getRunResult_record_self _ _ _ _
  · rw [if_neg hid]
    unfold GenerationCache.getRunResult
    congr 1
    apply GenerationCache.find_record_of_ne
    intro hkey
    exact hid (Prod.mk.inj hkey).2

theorem stored_record_self (r : RecordedCall) :
    B.stored (B.record cache r) r.questionId = some (B.rowOf r) := by
  rw [stored_record, if_pos rfl]

theorem isSome_stored (questionId : String) :
    (B.stored cache questionId).isSome =
      cache.generations.alreadyHasRunResult B.runId questionId := by
  unfold stored GenerationCache.getRunResult
  rw [Option.isSome_map]
  rfl

structure Good (B : Baseline) (start cache : BaselineCache) : Prop where
  kept : forall questionId g, B.stored start questionId = some g ->
    B.stored cache questionId = some g
  settled : forall questionId g, B.stored cache questionId = some g ->
    B.stored start questionId = some g ∨
      exists r, r ∈ B.records ∧ r.financebenchId = questionId ∧
        B.stored start questionId = none ∧ B.Settled start r g
  cached : forall key raw, found start key = some raw -> found cache key = some raw
  generated : forall key raw, found cache key = some raw ->
    found start key = some raw ∨
      (found start key = none ∧ exists r prompt, B.owner start key = some r ∧
        B.buildPrompt r = .ok prompt ∧ raw = B.generate prompt ∧
          (B.stored cache r.financebenchId).isSome)
  answered : forall r, r ∈ B.records -> B.stored start r.financebenchId = none ->
    (B.stored cache r.financebenchId).isSome ->
      exists prompt, B.buildPrompt r = .ok prompt ∧
        (found cache (B.cacheKey prompt)).isSome

theorem good_start : Good B start start where
  kept := fun _ _ h => h
  settled := fun _ _ h => .inl h
  cached := fun _ _ h => h
  generated := fun _ _ h => .inl h
  answered := by
    intro r _ hnone hsome
    rw [hnone] at hsome
    cases hsome

theorem Good.none_of_none (h : Good B start cache) {questionId : String}
    (hnone : B.stored cache questionId = none) : B.stored start questionId = none := by
  cases hstart : B.stored start questionId with
  | none => rfl
  | some g =>
      rw [h.kept questionId g hstart] at hnone
      cases hnone

theorem isSome_stored_record (r : RecordedCall) {questionId : String}
    (h : (B.stored cache questionId).isSome) :
    (B.stored (B.record cache r) questionId).isSome := by
  rw [stored_record]
  split
  · rfl
  · exact h

theorem isSome_found_record (r : RecordedCall) {key : String}
    (h : (found cache key).isSome) : (found (B.record cache r) key).isSome := by
  rw [found_record]
  split
  · rfl
  · exact h

theorem Good.settled_record (h : Good B start cache) {r : EvalRecord} {call : RecordedCall}
    (hr : r ∈ B.records) (hid : call.questionId = r.financebenchId)
    (hnone : B.stored cache r.financebenchId = none)
    (hsettled : B.Settled start r (B.rowOf call)) (questionId : String)
    (g : BaselineGeneration)
    (hstored : B.stored (B.record cache call) questionId = some g) :
    B.stored start questionId = some g ∨
      exists r, r ∈ B.records ∧ r.financebenchId = questionId ∧
        B.stored start questionId = none ∧ B.Settled start r g := by
  rw [stored_record] at hstored
  split at hstored
  next hsame =>
    cases hstored
    rw [hsame, hid]
    exact .inr ⟨r, hr, rfl, h.none_of_none hnone, hsettled⟩
  next => exact h.settled questionId g hstored

theorem Good.kept_record (h : Good B start cache) {call : RecordedCall}
    (hnone : B.stored cache call.questionId = none) (questionId : String)
    (g : BaselineGeneration) (hstored : B.stored start questionId = some g) :
    B.stored (B.record cache call) questionId = some g := by
  rw [stored_record, if_neg]
  · exact h.kept questionId g hstored
  · intro hsame
    rw [hsame, h.none_of_none hnone] at hstored
    cases hstored

theorem record_eq_of_id (hids : (B.records.map EvalRecord.financebenchId).Nodup)
    {r r' : EvalRecord} (hr : r ∈ B.records) (hr' : r' ∈ B.records)
    (hid : r.financebenchId = r'.financebenchId) : r = r' :=
  List.inj_on_of_nodup_map hids hr hr' hid

theorem Good.answered_record (h : Good B start cache)
    (hids : (B.records.map EvalRecord.financebenchId).Nodup) {r : EvalRecord}
    {call : RecordedCall} {prompt : String} (hr : r ∈ B.records)
    (hid : call.questionId = r.financebenchId) (hprompt : B.buildPrompt r = .ok prompt)
    (hfound : (found (B.record cache call) (B.cacheKey prompt)).isSome) (r' : EvalRecord)
    (hr' : r' ∈ B.records) (hnone : B.stored start r'.financebenchId = none)
    (hstored : (B.stored (B.record cache call) r'.financebenchId).isSome) :
    exists prompt, B.buildPrompt r' = .ok prompt ∧
      (found (B.record cache call) (B.cacheKey prompt)).isSome := by
  rw [stored_record] at hstored
  split at hstored
  next hsame =>
    have heq := record_eq_of_id hids hr' hr (hsame.trans hid)
    subst heq
    exact ⟨prompt, hprompt, hfound⟩
  next =>
    rcases h.answered r' hr' hnone hstored with ⟨prompt', hprompt', hfound'⟩
    exact ⟨prompt', hprompt', isSome_found_record call hfound'⟩

theorem good_hit (h : Good B start cache)
    (hids : (B.records.map EvalRecord.financebenchId).Nodup) {r : EvalRecord}
    {prompt : String} {raw : RawText} (hr : r ∈ B.records)
    (hprompt : B.buildPrompt r = .ok prompt)
    (hfound : found cache (B.cacheKey prompt) = some raw)
    (hnone : B.stored cache r.financebenchId = none) :
    Good B start (B.record cache (hitCall r prompt raw)) := by
  have hsame (key : String) :
      found (B.record cache (hitCall r prompt raw)) key = found cache key := by
    rw [found_record, if_neg]
    intro hall
    cases hall.1
  have hsettled : B.Settled start r (B.rowOf (hitCall r prompt raw)) := by
    rcases h.generated _ raw hfound with hold | ⟨hnew, r', prompt', howner, hprompt', rfl, hsome⟩
    · exact .cached hprompt hold
    · refine .shared hprompt hnew howner ?_ hprompt'
      rintro rfl
      rw [hnone] at hsome
      cases hsome
  constructor
  · exact h.kept_record hnone
  · exact h.settled_record hr rfl hnone hsettled
  · intro key raw' hstart
    rw [hsame]
    exact h.cached key raw' hstart
  · intro key raw' hkey
    rw [hsame] at hkey
    rcases h.generated key raw' hkey with hold | ⟨hnew, r', prompt', howner, hprompt', hraw, hsome⟩
    · exact .inl hold
    · exact .inr ⟨hnew, r', prompt', howner, hprompt', hraw, isSome_stored_record _ hsome⟩
  · apply h.answered_record hids hr rfl hprompt
    rw [hsame, hfound]
    rfl

/-- The first record with a key that is not cached owns the key, when the ones
before it have their rows. -/
theorem owner_of_first (h : Good B start cache) {done more : List EvalRecord}
    {r : EvalRecord} {prompt : String} (hrecords : B.records = done ++ r :: more)
    (hdone : forall r', r' ∈ done -> (B.stored cache r'.financebenchId).isSome)
    (hprompt : B.buildPrompt r = .ok prompt)
    (hfound : found cache (B.cacheKey prompt) = none)
    (hnone : B.stored cache r.financebenchId = none) :
    B.owner start (B.cacheKey prompt) = some r := by
  have hkey : B.keyOf r = some (B.cacheKey prompt) := by
    unfold keyOf
    rw [hprompt]
    rfl
  have hbefore : done.find? (fun r => (B.stored start r.financebenchId).isNone &&
      B.keyOf r == some (B.cacheKey prompt)) = none := by
    rw [List.find?_eq_none]
    intro r' hr' hown
    rw [Bool.and_eq_true, Option.isNone_iff_eq_none, beq_iff_eq] at hown
    have hmem : r' ∈ B.records := by
      rw [hrecords]
      exact List.mem_append_left _ hr'
    rcases h.answered r' hmem hown.1 (hdone r' hr') with ⟨prompt', hprompt', hsome⟩
    have hkey' := hown.2
    unfold keyOf at hkey'
    rw [hprompt'] at hkey'
    rw [Option.some.inj hkey', hfound] at hsome
    cases hsome
  unfold owner
  rw [hrecords, List.find?_append, hbefore, Option.none_or, List.find?_cons_of_pos]
  rw [h.none_of_none hnone, hkey]
  simp

theorem good_fresh (h : Good B start cache)
    (hids : (B.records.map EvalRecord.financebenchId).Nodup)
    {done more : List EvalRecord} {r : EvalRecord} {prompt : String}
    (hrecords : B.records = done ++ r :: more)
    (hdone : forall r', r' ∈ done -> (B.stored cache r'.financebenchId).isSome)
    (hprompt : B.buildPrompt r = .ok prompt)
    (hfound : found cache (B.cacheKey prompt) = none)
    (hnone : B.stored cache r.financebenchId = none) :
    Good B start (B.record cache (freshCall r prompt (B.generate prompt))) := by
  have hr : r ∈ B.records := by
    rw [hrecords]
    exact List.mem_append_right _ List.mem_cons_self
  have howner := owner_of_first h hrecords hdone hprompt hfound hnone
  have hstart : found start (B.cacheKey prompt) = none := by
    cases hold : found start (B.cacheKey prompt) with
    | none => rfl
    | some raw =>
        rw [h.cached _ raw hold] at hfound
        cases hfound
  constructor
  · exact h.kept_record hnone
  · exact h.settled_record hr rfl hnone (.first hprompt hstart howner)
  · intro key raw hkey
    rw [found_record, if_neg]
    · exact h.cached key raw hkey
    · intro hall
      rw [hall.2] at hkey
      exact absurd (hstart.symm.trans hkey) (by simp)
  · intro key raw hkey
    rw [found_record] at hkey
    split at hkey
    next hnew =>
      cases hkey
      rw [hnew.2]
      refine .inr ⟨hstart, r, prompt, howner, hprompt, rfl, ?_⟩
      exact congrArg Option.isSome (stored_record_self (freshCall r prompt _))
    next =>
      rcases h.generated key raw hkey with hold | ⟨hnew, r', prompt', howner', hprompt', hraw, hsome⟩
      · exact .inl hold
      · exact .inr ⟨hnew, r', prompt', howner', hprompt', hraw, isSome_stored_record _ hsome⟩
  · apply h.answered_record hids hr rfl hprompt
    rw [found_record, if_pos ⟨rfl, rfl⟩]
    rfl

/-!
# The programs
-/

def Permitted (B : Baseline) (cache : BaselineCache) : BaselineRequest -> Prop
  | .record r => B.stored cache r.questionId = none
  | .generate prompt => B.lookup cache prompt = none
  | _ => True

abbrev ProcSafe (B : Baseline) (start : BaselineCache) {alpha : Type}
    (post : alpha -> BaselineFile -> Prop) (fail : BaselineFault -> BaselineFile -> Prop)
    (p : BaselineProc alpha) (file : BaselineFile) : Prop :=
  Safe B.sem
    (fun (r : BaselineRequest) file => Good B start file.cache ∧ Permitted B file.cache r)
    post fail p file

section Programs

variable {alpha : Type} {post : alpha -> BaselineFile -> Prop}
  {fail : BaselineFault -> BaselineFile -> Prop} {file : BaselineFile}

theorem answer_cases {outcome : CallOutcome} {r : BaselineRequest}
    {reply : Except BaselineFault r.Reply} {file' : BaselineFile}
    (h : B.answer file outcome r = some (reply, file')) :
    (exists today, reply = .ok (B.exec today file r).1 ∧ file' = (B.exec today file r).2) ∨
      exists e, reply = .error e ∧ file' = file := by
  cases outcome with
  | returns today =>
      cases h
      exact .inl ⟨today, rfl, rfl⟩
  | rateLimited message =>
      cases r with
      | generate prompt =>
          cases h
          exact .inr ⟨_, rfl, rfl⟩
      | alreadyHasRunResult questionId => cases h
      | lookup prompt => cases h
      | record r => cases h
      | logCall questionId outcome detail => cases h
      | countCallsToday => cases h
  | raises message =>
      cases h
      exact .inr ⟨_, rfl, rfl⟩

theorem safe_request {req : BaselineRequest -> BaselineFile -> Prop} {r : BaselineRequest}
    {f : r.Reply -> BaselineProc alpha} (hreq : req r file) (hfail : forall e, fail e file)
    (hnext : forall today, Safe B.sem req post fail (f (B.exec today file r).1)
      (B.exec today file r).2) :
    Safe B.sem req post fail (send r >>= f) file := by
  apply safe_bind
  refine safe_perform hreq ?_ ?_
  · intro a file' hsem
    rcases hsem with ⟨outcome, hanswer⟩
    rcases answer_cases hanswer with ⟨today, hreply, rfl⟩ | ⟨e, hreply, _⟩
    · cases hreply
      exact hnext today
    · cases hreply
  · intro e file' hsem
    rcases hsem with ⟨outcome, hanswer⟩
    rcases answer_cases hanswer with ⟨today, hreply, _⟩ | ⟨_, _, rfl⟩
    · cases hreply
    · exact hfail e

theorem safe_send {r : BaselineRequest} {f : r.Reply -> BaselineProc alpha}
    (hgood : Good B start file.cache) (hpermitted : Permitted B file.cache r)
    (hfail : forall e, fail e file)
    (hnext : forall today, ProcSafe B start post fail (f (B.exec today file r).1)
      (B.exec today file r).2) :
    ProcSafe B start post fail (send r >>= f) file :=
  safe_request ⟨hgood, hpermitted⟩ hfail hnext

theorem attemptOnce_safe {questionId prompt : String}
    {onRateLimited : String -> BaselineProc RawText}
    {post : RawText -> BaselineFile -> Prop}
    (hgood : Good B start file.cache) (hnone : B.lookup file.cache prompt = none)
    (hlimited : forall message, ProcSafe B start post fail (onRateLimited message) file)
    (hpost : forall file', file'.cache = file.cache -> post (B.generate prompt) file')
    (hfail : forall e file', file'.cache = file.cache -> fail e file') :
    ProcSafe B start post fail (attemptOnce questionId prompt onRateLimited) file := by
  refine ⟨⟨hgood, hnone⟩, ?_⟩
  intro reply file' hsem
  rcases hsem with ⟨outcome, hanswer⟩
  have hlog {f : Unit -> BaselineProc RawText} {outcome detail : String}
      (hnext : forall file', file'.cache = file.cache ->
        ProcSafe B start post fail (f ()) file') :
      ProcSafe B start post fail (send (.logCall questionId outcome detail) >>= f) file :=
    safe_send hgood True.intro (fun e => hfail e file rfl) fun today => hnext _ rfl
  rcases answer_cases hanswer with ⟨today, rfl, rfl⟩ | ⟨e, rfl, rfl⟩
  · exact hlog fun file' hsame => hpost file' hsame
  · cases e with
    | rateLimited message => exact hlimited message
    | quotaExceeded message => exact hlog fun file' hsame => hfail _ file' hsame
    | exception message => exact hlog fun file' hsame => hfail _ file' hsame
    | systemExit code => exact hlog fun file' hsame => hfail _ file' hsame

theorem attemptCall_safe {questionId prompt : String} (hgood : Good B start file.cache)
    (hnone : B.lookup file.cache prompt = none) (retries : Nat) :
    ProcSafe B start
      (fun result file' => file'.cache = file.cache ∧ result = B.generate prompt)
      (fun _ file' => file'.cache = file.cache)
      (attemptCall questionId prompt retries) file := by
  induction retries with
  | zero =>
      apply attemptOnce_safe hgood hnone
      · intro message
        exact safe_send hgood True.intro (fun _ => rfl) fun today => rfl
      · intro file' hsame
        exact ⟨hsame, rfl⟩
      · intro _ file' hsame
        exact hsame
  | succ retries ih =>
      apply attemptOnce_safe hgood hnone
      · intro _
        exact ih
      · intro file' hsame
        exact ⟨hsame, rfl⟩
      · intro _ file' hsame
        exact hsame

theorem guardCall_safe {i : BaselineInvocation} {questionId prompt : String}
    {callsThisRun : Nat} (hgood : Good B start file.cache)
    (hnone : B.lookup file.cache prompt = none) :
    ProcSafe B start
      (fun result file' => file'.cache = file.cache ∧
        match result with
        | none => i.dryRun = true
        | some raw => i.dryRun = false ∧ raw = B.generate prompt)
      (fun _ file' => file'.cache = file.cache)
      (i.guardCall questionId prompt callsThisRun) file := by
  unfold BaselineInvocation.guardCall
  split
  next hdry =>
    exact safe_send hgood True.intro (fun _ => rfl) fun today => ⟨rfl, hdry⟩
  next hdry =>
    rw [Bool.not_eq_true] at hdry
    split
    · exact safe_send hgood True.intro (fun _ => rfl) fun today => rfl
    · refine safe_send hgood True.intro (fun _ => rfl) fun today => ?_
      split
      · exact safe_send hgood True.intro (fun _ => rfl) fun today => rfl
      · apply safe_bind
        refine safe_mono (attemptCall_safe hgood hnone maxRetries) ?_ fun _ _ hfail => hfail
        intro result file' hresult
        exact ⟨hresult.1, hdry, hresult.2⟩

theorem tryCall_safe {i : BaselineInvocation} {questionId prompt : String}
    {callsThisRun : Nat} (hgood : Good B start file.cache)
    (hnone : B.lookup file.cache prompt = none) :
    ProcSafe B start
      (fun result file' => file'.cache = file.cache ∧
        match result with
        | none => True
        | some none => i.dryRun = true
        | some (some raw) => i.dryRun = false ∧ raw = B.generate prompt)
      (fun _ file' => file'.cache = file.cache)
      (i.tryCall questionId prompt callsThisRun) file := by
  apply safe_handle
  apply safe_bind
  refine safe_mono (guardCall_safe hgood hnone) ?_ ?_
  · intro result file' hresult
    cases result with
    | none => exact hresult
    | some raw => exact hresult
  · intro e file' hsame
    cases e with
    | quotaExceeded message => exact ⟨hsame, True.intro⟩
    | rateLimited message => exact hsame
    | exception message => exact hsame
    | systemExit code => exact hsame

/-- How the loop ends: on a good file, and at its end with a row for every record
it went through, unless it is a dry run. -/
def EndsWell (B : Baseline) (start : BaselineCache) (i : BaselineInvocation)
    (records : List EvalRecord) (e : LoopEnd) (file : BaselineFile) : Prop :=
  Good B start file.cache ∧
    (e = .completed -> i.dryRun = false ->
      forall r, r ∈ records -> (B.stored file.cache r.financebenchId).isSome)

/-- The loop invariant: outside a dry run the records before have their rows. -/
theorem processRecords_safe (hids : (B.records.map EvalRecord.financebenchId).Nodup)
    {i : BaselineInvocation} {done remaining : List EvalRecord} {callsThisRun : Nat}
    (hrows : done ++ remaining <+: B.records) (hgood : Good B start file.cache)
    (hdone : i.dryRun = false ->
      forall r, r ∈ done -> (B.stored file.cache r.financebenchId).isSome) :
    ProcSafe B start (EndsWell B start i (done ++ remaining))
      (fun _ file => Good B start file.cache)
      (B.processRecords i remaining callsThisRun) file := by
  induction remaining generalizing done callsThisRun file with
  | nil =>
      rw [List.append_nil]
      exact ⟨hgood, fun _ => hdone⟩
  | cons record rest ih =>
      have hsplit : done ++ record :: rest = (done ++ [record]) ++ rest := by simp
      rcases hrows with ⟨more, hmore⟩
      have hrecords : B.records = done ++ record :: (rest ++ more) := by
        rw [← hmore]
        simp
      have hrecord : record ∈ B.records := by
        rw [hrecords]
        exact List.mem_append_right _ List.mem_cons_self
      have hnext {file' : BaselineFile} {callsThisRun : Nat}
          (hgood' : Good B start file'.cache)
          (hdone' : i.dryRun = false -> forall r, r ∈ done ++ [record] ->
            (B.stored file'.cache r.financebenchId).isSome) :
          ProcSafe B start (EndsWell B start i (done ++ record :: rest))
            (fun _ file => Good B start file.cache)
            (B.processRecords i rest callsThisRun) file' := by
        rw [hsplit]
        exact ih ⟨more, by rw [← hsplit]; exact hmore⟩ hgood' hdone'
      have hafter {cache' : BaselineCache}
          (hmono : forall r, r ∈ done -> (B.stored file.cache r.financebenchId).isSome ->
            (B.stored cache' r.financebenchId).isSome)
          (hsome : i.dryRun = false -> (B.stored cache' record.financebenchId).isSome)
          (hdry : i.dryRun = false) (r : EvalRecord) (hr : r ∈ done ++ [record]) :
          (B.stored cache' r.financebenchId).isSome := by
        rcases List.mem_append.mp hr with hin | hlast
        · exact hmono r hin (hdone hdry r hin)
        · rw [List.mem_singleton.mp hlast]
          exact hsome hdry
      refine safe_send hgood True.intro (fun _ => hgood) fun today => ?_
      split
      next hhas =>
        -- the record has its row
        have hsome : (B.stored file.cache record.financebenchId).isSome :=
          (isSome_stored _).trans hhas
        exact hnext hgood (hafter (fun _ _ h => h) fun _ => hsome)
      next hhas =>
        have hnone : B.stored file.cache record.financebenchId = none := by
          rw [← Option.not_isSome_iff_eq_none, isSome_stored]
          exact hhas
        cases hprompt : B.buildPrompt record with
        | error e => exact hgood
        | ok prompt =>
            refine safe_send hgood True.intro (fun _ => hgood) fun today => ?_
            rw [exec_lookup, exec_alreadyHasRunResult]
            dsimp only
            cases hcached : B.lookup file.cache prompt with
            | some raw =>
                -- a hit: the cached generation is recorded
                refine safe_send hgood hnone (fun _ => hgood) fun today => ?_
                apply hnext (good_hit hgood hids hrecord hprompt hcached hnone)
                apply hafter
                · intro r _ hsome
                  exact isSome_stored_record (hitCall record prompt raw) hsome
                · intro _
                  exact congrArg Option.isSome (stored_record_self (hitCall record prompt raw))
            | none =>
                apply safe_bind
                refine safe_mono (tryCall_safe hgood hcached) ?_ ?_
                · intro result file' hresult
                  rcases hresult with ⟨hsame, hresult⟩
                  have hgood' : Good B start file'.cache := by
                    rw [hsame]
                    exact hgood
                  cases result with
                  | none => exact ⟨hgood', fun hcompleted => by cases hcompleted⟩
                  | some result =>
                      cases result with
                      | none =>
                          apply hnext hgood'
                          intro hdry
                          exact absurd (hdry.symm.trans hresult) (by decide)
                      | some raw =>
                          -- a miss: the answer of the model is recorded
                          rcases hresult with ⟨hdry, rfl⟩
                          rw [← hsame] at hcached hnone hdone
                          refine safe_send hgood' hnone (fun _ => hgood') fun today => ?_
                          apply hnext (good_fresh hgood' hids hrecords (hdone hdry) hprompt
                            hcached hnone)
                          apply hafter
                          · intro r _ hsome
                            rw [← hsame] at hsome
                            exact isSome_stored_record (freshCall record prompt _) hsome
                          · intro _
                            exact congrArg Option.isSome
                              (stored_record_self (freshCall record prompt _))
                · intro _ file' hsame
                  rw [hsame]
                  exact hgood

end Programs

theorem limited_prefix (limit : Option Int) (records : List EvalRecord) :
    limited limit records <+: records := by
  unfold limited sliceTo
  split
  · split
    · split
      · exact List.take_prefix _ _
      · exact List.take_prefix _ _
    · exact List.prefix_rfl
  · exact List.prefix_rfl

def MainEnds (B : Baseline) (start : BaselineCache) (i : BaselineInvocation) (e : LoopEnd)
    (file : BaselineFile) : Prop :=
  EndsWell B start i (limited i.limit B.records) e file ∧ limited i.limit B.records ≠ []

theorem main_safe (hids : (B.records.map EvalRecord.financebenchId).Nodup)
    (i : BaselineInvocation) {file : BaselineFile} (hgood : Good B start file.cache) :
    ProcSafe B start (MainEnds B start i) (fun _ file => Good B start file.cache)
      (B.main i) file := by
  unfold main
  dsimp only
  split
  next => exact hgood
  next hne =>
    have hrows : [] ++ limited i.limit B.records <+: B.records := limited_prefix _ _
    refine safe_mono (processRecords_safe hids hrows hgood ?_) ?_ fun _ _ hfail => hfail
    · intro _ r hr
      cases hr
    · intro e file' hends
      exact ⟨hends, hne⟩

/-!
# Runs
-/

structure Sound (B : Baseline) (start : BaselineCache) (s : BaselineState) : Prop where
  good : Good B start s.file.cache
  running : forall i p, s.running = some (i, p) ->
    ProcSafe B start (MainEnds B start i) (fun _ file => Good B start file.cache) p s.file

theorem good_of_procSafe {alpha : Type} {post : alpha -> BaselineFile -> Prop}
    {p : BaselineProc alpha} {file : BaselineFile}
    (hpost : forall a file, post a file -> Good B start file.cache)
    (h : ProcSafe B start post (fun _ file => Good B start file.cache) p file) :
    Good B start file.cache := by
  cases p with
  | ret a => exact hpost a file h
  | raise e => exact h
  | call r next => exact h.left.1

theorem act_cases {s s' : BaselineState} {a : BaselineAction} (h : B.act s a = some s') :
    (exists i, a = .invoke i ∧ s'.file = s.file ∧ s'.running = some (i, B.main i)) ∨
      (exists outcome i r next reply, a = .call outcome ∧
        s.running = some (i, .call r next) ∧
          B.answer s.file outcome r = some (reply, s'.file) ∧
            s'.running = some (i, next reply)) ∨
        (a = .kill ∧ s'.file = s.file ∧ s'.running = none) := by
  cases a with
  | invoke i =>
      left
      unfold act at h
      dsimp only at h
      split at h
      next => cases h
      next =>
        cases h
        exact ⟨i, rfl, rfl, rfl⟩
  | call outcome =>
      right
      left
      unfold act at h
      dsimp only at h
      split at h
      next i r next hrunning =>
        rcases Option.map_eq_some_iff.mp h with ⟨⟨reply, file'⟩, hanswer, rfl⟩
        exact ⟨outcome, i, r, next, reply, rfl, hrunning, hanswer, rfl⟩
      next => cases h
  | kill =>
      right
      right
      cases h
      exact ⟨rfl, rfl, rfl⟩

theorem sound_step (hids : (B.records.map EvalRecord.financebenchId).Nodup)
    {s s' : BaselineState} {a : BaselineAction} (h : Sound B start s)
    (hact : B.act s a = some s') : Sound B start s' := by
  rcases act_cases hact with ⟨i, -, hfile, hrunning⟩ |
    ⟨outcome, i, r, next, reply, -, hbefore, hanswer, hrunning⟩ | ⟨-, hfile, hrunning⟩
  · constructor
    · rw [hfile]
      exact h.good
    · intro i' p hrunning'
      rw [hrunning] at hrunning'
      cases hrunning'
      rw [hfile]
      exact main_safe hids i h.good
  · have hnext := (h.running i _ hbefore).right reply s'.file ⟨outcome, hanswer⟩
    constructor
    · exact good_of_procSafe (fun _ _ hends => hends.1.1) hnext
    · intro i' p hrunning'
      rw [hrunning] at hrunning'
      cases hrunning'
      exact hnext
  · constructor
    · rw [hfile]
      exact h.good
    · intro i p hrunning'
      rw [hrunning] at hrunning'
      cases hrunning'

theorem kept_answer {file file' : BaselineFile} {outcome : CallOutcome}
    {r : BaselineRequest} {reply : Except BaselineFault r.Reply} {questionId : String}
    {g : BaselineGeneration} (hpermitted : Permitted B file.cache r)
    (hanswer : B.answer file outcome r = some (reply, file'))
    (hstored : B.stored file.cache questionId = some g) :
    B.stored file'.cache questionId = some g := by
  rcases answer_cases hanswer with ⟨today, _, rfl⟩ | ⟨_, _, rfl⟩
  · cases r with
    | record call =>
        have hne : questionId ≠ call.questionId := by
          rintro rfl
          rw [hpermitted] at hstored
          cases hstored
        exact (stored_record call questionId).trans ((if_neg hne).trans hstored)
    | alreadyHasRunResult questionId => exact hstored
    | lookup prompt => exact hstored
    | logCall questionId outcome detail => exact hstored
    | countCallsToday => exact hstored
    | generate prompt => exact hstored
  · exact hstored

theorem careful_of_sound {s : BaselineState} (h : Sound B start s)
    (a : BaselineAction) : B.Careful s a := by
  constructor
  · intro s' questionId g hact hstored
    rcases act_cases hact with ⟨i, -, hfile, -⟩ |
      ⟨outcome, i, r, next, reply, -, hrunning, hanswer, -⟩ | ⟨-, hfile, -⟩
    · rw [hfile]
      exact hstored
    · exact kept_answer (h.running i _ hrunning).left.2 hanswer hstored
    · rw [hfile]
      exact hstored
  · intro i r next hrunning
    exact (h.running i _ hrunning).left.2
  · intro i prompt next hrunning
    exact (h.running i _ hrunning).left.2

theorem sound_of_run (hids : (B.records.map EvalRecord.financebenchId).Nodup)
    {file : BaselineFile} {trace : List (BaselineState × BaselineAction)}
    {s : BaselineState} (hrun : Run B.act ⟨file, none⟩ trace s) :
    EachStep (fun s _ => Sound B file.cache s) trace ∧ Sound B file.cache s := by
  have hstart : Sound B file.cache ⟨file, none⟩ := by
    refine ⟨good_start, ?_⟩
    intro i p hrunning
    cases hrunning
  have hcond : EachStep (fun (_ : BaselineState) (_ : BaselineAction) => True) trace :=
    fun _ _ => True.intro
  exact hrun.always hstart (fun _ _ _ h _ hact => sound_step hids h hact) hcond

theorem stored_of_finished {s : BaselineState} (h : Sound B start s)
    (hfinished : B.Finished s) {r : EvalRecord} (hr : r ∈ B.records) :
    (B.stored s.file.cache r.financebenchId).isSome := by
  rcases hfinished with ⟨i, hrunning, hdry, hlimit⟩
  have hends : MainEnds B start i .completed s.file := h.running i _ hrunning
  exact hends.1.2 rfl hdry r (hlimit.symm ▸ hr)

theorem stored_eq (hids : (B.records.map EvalRecord.financebenchId).Nodup)
    {s s' : BaselineState} (h : Sound B start s) (h' : Sound B start s')
    (hfinished : B.Finished s) (hfinished' : B.Finished s') (questionId : String) :
    B.stored s.file.cache questionId = B.stored s'.file.cache questionId := by
  have hnone {s s' : BaselineState} (h : Sound B start s) (h' : Sound B start s')
      (hfinished' : B.Finished s') (hnone : B.stored s'.file.cache questionId = none) :
      B.stored s.file.cache questionId = none := by
    cases hstored : B.stored s.file.cache questionId with
    | none => rfl
    | some g =>
        rcases h.good.settled questionId g hstored with hold | ⟨r, hr, rfl, _, _⟩
        · rw [h'.good.kept questionId g hold] at hnone
          cases hnone
        · have hsome := stored_of_finished h' hfinished' hr
          rw [hnone] at hsome
          cases hsome
  cases hstored : B.stored s.file.cache questionId with
  | none => exact (hnone h' h hfinished hstored).symm
  | some g =>
      cases hstored' : B.stored s'.file.cache questionId with
      | none =>
          rw [hnone h h' hfinished' hstored'] at hstored
          cases hstored
      | some g' =>
          rcases h.good.settled questionId g hstored with hold | ⟨r, hr, hid, hnew, hsettled⟩
          · rw [h'.good.kept questionId g hold] at hstored'
            exact hstored'
          · rcases h'.good.settled questionId g' hstored' with
              hold' | ⟨r', hr', hid', _, hsettled'⟩
            · rw [hnew] at hold'
              cases hold'
            · have heq := record_eq_of_id hids hr hr' (hid.trans hid'.symm)
              subst heq
              rw [settled_unique hsettled hsettled']

/-!
# An invocation that nothing stops
-/

def Completes (B : Baseline) {alpha : Type} (p : BaselineProc alpha) (file : BaselineFile)
    (a : alpha) (file' : BaselineFile) : Prop :=
  exists events, Steps B.sem p file events (.ret a) file'

theorem completes_ret {alpha : Type} (a : alpha) (file : BaselineFile) :
    Completes B (.ret a) file a file := ⟨[], .refl _ _⟩

theorem completes_bind {alpha beta : Type} {p : BaselineProc alpha}
    {f : alpha -> BaselineProc beta} {a : alpha} {b : beta}
    {file file' file'' : BaselineFile} (h : Completes B p file a file')
    (h' : Completes B (f a) file' b file'') : Completes B (p >>= f) file b file'' := by
  rcases h with ⟨events, hsteps⟩
  rcases h' with ⟨events', hsteps'⟩
  exact ⟨_, steps_ret_bind hsteps hsteps'⟩

theorem completes_send {alpha : Type} {r : BaselineRequest}
    {f : r.Reply -> BaselineProc alpha} {a : alpha} {file file' : BaselineFile}
    (today : String)
    (h : Completes B (f (B.exec today file r).1) (B.exec today file r).2 a file') :
    Completes B (send r >>= f) file a file' := by
  rcases h with ⟨events, hsteps⟩
  exact ⟨_, .call ⟨.returns today, rfl⟩ hsteps⟩

def logged (B : Baseline) (questionId : String) (file : BaselineFile) : BaselineFile :=
  { file with callLog := file.callLog ++ [⟨B.runId, questionId, "api_call", "", ""⟩] }

def apiCalls (file : BaselineFile) : Nat :=
  file.callLog.countP fun row => row.outcome = "api_call" ∧ row.createdOn = ""

theorem apiCalls_logged (questionId : String) (file : BaselineFile) :
    apiCalls (logged B questionId file) = apiCalls file + 1 := by
  unfold apiCalls logged
  rw [List.countP_append]
  rfl

theorem attemptOnce_completes (questionId prompt : String)
    (onRateLimited : String -> BaselineProc RawText) (file : BaselineFile) :
    Completes B (attemptOnce questionId prompt onRateLimited) file (B.generate prompt)
      (logged B questionId file) :=
  ⟨_, .call ⟨.returns "", rfl⟩ (.call ⟨.returns "", rfl⟩ (.refl _ _))⟩

theorem tryCall_completes {i : BaselineInvocation} (questionId prompt : String)
    {callsThisRun : Nat} {file : BaselineFile} (hdry : i.dryRun = false)
    (hcalls : callsThisRun < i.maxCalls) (hbudget : apiCalls file < i.dailyBudget) :
    Completes B (i.tryCall questionId prompt callsThisRun) file
      (some (some (B.generate prompt))) (logged B questionId file) := by
  have hattempt : Completes B (attemptCall questionId prompt maxRetries) file
      (B.generate prompt) (logged B questionId file) :=
    attemptOnce_completes questionId prompt _ file
  have hguard : Completes B (i.guardCall questionId prompt callsThisRun) file
      (some (B.generate prompt)) (logged B questionId file) := by
    unfold BaselineInvocation.guardCall
    rw [if_neg (by rw [hdry]; decide), if_neg (not_le.mpr hcalls)]
    apply completes_send ""
    change Completes B (if i.dailyBudget ≤ ((apiCalls file : Nat) : Int) then _ else _) file _ _
    rw [if_neg (not_le.mpr hbudget)]
    exact completes_bind hattempt (completes_ret _ _)
  rcases completes_bind (f := fun result => pure (some result)) hguard
    (completes_ret _ _) with ⟨events, hsteps⟩
  exact ⟨events, steps_handle hsteps⟩

theorem processRecords_completes {i : BaselineInvocation} {remaining : List EvalRecord}
    {callsThisRun : Nat} {file : BaselineFile} (hdry : i.dryRun = false)
    (hbuild : forall r, r ∈ remaining -> (B.stored file.cache r.financebenchId).isSome ∨
      exists prompt, B.buildPrompt r = .ok prompt)
    (hcalls : ((callsThisRun + remaining.length : Nat) : Int) ≤ i.maxCalls)
    (hbudget : ((apiCalls file + remaining.length : Nat) : Int) ≤ i.dailyBudget) :
    exists file', Completes B (B.processRecords i remaining callsThisRun) file .completed
      file' := by
  induction remaining generalizing callsThisRun file with
  | nil => exact ⟨file, completes_ret _ _⟩
  | cons record rest ih =>
      rw [List.length_cons] at hcalls hbudget
      have hnext (file' : BaselineFile) (callsThisRun' : Nat)
          (hmono : forall r, r ∈ rest -> (B.stored file.cache r.financebenchId).isSome ->
            (B.stored file'.cache r.financebenchId).isSome)
          (hcalls' : callsThisRun' ≤ callsThisRun + 1)
          (hbudget' : apiCalls file' ≤ apiCalls file + 1) :
          exists file'', Completes B (B.processRecords i rest callsThisRun') file'
            .completed file'' := by
        apply ih
        · intro r hr
          rcases hbuild r (List.mem_cons_of_mem _ hr) with hstored | hprompt
          · exact .inl (hmono r hr hstored)
          · exact .inr hprompt
        · omega
        · omega
      cases hhas : file.cache.generations.alreadyHasRunResult B.runId
          record.financebenchId with
      | true =>
          rcases hnext file callsThisRun (fun _ _ h => h) (Nat.le_succ _) (Nat.le_succ _) with
            ⟨file', hrest⟩
          refine ⟨file', completes_send "" ?_⟩
          rw [exec_alreadyHasRunResult, hhas]
          exact hrest
      | false =>
          have hnone : ¬ (B.stored file.cache record.financebenchId).isSome := by
            rw [isSome_stored]
            exact Bool.eq_false_iff.mp hhas
          rcases (hbuild record List.mem_cons_self).resolve_left hnone with ⟨prompt, hprompt⟩
          have hrecorded (call : RecordedCall) (r : EvalRecord) (_ : r ∈ rest)
              (h : (B.stored file.cache r.financebenchId).isSome) :
              (B.stored (B.record file.cache call) r.financebenchId).isSome :=
            isSome_stored_record call h
          cases hcached : B.lookup file.cache prompt with
          | some raw =>
              rcases hnext { file with cache := B.record file.cache (hitCall record prompt raw) }
                callsThisRun (hrecorded _) (Nat.le_succ _) (Nat.le_succ _) with ⟨file', hrest⟩
              refine ⟨file', completes_send "" ?_⟩
              rw [exec_alreadyHasRunResult, hhas, hprompt]
              apply completes_send ""
              rw [exec_lookup, hcached]
              exact completes_send "" hrest
          | none =>
              have hlogged := apiCalls_logged (B := B) record.financebenchId file
              have hcalls' : (callsThisRun : Int) < i.maxCalls := by omega
              have hbudget' : (apiCalls file : Int) < i.dailyBudget := by omega
              rcases hnext
                { logged B record.financebenchId file with
                  cache := B.record file.cache (freshCall record prompt (B.generate prompt)) }
                (callsThisRun + 1) (hrecorded _) (Nat.le_refl _) (Nat.le_of_eq hlogged) with
                ⟨file', hrest⟩
              refine ⟨file', completes_send "" ?_⟩
              rw [exec_alreadyHasRunResult, hhas, hprompt]
              apply completes_send ""
              rw [exec_lookup, hcached]
              refine completes_bind (tryCall_completes record.financebenchId prompt hdry
                hcalls' hbudget') ?_
              exact completes_send "" hrest

theorem run_of_steps {i : BaselineInvocation} {p q : BaselineProc LoopEnd}
    {file file' : BaselineFile} {events : List (Event baselineCalls)}
    (h : Steps B.sem p file events q file') :
    exists trace, Run B.act ⟨file, some (i, p)⟩ trace ⟨file', some (i, q)⟩ ∧
      forall a, a ∈ trace.map Prod.snd -> exists outcome, a = .call outcome := by
  induction h with
  | refl p file =>
      refine ⟨[], .nil, ?_⟩
      intro a ha
      cases ha
  | call hsem _ ih =>
      rcases hsem with ⟨outcome, hanswer⟩
      rcases ih with ⟨trace, hrun, hcalls⟩
      refine ⟨_, .cons (a := .call outcome) ?_ hrun, ?_⟩
      · unfold act
        dsimp only
        rw [hanswer]
        rfl
      · intro a ha
        rcases List.mem_cons.mp ha with rfl | hin
        · exact ⟨outcome, rfl⟩
        · exact hcalls a hin

/-- Where some run reaches the end, a single invocation can. -/
theorem exists_uninterrupted {file : BaselineFile} {s : BaselineState}
    (h : Sound B file.cache s) (hfinished : B.Finished s) :
    exists trace s', Run B.act ⟨file, none⟩ trace s' ∧ Uninterrupted trace ∧
      B.Finished s' := by
  have hrecords : B.records ≠ [] := by
    rcases hfinished with ⟨i, hrunning, _, hlimit⟩
    have hends : MainEnds B file.cache i .completed s.file := h.running i _ hrunning
    exact hlimit ▸ hends.2
  have hbuild (r : EvalRecord) (hr : r ∈ B.records) :
      (B.stored file.cache r.financebenchId).isSome ∨
        exists prompt, B.buildPrompt r = .ok prompt := by
    cases hstart : B.stored file.cache r.financebenchId with
    | some g => exact .inl rfl
    | none =>
        rcases h.good.answered r hr hstart (stored_of_finished h hfinished hr) with
          ⟨prompt, hprompt, _⟩
        exact .inr ⟨prompt, hprompt⟩
  obtain ⟨i, hi⟩ : exists i : BaselineInvocation, i =
      ⟨(apiCalls file + B.records.length : Nat), (0 + B.records.length : Nat), none, false⟩ :=
    ⟨_, rfl⟩
  have hmain : B.main i = B.processRecords i B.records 0 := by
    rw [hi]
    exact if_neg hrecords
  have hcompletes : exists file',
      Completes B (B.processRecords i B.records 0) file .completed file' :=
    processRecords_completes (by rw [hi]) hbuild (by rw [hi]) (by rw [hi])
  rcases hcompletes with ⟨file', events, hsteps⟩
  rw [← hmain] at hsteps
  rcases run_of_steps (i := i) hsteps with ⟨trace, hrun, hcalls⟩
  refine ⟨_, _, .cons (a := .invoke i) rfl hrun, ⟨i, _, rfl, hcalls⟩, i, rfl, ?_, ?_⟩
  · rw [hi]
  · rw [hi]
    rfl

/-- Every run over the records is careful at every step.  When it has reached the
end, a single invocation can reach it too, and every question has what that one
gives it. -/
theorem converges (hids : (B.records.map EvalRecord.financebenchId).Nodup)
    {file : BaselineFile} {trace : List (BaselineState × BaselineAction)}
    {s : BaselineState} (hrun : Run B.act ⟨file, none⟩ trace s) :
    EachStep B.Careful trace ∧
      (B.Finished s ->
        (exists trace' s', Run B.act ⟨file, none⟩ trace' s' ∧ Uninterrupted trace' ∧
          B.Finished s') ∧
        forall trace' s', Run B.act ⟨file, none⟩ trace' s' -> Uninterrupted trace' ->
          B.Finished s' -> forall questionId,
            B.stored s.file.cache questionId = B.stored s'.file.cache questionId) := by
  rcases sound_of_run hids hrun with ⟨hstates, hsound⟩
  constructor
  · intro step hstep
    exact careful_of_sound (hstates step hstep) step.2
  · intro hfinished
    refine ⟨exists_uninterrupted hsound hfinished, ?_⟩
    intro trace' s' hrun' _ hfinished' questionId
    exact stored_eq hids hsound (sound_of_run hids hrun').2 hfinished hfinished' questionId

/-!
# Two questions with one prompt

The first invocation is killed while the model answers.
-/

def twins : Baseline where
  split := .answerable
  runId := "r"
  model := "m"
  records :=
    [⟨"q1", "What was revenue?", some "X", none, none, none, none⟩,
     ⟨"q2", "What was revenue?", some "X", none, none, none, none⟩]
  rankedTexts := fun _ _ _ => .ok ["revenue 577"]
  sha256 := fun text => text
  generate := fun _ => ⟨"577", some 100, some 2, .finite 1⟩

def twinsInvocation : BaselineInvocation := ⟨200, 250, none, false⟩

def twinsSchedule : List BaselineAction :=
  .invoke twinsInvocation :: List.replicate 3 (.call (.returns "2026-01-01")) ++
    .kill :: .invoke twinsInvocation :: List.replicate 9 (.call (.returns "2026-01-02"))

def endsCompleted (s : BaselineState) : Bool :=
  match s.running with
  | some (i, .ret .completed) => !i.dryRun && i.limit.isNone
  | _ => false

theorem finished_of_endsCompleted {s : BaselineState} (h : endsCompleted s = true) :
    B.Finished s := by
  unfold endsCompleted at h
  split at h
  next i hrunning =>
    rw [Bool.and_eq_true, Bool.not_eq_true', Option.isNone_iff_eq_none] at h
    refine ⟨i, hrunning, h.1, ?_⟩
    rw [h.2]
    rfl
  next => cases h

theorem converges_twins :
    exists trace s, Run twins.act ⟨⟨.empty, []⟩, none⟩ trace s ∧ twins.Finished s ∧
      EachStep twins.Careful trace ∧
        (twins.Finished s ->
          (exists trace' s', Run twins.act ⟨⟨.empty, []⟩, none⟩ trace' s' ∧
            Uninterrupted trace' ∧ twins.Finished s') ∧
          forall trace' s', Run twins.act ⟨⟨.empty, []⟩, none⟩ trace' s' ->
            Uninterrupted trace' -> twins.Finished s' -> forall questionId,
              twins.stored s.file.cache questionId = twins.stored s'.file.cache questionId) := by
  have hfollow : (follow twins.act ⟨⟨.empty, []⟩, none⟩ twinsSchedule).any
      (fun out => endsCompleted out.2) = true := by
    decide +kernel
  rcases exists_run_of_follow (fun _ s => endsCompleted s) hfollow with
    ⟨trace, s, hrun, hends⟩
  exact ⟨trace, s, hrun, finished_of_endsCompleted hends, converges (by decide) hrun⟩

end Baseline
end ChatDoc
