import ChatDoc.Eval.Converging
import ChatDoc.Foundation.Transition

/-!
# The quota guard

`QuotaGuard.call` of `eval/quota_guard.py` over the calls of one guard: the checks at
its head and each turn of its loop are steps, and other processes write to the same
call log between them.
-/

namespace ChatDoc

open Foundation
open Program (Safe safe_bind safe_mono)

structure QuotaGuard where
  runId : String
  dailyBudget : Int
  maxCalls : Int
  dryRun : Bool
  maxRetries : Int

/-- How the passed function comes out: a result; `RateLimited` with its text and the
value of `random.random()` that the backoff then draws; an `Exception`; or an exception
that `except Exception` lets through. -/
inductive GuardAnswer where
  | returns
  | rateLimited (retryAfterS : Option PyFloat) (message : String) (jitter : Rat)
  | raises (message : String)
  | interrupts

def GuardAnswer.returned : GuardAnswer -> Bool
  | .returns => true
  | _ => false

/-- The call whose loop is running, with `attempt`, and with what `calls_today()` was
when it started. -/
structure PendingCall where
  questionId : String
  attempt : Nat
  callsToday : Nat

structure GuardRequest where
  callsToday : Nat
  answered : GuardAnswer

structure GuardState where
  callsThisRun : Nat
  callLog : List CallLogRow
  pending : Option PendingCall
  requests : List GuardRequest

def GuardState.start (callLog : List CallLogRow) : GuardState := ⟨0, callLog, none, []⟩

/-- A step of a call, with the day that the row it logs is dated, or none when
`log_call` raises. -/
inductive GuardAction where
  | begin (questionId today : String) (logging : Option String)
  | request (answered : GuardAnswer) (logging : Option String)
  | elsewhere (row : CallLogRow)

/-- `count_calls_on_date` of the cache. -/
def callsOnDate (callLog : List CallLogRow) (today : String) : Nat :=
  callLog.countP fun row => row.outcome = "api_call" ∧ row.createdOn = today

/-- `sleep_s` of the backoff.  A product of an infinity with 0 is not a number. -/
def backoffSeconds (retryAfterS : Option PyFloat) (attempt : Nat) (jitter : Rat) : PyFloat :=
  match retryAfterS.getD (.finite (2 ^ attempt)) with
  | .finite base => .finite (min (base + jitter * (base * (1 / 4))) 60)
  | .inf true => .inf true
  | .inf false => if jitter = 0 then .nan else .finite 60
  | .nan => .nan

/-- `time.sleep` raises a `ValueError` for anything but a length of time. -/
def canSleep : PyFloat -> Bool
  | .finite seconds => 0 <= seconds
  | .inf _ => false
  | .nan => false

namespace QuotaGuard

variable (g : QuotaGuard)

def logCall (callLog : List CallLogRow) (questionId outcome detail : String)
    (logging : Option String) : List CallLogRow :=
  match logging with
  | some day => callLog ++ [⟨g.runId, questionId, outcome, detail, day⟩]
  | none => callLog

/-- The head of `call`. -/
def begin (s : GuardState) (questionId today : String) (logging : Option String) :
    GuardState :=
  if g.dryRun then
    { s with callLog :=
        g.logCall s.callLog questionId "dry_run" "planned call, no request sent" logging }
  else if g.maxCalls <= s.callsThisRun then
    { s with callLog :=
        g.logCall s.callLog questionId "budget_stop" s!"max_calls={g.maxCalls}" logging }
  else
    let callsToday := callsOnDate s.callLog today
    if g.dailyBudget <= callsToday then
      { s with callLog :=
          g.logCall s.callLog questionId "budget_stop" s!"daily_budget={g.dailyBudget}" logging }
    else { s with pending := some ⟨questionId, 0, callsToday⟩ }

/-- A turn of the loop of `call`, once `acquire` has returned. -/
def request (s : GuardState) (call : PendingCall) (answered : GuardAnswer)
    (logging : Option String) : GuardState :=
  let requests := s.requests ++ [⟨call.callsToday, answered⟩]
  match answered with
  | .rateLimited retryAfterS message jitter =>
      let attempt := call.attempt + 1
      if g.maxRetries < attempt then
        { s with
          callLog := g.logCall s.callLog call.questionId "error"
            s!"exhausted retries: {message}" logging
          pending := none
          requests := requests }
      else if canSleep (backoffSeconds retryAfterS attempt jitter) then
        { s with pending := some { call with attempt := attempt }, requests := requests }
      else { s with pending := none, requests := requests }
  | .raises message =>
      { s with
        callLog := g.logCall s.callLog call.questionId "error" message logging
        pending := none
        requests := requests }
  | .interrupts => { s with pending := none, requests := requests }
  | .returns =>
      { callsThisRun := s.callsThisRun + 1
        callLog := g.logCall s.callLog call.questionId "api_call" "" logging
        pending := none
        requests := requests }

def step (s : GuardState) : GuardAction -> Option GuardState
  | .begin questionId today logging =>
      if s.pending.isSome then none else some (g.begin s questionId today logging)
  | .request answered logging =>
      s.pending.map fun call => g.request s call answered logging
  | .elsewhere row => some { s with callLog := s.callLog ++ [row] }

end QuotaGuard

/-!
# The steps
-/

section Steps

variable {g : QuotaGuard} {s s' : GuardState}

theorem step_cases {a : GuardAction} (hstep : g.step s a = some s') :
    (exists questionId today logging, a = .begin questionId today logging ∧
        s.pending = none ∧ s' = g.begin s questionId today logging) ∨
      (exists answered logging call, a = .request answered logging ∧
        s.pending = some call ∧ s' = g.request s call answered logging) ∨
      exists row, a = .elsewhere row ∧ s' = { s with callLog := s.callLog ++ [row] } := by
  cases a with
  | begin questionId today logging =>
      rw [QuotaGuard.step] at hstep
      split at hstep
      · cases hstep
      · rename_i hidle
        rw [Bool.not_eq_true, Option.isSome_eq_false_iff, Option.isNone_iff_eq_none] at hidle
        exact .inl ⟨questionId, today, logging, rfl, hidle, (Option.some.inj hstep).symm⟩
  | request answered logging =>
      rw [QuotaGuard.step, Option.map_eq_some_iff] at hstep
      rcases hstep with ⟨call, hcall, hnext⟩
      exact .inr (.inl ⟨answered, logging, call, rfl, hcall, hnext.symm⟩)
  | elsewhere row =>
      exact .inr (.inr ⟨row, rfl, (Option.some.inj hstep).symm⟩)

theorem step_begin (hidle : s.pending = none) (questionId today : String)
    (logging : Option String) :
    g.step s (.begin questionId today logging) =
      some (g.begin s questionId today logging) := by
  rw [QuotaGuard.step, hidle]
  rfl

theorem step_request {call : PendingCall} (hcall : s.pending = some call)
    (answered : GuardAnswer) (logging : Option String) :
    g.step s (.request answered logging) = some (g.request s call answered logging) := by
  rw [QuotaGuard.step, hcall, Option.map_some]

/-- The requests that `_calls_this_run` leaves out. -/
def GuardState.uncounted (s : GuardState) : Nat :=
  s.requests.countP fun request => !request.answered.returned

theorem request_counts (call : PendingCall) (answered : GuardAnswer)
    (logging : Option String) :
    (g.request s call answered logging).requests =
        s.requests ++ [⟨call.callsToday, answered⟩] ∧
      (g.request s call answered logging).callsThisRun =
        s.callsThisRun + if answered.returned then 1 else 0 := by
  cases answered with
  | returns => exact ⟨rfl, rfl⟩
  | rateLimited retryAfterS message jitter =>
      rw [QuotaGuard.request]
      split
      · exact ⟨rfl, rfl⟩
      · split
        · exact ⟨rfl, rfl⟩
        · exact ⟨rfl, rfl⟩
  | raises message => exact ⟨rfl, rfl⟩
  | interrupts => exact ⟨rfl, rfl⟩

theorem pending_request {call call' : PendingCall} {answered : GuardAnswer}
    {logging : Option String}
    (h : (g.request s call answered logging).pending = some call') :
    call'.callsToday = call.callsToday ∧ answered.returned = false := by
  cases answered with
  | returns => cases h
  | rateLimited retryAfterS message jitter =>
      rw [QuotaGuard.request] at h
      split at h
      · cases h
      · split at h
        · cases h
          exact ⟨rfl, rfl⟩
        · cases h
  | raises message => cases h
  | interrupts => cases h

theorem begin_cases (questionId today : String) (logging : Option String) :
    (g.begin s questionId today logging).requests = s.requests ∧
      (g.begin s questionId today logging).callsThisRun = s.callsThisRun ∧
      ((g.begin s questionId today logging).pending = s.pending ∨
        ((s.callsThisRun : Int) < g.maxCalls ∧
          (callsOnDate s.callLog today : Int) < g.dailyBudget ∧
          (g.begin s questionId today logging).pending =
            some ⟨questionId, 0, callsOnDate s.callLog today⟩)) := by
  rw [QuotaGuard.begin]
  split
  · exact ⟨rfl, rfl, .inl rfl⟩
  · split
    · exact ⟨rfl, rfl, .inl rfl⟩
    · rename_i hcalls
      dsimp only
      split
      · exact ⟨rfl, rfl, .inl rfl⟩
      · rename_i hbudget
        exact ⟨rfl, rfl, .inr ⟨not_le.mp hcalls, not_le.mp hbudget, rfl⟩⟩

/-!
# What the limits are worth
-/

structure GuardState.Sound (g : QuotaGuard) (s : GuardState) : Prop where
  counted : s.requests.length = s.callsThisRun + s.uncounted
  returned_le : s.callsThisRun <= g.maxCalls.toNat
  within : forall request, request ∈ s.requests -> (request.callsToday : Int) < g.dailyBudget
  pending : forall call, s.pending = some call ->
    (s.callsThisRun : Int) < g.maxCalls ∧ (call.callsToday : Int) < g.dailyBudget

theorem GuardState.sound_start (callLog : List CallLogRow) :
    (GuardState.start callLog).Sound g where
  counted := rfl
  returned_le := Nat.zero_le _
  within := by
    intro request h
    cases h
  pending := by
    intro call h
    cases h

theorem GuardState.Sound.begin (h : s.Sound g) (hidle : s.pending = none)
    (questionId today : String) (logging : Option String) :
    (g.begin s questionId today logging).Sound g := by
  rcases begin_cases (g := g) (s := s) questionId today logging with
    ⟨hrequests, hcalls, hpending⟩
  constructor
  · rw [GuardState.uncounted, hrequests, hcalls]
    exact h.counted
  · rw [hcalls]
    exact h.returned_le
  · rw [hrequests]
    exact h.within
  · intro call hcall
    rw [hcalls]
    rcases hpending with hsame | ⟨hlt, hbudget, hnew⟩
    · rw [hsame, hidle] at hcall
      cases hcall
    · rw [hnew] at hcall
      cases hcall
      exact ⟨hlt, hbudget⟩

theorem uncounted_request {call : PendingCall} {answered : GuardAnswer}
    {logging : Option String} :
    (g.request s call answered logging).uncounted =
      s.uncounted + if answered.returned then 0 else 1 := by
  rw [GuardState.uncounted, (request_counts call answered logging).left, List.countP_append,
    List.countP_singleton, GuardState.uncounted]
  cases answered.returned with
  | true => rfl
  | false => rfl

theorem GuardState.Sound.request (h : s.Sound g) {call : PendingCall}
    (hcall : s.pending = some call) (answered : GuardAnswer) (logging : Option String) :
    (g.request s call answered logging).Sound g := by
  rcases h.pending call hcall with ⟨hlt, hbudget⟩
  have hcounts := request_counts (g := g) (s := s) call answered logging
  constructor
  · rw [uncounted_request, hcounts.left, hcounts.right, List.length_append, h.counted]
    cases answered.returned with
    | true => exact Nat.add_right_comm _ _ 1
    | false => rfl
  · rw [hcounts.right]
    cases answered.returned with
    | true =>
        rw [if_pos rfl]
        omega
    | false => exact h.returned_le
  · rw [hcounts.left]
    intro request hin
    rcases List.mem_append.mp hin with hold | hnew
    · exact h.within request hold
    · rw [List.mem_singleton.mp hnew]
      exact hbudget
  · intro call' hcall'
    rcases pending_request hcall' with ⟨hsame, hlimited⟩
    rw [hcounts.right, hlimited, hsame]
    exact ⟨hlt, hbudget⟩

theorem GuardState.Sound.step (h : s.Sound g) {a : GuardAction} (hstep : g.step s a = some s') :
    s'.Sound g := by
  rcases step_cases hstep with ⟨questionId, today, logging, rfl, hidle, rfl⟩ |
    ⟨answered, logging, call, rfl, hcall, rfl⟩ | ⟨row, rfl, rfl⟩
  · exact h.begin hidle questionId today logging
  · exact h.request hcall answered logging
  · exact ⟨h.counted, h.returned_le, h.within, h.pending⟩

variable {callLog : List CallLogRow} {trace : List (GuardState × GuardAction)}

theorem GuardState.sound_run (hrun : Run g.step (GuardState.start callLog) trace s) :
    s.Sound g := by
  induction hrun with
  | nil => exact GuardState.sound_start callLog
  | snoc _ hstep ih => exact ih.step hstep

theorem returned_le_maxCalls (hrun : Run g.step (GuardState.start callLog) trace s) :
    (s.requests.countP fun request => request.answered.returned) <= g.maxCalls.toNat := by
  have hsound := GuardState.sound_run hrun
  have hsplit : s.requests.length =
      (s.requests.countP fun request => request.answered.returned) + s.uncounted := by
    rw [GuardState.uncounted, List.length_eq_countP_add_countP fun request : GuardRequest =>
      request.answered.returned]
    simp only [Bool.not_eq_true, Bool.decide_eq_false]
  have hcounted := hsound.counted
  have hle := hsound.returned_le
  omega

/-- At most `max_calls` requests were sent, and none by a call that started with the
daily budget used up. -/
structure GuardState.Capped (g : QuotaGuard) (s : GuardState) : Prop where
  requests_le : s.requests.length <= g.maxCalls.toNat
  within : forall request, request ∈ s.requests -> (request.callsToday : Int) < g.dailyBudget

def GuardAction.Returns : GuardAction -> Prop
  | .request answered _ => answered.returned = true
  | _ => True

theorem uncounted_step {a : GuardAction} (hnone : s.uncounted = 0) (hreturns : a.Returns)
    (hstep : g.step s a = some s') : s'.uncounted = 0 := by
  rcases step_cases hstep with ⟨questionId, today, logging, rfl, _, rfl⟩ |
    ⟨answered, logging, call, rfl, _, rfl⟩ | ⟨row, rfl, rfl⟩
  · rw [GuardState.uncounted, (begin_cases questionId today logging).left]
    exact hnone
  · have hreturned : answered.returned = true := hreturns
    rw [uncounted_request, hreturned, hnone]
    rfl
  · exact hnone

/-- A guard that has counted all its requests has kept to both limits. -/
theorem GuardState.Sound.capped (h : s.Sound g) (hnone : s.uncounted = 0) : s.Capped g where
  requests_le := by
    rw [h.counted, hnone]
    exact h.returned_le
  within := h.within

/-- Where every invoked function returns, the ceiling and the budget are kept throughout. -/
theorem guardCapped_of_returned (g : QuotaGuard) (callLog : List CallLogRow)
    (trace : List (GuardState × GuardAction)) (s : GuardState)
    (hrun : Run g.step (GuardState.start callLog) trace s)
    (hreturned : EachStep (fun _ a => a.Returns) trace) :
    EachStep (fun s _ => s.Capped g) trace ∧ s.Capped g := by
  let Counted (s : GuardState) : Prop := s.Sound g ∧ s.uncounted = 0
  have hcounted : EachStep (fun s _ => Counted s) trace ∧ Counted s := by
    refine hrun.always ⟨GuardState.sound_start callLog, rfl⟩ ?_ hreturned
    intro s a s' h hreturns hstep
    exact ⟨h.left.step hstep, uncounted_step h.right hreturns hstep⟩
  constructor
  · intro step hin
    have hbefore := hcounted.left step hin
    exact hbefore.left.capped hbefore.right
  · exact hcounted.right.left.capped hcounted.right.right

end Steps

/-- Two questions are answered with a row of another process between them, and a third is
stopped by the ceiling. -/
theorem guardCapped_of_returned_twice :
    let g : QuotaGuard := ⟨"run", 10, 2, false, 6⟩
    let day := "2026-01-01"
    let other : CallLogRow := ⟨"other", "q", "api_call", "", day⟩
    let first : CallLogRow := ⟨"run", "q1", "api_call", "", day⟩
    let second : CallLogRow := ⟨"run", "q2", "api_call", "", day⟩
    let stopped : CallLogRow := ⟨"run", "q3", "budget_stop", "max_calls=2", day⟩
    let asked : GuardState := ⟨0, [], some ⟨"q1", 0, 0⟩, []⟩
    let answered : GuardState := ⟨1, [first], none, [⟨0, .returns⟩]⟩
    let beside : GuardState := ⟨1, [first, other], none, [⟨0, .returns⟩]⟩
    let askedAgain : GuardState := ⟨1, [first, other], some ⟨"q2", 0, 2⟩, [⟨0, .returns⟩]⟩
    let full : GuardState :=
      ⟨2, [first, other, second], none, [⟨0, .returns⟩, ⟨2, .returns⟩]⟩
    let refused : GuardState :=
      ⟨2, [first, other, second, stopped], none, [⟨0, .returns⟩, ⟨2, .returns⟩]⟩
    let trace := [(GuardState.start [], GuardAction.begin "q1" day none),
      (asked, GuardAction.request .returns (some day)), (answered, GuardAction.elsewhere other),
      (beside, GuardAction.begin "q2" day none),
      (askedAgain, GuardAction.request .returns (some day)),
      (full, GuardAction.begin "q3" day (some day))]
    EachStep (fun s _ => s.Capped g) trace ∧ refused.Capped g := by
  intro g day other first second stopped asked answered beside askedAgain full refused trace
  apply guardCapped_of_returned g []
  · exact .snoc (.snoc (.snoc (.snoc (.snoc (.snoc .nil rfl) rfl) rfl) rfl) rfl) rfl
  · intro step hin
    simp only [trace, List.mem_cons, List.not_mem_nil, or_false] at hin
    rcases hin with rfl | rfl | rfl | rfl | rfl | rfl
    · exact True.intro
    · exact rfl
    · exact True.intro
    · exact True.intro
    · exact rfl
    · exact True.intro

/-- With a ceiling of one call, a function that is rate limited is invoked once more. -/
theorem retry_exceeds_maxCalls :
    let g : QuotaGuard := ⟨"run", 10, 1, false, 6⟩
    exists trace s, Run g.step (GuardState.start []) trace s ∧ ¬ s.Capped g := by
  intro g
  let asked : GuardState := ⟨0, [], some ⟨"q", 0, 0⟩, []⟩
  let limited : GuardAnswer := .rateLimited none "rate limited, retry_after_s=None" 0
  let retried : GuardState := ⟨0, [], some ⟨"q", 1, 0⟩, [⟨0, limited⟩]⟩
  have hasked : g.step (GuardState.start []) (.begin "q" "2026-01-01" none) = some asked := rfl
  have hlimited : g.step asked (.request limited none) = some retried := by
    have hsleep : canSleep (backoffSeconds none 1 0) = true := by
      norm_num [canSleep, backoffSeconds]
    rw [QuotaGuard.step]
    dsimp only [asked, Option.map_some, QuotaGuard.request, limited]
    rw [if_neg (by decide), if_pos hsleep]
    rfl
  refine ⟨_, _, .snoc (.snoc (.snoc .nil hasked) hlimited)
    (rfl : g.step retried (.request .returns none) = some _), ?_⟩
  intro hcapped
  exact absurd hcapped.requests_le (by decide)

/-!
# The guard of the baseline

`guard.call` as the baseline makes it goes through steps of its guard.
-/

def BaselineInvocation.guard (i : BaselineInvocation) (runId : String) : QuotaGuard :=
  ⟨runId, i.dailyBudget, i.maxCalls, i.dryRun, maxRetries⟩

/-- From a state of the guard, its steps have led to the call log of a file, and no
call is in progress. -/
def GuardReaches (g : QuotaGuard) (s : GuardState) (file : BaselineFile) : Prop :=
  exists trace s', Run g.step s trace s' ∧ s'.callLog = file.callLog ∧ s'.pending = none

section Baseline

variable {B : Baseline} {g : QuotaGuard} {s s' : GuardState} {file : BaselineFile}
  {questionId prompt : String} {alpha : Type}

theorem GuardReaches.after_step {a : GuardAction} (hstep : g.step s a = some s')
    (h : GuardReaches g s' file) : GuardReaches g s file := by
  rcases h with ⟨trace, t, hrun, hlog, hidle⟩
  exact ⟨_, t, .cons hstep hrun, hlog, hidle⟩

theorem GuardReaches.of_step {a : GuardAction} (hstep : g.step s a = some s')
    (hlog : s'.callLog = file.callLog) (hidle : s'.pending = none) : GuardReaches g s file :=
  .after_step hstep ⟨[], s', .nil, hlog, hidle⟩

abbrev FollowsGuard (B : Baseline) (g : QuotaGuard) (s : GuardState)
    (p : BaselineProc alpha) (file : BaselineFile) : Prop :=
  Safe B.sem (fun _ _ => True) (fun _ file' => GuardReaches g s file')
    (fun _ file' => GuardReaches g s file') p file

theorem reaches_logCall (hrunId : g.runId = B.runId) {outcome detail : String}
    {f : Unit -> BaselineProc alpha} (hended : (f ()).Ended)
    (h : forall logging file', file'.callLog =
      g.logCall file.callLog questionId outcome detail logging -> GuardReaches g s file') :
    FollowsGuard B g s (send (.logCall questionId outcome detail) >>= f) file := by
  apply Baseline.safe_request True.intro
  · intro _
    exact h none _ rfl
  · intro today
    have hreaches : GuardReaches g s
        (B.exec today file (.logCall questionId outcome detail)).2 := by
      apply h (some today)
      rw [QuotaGuard.logCall, hrunId]
      rfl
    change FollowsGuard B g s (f ()) _
    cases hf : f () with
    | ret value => exact hreaches
    | raise e => exact hreaches
    | call r next =>
        rw [hf] at hended
        exact hended.elim

theorem reaches_attemptOnce (hrunId : g.runId = B.runId) {call : PendingCall}
    (hcall : s.pending = some call) (hlog : s.callLog = file.callLog)
    {onRateLimited : String -> BaselineProc RawText}
    (hlimited : forall message,
      FollowsGuard B g s (onRateLimited message) file) :
    FollowsGuard B g s (attemptOnce call.questionId prompt onRateLimited) file := by
  refine ⟨True.intro, ?_⟩
  intro reply file' hsem
  rcases hsem with ⟨answer, hanswer⟩
  cases answer with
  | returns today =>
      cases hanswer
      refine reaches_logCall hrunId True.intro ?_
      intro logging file' hfile
      exact .of_step (step_request hcall .returns logging) ((hlog ▸ hfile).symm) rfl
  | rateLimited message =>
      cases hanswer
      exact hlimited message
  | raises message =>
      cases hanswer
      refine reaches_logCall hrunId True.intro ?_
      intro logging file' hfile
      exact .of_step (step_request hcall (.raises message) logging) ((hlog ▸ hfile).symm) rfl

theorem canSleep_backoff (attempt : Nat) : canSleep (backoffSeconds none attempt 0) = true := by
  have hbase : (0 : Rat) <= 2 ^ attempt + 0 * (2 ^ attempt * (1 / 4)) := by positivity
  exact decide_eq_true (le_min hbase (by norm_num))

theorem reaches_attemptCall (hrunId : g.runId = B.runId) (hretries : g.maxRetries = maxRetries)
    {call : PendingCall} (hcall : s.pending = some call) (hlog : s.callLog = file.callLog)
    (retries : Nat) (hleft : call.attempt + retries = maxRetries) :
    FollowsGuard B g s (attemptCall call.questionId prompt retries) file := by
  induction retries generalizing s call with
  | zero =>
      apply reaches_attemptOnce hrunId hcall hlog
      intro message
      have hlast : g.maxRetries < ((call.attempt + 1 : Nat) : Int) := by omega
      refine reaches_logCall hrunId True.intro ?_
      intro logging file' hfile
      apply GuardReaches.of_step (step_request hcall (.rateLimited none message 0) logging)
      · rw [QuotaGuard.request, if_pos hlast, hfile, hlog]
      · rw [QuotaGuard.request, if_pos hlast]
  | succ retries ih =>
      apply reaches_attemptOnce hrunId hcall hlog
      intro message
      have hmore : ¬ g.maxRetries < ((call.attempt + 1 : Nat) : Int) := by omega
      let next : PendingCall := { call with attempt := call.attempt + 1 }
      let retried : GuardState :=
        { s with
          pending := some next
          requests := s.requests ++ [⟨call.callsToday, .rateLimited none message 0⟩] }
      have hretry : g.step s (.request (.rateLimited none message 0) none) = some retried := by
        rw [step_request hcall, QuotaGuard.request, if_neg hmore, if_pos (canSleep_backoff _)]
      have hnext : next.attempt + retries = maxRetries := by
        rw [← hleft]
        exact Nat.add_right_comm call.attempt 1 retries
      have hrest : FollowsGuard B g retried (attemptCall call.questionId prompt retries) file :=
        @ih retried next rfl hlog hnext
      apply safe_mono hrest
      · intro _ file' hreaches
        exact hreaches.after_step hretry
      · intro _ file' hreaches
        exact hreaches.after_step hretry

theorem reaches_stopped (hrunId : g.runId = B.runId) (hidle : s.pending = none)
    (hlog : s.callLog = file.callLog) (today : String) {outcome detail : String}
    (hstopped : forall logging, g.begin s questionId today logging =
      { s with callLog := g.logCall s.callLog questionId outcome detail logging })
    {f : Unit -> BaselineProc alpha} (hended : (f ()).Ended) :
    FollowsGuard B g s (send (.logCall questionId outcome detail) >>= f) file := by
  apply reaches_logCall hrunId hended
  intro logging file' hfile
  apply GuardReaches.of_step (step_begin hidle questionId today logging)
  · rw [hstopped, hfile, hlog]
  · rw [hstopped]
    exact hidle

/-- Every way `guard.call` goes in the baseline, with whatever its calls answer, is a
sequence of steps of the guard. -/
theorem reaches_guardCall (i : BaselineInvocation) (hidle : s.pending = none)
    (hlog : s.callLog = file.callLog) :
    FollowsGuard B (i.guard B.runId) s (i.guardCall questionId prompt s.callsThisRun) file := by
  rw [BaselineInvocation.guardCall]
  split
  · rename_i hdry
    have hdry' : (i.guard B.runId).dryRun = true := hdry
    refine reaches_stopped rfl hidle hlog "" ?_ True.intro
    intro logging
    rw [QuotaGuard.begin, if_pos hdry']
  · rename_i hwet
    have hwet' : ¬ (i.guard B.runId).dryRun = true := hwet
    split
    · rename_i hceiling
      have hceiling' : (i.guard B.runId).maxCalls <= s.callsThisRun := hceiling
      refine reaches_stopped rfl hidle hlog "" ?_ True.intro
      intro logging
      rw [QuotaGuard.begin, if_neg hwet', if_pos hceiling']
      rfl
    · rename_i hbelow
      have hbelow' : ¬ (i.guard B.runId).maxCalls <= s.callsThisRun := hbelow
      apply Baseline.safe_request True.intro
      · intro _
        exact ⟨[], s, .nil, hlog, hidle⟩
      · intro today
        have hcount : (B.exec today file .countCallsToday).1 = callsOnDate s.callLog today := by
          rw [callsOnDate, hlog]
          rfl
        rw [hcount]
        split
        · rename_i hbudget
          have hbudget' : (i.guard B.runId).dailyBudget <= callsOnDate s.callLog today := hbudget
          refine reaches_stopped rfl hidle hlog today ?_ True.intro
          intro logging
          rw [QuotaGuard.begin, if_neg hwet', if_neg hbelow', if_pos hbudget']
          rfl
        · rename_i hbudget
          have hbudget' : ¬ (i.guard B.runId).dailyBudget <= callsOnDate s.callLog today :=
            hbudget
          let call : PendingCall := ⟨questionId, 0, callsOnDate s.callLog today⟩
          let begun : GuardState := { s with pending := some call }
          have hbegun : (i.guard B.runId).step s (.begin questionId today none) =
              some begun := by
            rw [step_begin hidle, QuotaGuard.begin, if_neg hwet', if_neg hbelow', if_neg hbudget']
          have hpending : begun.pending = some call := rfl
          have hloop : FollowsGuard B (i.guard B.runId) begun
              (attemptCall call.questionId prompt maxRetries) file :=
            reaches_attemptCall rfl rfl hpending hlog maxRetries (Nat.zero_add maxRetries)
          apply safe_bind
          apply safe_mono hloop
          · intro _ file' hreaches
            exact hreaches.after_step hbegun
          · intro _ file' hreaches
            exact hreaches.after_step hbegun

end Baseline
end ChatDoc
