import ChatDoc.Service.Validity
import ChatDoc.Service.Teardown

/-!
# A generation and its session

One request to `/query` beside everything else that happens to sessions.  Its
dependency `get_current_user_id` looks at the session once, before the stream
starts, and `event_stream` never looks again.
-/

namespace ChatDoc

open Foundation

/-!
# Sessions that last
-/

namespace AuthState

def Holds (s : AuthState) (token : Token) : Prop :=
  exists row, s.sessions token = some row ∧ s.now ≤ row.expiresAt

/-- The statement does not end the session: it neither deletes its row nor gives it
an expiry that has passed. -/
def Spares (now : Time) (token : Token) : AuthPoint -> Prop
  | .inserting _ t expiresAt => t = token -> now ≤ expiresAt
  | .expiring t => t ≠ token
  | .updating t expiresAt => t = token -> now ≤ expiresAt
  | .deleting t => t ≠ token
  | _ => True

def Keeps (s : AuthState) (token : Token) : AuthAction -> Prop
  | .tick now => forall row, s.sessions token = some row -> now ≤ row.expiresAt
  | .request _ => True
  | .step i _ => forall point, s.requests[i]? = some point -> Spares s.now token point

variable {s s' : AuthState} {token : Token}

theorem holds_congr (hsessions : s'.sessions token = s.sessions token)
    (hnow : s'.now = s.now) : s'.Holds token <-> s.Holds token := by
  unfold Holds
  rw [hsessions, hnow]

theorem holds_setRow_of_ne {t : Token} {row : Option SessionRow} (h : t ≠ token) :
    (s.setRow t row).Holds token <-> s.Holds token :=
  holds_congr (if_neg fun heq => h heq.symm) rfl

theorem holds_setRow_self {row : Option SessionRow} :
    (s.setRow token row).Holds token <-> exists r, row = some r ∧ s.now ≤ r.expiresAt := by
  unfold Holds setRow
  dsimp only
  rw [if_pos rfl]

theorem holds_next_iff {drawn : Token} {point : AuthPoint} {out : AuthState × AuthPoint}
    (h : s.Holds token) (hnext : s.next drawn point = some out) :
    out.1.Holds token <-> Spares s.now token point := by
  cases point with
  | creating userId =>
      rw [next_creating] at hnext
      split at hnext
      · cases hnext
      · cases hnext
        exact iff_of_true h True.intro
  | inserting userId t expiresAt =>
      cases hnext
      by_cases ht : t = token
      · subst ht
        apply holds_setRow_self.trans
        simp [Spares]
      · exact iff_of_true ((holds_setRow_of_ne ht).mpr h) fun heq => absurd heq ht
  | selecting t =>
      cases hnext
      exact iff_of_true h True.intro
  | selected t row =>
      refine iff_of_true ?_ True.intro
      cases row with
      | none =>
          cases hnext
          exact h
      | some row =>
          rw [next_selected] at hnext
          split at hnext
          · cases hnext
            exact h
          · cases hnext
            exact h
  | expiring t =>
      cases hnext
      by_cases ht : t = token
      · subst ht
        apply holds_setRow_self.trans
        simp [Spares]
      · exact iff_of_true ((holds_setRow_of_ne ht).mpr h) ht
  | touching t =>
      cases hnext
      exact iff_of_true h True.intro
  | touchSelected t createdAt =>
      refine iff_of_true ?_ True.intro
      cases createdAt with
      | none =>
          cases hnext
          exact h
      | some createdAt =>
          cases hnext
          exact h
  | updating t expiresAt =>
      cases hnext
      by_cases ht : t = token
      · subst ht
        rcases h with ⟨row, hrow, _⟩
        apply holds_setRow_self.trans
        rw [hrow]
        simp [Spares]
      · exact iff_of_true ((holds_setRow_of_ne ht).mpr h) fun heq => absurd heq ht
  | deleting t =>
      cases hnext
      by_cases ht : t = token
      · subst ht
        apply holds_setRow_self.trans
        simp [Spares]
      · exact iff_of_true ((holds_setRow_of_ne ht).mpr h) ht
  | finished => cases hnext

theorem holds_act_iff {a : AuthAction} (h : s.Holds token) (hact : s.act a = some s') :
    s'.Holds token <-> s.Keeps token a := by
  cases a with
  | tick now =>
      cases (Option.ite_none_right_eq_some.mp hact).2
      rcases h with ⟨row, hrow, _⟩
      unfold Holds Keeps
      dsimp only
      rw [hrow]
      simp
  | request r =>
      cases (Option.ite_none_right_eq_some.mp hact).2
      exact iff_of_true h True.intro
  | step i drawn =>
      rcases Option.bind_eq_some_iff.mp hact with ⟨point, hpoint, hmap⟩
      rcases Option.map_eq_some_iff.mp hmap with ⟨out, hnext, rfl⟩
      refine Iff.trans (holds_congr rfl rfl) ((holds_next_iff h hnext).trans ?_)
      change _ <-> forall point', s.requests[i]? = some point' -> Spares s.now token point'
      rw [hpoint]
      simp

theorem holds_of_accepted {a : AuthAction} {i userId : Nat} {t : Token}
    (hevent : event (s, a) = some (.accepted i userId t)) (hact : s.act a = some s') :
    s'.Holds token <-> s.Holds token := by
  rcases selected_of_accepted hevent with ⟨row, hpoint, hlive, _⟩
  cases a with
  | tick now => cases hevent
  | request r => cases hevent
  | step j drawn =>
      rcases Option.bind_eq_some_iff.mp hact with ⟨point, hj, hmap⟩
      rcases Option.map_eq_some_iff.mp hmap with ⟨out, hnext, rfl⟩
      rcases Option.bind_eq_some_iff.mp hevent with ⟨point', hj', hsome⟩
      rw [hj] at hj'
      cases hj'
      have hsame : out.1 = s := by
        cases point with
        | selected t' row' =>
            cases row' with
            | none => cases hsome
            | some row' =>
                rw [next_selected] at hnext
                split at hnext
                · cases hnext
                  rfl
                · cases hnext
                  rfl
        | _ => cases hsome
      rw [← hsame]
      exact holds_congr rfl rfl

end AuthState

/-!
# The request
-/

/-- How far the request to `/query` is: its dependency has made the given session
request, it has been let in, or its stream has started. -/
inductive QueryStage where
  | absent
  | authenticating (i : Nat) (token : Token)
  | handling (i : Nat) (token : Token)
  | streaming (token : Token) (stream : QueryStream)

namespace QueryStage

def underway : QueryStage -> Option Token
  | .handling _ token => some token
  | .streaming token stream =>
      match stream.point with
      | .left _ => none
      | _ => some token
  | _ => none

def after (stage : QueryStage) (e : Option AuthState.Event) : QueryStage :=
  match stage, e with
  | .authenticating i token, some (.accepted j _ _) =>
      if j = i then .handling i token else stage
  | _, _ => stage

end QueryStage

structure LiveQuery where
  auth : AuthState
  stage : QueryStage

/-- A step of the sessions, the request with its cookie, the start of its stream, or
a step of the stream. -/
inductive LiveAction where
  | auth (a : AuthAction)
  | query (token : Token)
  | respond
  | stream (a : StreamAction)

namespace LiveQuery

def init : LiveQuery := ⟨.init, .absent⟩

def act (q : QueryRun) (s : LiveQuery) : LiveAction -> Option LiveQuery
  | .auth a =>
      (s.auth.act a).map fun auth => ⟨auth, s.stage.after (AuthState.event (s.auth, a))⟩
  | .query token =>
      match s.stage with
      | .absent =>
          (s.auth.act (.request (.authenticate token))).map fun auth =>
            ⟨auth, .authenticating s.auth.requests.length token⟩
      | _ => none
  | .respond =>
      match s.stage with
      | .handling i token =>
          if s.auth.requests[i]? = some .finished then
            some { s with stage := .streaming token .init }
          else none
      | _ => none
  | .stream a =>
      match s.stage with
      | .streaming token stream =>
          (QueryStream.act q stream a).map fun stream =>
            { s with stage := .streaming token stream }
      | _ => none

def emits (q : QueryRun) (s : LiveQuery) : LiveAction -> Option Frame
  | .stream (.thread _) => none
  | .stream a =>
      match s.stage with
      | .streaming _ stream =>
          (QueryStream.act q stream a).bind fun stream =>
            match stream.point with
            | .yielding frame _ => some frame
            | _ => none
      | _ => none
  | _ => none

/-- A frame is emitted while the session that let the request in exists and has not
expired. -/
def EmitsLive (q : QueryRun) (s : LiveQuery) (a : LiveAction) : Prop :=
  forall frame, s.emits q a = some frame ->
    exists token stream, s.stage = .streaming token stream ∧ s.auth.Holds token

/-- As long as the request is under way, its session is there. -/
def GenerationLive (s : LiveQuery) : Prop :=
  forall token, s.stage.underway = some token -> s.auth.Holds token

/-- The step does not end the session of a request that is under way, and lets in no
request whose session is gone. -/
def KeepsSession (s : LiveQuery) : LiveAction -> Prop
  | .auth a =>
      (forall token, s.stage.underway = some token -> s.auth.Keeps token a) ∧
        forall i token userId t, s.stage = .authenticating i token ->
          AuthState.event (s.auth, a) = some (.accepted i userId t) ->
            s.auth.Holds token
  | _ => True

variable {q : QueryRun} {s s' : LiveQuery}

theorem left_of_act {stream stream' : QueryStream} {a : StreamAction} {d : Departure}
    (hact : QueryStream.act q stream a = some stream') (hleft : stream.point = .left d) :
    stream'.point = .left d := by
  have hacted := QueryStream.acted_of_act hact
  cases hacted with
  | advance _ h => exact absurd hleft (h.inside d)
  | start _ h =>
      have hearly := h.early
      rw [hleft] at hearly
      cases hearly
  | disconnect h => exact absurd hleft (h d)
  | close h => exact absurd hleft (h d)
  | cancel h => exact absurd hleft (h d)
  | work h => rw [h.point, hleft]

theorem underway_streaming {token token' : Token} {stream : QueryStream} :
    (QueryStage.streaming token stream).underway = some token' <->
      token = token' ∧ forall d, stream.point ≠ .left d := by
  change (match stream.point with | .left _ => none | _ => some token) = some token' <-> _
  cases stream.point <;> simp

theorem after_cases (stage : QueryStage) (e : Option AuthState.Event) :
    stage.after e = stage ∨
      exists i token userId t, stage = .authenticating i token ∧
        e = some (.accepted i userId t) ∧ stage.after e = .handling i token := by
  cases stage with
  | authenticating i token =>
      rcases e with _ | e
      · exact .inl rfl
      · cases e with
        | accepted j userId t =>
            by_cases hj : j = i
            · subst hj
              exact .inr ⟨j, token, userId, t, rfl, rfl, if_pos rfl⟩
            · exact .inl (if_neg hj)
        | _ => exact .inl rfl
  | _ => exact .inl rfl

/-- The sessions change beside the generation, which is admitted by the answer that a
request for it gets. -/
theorem generationLive_auth {a : AuthAction} {auth : AuthState} (h : s.GenerationLive)
    (hauth : s.auth.act a = some auth) :
    (LiveQuery.mk auth (s.stage.after (AuthState.event (s.auth, a)))).GenerationLive <->
      s.KeepsSession (.auth a) := by
  unfold GenerationLive KeepsSession
  dsimp only
  rcases after_cases s.stage (AuthState.event (s.auth, a)) with
    hsame | ⟨i, token, userId, t, hstage, hevent, hafter⟩
  · rw [hsame]
    constructor
    · intro hlive
      constructor
      · intro token htoken
        exact (AuthState.holds_act_iff (h token htoken) hauth).mp (hlive token htoken)
      · intro i token userId t hstage hevent
        rw [hstage, hevent] at hsame
        unfold QueryStage.after at hsame
        dsimp only at hsame
        rw [if_pos rfl] at hsame
        cases hsame
    · intro hkeeps token htoken
      exact (AuthState.holds_act_iff (h token htoken) hauth).mpr (hkeeps.1 token htoken)
  · rw [hafter, hstage]
    constructor
    · intro hlive
      constructor
      · intro token' htoken'
        cases htoken'
      · intro i' token' userId' t' hstage' _
        cases hstage'
        exact (AuthState.holds_of_accepted hevent hauth).mp (hlive token rfl)
    · intro hkeeps token' htoken'
      cases htoken'
      exact (AuthState.holds_of_accepted hevent hauth).mpr
        (hkeeps.2 i token userId t rfl hevent)

theorem generationLive_step {a : LiveAction} (h : s.GenerationLive)
    (hact : act q s a = some s') : s'.GenerationLive <-> s.KeepsSession a := by
  cases a with
  | auth a =>
      rcases Option.map_eq_some_iff.mp hact with ⟨auth, hauth, rfl⟩
      exact generationLive_auth h hauth
  | query token =>
      unfold act at hact
      dsimp only at hact
      split at hact
      next hstage =>
        rcases Option.map_eq_some_iff.mp hact with ⟨auth, _, rfl⟩
        refine iff_of_true ?_ True.intro
        intro token' htoken'
        cases htoken'
      next => cases hact
  | respond =>
      unfold act at hact
      dsimp only at hact
      split at hact
      next i token hstage =>
        cases (Option.ite_none_right_eq_some.mp hact).2
        refine iff_of_true ?_ True.intro
        intro token' htoken'
        cases htoken'
        exact h token (by rw [hstage]; rfl)
      next => cases hact
  | stream a =>
      unfold act at hact
      dsimp only at hact
      split at hact
      next token stream hstage =>
        rcases Option.map_eq_some_iff.mp hact with ⟨stream', hstream, rfl⟩
        refine iff_of_true ?_ True.intro
        intro token' htoken'
        rcases underway_streaming.mp htoken' with ⟨rfl, hoff⟩
        apply h
        rw [hstage]
        refine underway_streaming.mpr ⟨rfl, ?_⟩
        intro d hleft
        exact hoff d (left_of_act hstream hleft)
      next => cases hact

theorem underway_of_emits {a : LiveAction} {frame : Frame}
    (h : s.emits q a = some frame) :
    exists token stream, s.stage = .streaming token stream ∧
      s.stage.underway = some token := by
  unfold emits at h
  split at h
  · cases h
  · next a hthread =>
      split at h
      next token stream hstage =>
        refine ⟨token, stream, hstage, ?_⟩
        rcases Option.bind_eq_some_iff.mp h with ⟨stream', hact, hframe⟩
        rw [hstage]
        refine underway_streaming.mpr ⟨rfl, ?_⟩
        intro d hleft
        rw [left_of_act hact hleft] at hframe
        cases hframe
      next => cases h
  · cases h

theorem emitsLive_of_generationLive {a : LiveAction} (h : s.GenerationLive) :
    s.EmitsLive q a := by
  intro frame hframe
  rcases underway_of_emits hframe with ⟨token, stream, hstage, hunderway⟩
  exact ⟨token, stream, hstage, h token hunderway⟩

theorem generationLive_init : init.GenerationLive := by
  intro token htoken
  cases htoken

/-- In a run whose steps all keep the session, every frame is emitted while the
session is there; and these are exactly the runs in which the session is there as
long as the request is under way. -/
theorem emitsLive_of_keepsSession (q : QueryRun) {trace : List (LiveQuery × LiveAction)}
    {s : LiveQuery} (hrun : Run (act q) init trace s) :
    (EachStep KeepsSession trace -> EachStep (EmitsLive q) trace) ∧
      ((EachStep (fun s _ => s.GenerationLive) trace ∧ s.GenerationLive) <->
        EachStep KeepsSession trace) := by
  have hiff : (EachStep (fun s _ => s.GenerationLive) trace ∧ s.GenerationLive) <->
      EachStep KeepsSession trace :=
    hrun.always_iff generationLive_init fun _ _ _ _ _ h _ hact =>
      generationLive_step h hact
  refine ⟨?_, hiff⟩
  intro hkeeps step hstep
  exact emitsLive_of_generationLive ((hiff.mpr hkeeps).1 step hstep)

/-!
# A logout behind a stream
-/

def askedOnce : List LiveAction :=
  [.auth (.tick 3), .auth (.request (.login 7)), .auth (.step 0 "t"),
    .auth (.step 0 ""), .query "t"] ++
    List.replicate 5 (.auth (.step 1 "")) ++ [.respond, .stream (.next 0)]

def loggedOut : List LiveAction :=
  askedOnce ++ [.auth (.request (.logout "t")), .auth (.step 2 ""), .stream (.next 0),
    .stream .retrieved]

def emitsFrame (q : QueryRun) (step : LiveQuery × LiveAction) : Bool :=
  (step.1.emits q step.2).isSome

def emitsOrphaned (q : QueryRun) (step : LiveQuery × LiveAction) : Bool :=
  emitsFrame q step &&
    match step.1.stage with
    | .streaming token _ => (step.1.auth.sessions token).isNone
    | _ => false

theorem not_emitsLive_of_orphaned {step : LiveQuery × LiveAction}
    (h : emitsOrphaned q step = true) : ¬ step.1.EmitsLive q step.2 := by
  intro hlive
  unfold emitsOrphaned at h
  rw [Bool.and_eq_true] at h
  rcases h with ⟨hframe, hnone⟩
  rcases Option.isSome_iff_exists.mp hframe with ⟨frame, hframe⟩
  rcases hlive frame hframe with ⟨token, stream, hstage, row, hrow, _⟩
  rw [hstage] at hnone
  dsimp only at hnone
  rw [hrow] at hnone
  cases hnone

theorem emitsLive_askedOnce :
    exists trace s, Run (act QueryStream.plainQuery) init trace s ∧
      (exists step, step ∈ trace ∧
        emitsFrame QueryStream.plainQuery step = true) ∧
      (EachStep KeepsSession trace ->
        EachStep (EmitsLive QueryStream.plainQuery) trace) ∧
      ((EachStep (fun s _ => s.GenerationLive) trace ∧ s.GenerationLive) <->
        EachStep KeepsSession trace) := by
  have hfollow : (follow (act QueryStream.plainQuery) init askedOnce).any
      (fun out => out.1.any (emitsFrame QueryStream.plainQuery)) = true := by
    decide +kernel
  rcases exists_run_of_follow (fun trace (_ : LiveQuery) =>
    trace.any (emitsFrame QueryStream.plainQuery)) hfollow with ⟨trace, s, hrun, hgood⟩
  rcases List.any_eq_true.mp hgood with ⟨step, hin, hframe⟩
  exact ⟨trace, s, hrun, ⟨step, hin, hframe⟩,
    emitsLive_of_keepsSession QueryStream.plainQuery hrun⟩

theorem exists_emits_after_logout :
    ¬ forall (q : QueryRun) (trace : List (LiveQuery × LiveAction)) (s : LiveQuery),
      Run (act q) init trace s -> EachStep (EmitsLive q) trace := by
  intro hall
  have hfollow : (follow (act QueryStream.plainQuery) init loggedOut).any
      (fun out => out.1.any (emitsOrphaned QueryStream.plainQuery)) = true := by
    decide +kernel
  rcases exists_run_of_follow (fun trace (_ : LiveQuery) =>
    trace.any (emitsOrphaned QueryStream.plainQuery)) hfollow with ⟨trace, s, hrun, hgood⟩
  rcases List.any_eq_true.mp hgood with ⟨step, hin, horphaned⟩
  exact not_emitsLive_of_orphaned horphaned
    (hall QueryStream.plainQuery trace s hrun step hin)

end LiveQuery
end ChatDoc
