import ChatDoc.Service.Sessions

/-!
# Validity of sessions

Every row goes back to the `create_session` that issued its token, and what a
request has read, or is about to write, is bounded by the same limits.  A token
that has lost its row stays without one.
-/

namespace ChatDoc

open Foundation

namespace AuthState

def Event.token : Event -> Token
  | .created _ token => token
  | .selected _ token => token
  | .accepted _ _ token => token
  | .touched _ token => token
  | .deleted token => token

def Happened (trace : List (AuthState × AuthAction)) (e : Event) (time : Time) : Prop :=
  exists step, step ∈ trace ∧ event step = some e ∧ step.1.now = time

theorem happened_snoc {trace : List (AuthState × AuthAction)}
    {step : AuthState × AuthAction} {e : Event} {time : Time} :
    Happened (trace ++ [step]) e time <->
      Happened trace e time ∨ (event step = some e ∧ step.1.now = time) := by
  constructor
  · intro h
    rcases h with ⟨step', hin, hevent, htime⟩
    rcases List.mem_append.mp hin with hold | hnew
    · exact .inl ⟨step', hold, hevent, htime⟩
    · rw [List.mem_singleton.mp hnew] at hevent htime
      exact .inr ⟨hevent, htime⟩
  · intro h
    rcases h with ⟨step', hin, hevent, htime⟩ | ⟨hevent, htime⟩
    · exact ⟨step', List.mem_append_left _ hin, hevent, htime⟩
    · exact ⟨step, List.mem_append_right _ (List.mem_singleton.mpr rfl), hevent, htime⟩

theorem happened_mono {trace : List (AuthState × AuthAction)} {e : Event} {time : Time}
    (step : AuthState × AuthAction) (h : Happened trace e time) :
    Happened (trace ++ [step]) e time := happened_snoc.mpr (.inl h)

theorem happened_of_snoc {trace : List (AuthState × AuthAction)}
    {step : AuthState × AuthAction} {e : Event} {time : Time}
    (h : Happened (trace ++ [step]) e time) (hstep : event step ≠ some e) :
    Happened trace e time := by
  rcases happened_snoc.mp h with hold | ⟨hnew, _⟩
  · exact hold
  · exact absurd hnew hstep

/-!
# What holds of a row and of a request
-/

/-- A row was created as it says and not deleted, its expiry is within the
absolute limit, and within the sliding one of its creation or of a touch. -/
structure RowSound (trace : List (AuthState × AuthAction)) (token : Token)
    (row : SessionRow) : Prop where
  created : Happened trace (.created row.userId token) row.createdAt
  undeleted : forall time, ¬ Happened trace (.deleted token) time
  absolute : row.expiresAt ≤ row.createdAt + absoluteSessionTtl
  recent : row.expiresAt ≤ row.createdAt + sessionTtl ∨
    exists i userId time before, Happened trace (.touched i token) time ∧
      Happened trace (.accepted i userId token) before ∧
        row.expiresAt ≤ time + sessionTtl

def HasRead (trace : List (AuthState × AuthAction)) (i : Nat) (token : Token)
    (row : SessionRow) : Prop :=
  exists before select after, trace = before ++ select :: after ∧
    event select = some (.selected i token) ∧
      select.1.sessions token = some row ∧ RowSound before token row

def WasAccepted (trace : List (AuthState × AuthAction)) (i : Nat) (token : Token) : Prop :=
  exists userId time, Happened trace (.accepted i userId token) time

def PointSound (trace : List (AuthState × AuthAction)) (now : Time) (i : Nat) :
    AuthPoint -> Prop
  | .inserting _ token expiresAt =>
      (forall userId time, ¬ Happened trace (.created userId token) time) ∧
        (forall time, ¬ Happened trace (.deleted token) time) ∧
          expiresAt ≤ now + sessionTtl
  | .selected token (some row) => HasRead trace i token row
  | .touching token => WasAccepted trace i token
  | .touchSelected token (some createdAt) =>
      WasAccepted trace i token ∧
        exists userId, Happened trace (.created userId token) createdAt
  | .updating token expiresAt =>
      WasAccepted trace i token ∧ expiresAt ≤ now + sessionTtl ∧
        exists userId createdAt, Happened trace (.created userId token) createdAt ∧
          expiresAt ≤ createdAt + absoluteSessionTtl
  | _ => True

theorem rowSound_mono {trace : List (AuthState × AuthAction)} {token : Token}
    {row : SessionRow} {step : AuthState × AuthAction} (h : RowSound trace token row)
    (hstep : event step ≠ some (.deleted token)) :
    RowSound (trace ++ [step]) token row where
  created := happened_mono step h.created
  undeleted := fun time hdeleted => h.undeleted time (happened_of_snoc hdeleted hstep)
  absolute := h.absolute
  recent := by
    rcases h.recent with hcreated | ⟨i, userId, time, before, htouched, haccepted, hle⟩
    · exact .inl hcreated
    · exact .inr ⟨i, userId, time, before, happened_mono step htouched,
        happened_mono step haccepted, hle⟩

theorem wasAccepted_mono {trace : List (AuthState × AuthAction)} {i : Nat} {token : Token}
    (step : AuthState × AuthAction) (h : WasAccepted trace i token) :
    WasAccepted (trace ++ [step]) i token := by
  rcases h with ⟨userId, time, haccepted⟩
  exact ⟨userId, time, happened_mono step haccepted⟩

/-- Another step leaves a request sound, unless it is an event of a token that
the request is about to insert. -/
theorem pointSound_mono {trace : List (AuthState × AuthAction)} {now now' : Time}
    {i : Nat} {p : AuthPoint} {step : AuthState × AuthAction}
    (h : PointSound trace now i p) (hnow : now ≤ now')
    (hstep : forall userId token expiresAt, p = .inserting userId token expiresAt ->
      forall e, event step = some e -> Event.token e ≠ token) :
    PointSound (trace ++ [step]) now' i p := by
  cases p with
  | inserting userId token expiresAt =>
      rcases h with ⟨hcreated, hdeleted, hexpires⟩
      have hquiet := hstep userId token expiresAt rfl
      refine ⟨?_, ?_, Nat.le_trans hexpires (Nat.add_le_add_right hnow _)⟩
      · intro u time hnew
        exact hcreated u time (happened_of_snoc hnew fun hevent => hquiet _ hevent rfl)
      · intro time hnew
        exact hdeleted time (happened_of_snoc hnew fun hevent => hquiet _ hevent rfl)
  | selected token row =>
      cases row with
      | none => exact True.intro
      | some row =>
          rcases h with ⟨before, select, after, rfl, hselect, hrow, hsound⟩
          refine ⟨before, select, after ++ [step], ?_, hselect, hrow, hsound⟩
          rw [List.append_assoc, List.cons_append]
  | touching token => exact wasAccepted_mono step h
  | touchSelected token createdAt =>
      cases createdAt with
      | none => exact True.intro
      | some createdAt =>
          rcases h with ⟨haccepted, userId, hcreated⟩
          exact ⟨wasAccepted_mono step haccepted, userId, happened_mono step hcreated⟩
  | updating token expiresAt =>
      rcases h with ⟨haccepted, hexpires, userId, createdAt, hcreated, habsolute⟩
      exact ⟨wasAccepted_mono step haccepted,
        Nat.le_trans hexpires (Nat.add_le_add_right hnow _), userId, createdAt,
        happened_mono step hcreated, habsolute⟩
  | creating userId => exact True.intro
  | selecting token => exact True.intro
  | expiring token => exact True.intro
  | deleting token => exact True.intro
  | finished => exact True.intro

/-!
# The invariant
-/

structure Ledger (trace : List (AuthState × AuthAction)) (s : AuthState) : Prop where
  rows : forall token row, s.sessions token = some row -> RowSound trace token row
  points : forall i p, s.requests[i]? = some p -> PointSound trace s.now i p
  presented : forall (i : Nat) (p : AuthPoint) token, s.requests[i]? = some p ->
    p.token = some token -> token ∈ s.seen
  recorded : forall step e, step ∈ trace -> event step = some e ->
    Event.token e ∈ s.seen
  apart : forall (i j : Nat) userId token expiresAt (p : AuthPoint),
    s.requests[i]? = some (.inserting userId token expiresAt) ->
      s.requests[j]? = some p -> p.token = some token -> i = j
  unique : forall userId userId' token time time',
    Happened trace (.created userId token) time ->
      Happened trace (.created userId' token) time' -> userId = userId' ∧ time = time'

theorem ledger_init : Ledger [] init where
  rows := by
    intro token row hrow
    cases hrow
  points := by
    intro i p hp
    cases hp
  presented := by
    intro i p token hp
    cases hp
  recorded := by
    intro step e hstep
    cases hstep
  apart := by
    intro i j userId token expiresAt p hi
    cases hi
  unique := by
    intro userId userId' token time time' h
    rcases h with ⟨step, hstep, _⟩
    cases hstep

theorem pointEvent_selected (now : Time) (i : Nat) (token : Token) (row : SessionRow) :
    pointEvent now i (.selected token (some row)) =
      if expired row now then none else some (.accepted i row.userId token) := rfl

theorem pointEvent_token {now : Time} {i : Nat} {p : AuthPoint} {e : Event}
    (h : pointEvent now i p = some e) : p.token = some (Event.token e) := by
  cases p with
  | inserting userId token expiresAt =>
      cases h
      rfl
  | selecting token =>
      cases h
      rfl
  | selected token row =>
      cases row with
      | none => cases h
      | some row =>
          rw [pointEvent_selected] at h
          split at h
          · cases h
          · cases h
            rfl
  | updating token expiresAt =>
      cases h
      rfl
  | deleting token =>
      cases h
      rfl
  | _ => cases h

theorem inserting_of_created {now : Time} {i : Nat} {p : AuthPoint} {userId : Nat}
    {token : Token} (h : pointEvent now i p = some (.created userId token)) :
    exists expiresAt, p = .inserting userId token expiresAt := by
  cases p with
  | inserting userId' token' expiresAt =>
      cases h
      exact ⟨expiresAt, rfl⟩
  | selected token row =>
      cases row with
      | none => cases h
      | some row =>
          rw [pointEvent_selected] at h
          split at h <;> cases h
  | _ => cases h

theorem event_step {s : AuthState} {i : Nat} {p : AuthPoint} (drawn : Token)
    (hp : s.requests[i]? = some p) :
    event (s, .step i drawn) = pointEvent s.now i p := by
  have hevent : event (s, .step i drawn) =
      (s.requests[i]?).bind (pointEvent s.now i) := rfl
  rw [hevent, hp, Option.bind_some]

theorem ledger_statement {trace : List (AuthState × AuthAction)} {s t : AuthState}
    {i : Nat} {drawn : Token} {p p' : AuthPoint} (h : Ledger trace s)
    (hp : s.requests[i]? = some p) (hnow : t.now = s.now) (hseen : s.seen ⊆ t.seen)
    (htoken : forall token, p'.token = some token ->
      p.token = some token ∨ (token ∉ s.seen ∧ token ∈ t.seen))
    (hinserting : forall userId token expiresAt,
      p' = .inserting userId token expiresAt -> token ∉ s.seen)
    (hrows : forall token row, t.sessions token = some row ->
      RowSound (trace ++ [(s, .step i drawn)]) token row)
    (hpoint : PointSound (trace ++ [(s, .step i drawn)]) s.now i p') :
    Ledger (trace ++ [(s, .step i drawn)])
      { t with requests := s.requests.set i p' } := by
  have hevent := event_step drawn hp
  have hlookup {j : Nat} {r : AuthPoint} (hr : (s.requests.set i p')[j]? = some r) :
      (j = i ∧ r = p') ∨ (j ≠ i ∧ s.requests[j]? = some r) := by
    by_cases hji : j = i
    · rw [hji, List.getElem?_set_self (List.getElem?_eq_some_iff.mp hp).1] at hr
      exact .inl ⟨hji, (Option.some.inj hr).symm⟩
    · rw [List.getElem?_set_ne (Ne.symm hji)] at hr
      exact .inr ⟨hji, hr⟩
  constructor
  · exact hrows
  · intro j r hr
    rw [show ({ t with requests := s.requests.set i p' } : AuthState).now = s.now from hnow]
    rcases hlookup hr with ⟨rfl, rfl⟩ | ⟨hji, hold⟩
    · exact hpoint
    · refine pointSound_mono (h.points j r hold) (Nat.le_refl _) ?_
      intro userId token expiresAt hins e he htok
      rw [hevent] at he
      have hmention := pointEvent_token he
      rw [htok] at hmention
      rw [hins] at hold
      exact hji (h.apart j i userId token expiresAt p hold hp hmention)
  · intro j r token hr hmention
    rcases hlookup hr with ⟨_, rfl⟩ | ⟨_, hold⟩
    · rcases htoken token hmention with hbefore | ⟨_, hfresh⟩
      · exact hseen (h.presented i p token hp hbefore)
      · exact hfresh
    · exact hseen (h.presented j r token hold hmention)
  · intro step e hstep he
    rcases List.mem_append.mp hstep with hold | hnew
    · exact hseen (h.recorded step e hold he)
    · rw [List.mem_singleton.mp hnew, hevent] at he
      exact hseen (h.presented i p _ hp (pointEvent_token he))
  · intro j k userId token expiresAt r hj hk hmention
    rcases hlookup hj with ⟨hji, hins⟩ | ⟨hji, hjold⟩
    · rcases hlookup hk with ⟨hki, _⟩ | ⟨hki, hkold⟩
      · rw [hji, hki]
      · have hfresh := hinserting userId token expiresAt hins.symm
        exact absurd (h.presented k r token hkold hmention) hfresh
    · rcases hlookup hk with ⟨hki, hr⟩ | ⟨hki, hkold⟩
      · rw [hr] at hmention
        rcases htoken token hmention with hbefore | ⟨hfresh, _⟩
        · exact absurd (h.apart j i userId token expiresAt p hjold hp hbefore) hji
        · exact absurd (h.presented j _ token hjold rfl) hfresh
      · exact h.apart j k userId token expiresAt r hjold hkold hmention
  · intro userId userId' token time time' hfirst hsecond
    have hnew {u : Nat} (hcreated : event (s, .step i drawn) =
        some (.created u token)) : forall u' time',
          ¬ Happened trace (.created u' token) time' := by
      rw [hevent] at hcreated
      rcases inserting_of_created hcreated with ⟨expiresAt, rfl⟩
      exact (h.points i _ hp).1
    rcases happened_snoc.mp hfirst with hold | ⟨he, htime⟩
    · rcases happened_snoc.mp hsecond with hold' | ⟨he', _⟩
      · exact h.unique userId userId' token time time' hold hold'
      · exact absurd hold (hnew he' userId time)
    · rcases happened_snoc.mp hsecond with hold' | ⟨he', htime'⟩
      · exact absurd hold' (hnew he userId' time')
      · rw [he] at he'
        cases he'
        exact ⟨rfl, htime.symm.trans htime'⟩

theorem ledger_reading {trace : List (AuthState × AuthAction)} {s : AuthState}
    {i : Nat} {drawn : Token} {p p' : AuthPoint} (h : Ledger trace s)
    (hp : s.requests[i]? = some p)
    (hdelete : forall token, p ≠ .deleting token)
    (htoken : p'.token = p.token ∨ p'.token = none)
    (hinserting : forall userId token expiresAt,
      p' ≠ .inserting userId token expiresAt)
    (hpoint : PointSound (trace ++ [(s, .step i drawn)]) s.now i p') :
    Ledger (trace ++ [(s, .step i drawn)])
      { s with requests := s.requests.set i p' } := by
  refine ledger_statement h hp rfl (List.Subset.refl _) ?_ ?_ ?_ hpoint
  · intro token hmention
    rcases htoken with hsame | hnone
    · exact .inl (hsame ▸ hmention)
    · rw [hnone] at hmention
      cases hmention
  · intro userId token expiresAt hins
    exact absurd hins (hinserting userId token expiresAt)
  · intro token row hrow
    refine rowSound_mono (h.rows token row hrow) ?_
    rw [event_step drawn hp]
    intro hevent
    cases p with
    | deleting token' => exact hdelete token' rfl
    | selected token' row' =>
        cases row' with
        | none => cases hevent
        | some row' =>
            rw [pointEvent_selected] at hevent
            split at hevent <;> cases hevent
    | _ => cases hevent

theorem ledger_writing {trace : List (AuthState × AuthAction)} {s : AuthState}
    {i : Nat} {drawn : Token} {p : AuthPoint} {token : Token} {new : Option SessionRow}
    (h : Ledger trace s) (hp : s.requests[i]? = some p) (hmention : p.token = some token)
    (hnew : forall row, new = some row ->
      RowSound (trace ++ [(s, .step i drawn)]) token row) :
    Ledger (trace ++ [(s, .step i drawn)])
      { s.setRow token new with requests := s.requests.set i .finished } := by
  refine ledger_statement h hp rfl (List.Subset.refl _) ?_ ?_ ?_ True.intro
  · intro token' hnone
    cases hnone
  · intro userId token' expiresAt hins
    cases hins
  · intro token' row hrow
    unfold setRow at hrow
    dsimp only at hrow
    split at hrow
    next hsame =>
      rw [hsame]
      exact hnew row hrow
    next hother =>
      refine rowSound_mono (h.rows token' row hrow) ?_
      rw [event_step drawn hp]
      intro hevent
      have hdeleted := pointEvent_token hevent
      rw [hmention] at hdeleted
      exact hother (Option.some.inj hdeleted).symm

theorem next_creating (s : AuthState) (drawn : Token) (userId : Nat) :
    s.next drawn (.creating userId) =
      if drawn ∈ s.seen then none
      else some ({ s with seen := drawn :: s.seen },
        .inserting userId drawn (s.now + sessionTtl)) := rfl

theorem next_selected (s : AuthState) (drawn token : Token) (row : SessionRow) :
    s.next drawn (.selected token (some row)) =
      if expired row s.now then some (s, .expiring token)
      else some (s, .touching token) := rfl

theorem pointSound_drawn {trace : List (AuthState × AuthAction)} {s : AuthState}
    {i : Nat} {drawn : Token} {userId : Nat} (h : Ledger trace s)
    (hfresh : drawn ∉ s.seen) (hevent : event (s, .step i drawn) = none) :
    PointSound (trace ++ [(s, .step i drawn)]) s.now i
      (.inserting userId drawn (s.now + sessionTtl)) := by
  have hunseen (e : Event) (time : Time) (he : Event.token e = drawn) :
      ¬ Happened (trace ++ [(s, .step i drawn)]) e time := by
    intro hhappened
    rcases happened_of_snoc hhappened (by rw [hevent]; simp) with
      ⟨step, hstep, hstepEvent, _⟩
    have hseen := h.recorded step e hstep hstepEvent
    rw [he] at hseen
    exact hfresh hseen
  exact ⟨fun u time => hunseen (.created u drawn) time rfl,
    fun time => hunseen (.deleted drawn) time rfl, Nat.le_refl _⟩

theorem rowSound_inserted {trace : List (AuthState × AuthAction)} {s : AuthState}
    {i : Nat} {drawn : Token} {userId : Nat} {token : Token} {expiresAt : Time}
    (h : PointSound trace s.now i (.inserting userId token expiresAt))
    (hevent : event (s, .step i drawn) = some (.created userId token)) :
    RowSound (trace ++ [(s, .step i drawn)]) token ⟨userId, s.now, expiresAt⟩ := by
  rcases h with ⟨_, hdeleted, hexpires⟩
  have hlimits : sessionTtl ≤ absoluteSessionTtl := by decide
  refine ⟨happened_snoc.mpr (.inr ⟨hevent, rfl⟩), ?_, ?_, .inl hexpires⟩
  · intro time hhappened
    exact hdeleted time (happened_of_snoc hhappened (by rw [hevent]; simp))
  · exact Nat.le_trans hexpires (Nat.add_le_add_left hlimits _)

theorem rowSound_touched {trace : List (AuthState × AuthAction)} {s : AuthState}
    {i : Nat} {drawn : Token} {token : Token} {expiresAt : Time} {row : SessionRow}
    (h : Ledger trace s) (hpoint : PointSound trace s.now i (.updating token expiresAt))
    (hevent : event (s, .step i drawn) = some (.touched i token))
    (hrow : s.sessions token = some row) :
    RowSound (trace ++ [(s, .step i drawn)]) token { row with expiresAt := expiresAt } := by
  rcases hpoint with ⟨haccepted, hexpires, userId, createdAt, hcreated, habsolute⟩
  have hbefore := h.rows token row hrow
  have hsame := h.unique _ _ _ _ _ hbefore.created hcreated
  rcases wasAccepted_mono (s, .step i drawn) haccepted with ⟨user, before, hearlier⟩
  refine ⟨happened_mono _ hbefore.created, ?_, ?_, ?_⟩
  · intro time hhappened
    exact hbefore.undeleted time (happened_of_snoc hhappened (by rw [hevent]; simp))
  · show expiresAt ≤ row.createdAt + absoluteSessionTtl
    rw [hsame.2]
    exact habsolute
  · exact .inr ⟨i, user, s.now, before, happened_snoc.mpr (.inr ⟨hevent, rfl⟩),
      hearlier, hexpires⟩

theorem ledger_next {trace : List (AuthState × AuthAction)} {s t : AuthState} {i : Nat}
    {drawn : Token} {p p' : AuthPoint} (h : Ledger trace s)
    (hp : s.requests[i]? = some p) (hnext : s.next drawn p = some (t, p')) :
    Ledger (trace ++ [(s, .step i drawn)])
      { t with requests := s.requests.set i p' } := by
  have hsound := h.points i p hp
  have hevent := event_step drawn hp
  cases p with
  | creating userId =>
      rw [next_creating] at hnext
      split at hnext
      next => cases hnext
      next hfresh =>
        cases hnext
        refine ledger_statement h hp rfl (List.subset_cons_self _ _) ?_ ?_ ?_ ?_
        · intro token hmention
          cases hmention
          exact .inr ⟨hfresh, List.mem_cons_self⟩
        · intro u token expiresAt hins
          cases hins
          exact hfresh
        · intro token row hrow
          refine rowSound_mono (h.rows token row hrow) ?_
          rw [hevent]
          intro hdeleted
          cases hdeleted
        · exact pointSound_drawn h hfresh hevent
  | inserting userId token expiresAt =>
      cases hnext
      refine ledger_writing h hp rfl ?_
      intro row hrow
      cases hrow
      exact rowSound_inserted hsound hevent
  | selecting token =>
      cases hnext
      refine ledger_reading h hp (by simp) (.inl rfl) (by simp) ?_
      cases hrow : s.sessions token with
      | none => exact True.intro
      | some row =>
          exact ⟨trace, (s, .step i drawn), [], rfl, hevent, hrow, h.rows token row hrow⟩
  | selected token row =>
      cases row with
      | none =>
          cases hnext
          exact ledger_reading h hp (by simp) (.inr rfl) (by simp) True.intro
      | some row =>
          rw [next_selected] at hnext
          split at hnext
          next =>
            cases hnext
            exact ledger_reading h hp (by simp) (.inl rfl) (by simp) True.intro
          next hlive =>
            cases hnext
            refine ledger_reading h hp (by simp) (.inl rfl) (by simp) ?_
            rw [pointEvent_selected, if_neg hlive] at hevent
            exact ⟨row.userId, s.now, happened_snoc.mpr (.inr ⟨hevent, rfl⟩)⟩
  | expiring token =>
      cases hnext
      refine ledger_writing h hp rfl ?_
      intro row hrow
      cases hrow
  | touching token =>
      cases hnext
      refine ledger_reading h hp (by simp) (.inl rfl) (by simp) ?_
      cases hrow : s.sessions token with
      | none => exact True.intro
      | some row =>
          exact ⟨wasAccepted_mono _ hsound, row.userId,
            happened_mono _ (h.rows token row hrow).created⟩
  | touchSelected token createdAt =>
      cases createdAt with
      | none =>
          cases hnext
          exact ledger_reading h hp (by simp) (.inr rfl) (by simp) True.intro
      | some createdAt =>
          cases hnext
          rcases hsound with ⟨haccepted, userId, hcreated⟩
          refine ledger_reading h hp (by simp) (.inl rfl) (by simp) ?_
          exact ⟨wasAccepted_mono _ haccepted, Nat.min_le_left _ _, userId, createdAt,
            happened_mono _ hcreated, Nat.min_le_right _ _⟩
  | updating token expiresAt =>
      cases hnext
      refine ledger_writing h hp rfl ?_
      intro row hrow
      rcases Option.map_eq_some_iff.mp hrow with ⟨old, hold, rfl⟩
      exact rowSound_touched h hsound hevent hold
  | deleting token =>
      cases hnext
      refine ledger_writing h hp rfl ?_
      intro row hrow
      cases hrow
  | finished => cases hnext

theorem ledger_quiet {trace : List (AuthState × AuthAction)} {s s' : AuthState}
    {a : AuthAction} (h : Ledger trace s) (hevent : event (s, a) = none)
    (hnow : s.now ≤ s'.now) (hsessions : s'.sessions = s.sessions)
    (hseen : s.seen ⊆ s'.seen)
    (hrequests : forall (i : Nat) p, s'.requests[i]? = some p ->
      s.requests[i]? = some p ∨
        exists r : AuthRequest, p = r.start ∧ r.token.all s.Undrawn = true ∧
          forall token, r.token = some token -> token ∈ s'.seen) :
    Ledger (trace ++ [(s, a)]) s' := by
  have hstart (r : AuthRequest) : r.start.token = r.token := by
    cases r <;> rfl
  have hold {e : Event} {time : Time} (hnew : Happened (trace ++ [(s, a)]) e time) :
      Happened trace e time := by
    rcases happened_snoc.mp hnew with hold | ⟨he, _⟩
    · exact hold
    · rw [hevent] at he
      cases he
  constructor
  · intro token row hrow
    rw [hsessions] at hrow
    exact rowSound_mono (h.rows token row hrow) (by rw [hevent]; simp)
  · intro i p hp
    rcases hrequests i p hp with hbefore | ⟨r, rfl, _, _⟩
    · refine pointSound_mono (h.points i p hbefore) hnow ?_
      intro userId token expiresAt _ e he
      rw [hevent] at he
      cases he
    · cases r <;> exact True.intro
  · intro i p token hp hmention
    rcases hrequests i p hp with hbefore | ⟨r, rfl, _, hpresented⟩
    · exact hseen (h.presented i p token hbefore hmention)
    · rw [hstart] at hmention
      exact hpresented token hmention
  · intro step e hstep he
    rcases List.mem_append.mp hstep with hbefore | hnew
    · exact hseen (h.recorded step e hbefore he)
    · rw [List.mem_singleton.mp hnew, hevent] at he
      cases he
  · intro i j userId token expiresAt p hi hj hmention
    rcases hrequests i _ hi with hbefore | ⟨r, hr, _, _⟩
    · rcases hrequests j p hj with hbefore' | ⟨r, rfl, hundrawn, _⟩
      · exact h.apart i j userId token expiresAt p hbefore hbefore' hmention
      · rw [hstart] at hmention
        rw [hmention, Option.all_some] at hundrawn
        have hother := List.all_eq_true.mp hundrawn _ (List.mem_of_getElem? hbefore)
        exact absurd rfl (of_decide_eq_true hother)
    · cases r <;> cases hr
  · intro userId userId' token time time' hfirst hsecond
    exact h.unique userId userId' token time time' (hold hfirst) (hold hsecond)

theorem act_tick (s : AuthState) (now : Time) :
    act s (.tick now) = if s.now ≤ now then some { s with now := now } else none := rfl

theorem act_request (s : AuthState) (r : AuthRequest) :
    act s (.request r) =
      if r.token.all s.Undrawn then
        some { s with
          seen := r.token.toList ++ s.seen
          requests := s.requests ++ [r.start] }
      else none := rfl

theorem getElem?_snoc {α : Type} {l : List α} {x y : α} {j : Nat}
    (h : (l ++ [x])[j]? = some y) : l[j]? = some y ∨ y = x := by
  rw [List.getElem?_append] at h
  split at h
  · exact .inl h
  · exact .inr (List.mem_singleton.mp (List.mem_of_getElem? h))

theorem ledger_act {trace : List (AuthState × AuthAction)} {s s' : AuthState}
    {a : AuthAction} (h : Ledger trace s) (hact : act s a = some s') :
    Ledger (trace ++ [(s, a)]) s' := by
  cases a with
  | tick now =>
      rw [act_tick] at hact
      split at hact
      next hle =>
        cases hact
        exact ledger_quiet h rfl hle rfl (List.Subset.refl _) fun i p hp => .inl hp
      next => cases hact
  | request r =>
      rw [act_request] at hact
      split at hact
      next hundrawn =>
        cases hact
        refine ledger_quiet h rfl (Nat.le_refl _) rfl (List.subset_append_right _ _) ?_
        intro i p hp
        rcases getElem?_snoc hp with hbefore | hlast
        · exact .inl hbefore
        · exact .inr ⟨r, hlast, hundrawn, fun token htoken => by simp [htoken]⟩
      next => cases hact
  | step i drawn =>
      rcases Option.bind_eq_some_iff.mp hact with ⟨p, hp, hmap⟩
      rcases Option.map_eq_some_iff.mp hmap with ⟨⟨t, p'⟩, hnext, rfl⟩
      exact ledger_next h hp hnext

theorem ledger_of_run {trace : List (AuthState × AuthAction)} {s : AuthState}
    (hrun : Run act init trace s) : Ledger trace s := by
  induction hrun with
  | nil => exact ledger_init
  | snoc _ hact ih => exact ledger_act ih hact

/-!
# Rows that are gone
-/

theorem setRow_none {s : AuthState} {token other : Token} {row : Option SessionRow}
    (hnone : s.sessions token = none) (hrow : other = token -> row = none) :
    (s.setRow other row).sessions token = none := by
  unfold setRow
  dsimp only
  split
  next hsame => exact hrow hsame.symm
  next => exact hnone

theorem sessions_next {s t : AuthState} {drawn token : Token} {p p' : AuthPoint}
    (hnext : s.next drawn p = some (t, p'))
    (hinserting : forall userId expiresAt, p ≠ .inserting userId token expiresAt)
    (hnone : s.sessions token = none) : t.sessions token = none := by
  cases p with
  | creating userId =>
      rw [next_creating] at hnext
      split at hnext
      next => cases hnext
      next =>
        cases hnext
        exact hnone
  | inserting userId other expiresAt =>
      cases hnext
      refine setRow_none hnone ?_
      rintro rfl
      exact absurd rfl (hinserting userId expiresAt)
  | selected other row =>
      cases row with
      | none =>
          cases hnext
          exact hnone
      | some row =>
          rw [next_selected] at hnext
          split at hnext
          all_goals
            cases hnext
            exact hnone
  | touchSelected other createdAt =>
      cases createdAt with
      | none =>
          cases hnext
          exact hnone
      | some createdAt =>
          cases hnext
          exact hnone
  | updating other expiresAt =>
      cases hnext
      refine setRow_none hnone ?_
      rintro rfl
      rw [hnone]
      rfl
  | expiring other =>
      cases hnext
      exact setRow_none hnone fun _ => rfl
  | deleting other =>
      cases hnext
      exact setRow_none hnone fun _ => rfl
  | selecting other =>
      cases hnext
      exact hnone
  | touching other =>
      cases hnext
      exact hnone
  | finished => cases hnext

theorem gone_act {trace : List (AuthState × AuthAction)} {s s' : AuthState}
    {a : AuthAction} {userId : Nat} {token : Token} {createdAt : Time}
    (h : Ledger trace s) (hcreated : Happened trace (.created userId token) createdAt)
    (hnone : s.sessions token = none) (hact : act s a = some s') :
    s'.sessions token = none := by
  cases a with
  | tick now =>
      rw [act_tick] at hact
      split at hact
      next =>
        cases hact
        exact hnone
      next => cases hact
  | request r =>
      rw [act_request] at hact
      split at hact
      next =>
        cases hact
        exact hnone
      next => cases hact
  | step i drawn =>
      rcases Option.bind_eq_some_iff.mp hact with ⟨p, hp, hmap⟩
      rcases Option.map_eq_some_iff.mp hmap with ⟨⟨t, p'⟩, hnext, rfl⟩
      show t.sessions token = none
      refine sessions_next hnext ?_ hnone
      rintro user expiresAt rfl
      exact (h.points i _ hp).1 userId createdAt hcreated

theorem happened_append {before : List (AuthState × AuthAction)} {e : Event}
    {time : Time} (after : List (AuthState × AuthAction)) (h : Happened before e time) :
    Happened (before ++ after) e time := by
  rcases h with ⟨step, hin, hevent, htime⟩
  exact ⟨step, List.mem_append_left _ hin, hevent, htime⟩

theorem gone_of_run {before after : List (AuthState × AuthAction)}
    {middle s : AuthState} {userId : Nat} {token : Token} {createdAt : Time}
    (hbefore : Run act init before middle) (hafter : Run act middle after s)
    (hcreated : Happened before (.created userId token) createdAt)
    (hnone : middle.sessions token = none) :
    EachStep (fun s _ => s.sessions token = none) after ∧ s.sessions token = none := by
  induction hafter with
  | nil =>
      refine ⟨?_, hnone⟩
      intro step hin
      cases hin
  | snoc hprev hact ih =>
      rcases ih with ⟨hstates, hgone⟩
      have hledger := ledger_of_run (hbefore.append hprev)
      exact ⟨eachStep_snoc.mpr ⟨hstates, hgone⟩,
        gone_act hledger (happened_append _ hcreated) hgone hact⟩

/-!
# Accepted calls
-/

/-- The session of a call whose `SELECT` came after these steps may be accepted
at `now`. -/
structure Rightful (earlier : List (AuthState × AuthAction)) (userId : Nat)
    (token : Token) (now : Time) : Prop where
  issued : exists createdAt, Happened earlier (.created userId token) createdAt ∧
    now ≤ createdAt + absoluteSessionTtl ∧
      (now ≤ createdAt + sessionTtl ∨
        exists i user time before, Happened earlier (.touched i token) time ∧
          Happened earlier (.accepted i user token) before ∧ now ≤ time + sessionTtl)
  undeleted : forall time, ¬ Happened earlier (.deleted token) time

theorem rightful_of_sound {earlier : List (AuthState × AuthAction)} {token : Token}
    {row : SessionRow} {now : Time} (h : RowSound earlier token row)
    (hlive : ¬ expired row now = true) : Rightful earlier row.userId token now where
  issued := by
    unfold expired at hlive
    rw [decide_eq_true_eq] at hlive
    have hexpires : now ≤ row.expiresAt := Nat.le_of_not_lt fun hlt => hlive (.inl hlt)
    have habsolute : now ≤ row.createdAt + absoluteSessionTtl :=
      Nat.le_of_not_lt fun hlt => hlive (.inr hlt)
    refine ⟨row.createdAt, h.created, habsolute, ?_⟩
    rcases h.recent with hcreated | ⟨i, user, time, before, htouched, haccepted, hle⟩
    · exact .inl (Nat.le_trans hexpires hcreated)
    · exact .inr ⟨i, user, time, before, htouched, haccepted,
        Nat.le_trans hexpires hle⟩
  undeleted := h.undeleted

/-- A request accepts what it has read, while that is not expired. -/
theorem selected_of_accepted {s : AuthState} {a : AuthAction} {i userId : Nat}
    {token : Token} (h : event (s, a) = some (.accepted i userId token)) :
    exists row, s.requests[i]? = some (.selected token (some row)) ∧
      ¬ expired row s.now = true ∧ row.userId = userId := by
  cases a with
  | tick now => cases h
  | request r => cases h
  | step j drawn =>
      rcases Option.bind_eq_some_iff.mp h with ⟨p, hp, hpoint⟩
      cases p with
      | selected t row =>
          cases row with
          | none => cases hpoint
          | some row =>
              rw [pointEvent_selected] at hpoint
              split at hpoint
              next => cases hpoint
              next hlive =>
                cases hpoint
                exact ⟨row, hp, hlive, rfl⟩
      | _ => cases hpoint

/-- In every run an accepted call had read its row while the session was rightful
and not logged out, no row expires beyond the absolute limit, and a session whose
row is gone is not seen again. -/
theorem session_validity {trace : List (AuthState × AuthAction)} {s : AuthState}
    (hrun : Run act init trace s) :
    (forall before step after i userId token, trace = before ++ step :: after ->
      event step = some (.accepted i userId token) ->
        exists earlier select later, before = earlier ++ select :: later ∧
          event select = some (.selected i token) ∧
            Rightful earlier userId token step.1.now) ∧
      (forall token row, s.sessions token = some row ->
        row.expiresAt ≤ row.createdAt + absoluteSessionTtl) ∧
        forall before after middle userId token createdAt, trace = before ++ after ->
          Run act init before middle -> Run act middle after s ->
            Happened before (.created userId token) createdAt ->
              middle.sessions token = none ->
                EachStep (fun s _ => s.sessions token = none) after ∧
                  s.sessions token = none := by
  refine ⟨?_, ?_, ?_⟩
  · rintro before ⟨middle, a⟩ after i userId token rfl haccepted
    rcases hrun.split with ⟨state, hbefore, hafter⟩
    rcases hafter.uncons with ⟨rfl, _⟩
    rcases selected_of_accepted haccepted with ⟨row, hselected, hlive, rfl⟩
    have hread : HasRead before i token row :=
      (ledger_of_run hbefore).points i _ hselected
    rcases hread with ⟨earlier, select, later, rfl, hselect, _, hsound⟩
    exact ⟨earlier, select, later, rfl, hselect, rightful_of_sound hsound hlive⟩
  · intro token row hrow
    exact ((ledger_of_run hrun).rows token row hrow).absolute
  · intro before after middle userId token createdAt _ hbefore hafter hcreated hnone
    exact gone_of_run hbefore hafter hcreated hnone

/-- A login, an accepted call that touches the session, and a logout. -/
theorem session_validity_loggedOut :
    exists trace s, Run act init trace s ∧ s.sessions "t" = none ∧
      (exists earlier, Rightful earlier 7 "t" 5) := by
  have hfollow : (follow act init
      [.tick 3, .request (.login 7), .step 0 "t", .step 0 "", .tick 5,
        .request (.authenticate "t"), .step 1 "", .step 1 "", .step 1 "", .step 1 "",
        .step 1 "", .request (.logout "t"), .step 2 ""]).any
      (fun out => out.2.sessions "t" = none ∧
        out.1.any fun step => event step = some (.accepted 1 7 "t") ∧ step.1.now = 5) :=
    by decide +kernel
  rcases exists_run_of_follow (fun trace (s : AuthState) => s.sessions "t" = none ∧
    trace.any fun step => event step = some (.accepted 1 7 "t") ∧ step.1.now = 5) hfollow
    with ⟨trace, s, hrun, hgood⟩
  rcases of_decide_eq_true hgood with ⟨hnone, hany⟩
  rcases List.any_eq_true.mp hany with ⟨step, hin, haccepted⟩
  rcases of_decide_eq_true haccepted with ⟨hevent, hnow⟩
  rcases List.append_of_mem hin with ⟨before, after, htrace⟩
  rcases (session_validity hrun).1 before step after 1 7 "t" htrace hevent
    with ⟨earlier, _, _, _, _, hrightful⟩
  rw [hnow] at hrightful
  exact ⟨trace, s, hrun, hnone, earlier, hrightful⟩

end AuthState
end ChatDoc
