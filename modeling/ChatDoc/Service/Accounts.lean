import ChatDoc.Service.AuthRoutes
import ChatDoc.Service.Validity

/-!
# Accounts

`register` and `login` of `api/routes_auth.py` in front of the sessions, statement by
statement and for any number of concurrent requests.  A request is admitted when
`create_user` has inserted its account or `verify_password` has accepted its password,
and goes on to `create_session`.
-/

namespace ChatDoc

open Foundation

inductive SignIn where
  | register (body : RegisterRequest)
  | login (body : LoginRequest)

/-- Where a `register` or a `login` stands: before its statement on `users`, before
`verify_password`, or before `create_session`. -/
inductive AccountPoint where
  | creating (body : RegisterRequest)
  | selecting (body : LoginRequest)
  | selected (body : LoginRequest) (user : Option (Nat × UserRow))
  | admitted (userId : Nat)
  | ended

def SignIn.start : SignIn -> AccountPoint
  | .register body => .creating body
  | .login body => .selecting body

structure AccountState where
  auth : AuthState
  users : SerialTable UserRow
  requests : List AccountPoint

inductive AccountAction where
  | session (a : AuthAction)
  | request (r : SignIn)
  | step (i : Nat) (salt : String)

namespace AccountState

def init : AccountState where
  auth := .init
  users := .empty
  requests := []

variable (lib : AuthLibrary)

/-- The row that `create_user` inserts. -/
def newUser (body : RegisterRequest) (salt : String) : UserRow :=
  ⟨lib.lower body.email, lib.hashPassword body.password salt⟩

def findUser (s : AccountState) (email : String) : Option (Nat × UserRow) :=
  s.users.find? fun row => row.email = lib.lower email

/-- The next statement of a request.  The account of a taken e-mail is not created, and
a wrong password is refused. -/
def next (s : AccountState) (salt : String) :
    AccountPoint -> Option (AccountState × AccountPoint)
  | .creating body =>
      if (s.findUser lib body.email).isSome then some (s, .ended)
      else some ({ s with users := s.users.insert (newUser lib body salt) },
        .admitted s.users.next)
  | .selecting body => some (s, .selected body (s.findUser lib body.email))
  | .selected _ none => some (s, .ended)
  | .selected body (some (userId, row)) =>
      if lib.verifyPassword row.passwordHash body.password then
        some (s, .admitted userId)
      else some (s, .ended)
  | .admitted userId =>
      (s.auth.act (.request (.login userId))).map fun auth =>
        ({ s with auth := auth }, .ended)
  | .ended => none

def isLogin : AuthAction -> Bool
  | .request (.login _) => true
  | _ => false

def act (s : AccountState) : AccountAction -> Option AccountState
  | .session a =>
      if isLogin a then none
      else (s.auth.act a).map fun auth => { s with auth := auth }
  | .request r => some { s with requests := s.requests ++ [r.start] }
  | .step i salt =>
      (s.requests[i]?).bind fun point =>
        (s.next lib salt point).map fun out =>
          { out.1 with requests := s.requests.set i out.2 }

/-!
# What a step admits
-/

def admission (s : AccountState) : AccountPoint -> Option Nat
  | .creating body =>
      if (s.findUser lib body.email).isSome then none else some s.users.next
  | .selected body (some (userId, row)) =>
      if lib.verifyPassword row.passwordHash body.password then some userId else none
  | _ => none

def admits (step : AccountState × AccountAction) : Option Nat :=
  match step.2 with
  | .step i _ => (step.1.requests[i]?).bind (step.1.admission lib)
  | _ => none

def createdFor : Option AuthState.Event -> Option Nat
  | some (.created userId _) => some userId
  | _ => none

def opens (step : AccountState × AccountAction) : Option Nat :=
  match step.2 with
  | .session a => createdFor (AuthState.event (step.1.auth, a))
  | _ => none

def admissions (userId : Nat) (trace : List (AccountState × AccountAction)) : Nat :=
  trace.countP fun step => admits lib step = some userId

def openings (userId : Nat) (trace : List (AccountState × AccountAction)) : Nat :=
  trace.countP fun step => opens step = some userId

def Registers (step : AccountState × AccountAction) (userId : Nat)
    (body : RegisterRequest) (salt : String) : Prop :=
  exists i, step.2 = .step i salt ∧ step.1.requests[i]? = some (.creating body) ∧
    step.1.findUser lib body.email = none ∧ userId = step.1.users.next

def LogsIn (step : AccountState × AccountAction) (userId : Nat) (body : LoginRequest) :
    Prop :=
  exists i salt row, step.2 = .step i salt ∧
    step.1.requests[i]? = some (.selected body (some (userId, row))) ∧
      lib.verifyPassword row.passwordHash body.password = true

def Registered (trace : List (AccountState × AccountAction)) (userId : Nat)
    (row : UserRow) : Prop :=
  exists step body salt, step ∈ trace ∧ Registers lib step userId body salt ∧
    row = newUser lib body salt

/-!
# Every session was admitted
-/

def isAdmitted (userId : Nat) : AccountPoint -> Bool
  | .admitted userId' => userId' = userId
  | _ => false

def isOpening (userId : Nat) : AuthPoint -> Bool
  | .creating userId' => userId' = userId
  | .inserting userId' _ _ => userId' = userId
  | _ => false

def pending (s : AccountState) (userId : Nat) : Nat :=
  s.requests.countP (isAdmitted userId) + s.auth.requests.countP (isOpening userId)

section Counting

variable {lib} {s s' : AccountState} {a : AccountAction} {userId : Nat}

theorem countP_set_add {alpha : Type} {p : alpha -> Bool} {l : List alpha} {i : Nat}
    {x y : alpha} (h : l[i]? = some x) :
    (l.set i y).countP p + (p x).toNat = l.countP p + (p y).toNat := by
  rcases List.getElem?_eq_some_iff.mp h with ⟨hi, hx⟩
  rw [List.countP_set hi, hx]
  cases hpx : p x with
  | false => cases p y <;> simp
  | true =>
      have hpos : 0 < l.countP p :=
        List.countP_pos_iff.mpr ⟨x, List.mem_of_getElem? h, hpx⟩
      cases p y <;> simp <;> omega

def openedBy : AuthPoint -> Option Nat
  | .inserting userId _ _ => some userId
  | _ => none

theorem opening_next (userId : Nat) {t : AuthState} {out : AuthState × AuthPoint}
    {drawn : Token} {p : AuthPoint} (h : t.next drawn p = some out) :
    (isOpening userId out.2).toNat + (decide (openedBy p = some userId)).toNat =
      (isOpening userId p).toNat := by
  cases p with
  | creating userId' =>
      rcases Option.ite_none_left_eq_some.mp h with ⟨_, hsome⟩
      cases hsome
      simp [isOpening, openedBy]
  | inserting userId' token expiresAt =>
      cases h
      simp [isOpening, openedBy]
  | selected token row =>
      cases row with
      | none =>
          cases h
          rfl
      | some row =>
          replace h : (if AuthState.expired row t.now then
              some (t, AuthPoint.expiring token)
            else some (t, AuthPoint.touching token)) = some out := h
          split at h <;> cases h <;> rfl
  | touchSelected token createdAt =>
      cases createdAt with
      | none =>
          cases h
          rfl
      | some createdAt =>
          cases h
          rfl
  | finished => cases h
  | _ =>
      cases h
      rfl

theorem opens_step {i : Nat} (drawn : Token) {p : AuthPoint}
    (hp : s.auth.requests[i]? = some p) :
    opens (s, .session (.step i drawn)) = openedBy p := by
  show createdFor (AuthState.event (s.auth, .step i drawn)) = _
  rw [AuthState.event_step drawn hp]
  cases p with
  | selected token row =>
      cases row with
      | none => rfl
      | some row =>
          rw [AuthState.pointEvent_selected]
          split <;> rfl
  | _ => rfl

theorem pending_session (userId : Nat) {b : AuthAction} {t : AuthState}
    (hlogin : isLogin b = false) (hact : s.auth.act b = some t) :
    (decide (opens (s, .session b) = some userId)).toNat +
        t.requests.countP (isOpening userId) =
      s.auth.requests.countP (isOpening userId) := by
  cases b with
  | tick now =>
      rcases Option.ite_none_right_eq_some.mp hact with ⟨_, hsome⟩
      cases hsome
      simp [opens, createdFor, AuthState.event]
  | request r =>
      rcases Option.ite_none_right_eq_some.mp hact with ⟨_, hsome⟩
      cases hsome
      cases r with
      | login userId' => cases hlogin
      | authenticate token =>
          simp [opens, createdFor, AuthState.event, AuthRequest.start, isOpening]
      | logout token =>
          simp [opens, createdFor, AuthState.event, AuthRequest.start, isOpening]
  | step i drawn =>
      rcases Option.bind_eq_some_iff.mp hact with ⟨p, hp, hnext⟩
      rcases Option.map_eq_some_iff.mp hnext with ⟨out, hout, ht⟩
      cases ht
      have hone := opening_next userId hout
      have hall := countP_set_add (p := isOpening userId) (y := out.2) hp
      rw [opens_step drawn hp]
      show _ + (s.auth.requests.set i out.2).countP (isOpening userId) = _
      omega

theorem next_creating {salt : String} {body : RegisterRequest}
    {out : AccountState × AccountPoint} (h : s.next lib salt (.creating body) = some out) :
    ((s.findUser lib body.email).isSome = true ∧ out = (s, .ended)) ∨
      (s.findUser lib body.email = none ∧
        out = ({ s with users := s.users.insert (newUser lib body salt) },
          .admitted s.users.next)) := by
  replace h : (if (s.findUser lib body.email).isSome then some (s, AccountPoint.ended)
    else some ({ s with users := s.users.insert (newUser lib body salt) },
      AccountPoint.admitted s.users.next)) = some out := h
  split at h
  · next htaken => exact .inl ⟨htaken, (Option.some.inj h).symm⟩
  · next hfree =>
      rw [Option.not_isSome_iff_eq_none] at hfree
      exact .inr ⟨hfree, (Option.some.inj h).symm⟩

theorem next_selected {salt : String} {body : LoginRequest} {user : Nat × UserRow}
    {out : AccountState × AccountPoint}
    (h : s.next lib salt (.selected body (some user)) = some out) :
    (lib.verifyPassword user.2.passwordHash body.password = true ∧
        out = (s, .admitted user.1)) ∨
      (lib.verifyPassword user.2.passwordHash body.password = false ∧
        out = (s, .ended)) := by
  replace h : (if lib.verifyPassword user.2.passwordHash body.password then
      some (s, AccountPoint.admitted user.1)
    else some (s, AccountPoint.ended)) = some out := h
  split at h
  · next hverified => exact .inl ⟨hverified, (Option.some.inj h).symm⟩
  · next hrefused =>
      exact .inr ⟨Bool.eq_false_of_not_eq_true hrefused, (Option.some.inj h).symm⟩

theorem next_admitted {salt : String} {out : AccountState × AccountPoint}
    (h : s.next lib salt (.admitted userId) = some out) :
    out = ({ s with auth := { s.auth with
      requests := s.auth.requests ++ [.creating userId] } }, .ended) := by
  replace h : (s.auth.act (.request (.login userId))).map
    (fun auth => ({ s with auth := auth }, AccountPoint.ended)) = some out := h
  have hact : s.auth.act (.request (.login userId)) =
      some { s.auth with requests := s.auth.requests ++ [.creating userId] } := rfl
  rw [hact] at h
  exact (Option.some.inj h).symm

theorem admission_next (userId : Nat) {salt : String} {p : AccountPoint}
    {out : AccountState × AccountPoint} (h : s.next lib salt p = some out) :
    (isAdmitted userId out.2).toNat + out.1.auth.requests.countP (isOpening userId) =
      (isAdmitted userId p).toNat + s.auth.requests.countP (isOpening userId) +
        (decide (s.admission lib p = some userId)).toNat := by
  cases p with
  | creating body =>
      rcases next_creating h with ⟨htaken, hout⟩ | ⟨hfree, hout⟩
      · cases hout
        simp [admission, htaken, isAdmitted]
      · cases hout
        simp [admission, hfree, isAdmitted]
        omega
  | selecting body =>
      cases h
      simp [isAdmitted, admission]
  | selected body user =>
      cases user with
      | none =>
          cases h
          simp [isAdmitted, admission]
      | some user =>
          rcases next_selected h with ⟨hverified, hout⟩ | ⟨hrefused, hout⟩
          · cases hout
            simp [admission, hverified, isAdmitted]
            omega
          · cases hout
            simp [admission, hrefused, isAdmitted]
  | admitted userId' =>
      cases next_admitted h
      by_cases huser : userId' = userId
      · simp [huser, isAdmitted, isOpening, admission, Nat.add_comm]
      · simp [huser, isAdmitted, isOpening, admission]
  | ended => cases h

/-- A step keeps account of every request that was admitted. -/
theorem openings_step (userId : Nat) (hact : s.act lib a = some s') :
    (decide (opens (s, a) = some userId)).toNat + s'.pending userId =
      s.pending userId + (decide (admits lib (s, a) = some userId)).toNat := by
  cases a with
  | session b =>
      rcases Option.ite_none_left_eq_some.mp hact with ⟨hlogin, hsome⟩
      rcases Option.map_eq_some_iff.mp hsome with ⟨t, ht, hs'⟩
      cases hs'
      have hsession := pending_session userId
        (Bool.eq_false_of_not_eq_true hlogin) ht
      have hnone : admits lib (s, .session b) = none := rfl
      rw [hnone]
      unfold pending
      simp
      omega
  | request r =>
      cases hact
      have hnone : admits lib (s, .request r) = none := rfl
      have hnone' : opens (s, .request r) = none := rfl
      rw [hnone, hnone']
      cases r <;> simp [pending, SignIn.start, isAdmitted]
  | step i salt =>
      rcases Option.bind_eq_some_iff.mp hact with ⟨p, hp, hnext⟩
      rcases Option.map_eq_some_iff.mp hnext with ⟨out, hout, hs'⟩
      cases hs'
      have hadmits : admits lib (s, .step i salt) = s.admission lib p := by
        show (s.requests[i]?).bind (s.admission lib) = _
        rw [hp, Option.bind_some]
      have hnone : opens (s, .step i salt) = none := rfl
      have hone := admission_next userId hout
      have hall := countP_set_add (p := isAdmitted userId) (y := out.2) hp
      rw [hadmits, hnone]
      unfold pending
      show _ + ((s.requests.set i out.2).countP (isAdmitted userId) +
        out.1.auth.requests.countP (isOpening userId)) = _
      simp
      omega

end Counting
/-!
# Every account was registered
-/

section Soundness

variable {lib} {s s' : AccountState} {a : AccountAction} {userId : Nat}
  {trace : List (AccountState × AccountAction)}

theorem registered_mono (step : AccountState × AccountAction) {row : UserRow}
    (h : Registered lib trace userId row) : Registered lib (trace ++ [step]) userId row := by
  rcases h with ⟨step', body, salt, hstep, hregisters, hrow⟩
  exact ⟨step', body, salt, List.mem_append_left _ hstep, hregisters, hrow⟩

theorem openings_mono (step : AccountState × AccountAction) :
    openings userId trace ≤ openings userId (trace ++ [step]) := by
  unfold openings
  rw [List.countP_append]
  exact Nat.le_add_right _ _

structure Sound (lib : AuthLibrary) (trace : List (AccountState × AccountAction))
    (s : AccountState) : Prop where
  rows : forall {id row}, s.users.lookup id = some row -> Registered lib trace id row
  emails : forall {id id' row row'}, s.users.lookup id = some row ->
    s.users.lookup id' = some row' -> row.email = row'.email -> id = id'
  selected : forall {i : Nat} {body user},
    s.requests[i]? = some (.selected body (some user)) ->
      s.users.lookup user.1 = some user.2 ∧ user.2.email = lib.lower body.email
  opened : forall {token row}, s.auth.sessions token = some row ->
    0 < openings row.userId trace
  read : forall {i : Nat} {token row}, s.auth.requests[i]? = some (.selected token (some row)) ->
    0 < openings row.userId trace
  counted : forall userId, openings userId trace + s.pending userId =
    admissions lib userId trace

theorem counted_step (hact : s.act lib a = some s')
    (h : openings userId trace + s.pending userId = admissions lib userId trace) :
    openings userId (trace ++ [(s, a)]) + s'.pending userId =
      admissions lib userId (trace ++ [(s, a)]) := by
  have hstep := openings_step userId hact
  unfold openings admissions at h ⊢
  rw [List.countP_append, List.countP_append, List.countP_singleton,
    List.countP_singleton]
  cases hopens : decide (opens (s, a) = some userId) <;>
    cases hadmits : decide (admits lib (s, a) = some userId) <;>
    simp [hopens, hadmits] at hstep ⊢ <;> omega

theorem sessions_of_next {t : AuthState} {out : AuthState × AuthPoint} {drawn token : Token}
    {p : AuthPoint} {row : SessionRow} (h : t.next drawn p = some out)
    (hrow : out.1.sessions token = some row) :
    (exists old, t.sessions token = some old ∧ old.userId = row.userId) ∨
      openedBy p = some row.userId := by
  have hset {token' : Token} {r : Option SessionRow}
      (hrow : (t.setRow token' r).sessions token = some row) :
      (token = token' ∧ r = some row) ∨ t.sessions token = some row := by
    replace hrow : (if token = token' then r else t.sessions token) = some row := hrow
    split at hrow
    · next heq => exact .inl ⟨heq, hrow⟩
    · exact .inr hrow
  cases p with
  | creating userId' =>
      rcases Option.ite_none_left_eq_some.mp h with ⟨_, hsome⟩
      cases hsome
      exact .inl ⟨row, hrow, rfl⟩
  | inserting userId' token' expiresAt =>
      cases h
      rcases hset hrow with ⟨_, hnew⟩ | hold
      · cases hnew
        exact .inr rfl
      · exact .inl ⟨row, hold, rfl⟩
  | selected token' selected =>
      cases selected with
      | none =>
          cases h
          exact .inl ⟨row, hrow, rfl⟩
      | some old =>
          replace h : (if AuthState.expired old t.now then
              some (t, AuthPoint.expiring token')
            else some (t, AuthPoint.touching token')) = some out := h
          split at h <;> cases h <;> exact .inl ⟨row, hrow, rfl⟩
  | expiring token' =>
      cases h
      rcases hset hrow with ⟨_, hnew⟩ | hold
      · cases hnew
      · exact .inl ⟨row, hold, rfl⟩
  | touchSelected token' createdAt =>
      cases createdAt with
      | none =>
          cases h
          exact .inl ⟨row, hrow, rfl⟩
      | some createdAt =>
          cases h
          exact .inl ⟨row, hrow, rfl⟩
  | updating token' expiresAt =>
      cases h
      rcases hset hrow with ⟨heq, hnew⟩ | hold
      · subst heq
        rcases Option.map_eq_some_iff.mp hnew with ⟨old, hold, hsame⟩
        cases hsame
        exact .inl ⟨old, hold, rfl⟩
      · exact .inl ⟨row, hold, rfl⟩
  | deleting token' =>
      cases h
      rcases hset hrow with ⟨_, hnew⟩ | hold
      · cases hnew
      · exact .inl ⟨row, hold, rfl⟩
  | finished => cases h
  | _ =>
      cases h
      exact .inl ⟨row, hrow, rfl⟩

theorem selected_of_next {t : AuthState} {out : AuthState × AuthPoint} {drawn token : Token}
    {p : AuthPoint} {row : SessionRow} (h : t.next drawn p = some out)
    (hout : out.2 = .selected token (some row)) : t.sessions token = some row := by
  cases p with
  | selecting token' =>
      cases h
      rcases AuthPoint.selected.inj hout with ⟨htoken, hrow⟩
      rw [← htoken]
      exact hrow
  | selected token' selected =>
      cases selected with
      | none =>
          cases h
          cases hout
      | some old =>
          replace h : (if AuthState.expired old t.now then
              some (t, AuthPoint.expiring token')
            else some (t, AuthPoint.touching token')) = some out := h
          split at h <;> cases h <;> cases hout
  | creating userId' =>
      rcases Option.ite_none_left_eq_some.mp h with ⟨_, hsome⟩
      cases hsome
      cases hout
  | touchSelected token' createdAt =>
      cases createdAt with
      | none =>
          cases h
          cases hout
      | some createdAt =>
          cases h
          cases hout
  | finished => cases h
  | _ =>
      cases h
      cases hout

theorem getElem?_set_cases {alpha : Type} {l : List alpha} {i j : Nat} {x y : alpha}
    (h : (l.set i y)[j]? = some x) : x = y ∨ l[j]? = some x := by
  by_cases hij : i = j
  · rw [hij, List.getElem?_set_self'] at h
    cases hl : l[j]? with
    | none =>
        rw [hl] at h
        cases h
    | some old =>
        rw [hl] at h
        exact .inl (Option.some.inj h).symm
  · rw [List.getElem?_set_ne hij] at h
    exact .inr h

theorem openings_pos_mono (step : AccountState × AccountAction)
    (h : 0 < openings userId trace) : 0 < openings userId (trace ++ [step]) :=
  Nat.lt_of_lt_of_le h (openings_mono step)

theorem openings_pos_of_opens {step : AccountState × AccountAction}
    (h : opens step = some userId) : 0 < openings userId (trace ++ [step]) :=
  List.countP_pos_iff.mpr ⟨step, by simp, decide_eq_true h⟩

theorem sound_session {b : AuthAction} (h : Sound lib trace s)
    (hact : s.act lib (.session b) = some s') : Sound lib (trace ++ [(s, .session b)]) s' := by
  have hcounted (userId : Nat) := counted_step hact (h.counted userId)
  rcases Option.ite_none_left_eq_some.mp hact with ⟨_, hsome⟩
  rcases Option.map_eq_some_iff.mp hsome with ⟨t, ht, hs'⟩
  cases hs'
  refine ⟨fun hrow => registered_mono _ (h.rows hrow), h.emails, h.selected, ?_, ?_, hcounted⟩
  · intro token row hrow
    cases b with
    | tick now =>
        cases (Option.ite_none_right_eq_some.mp ht).right
        exact openings_pos_mono _ (h.opened hrow)
    | request r =>
        cases (Option.ite_none_right_eq_some.mp ht).right
        exact openings_pos_mono _ (h.opened hrow)
    | step i drawn =>
        rcases Option.bind_eq_some_iff.mp ht with ⟨p, hp, hnext⟩
        rcases Option.map_eq_some_iff.mp hnext with ⟨out, hout, hstate⟩
        cases hstate
        rcases sessions_of_next hout hrow with ⟨old, hold, huser⟩ | hopened
        · rw [← huser]
          exact openings_pos_mono _ (h.opened hold)
        · rw [← opens_step drawn hp] at hopened
          exact openings_pos_of_opens hopened
  · intro j token row hread
    cases b with
    | tick now =>
        cases (Option.ite_none_right_eq_some.mp ht).right
        exact openings_pos_mono _ (h.read hread)
    | request r =>
        cases (Option.ite_none_right_eq_some.mp ht).right
        rcases AuthState.getElem?_snoc hread with hold | hnew
        · exact openings_pos_mono _ (h.read hold)
        · cases r <;> cases hnew
    | step i drawn =>
        rcases Option.bind_eq_some_iff.mp ht with ⟨p, hp, hnext⟩
        rcases Option.map_eq_some_iff.mp hnext with ⟨out, hout, hstate⟩
        cases hstate
        rcases getElem?_set_cases hread with hnew | hold
        · exact openings_pos_mono _ (h.opened (selected_of_next hout hnew.symm))
        · exact openings_pos_mono _ (h.read hold)

theorem sound_request {r : SignIn} (h : Sound lib trace s) :
    Sound lib (trace ++ [(s, .request r)]) { s with requests := s.requests ++ [r.start] } := by
  refine ⟨fun hrow => registered_mono _ (h.rows hrow), h.emails, ?_,
    fun hrow => openings_pos_mono _ (h.opened hrow),
    fun hread => openings_pos_mono _ (h.read hread),
    fun userId => counted_step rfl (h.counted userId)⟩
  intro i body user hselected
  rcases AuthState.getElem?_snoc hselected with hold | hnew
  · exact h.selected hold
  · cases r <;> cases hnew

theorem findUser_eq_none {email : String} {id : Nat} {row : UserRow}
    (h : s.findUser lib email = none) (hrow : s.users.lookup id = some row) :
    row.email ≠ lib.lower email := by
  intro hsame
  have hfalse := SerialTable.find?_eq_none_iff.mp h id row hrow
  rw [decide_eq_false_iff_not] at hfalse
  exact hfalse hsame

theorem sound_insert {i : Nat} {salt : String} {body : RegisterRequest}
    (h : Sound lib trace s) (hp : s.requests[i]? = some (.creating body))
    (hfree : s.findUser lib body.email = none)
    (hact : s.act lib (.step i salt) = some { s with
      users := s.users.insert (newUser lib body salt)
      requests := s.requests.set i (.admitted s.users.next) }) :
    Sound lib (trace ++ [(s, .step i salt)]) { s with
      users := s.users.insert (newUser lib body salt)
      requests := s.requests.set i (.admitted s.users.next) } := by
  have hlookup {id : Nat} {row : UserRow}
      (hrow : (s.users.insert (newUser lib body salt)).lookup id = some row) :
      (id = s.users.next ∧ row = newUser lib body salt) ∨
        s.users.lookup id = some row := by
    rw [SerialTable.lookup_insert] at hrow
    split at hrow
    · next hid => exact .inl ⟨hid, (Option.some.inj hrow).symm⟩
    · exact .inr hrow
  refine ⟨?_, ?_, ?_, fun hrow => openings_pos_mono _ (h.opened hrow),
    fun hread => openings_pos_mono _ (h.read hread),
    fun userId => counted_step hact (h.counted userId)⟩
  · intro id row hrow
    rcases hlookup hrow with ⟨hid, hnew⟩ | hold
    · exact ⟨(s, .step i salt), body, salt, by simp, ⟨i, rfl, hp, hfree, hid⟩, hnew⟩
    · exact registered_mono _ (h.rows hold)
  · intro id id' row row' hrow hrow' hemail
    rcases hlookup hrow with ⟨hid, hnew⟩ | hold
    · rcases hlookup hrow' with ⟨hid', _⟩ | hold'
      · rw [hid, hid']
      · rw [hnew] at hemail
        exact absurd hemail.symm (findUser_eq_none hfree hold')
    · rcases hlookup hrow' with ⟨_, hnew'⟩ | hold'
      · rw [hnew'] at hemail
        exact absurd hemail (findUser_eq_none hfree hold)
      · exact h.emails hold hold' hemail
  · intro j body' user hselected
    rcases getElem?_set_cases hselected with hnew | hold
    · cases hnew
    · rcases h.selected hold with ⟨hrow, hemail⟩
      exact ⟨SerialTable.lookup_insert_of_some hrow, hemail⟩

theorem sound_statement {i : Nat} {salt : String} {p' : AccountPoint} {t : AuthState}
    (h : Sound lib trace s)
    (hsessions : t.sessions = s.auth.sessions)
    (hread : forall {j : Nat} {token row}, t.requests[j]? = some (.selected token (some row)) ->
      s.auth.requests[j]? = some (.selected token (some row)))
    (hselected : forall body user, p' = .selected body (some user) ->
      s.users.lookup user.1 = some user.2 ∧ user.2.email = lib.lower body.email)
    (hact : s.act lib (.step i salt) = some { s with
      auth := t
      requests := s.requests.set i p' }) :
    Sound lib (trace ++ [(s, .step i salt)])
      { s with auth := t, requests := s.requests.set i p' } := by
  refine ⟨fun hrow => registered_mono _ (h.rows hrow), h.emails, ?_, ?_,
    fun hsame => openings_pos_mono _ (h.read (hread hsame)),
    fun userId => counted_step hact (h.counted userId)⟩
  · intro j body user hpoint
    rcases getElem?_set_cases hpoint with hnew | hold
    · exact hselected body user hnew.symm
    · exact h.selected hold
  · intro token row hrow
    replace hrow : t.sessions token = some row := hrow
    rw [hsessions] at hrow
    exact openings_pos_mono _ (h.opened hrow)

theorem sound_step {i : Nat} {salt : String} (h : Sound lib trace s)
    (hact : s.act lib (.step i salt) = some s') :
    Sound lib (trace ++ [(s, .step i salt)]) s' := by
  have hwhole := hact
  rcases Option.bind_eq_some_iff.mp hact with ⟨p, hp, hnext⟩
  rcases Option.map_eq_some_iff.mp hnext with ⟨out, hout, hs'⟩
  cases p with
  | creating body =>
      rcases next_creating hout with ⟨_, hended⟩ | ⟨hfree, hinserted⟩
      · subst hended
        subst hs'
        exact sound_statement h rfl id (fun _ _ hp' => nomatch hp') hwhole
      · subst hinserted
        subst hs'
        exact sound_insert h hp hfree hwhole
  | selecting body =>
      cases hout
      subst hs'
      refine sound_statement h rfl id ?_ hwhole
      intro body' user hp'
      rcases AccountPoint.selected.inj hp' with ⟨hbody, hfound⟩
      rcases SerialTable.lookup_of_find? hfound with ⟨hrow, hemail⟩
      rw [← hbody]
      exact ⟨hrow, of_decide_eq_true hemail⟩
  | selected body user =>
      cases user with
      | none =>
          cases hout
          subst hs'
          exact sound_statement h rfl id (fun _ _ hp' => nomatch hp') hwhole
      | some user =>
          rcases next_selected hout with ⟨_, hadmitted⟩ | ⟨_, hended⟩
          · subst hadmitted
            subst hs'
            exact sound_statement h rfl id (fun _ _ hp' => nomatch hp') hwhole
          · subst hended
            subst hs'
            exact sound_statement h rfl id (fun _ _ hp' => nomatch hp') hwhole
  | admitted userId' =>
      have hauth := next_admitted hout
      subst hauth
      subst hs'
      refine sound_statement h rfl ?_ (fun _ _ hp' => nomatch hp') hwhole
      intro j token row hread
      rcases AuthState.getElem?_snoc hread with hold | hnew
      · exact hold
      · cases hnew
  | ended => cases hout

theorem accepted_of_event {t : AuthState} {b : AuthAction} {i : Nat} {token : Token}
    (h : AuthState.event (t, b) = some (.accepted i userId token)) :
    exists row, t.requests[i]? = some (.selected token (some row)) ∧
      row.userId = userId := by
  cases b with
  | tick now => cases h
  | request r => cases h
  | step j drawn =>
      rcases Option.bind_eq_some_iff.mp h with ⟨p, hp, hpoint⟩
      cases p with
      | selected token' row =>
          cases row with
          | none => cases hpoint
          | some row =>
              rw [AuthState.pointEvent_selected] at hpoint
              split at hpoint
              · cases hpoint
              · cases hpoint
                exact ⟨row, hp, rfl⟩
      | _ => cases hpoint

theorem sound_init : Sound lib [] init := by
  constructor
  · intro id row hrow
    cases hrow
  · intro id id' row row' hrow
    cases hrow
  · intro i body user hpoint
    cases hpoint
  · intro token row hrow
    cases hrow
  · intro i token row hread
    cases hread
  · intro userId
    rfl

theorem sound_of_run (hrun : Run (act lib) init trace s) : Sound lib trace s := by
  induction hrun with
  | nil => exact sound_init
  | @snoc trace s s' a _ hact ih =>
      cases a with
      | session b => exact sound_session ih hact
      | request r =>
          cases hact
          exact sound_request ih
      | step i salt => exact sound_step ih hact

theorem registers_or_logsIn (h : admits lib (s, a) = some userId) :
    (exists body salt, Registers lib (s, a) userId body salt) ∨
      exists body, LogsIn lib (s, a) userId body := by
  cases a with
  | session b => cases h
  | request r => cases h
  | step i salt =>
      rcases Option.bind_eq_some_iff.mp h with ⟨p, hp, hadmission⟩
      cases p with
      | creating body =>
          rcases Option.ite_none_left_eq_some.mp hadmission with ⟨hfree, huser⟩
          rw [Option.not_isSome_iff_eq_none] at hfree
          exact .inl ⟨body, salt, i, rfl, hp, hfree, (Option.some.inj huser).symm⟩
      | selected body user =>
          cases user with
          | none => cases hadmission
          | some user =>
              rcases Option.ite_none_right_eq_some.mp hadmission with ⟨hverified, huser⟩
              cases huser
              exact .inr ⟨body, i, salt, user.2, rfl, hp, hverified⟩
      | _ => cases hadmission

/-- Nobody is signed in who did not register or give a password that verifies against
the hash of the one given at registration.  However the requests interleave, e-mails
stay unique, a user has at most as many sessions opened as requests were admitted,
every admission goes back to a registration, and a request is only accepted for a user
with an admission. -/
theorem signIn_sound (hrun : Run (act lib) init trace s) :
    (forall id id' row row', s.users.lookup id = some row ->
      s.users.lookup id' = some row' -> row.email = row'.email -> id = id') ∧
    (forall id row, s.users.lookup id = some row -> Registered lib trace id row) ∧
    (forall userId, openings userId trace ≤ admissions lib userId trace) ∧
    (forall a userId, admits lib (s, a) = some userId ->
      (exists body salt, Registers lib (s, a) userId body salt) ∨
        exists body row, LogsIn lib (s, a) userId body ∧
          Registered lib trace userId row ∧ row.email = lib.lower body.email ∧
            lib.verifyPassword row.passwordHash body.password = true) ∧
    (forall b i userId token,
      AuthState.event (s.auth, b) = some (.accepted i userId token) ->
        0 < admissions lib userId trace) := by
  have hsound := sound_of_run hrun
  have hle (userId : Nat) : openings userId trace ≤ admissions lib userId trace := by
    rw [← hsound.counted userId]
    exact Nat.le_add_right _ _
  refine ⟨fun _ _ _ _ => hsound.emails, fun _ _ => hsound.rows, hle, ?_, ?_⟩
  · intro a userId hadmits
    rcases registers_or_logsIn hadmits with hregisters | ⟨body, hlogsIn⟩
    · exact .inl hregisters
    · right
      rcases hlogsIn with ⟨i, salt, row, ha, hp, hverified⟩
      rcases hsound.selected hp with ⟨hrow, hemail⟩
      exact ⟨body, row, ⟨i, salt, row, ha, hp, hverified⟩, hsound.rows hrow, hemail,
        hverified⟩
  · intro b i userId token hevent
    rcases accepted_of_event hevent with ⟨row, hread, huser⟩
    rw [← huser]
    exact Nat.lt_of_lt_of_le (hsound.read hread) (hle row.userId)

end Soundness

def readableHash : AuthLibrary where
  lower := id
  hashPassword := fun password salt => salt ++ password
  verifyPassword := fun passwordHash password => passwordHash = "#" ++ password

/-- Two users register, and the first one has a session, is about to log in again, and makes a
request with the session. -/
theorem signIn_sound_again :
    exists trace s row row', Run (act readableHash) init trace s ∧
      s.users.lookup 1 = some row ∧ s.users.lookup 2 = some row' ∧
      (row.email = row'.email -> 1 = 2) ∧ Registered readableHash trace 2 row' ∧
      openings 1 trace = 1 ∧ openings 1 trace ≤ admissions readableHash 1 trace ∧
      admits readableHash (s, .step 2 "") = some 1 ∧
      ((exists body salt, Registers readableHash (s, .step 2 "") 1 body salt) ∨
        exists body row, LogsIn readableHash (s, .step 2 "") 1 body ∧
          Registered readableHash trace 1 row ∧
          row.email = readableHash.lower body.email ∧
            readableHash.verifyPassword row.passwordHash body.password = true) ∧
      AuthState.event (s.auth, .step 1 "") = some (.accepted 1 1 "t") ∧
      0 < admissions readableHash 1 trace := by
  have hfollow : (follow (act readableHash) init
      [.request (.register ⟨"a@b.c", "password", by decide⟩), .step 0 "#", .step 0 "",
        .session (.step 0 "t"), .session (.step 0 ""),
        .request (.register ⟨"d@e.f", "password", by decide⟩), .step 1 "#",
        .request (.login ⟨"a@b.c", "password"⟩), .step 2 "",
        .session (.request (.authenticate "t")), .session (.step 1 "")]).any
      (fun out => (out.2.users.lookup 1).isSome && (out.2.users.lookup 2).isSome &&
        decide (openings 1 out.1 = 1) &&
        decide (admits readableHash (out.2, .step 2 "") = some 1) &&
        decide (AuthState.event (out.2.auth, .step 1 "") = some (.accepted 1 1 "t"))) = true := by
    decide +kernel
  rcases (Option.any_eq_true _ _).mp hfollow with ⟨⟨trace, s⟩, hrun, hgood⟩
  replace hrun := run_of_follow hrun
  simp only [Bool.and_eq_true, decide_eq_true_eq] at hgood
  rcases hgood with ⟨⟨⟨⟨hfirst, hsecond⟩, hopenings⟩, hadmits⟩, haccepted⟩
  rcases Option.isSome_iff_exists.mp hfirst with ⟨row, hrow⟩
  rcases Option.isSome_iff_exists.mp hsecond with ⟨row', hrow'⟩
  have hsound := signIn_sound hrun
  exact ⟨trace, s, row, row', hrun, hrow, hrow', hsound.1 1 2 row row' hrow hrow',
    hsound.2.1 2 row' hrow', hopenings, hsound.2.2.1 1, hadmits, hsound.2.2.2.1 _ 1 hadmits,
    haccepted, hsound.2.2.2.2 _ 1 1 "t" haccepted⟩

end AccountState
end ChatDoc
