import ChatDoc.Service.Endpoints

/-!
# Signing in and out

The endpoints of `api/routes_auth.py` with the CSRF cookie of `api/csrf.py`, each run to
its end, and what a mutating endpoint does before its own work.
-/

namespace ChatDoc

open Foundation

structure UserRow where
  email : String
  passwordHash : String

structure AuthSite where
  site : Site
  users : SerialTable UserRow

/-- What the endpoints take from Python and from argon2. -/
structure AuthLibrary where
  lower : String -> String
  hashPassword : (password salt : String) -> String
  verifyPassword : (passwordHash password : String) -> Bool

structure RegisterRequest where
  email : String
  password : String
  length_password : 8 <= password.length ∧ password.length <= 200

structure LoginRequest where
  email : String
  password : String

/-!
# Responses
-/

/-- The status of a response, its two cookies and the header that the client reads. A
session cookie of `some none` is deleted. -/
structure AuthAnswer where
  status : Nat
  sessionCookie : Option (Option Token)
  csrfCookie : Option String
  csrfHeader : Option String
deriving DecidableEq

namespace AuthAnswer

def plain (status : Nat) : AuthAnswer :=
  ⟨status, none, none, none⟩

def setSessionCookie (response : AuthAnswer) (token : Token) : AuthAnswer :=
  { response with sessionCookie := some (some token) }

def clearSessionCookie (response : AuthAnswer) : AuthAnswer :=
  { response with sessionCookie := some none }

/-- `issue_csrf_cookie`, with the text that `token_urlsafe` would give. -/
def issueCsrfCookie (response : AuthAnswer) (token : Option String) (drawn : String) :
    AuthAnswer :=
  let token := (truthy token).getD drawn
  { response with csrfCookie := some token, csrfHeader := some token }

end AuthAnswer

structure Draws where
  session : Token
  csrf : String
  salt : String
deriving DecidableEq

/-!
# Endpoints
-/

abbrev AuthRoute (alpha : Type) := Handler AuthSite Exn alpha

def AuthRoute.onSite {alpha : Type} (p : Route alpha) : AuthRoute alpha := fun s =>
  ((p s.site).1, { s with site := (p s.site).2 })

section Endpoints

variable (lib : AuthLibrary) (draws : Draws)

def getUserByEmail (email : String) : AuthRoute (Option (Nat × UserRow)) :=
  Handler.read fun s =>
    s.users.rows.find? fun entry => entry.2.email = lib.lower email

/-- Nothing is returned where the email is taken, `UniqueViolation`. -/
def createUser (email password : String) : AuthRoute (Option Nat) := fun s =>
  if s.users.rows.any fun entry => entry.2.email = lib.lower email then (.ok none, s)
  else
    (.ok (some s.users.next), { s with
      users := s.users.insert ⟨lib.lower email, lib.hashPassword password draws.salt⟩ })

def createSession (userId : Nat) : AuthRoute Token := fun s =>
  let now := s.site.world.now
  (.ok draws.session, { s with
    site := s.site.setSession draws.session (some ⟨userId, now, now + sessionTtl⟩) })

/-- What `register` and `login` end with. -/
def signIn (status userId : Nat) : AuthRoute AuthAnswer := do
  let token ← createSession draws userId
  pure (((AuthAnswer.plain status).setSessionCookie token).issueCsrfCookie none draws.csrf)

def registerRoute (body : RegisterRequest) : AuthRoute AuthAnswer := do
  let userId ← createUser lib draws body.email body.password
  match userId with
  | none => Handler.raise (.http 409 "email already registered")
  | some userId => signIn draws 201 userId

def loginRoute (body : LoginRequest) : AuthRoute AuthAnswer := do
  let user ← getUserByEmail lib body.email
  match user with
  | none => Handler.raise (.http 401 "invalid email or password")
  | some (userId, row) =>
      if lib.verifyPassword row.passwordHash body.password then signIn draws 200 userId
      else Handler.raise (.http 401 "invalid email or password")

def deleteSession (token : Token) : AuthRoute Unit := fun s =>
  (.ok (), { s with site := s.site.setSession token none })

def logoutRoute (http : HttpRequest) : AuthRoute AuthAnswer := do
  let deletion : AuthRoute Unit :=
    match truthy http.sessionCookie with
    | none => pure ()
    | some token => deleteSession token
  deletion
  pure (AuthAnswer.plain 204).clearSessionCookie

def meRoute (http : HttpRequest) : AuthRoute AuthAnswer := do
  let userId ← AuthRoute.onSite (getCurrentUserId http)
  let row ← Handler.read fun s => s.users.lookup userId
  match row with
  | none => Handler.raise (.http 401 "not authenticated")
  | some _ => pure ((AuthAnswer.plain 200).issueCsrfCookie http.csrfCookie draws.csrf)

/-- The start of `upload_doc`, `delete_doc` and `query`. What follows it touches
neither the sessions nor the cookies. -/
def mutatingRoute (http : HttpRequest) : AuthRoute AuthAnswer := do
  let _ ← AuthRoute.onSite (getCurrentUserId http)
  Handler.ofExcept (verifyCsrf http)
  pure (.plain 200)

end Endpoints

inductive ApiCall where
  | register (body : RegisterRequest)
  | login (body : LoginRequest)
  | logout
  | me
  | mutate

def ApiCall.route (lib : AuthLibrary) (draws : Draws) (http : HttpRequest) :
    ApiCall -> AuthRoute AuthAnswer
  | .register body => registerRoute lib draws body
  | .login body => loginRoute lib draws body
  | .logout => logoutRoute http
  | .me => meRoute draws http
  | .mutate => mutatingRoute http

/-- The response to an exception carries no cookie. -/
def ApiCall.serve (lib : AuthLibrary) (draws : Draws) (http : HttpRequest)
    (call : ApiCall) (s : AuthSite) : AuthAnswer × AuthSite :=
  match call.route lib draws http s with
  | (.ok answer, s') => (answer, s')
  | (.error (.http status _), s') => (.plain status, s')
  | (.error _, s') => (.plain 500, s')

/-!
# Sessions
-/

/-- Who is signed in with a session that is still good. -/
def Site.userOf (s : Site) (token : Token) : Option Nat :=
  ((s.sessions token).filter fun row => !AuthState.expired row s.world.now).map
    SessionRow.userId

/-- Nobody is signed in after a step who was not before, but for one token. -/
def Site.SignsInOnly (drawn : Token) (s s' : Site) : Prop :=
  s'.world.now = s.world.now ∧ forall token userId, token ≠ drawn ->
    s'.userOf token = some userId -> s.userOf token = some userId

section Sessions

variable {s s' : Site} {token drawn : Token} {userId : Nat}

theorem userOf_eq_some_iff :
    s.userOf token = some userId <-> exists row, s.sessions token = some row ∧
      AuthState.expired row s.world.now = false ∧ row.userId = userId := by
  rw [Site.userOf, Option.map_eq_some_iff]
  constructor
  · rintro ⟨row, hrow, huser⟩
    rcases Option.filter_eq_some_iff.mp hrow with ⟨hrow, hlive⟩
    exact ⟨row, hrow, by rwa [Bool.not_eq_true'] at hlive, huser⟩
  · rintro ⟨row, hrow, hlive, huser⟩
    exact ⟨row, Option.filter_eq_some_iff.mpr ⟨hrow, by rw [hlive]; rfl⟩, huser⟩

theorem Site.SignsInOnly.refl (s : Site) : Site.SignsInOnly drawn s s :=
  ⟨rfl, fun _ _ _ h => h⟩

theorem Site.SignsInOnly.trans {s s' s'' : Site} (h : Site.SignsInOnly drawn s s')
    (h' : Site.SignsInOnly drawn s' s'') : Site.SignsInOnly drawn s s'' :=
  ⟨h'.left.trans h.left, fun token userId hne huser =>
    h.right token userId hne (h'.right token userId hne huser)⟩

theorem signsInOnly_setSession {row : Option SessionRow}
    (h : forall r, row = some r -> token ≠ drawn ->
      s.userOf token = some r.userId) :
    Site.SignsInOnly drawn s (s.setSession token row) := by
  refine ⟨rfl, ?_⟩
  intro t u hne huser
  rcases userOf_eq_some_iff.mp huser with ⟨r, hrow, hlive, hr⟩
  have hrow' : (if t = token then row else s.sessions t) = some r := hrow
  by_cases ht : t = token
  · rw [if_pos ht] at hrow'
    rw [ht, ← hr]
    exact h r hrow' (ht ▸ hne)
  · rw [if_neg ht] at hrow'
    exact userOf_eq_some_iff.mpr ⟨r, hrow', hlive, hr⟩

theorem signsInOnly_getCurrentUserId (drawn : Token) (http : HttpRequest) (s : Site) :
    Site.SignsInOnly drawn s (getCurrentUserId http s).2 := by
  cases hcookie : http.sessionCookie with
  | none =>
      have hraise : getCurrentUserId http s =
          (.error (.http 401 "not authenticated"), s) := by
        unfold getCurrentUserId
        rw [hcookie]
        rfl
      rw [hraise]
      exact .refl s
  | some token =>
      cases hrow : s.sessions token with
      | none =>
          rw [getCurrentUserId_missing hcookie hrow]
          exact .refl s
      | some row =>
          by_cases hexpired : AuthState.expired row s.world.now = true
          · rw [getCurrentUserId_expired hcookie hrow hexpired]
            apply signsInOnly_setSession
            intro r hr
            cases hr
          · rw [getCurrentUserId_live hcookie hrow hexpired]
            apply signsInOnly_setSession
            intro r hr _
            cases hr
            rw [touched_userId]
            exact userOf_eq_some_iff.mpr
              ⟨row, hrow, Bool.eq_false_of_not_eq_true hexpired, rfl⟩

end Sessions

def AuthSite.SignsInOnly (drawn : Token) (s s' : AuthSite) : Prop :=
  s.site.SignsInOnly drawn s'.site

section Steps

variable {lib : AuthLibrary} {draws : Draws} {http : HttpRequest}

theorem AuthSite.SignsInOnly.trans (drawn : Token) (s s' s'' : AuthSite)
    (h : s.SignsInOnly drawn s') (h' : s'.SignsInOnly drawn s'') :
    s.SignsInOnly drawn s'' :=
  Site.SignsInOnly.trans h h'

theorem signsInOnly_onSite (drawn : Token) (s : AuthSite) :
    s.SignsInOnly drawn (AuthRoute.onSite (getCurrentUserId http) s).2 :=
  signsInOnly_getCurrentUserId drawn http s.site

theorem signsInOnly_signIn (status userId : Nat) (s : AuthSite) :
    s.SignsInOnly draws.session (signIn draws status userId s).2 :=
  signsInOnly_setSession fun _ _ hne => absurd rfl hne

theorem signsInOnly_createUser (email password : String) (s : AuthSite) :
    s.SignsInOnly draws.session (createUser lib draws email password s).2 := by
  unfold createUser
  split
  · exact .refl s.site
  · exact .refl s.site

theorem signsInOnly_route (lib : AuthLibrary) (draws : Draws) (http : HttpRequest)
    (call : ApiCall) (s : AuthSite) :
    s.SignsInOnly draws.session (call.route lib draws http s).2 := by
  have htrans := AuthSite.SignsInOnly.trans draws.session
  cases call with
  | register body =>
      refine Handler.bind_rel htrans (signsInOnly_createUser body.email body.password) ?_ s
      intro userId s'
      cases userId with
      | none => exact .refl s'.site
      | some userId => exact signsInOnly_signIn 201 userId s'
  | login body =>
      refine Handler.bind_rel htrans ?_ ?_ s
      · intro s'
        exact .refl s'.site
      · intro user s'
        cases user with
        | none => exact .refl s'.site
        | some entry =>
            by_cases hpassword :
                lib.verifyPassword entry.2.passwordHash body.password = true
            · dsimp only
              rw [if_pos hpassword]
              exact signsInOnly_signIn 200 entry.1 s'
            · dsimp only
              rw [if_neg hpassword]
              exact .refl s'.site
  | logout =>
      refine Handler.bind_rel htrans ?_ ?_ s
      · intro s'
        cases truthy http.sessionCookie with
        | none => exact .refl s'.site
        | some token => exact signsInOnly_setSession fun _ hrow => nomatch hrow
      · intro _ s'
        exact .refl s'.site
  | me =>
      refine Handler.bind_rel htrans (signsInOnly_onSite draws.session) ?_ s
      intro userId s'
      refine Handler.bind_rel htrans ?_ ?_ s'
      · intro s''
        exact .refl s''.site
      · intro row s''
        cases row with
        | none => exact .refl s''.site
        | some row => exact .refl s''.site
  | mutate =>
      refine Handler.bind_rel htrans (signsInOnly_onSite draws.session) ?_ s
      intro userId s'
      refine Handler.bind_rel htrans ?_ ?_ s'
      · intro s''
        exact .refl s''.site
      · intro _ s''
        exact .refl s''.site

theorem signsInOnly_serve (lib : AuthLibrary) (draws : Draws) (http : HttpRequest)
    (call : ApiCall) (s : AuthSite) :
    s.SignsInOnly draws.session (call.serve lib draws http s).2 := by
  have hroute := signsInOnly_route lib draws http call s
  unfold ApiCall.serve
  split <;> rename_i hserve <;> rwa [hserve] at hroute

end Steps

/-!
# What a response hands out
-/

structure AuthAnswer.Sound (draws : Draws) (http : HttpRequest) (answer : AuthAnswer) :
    Prop where
  inSync : answer.csrfHeader = answer.csrfCookie
  token : forall csrf, answer.csrfCookie = some csrf ->
    csrf = draws.csrf ∨ truthy http.csrfCookie = some csrf
  session : forall token, answer.sessionCookie = some (some token) ->
    token = draws.session ∧ answer.csrfCookie ≠ none

section Answers

variable {lib : AuthLibrary} {draws : Draws} {http : HttpRequest}

theorem sound_plain (status : Nat) : (AuthAnswer.plain status).Sound draws http where
  inSync := rfl
  token := fun _ h => nomatch h
  session := fun _ h => nomatch h

theorem sound_signIn {status userId : Nat} {s s' : AuthSite} {answer : AuthAnswer}
    (h : signIn draws status userId s = (.ok answer, s')) : answer.Sound draws http := by
  cases h
  constructor
  · rfl
  · intro csrf hcsrf
    cases hcsrf
    exact .inl rfl
  · intro token htoken
    cases htoken
    exact ⟨rfl, fun hnone => nomatch hnone⟩

theorem sound_logout {status : Nat} :
    (AuthAnswer.plain status).clearSessionCookie.Sound draws http where
  inSync := rfl
  token := fun _ h => nomatch h
  session := fun _ h => nomatch h

theorem sound_me {status : Nat} :
    ((AuthAnswer.plain status).issueCsrfCookie http.csrfCookie draws.csrf).Sound
      draws http where
  inSync := rfl
  token := by
    intro csrf hcsrf
    have hget : (truthy http.csrfCookie).getD draws.csrf = csrf := Option.some.inj hcsrf
    cases hcookie : truthy http.csrfCookie with
    | none =>
        rw [hcookie] at hget
        exact .inl hget.symm
    | some old =>
        rw [hcookie] at hget
        exact .inr (congrArg some hget)
  session := fun _ h => nomatch h

theorem sound_route {call : ApiCall} {s s' : AuthSite} {answer : AuthAnswer}
    (h : call.route lib draws http s = (.ok answer, s')) : answer.Sound draws http := by
  cases call with
  | register body =>
      rcases Handler.bind_eq_ok h with ⟨userId, s1, _, hrest⟩
      cases userId with
      | none => cases hrest
      | some userId => exact sound_signIn hrest
  | login body =>
      rcases Handler.bind_eq_ok h with ⟨user, s1, _, hrest⟩
      cases user with
      | none => cases hrest
      | some entry =>
          dsimp only at hrest
          split at hrest
          · exact sound_signIn hrest
          · cases hrest
  | logout =>
      rcases Handler.bind_eq_ok h with ⟨_, s1, _, hrest⟩
      cases hrest
      exact sound_logout
  | me =>
      rcases Handler.bind_eq_ok h with ⟨userId, s1, _, hrest⟩
      rcases Handler.bind_eq_ok hrest with ⟨row, s2, _, hlast⟩
      cases row with
      | none => cases hlast
      | some row =>
          cases hlast
          exact sound_me
  | mutate =>
      rcases Handler.bind_eq_ok h with ⟨userId, s1, _, hrest⟩
      rcases Handler.bind_eq_ok hrest with ⟨_, s2, _, hlast⟩
      cases hlast
      exact sound_plain 200

theorem sound_serve (lib : AuthLibrary) (draws : Draws) (http : HttpRequest)
    (call : ApiCall) (s : AuthSite) :
    (call.serve lib draws http s).1.Sound draws http := by
  unfold ApiCall.serve
  split
  · rename_i hserve
    exact sound_route hserve
  · exact sound_plain _
  · exact sound_plain _

end Answers

end ChatDoc
