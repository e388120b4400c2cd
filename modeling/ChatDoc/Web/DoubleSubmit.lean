import ChatDoc.Foundation.Transition
import ChatDoc.Service.AuthRoutes

/-!
# The CSRF token in the tabs of a browser

`web/src/lib/api.ts` in several tabs that share the cookies of one browser. A response
reaches the cookie jar first and its tab after that, and the requests and responses of the
tabs come in any order.
-/

namespace ChatDoc

open Foundation

structure CookieJar where
  session : Option Token
  csrf : Option String

/-- `csrfToken` of the module in one tab. `capturedFor` is the user whose session was in
the jar when the token was captured. It records the past, and no step looks at it. -/
structure ApiTab where
  csrfToken : Option String
  capturedFor : Option Nat

inductive Delivery where
  | sent
  | answered (answer : AuthAnswer)
  | stored (answer : AuthAnswer)
  | finished

structure Exchange where
  tab : Nat
  call : ApiCall
  http : HttpRequest
  delivery : Delivery

structure Client where
  server : AuthSite
  jar : CookieJar
  tabs : Nat -> ApiTab
  exchanges : List Exchange
  /-- The session tokens that were drawn for this browser. -/
  seen : List Token

inductive ClientAction where
  | tick (now : Time)
  | send (tab : Nat) (call : ApiCall)
  | handle (k : Nat) (draws : Draws)
  | store (k : Nat)
  | capture (k : Nat)
  | fail (k : Nat)

/-!
# Steps
-/

def CookieJar.receive (jar : CookieJar) (answer : AuthAnswer) : CookieJar where
  session := answer.sessionCookie.getD jar.session
  csrf := answer.csrfCookie.or jar.csrf

/-- `method !== 'GET'`. -/
def ApiCall.isMutating : ApiCall -> Bool
  | .me => false
  | _ => true

/-- `captureCsrfToken`. -/
def ApiTab.captureCsrfToken (tab : ApiTab) (answer : AuthAnswer) (user : Option Nat) :
    ApiTab :=
  match truthy answer.csrfHeader with
  | some token => ⟨some token, user⟩
  | none => tab

/-- The `finally` block of `logout`. -/
def ApiTab.finish (tab : ApiTab) (call : ApiCall) : ApiTab :=
  match call with
  | .logout => { tab with csrfToken := none }
  | _ => tab

namespace Client

def userIn (s : Client) (jar : CookieJar) : Option Nat :=
  jar.session.bind s.server.site.userOf

def request (s : Client) (tab : Nat) (call : ApiCall) : HttpRequest where
  sessionCookie := s.jar.session
  csrfCookie := s.jar.csrf
  csrfHeader := if call.isMutating then truthy (s.tabs tab).csrfToken else none

def setTab (s : Client) (i : Nat) (tab : ApiTab) : Client :=
  { s with tabs := fun j => if j = i then tab else s.tabs j }

def setDelivery (s : Client) (k : Nat) (e : Exchange) (delivery : Delivery) : Client :=
  { s with exchanges := s.exchanges.set k { e with delivery := delivery } }

/-- A drawn session token is a new key, and a drawn CSRF token is some ASCII text. -/
def Drawable (s : Client) (draws : Draws) : Prop :=
  s.server.site.sessions draws.session = none ∧ draws.session ∉ s.seen ∧
    draws.csrf ≠ "" ∧ isAscii draws.csrf = true

instance (s : Client) (draws : Draws) : Decidable (s.Drawable draws) := by
  unfold Drawable
  infer_instance

def start (server : AuthSite) : Client where
  server := server
  jar := ⟨none, none⟩
  tabs := fun _ => ⟨none, none⟩
  exchanges := []
  seen := []

def act (lib : AuthLibrary) (s : Client) : ClientAction -> Option Client
  | .tick now =>
      if s.server.site.world.now <= now then
        some { s with server := { s.server with site := { s.server.site with
          world := { s.server.site.world with now := now } } } }
      else none
  | .send tab call =>
      some { s with exchanges := s.exchanges ++ [⟨tab, call, s.request tab call, .sent⟩] }
  | .handle k draws =>
      (s.exchanges[k]?).bind fun e =>
        match e.delivery with
        | .sent =>
            if s.Drawable draws then
              let out := e.call.serve lib draws e.http s.server
              some { s.setDelivery k e (.answered out.1) with
                server := out.2
                seen := draws.session :: s.seen }
            else none
        | _ => none
  | .store k =>
      (s.exchanges[k]?).bind fun e =>
        match e.delivery with
        | .answered answer =>
            some { s.setDelivery k e (.stored answer) with jar := s.jar.receive answer }
        | _ => none
  | .capture k =>
      (s.exchanges[k]?).bind fun e =>
        match e.delivery with
        | .stored answer =>
            let tab := (s.tabs e.tab).captureCsrfToken answer (s.userIn s.jar)
            some ((s.setDelivery k e .finished).setTab e.tab (tab.finish e.call))
        | _ => none
  | .fail k =>
      (s.exchanges[k]?).bind fun e =>
        match e.delivery with
        | .sent | .answered _ =>
            some ((s.setDelivery k e .finished).setTab e.tab ((s.tabs e.tab).finish e.call))
        | _ => none

end Client

/-!
# What a tab may rely on
-/

def Exchange.waiting (e : Exchange) : Option String :=
  match e.delivery with
  | .stored answer => truthy answer.csrfHeader
  | _ => none

def Exchange.InFlight (e : Exchange) : Prop :=
  exists answer, e.delivery = .answered answer ∨ e.delivery = .stored answer

namespace Client

/-- The tab has a token that it captured while the user was signed in, and has not logged
out since. -/
def Holds (s : Client) (i userId : Nat) (token : String) : Prop :=
  (s.tabs i).csrfToken = some token ∧ (s.tabs i).capturedFor = some userId

/-- A mutating request of a tab without a response in flight is let through. -/
def Admits (s : Client) : Prop :=
  forall i userId token, s.userIn s.jar = some userId -> s.Holds i userId token ->
    (forall e, e ∈ s.exchanges -> e.tab = i -> ¬ e.InFlight) ->
      verifyCsrf (s.request i .mutate) = .ok () ∧ s.jar.csrf = some token

def Settled (s : Client) (i : Nat) : Prop :=
  forall e, e ∈ s.exchanges -> e.tab = i -> e.waiting = none

/-- A response that sets the cookie reaches the jar only while no other response is about
to be captured with another token, and no other tab holds another token for the user who
is signed in then. -/
def Undisturbed (s : Client) : ClientAction -> Prop
  | .store k => forall e answer csrf, s.exchanges[k]? = some e ->
      e.delivery = .answered answer -> answer.csrfCookie = some csrf ->
        (forall other, other ∈ s.exchanges -> forall token,
          other.waiting = some token -> token = csrf) ∧
        forall i, i ≠ e.tab -> s.Settled i -> forall userId token,
          s.userIn (s.jar.receive answer) = some userId -> s.Holds i userId token ->
            token = csrf
  | _ => True

end Client

/-!
# The invariant
-/

def IsCsrfToken (csrf : String) : Prop :=
  csrf ≠ "" ∧ isAscii csrf = true

theorem truthy_of_isCsrfToken {csrf : String} (h : IsCsrfToken csrf) :
    truthy (some csrf) = some csrf := by
  rw [truthy, Option.filter_some, if_pos (decide_eq_true h.left)]

theorem eq_of_truthy {text : Option String} {csrf : String} (h : truthy text = some csrf) :
    text = some csrf :=
  (Option.filter_eq_some_iff.mp h).left

theorem verifyCsrf_ok {http : HttpRequest} {csrf : String} (h : IsCsrfToken csrf)
    (hcookie : http.csrfCookie = some csrf) (hheader : http.csrfHeader = some csrf) :
    verifyCsrf http = .ok () := by
  unfold verifyCsrf
  rw [hcookie, hheader, truthy_of_isCsrfToken h]
  dsimp only
  rw [if_pos ⟨h.right, h.right⟩, if_pos rfl]

structure AuthAnswer.Proper (seen : List Token) (answer : AuthAnswer) : Prop where
  inSync : answer.csrfHeader = answer.csrfCookie
  token : forall csrf, answer.csrfCookie = some csrf -> IsCsrfToken csrf
  session : forall token, answer.sessionCookie = some (some token) ->
    token ∈ seen ∧ answer.csrfCookie ≠ none

structure Exchange.WellFormed (seen : List Token) (e : Exchange) : Prop where
  cookie : forall csrf, e.http.csrfCookie = some csrf -> IsCsrfToken csrf
  answer : forall answer, e.delivery = .answered answer ∨ e.delivery = .stored answer ->
    answer.Proper seen

theorem Exchange.WellFormed.mono {seen seen' : List Token} {e : Exchange}
    (h : e.WellFormed seen) (hseen : seen ⊆ seen') : e.WellFormed seen' where
  cookie := h.cookie
  answer answer ha :=
    { inSync := (h.answer answer ha).inSync
      token := (h.answer answer ha).token
      session := fun token ht =>
        ⟨hseen ((h.answer answer ha).session token ht).left,
          ((h.answer answer ha).session token ht).right⟩ }

structure Client.InStep (s : Client) : Prop where
  session : forall token, s.jar.session = some token -> token ∈ s.seen
  jar : forall csrf, s.jar.csrf = some csrf -> IsCsrfToken csrf
  exchanges : forall e, e ∈ s.exchanges -> e.WellFormed s.seen
  waiting : forall e, e ∈ s.exchanges -> forall csrf, e.waiting = some csrf ->
    s.jar.csrf = some csrf
  tabs : forall i userId token, s.userIn s.jar = some userId -> s.Holds i userId token ->
    s.Settled i -> s.jar.csrf = some token

/-!
# Exchanges
-/

theorem mem_set_or_eq {α : Type} {l : List α} {k : Nat} {old new a : α}
    (hget : l[k]? = some old) (ha : a ∈ l) : a ∈ l.set k new ∨ a = old := by
  rcases List.mem_iff_getElem?.mp ha with ⟨j, hj⟩
  by_cases heq : k = j
  · rw [heq, hj] at hget
    exact .inr (Option.some.inj hget)
  · apply Or.inl
    rw [List.mem_iff_getElem?]
    exact ⟨j, by rw [List.getElem?_set_ne heq, hj]⟩

section Exchanges

variable {s : Client} {k i : Nat} {e : Exchange} {delivery : Delivery}

theorem settled_of_ne (hget : s.exchanges[k]? = some e) (hne : i ≠ e.tab)
    (h : (s.setDelivery k e delivery).Settled i) : s.Settled i := by
  intro other hother htab
  rcases mem_set_or_eq hget hother with hin | heq
  · exact h other hin htab
  · exact absurd (heq ▸ htab).symm hne

theorem settled_of_not_waiting (hget : s.exchanges[k]? = some e) (hwaiting : e.waiting = none)
    (h : (s.setDelivery k e delivery).Settled i) : s.Settled i := by
  intro other hother htab
  rcases mem_set_or_eq hget hother with hin | heq
  · exact h other hin htab
  · rw [heq, hwaiting]

theorem exchanges_setDelivery {P : Exchange -> Prop}
    (hold : forall other, other ∈ s.exchanges -> P other)
    (hnew : P { e with delivery := delivery }) :
    forall other, other ∈ (s.setDelivery k e delivery).exchanges -> P other := by
  intro other hother
  rcases List.mem_or_eq_of_mem_set hother with hin | heq
  · exact hold other hin
  · rw [heq]
    exact hnew

theorem mem_setDelivery (hget : s.exchanges[k]? = some e) :
    { e with delivery := delivery } ∈ (s.setDelivery k e delivery).exchanges :=
  List.mem_set (List.getElem?_eq_some_iff.mp hget).choose _

end Exchanges

/-!
# One step
-/

section Steps

variable {lib : AuthLibrary} {s s' : Client}

theorem inStep_frame (h : s.InStep) (hcsrf : s'.jar.csrf = s.jar.csrf)
    (hsession : forall token, s'.jar.session = some token -> token ∈ s'.seen)
    (huser : forall userId, s'.userIn s'.jar = some userId ->
      s.userIn s.jar = some userId)
    (hexchanges : forall e, e ∈ s'.exchanges -> e.WellFormed s'.seen)
    (hwaiting : forall e, e ∈ s'.exchanges -> forall csrf, e.waiting = some csrf ->
      s.jar.csrf = some csrf)
    (hsettled : forall i, s'.Settled i -> s.Settled i)
    (htabs : forall i userId token, s'.Holds i userId token -> s.Holds i userId token) :
    s'.InStep where
  session := hsession
  jar csrf hjar := h.jar csrf (hcsrf ▸ hjar)
  exchanges := hexchanges
  waiting e he csrf hw := by
    rw [hcsrf]
    exact hwaiting e he csrf hw
  tabs i userId token hu hholds hs := by
    rw [hcsrf]
    exact h.tabs i userId token (huser userId hu) (htabs i userId token hholds)
      (hsettled i hs)

theorem userOf_later {site : Site} {now : Time} (hnow : site.world.now <= now)
    {token : Token} {userId : Nat}
    (h : Site.userOf { site with world := { site.world with now := now } } token =
      some userId) : site.userOf token = some userId := by
  rcases userOf_eq_some_iff.mp h with ⟨row, hrow, hlive, huser⟩
  refine userOf_eq_some_iff.mpr ⟨row, hrow, ?_, huser⟩
  unfold AuthState.expired at *
  rw [decide_eq_false_iff_not] at *
  intro hexpired
  apply hlive
  rcases hexpired with hidle | habsolute
  · exact .inl (Nat.lt_of_lt_of_le hidle hnow)
  · exact .inr (Nat.lt_of_lt_of_le habsolute hnow)

theorem inStep_tick (h : s.InStep) {now : Time}
    (hact : s.act lib (.tick now) = some s') : s'.InStep := by
  have hnow : s.server.site.world.now <= now := by
    by_contra hlt
    rw [Client.act, if_neg hlt] at hact
    cases hact
  rw [Client.act, if_pos hnow] at hact
  cases hact
  refine inStep_frame h rfl h.session ?_ h.exchanges h.waiting (fun _ hs => hs)
    (fun _ _ _ hholds => hholds)
  intro userId huser
  rcases Option.bind_eq_some_iff.mp huser with ⟨token, htoken, hof⟩
  exact Option.bind_eq_some_iff.mpr ⟨token, htoken, userOf_later hnow hof⟩

theorem inStep_send (h : s.InStep) {i : Nat} {call : ApiCall}
    (hact : s.act lib (.send i call) = some s') : s'.InStep := by
  cases hact
  refine inStep_frame h rfl h.session (fun _ hu => hu) ?_ ?_ ?_
    (fun _ _ _ hholds => hholds)
  · intro e he
    rcases List.mem_append.mp he with hold | hnew
    · exact h.exchanges e hold
    · rw [List.mem_singleton.mp hnew]
      constructor
      · exact h.jar
      · rintro answer (ha | ha)
        · cases ha
        · cases ha
  · intro e he csrf hw
    rcases List.mem_append.mp he with hold | hnew
    · exact h.waiting e hold csrf hw
    · rw [List.mem_singleton.mp hnew] at hw
      cases hw
  · intro j hs e he htab
    exact hs e (List.mem_append_left _ he) htab

theorem handle_cases {k : Nat} {draws : Draws}
    (hact : s.act lib (.handle k draws) = some s') :
    exists e, s.exchanges[k]? = some e ∧ e.delivery = .sent ∧ s.Drawable draws ∧
      s' = { s.setDelivery k e (.answered (e.call.serve lib draws e.http s.server).1) with
        server := (e.call.serve lib draws e.http s.server).2
        seen := draws.session :: s.seen } := by
  rcases Option.bind_eq_some_iff.mp hact with ⟨e, hget, hrest⟩
  cases hdelivery : e.delivery with
  | sent =>
      rw [hdelivery] at hrest
      dsimp only at hrest
      by_cases hdraw : s.Drawable draws
      · rw [if_pos hdraw] at hrest
        exact ⟨e, hget, hdelivery, hdraw, (Option.some.inj hrest).symm⟩
      · rw [if_neg hdraw] at hrest
        cases hrest
  | answered answer => rw [hdelivery] at hrest; cases hrest
  | stored answer => rw [hdelivery] at hrest; cases hrest
  | finished => rw [hdelivery] at hrest; cases hrest

theorem waiting_of_sent {e : Exchange} (h : e.delivery = .sent) : e.waiting = none := by
  rw [Exchange.waiting, h]

theorem waiting_of_answered {e : Exchange} {answer : AuthAnswer}
    (h : e.delivery = .answered answer) : e.waiting = none := by
  rw [Exchange.waiting, h]

theorem waiting_of_stored {e : Exchange} {answer : AuthAnswer}
    (h : e.delivery = .stored answer) : e.waiting = truthy answer.csrfHeader := by
  rw [Exchange.waiting, h]

theorem proper_serve {e : Exchange} {draws : Draws} {seen : List Token} {server : AuthSite}
    (h : e.WellFormed seen) (hdraw : draws.csrf ≠ "" ∧ isAscii draws.csrf = true) :
    (e.call.serve lib draws e.http server).1.Proper (draws.session :: seen) := by
  have hsound := sound_serve lib draws e.http e.call server
  constructor
  · exact hsound.inSync
  · intro csrf hcsrf
    rcases hsound.token csrf hcsrf with hdrawn | hcookie
    · rw [hdrawn]
      exact hdraw
    · exact h.cookie csrf (eq_of_truthy hcookie)
  · intro token htoken
    rcases hsound.session token htoken with ⟨heq, hsome⟩
    rw [heq]
    exact ⟨List.mem_cons_self, hsome⟩

theorem inStep_handle (h : s.InStep) {k : Nat} {draws : Draws}
    (hact : s.act lib (.handle k draws) = some s') : s'.InStep := by
  rcases handle_cases hact with ⟨e, hget, hsent, ⟨_, hseen, hcsrf⟩, rfl⟩
  have he : e ∈ s.exchanges := List.mem_of_getElem? hget
  refine inStep_frame h rfl ?_ ?_ ?_ ?_ ?_ (fun _ _ _ hholds => hholds)
  · intro token htoken
    exact List.mem_cons_of_mem _ (h.session token htoken)
  · intro userId huser
    rcases Option.bind_eq_some_iff.mp huser with ⟨token, htoken, hof⟩
    have hne : token ≠ draws.session := ne_of_mem_of_not_mem (h.session token htoken) hseen
    have honly := signsInOnly_serve lib draws e.http e.call s.server
    exact Option.bind_eq_some_iff.mpr ⟨token, htoken, honly.right token userId hne hof⟩
  · apply exchanges_setDelivery
    · intro other hother
      exact (h.exchanges other hother).mono (List.subset_cons_self _ _)
    · constructor
      · exact (h.exchanges e he).cookie
      · rintro answer (ha | ha)
        · cases ha
          exact proper_serve (h.exchanges e he) hcsrf
        · cases ha
  · apply exchanges_setDelivery
    · exact h.waiting
    · intro csrf hw
      cases hw
  · intro i hs
    exact settled_of_not_waiting hget (waiting_of_sent hsent) hs

theorem store_cases {k : Nat} (hact : s.act lib (.store k) = some s') :
    exists e answer, s.exchanges[k]? = some e ∧ e.delivery = .answered answer ∧
      s' = { s.setDelivery k e (.stored answer) with jar := s.jar.receive answer } := by
  rcases Option.bind_eq_some_iff.mp hact with ⟨e, hget, hrest⟩
  cases hdelivery : e.delivery with
  | answered answer =>
      rw [hdelivery] at hrest
      exact ⟨e, answer, hget, hdelivery, (Option.some.inj hrest).symm⟩
  | sent => rw [hdelivery] at hrest; cases hrest
  | stored answer => rw [hdelivery] at hrest; cases hrest
  | finished => rw [hdelivery] at hrest; cases hrest

theorem wellFormed_stored {e : Exchange} {answer : AuthAnswer} {seen : List Token}
    (h : e.WellFormed seen) (hdelivery : e.delivery = .answered answer) :
    Exchange.WellFormed seen { e with delivery := .stored answer } where
  cookie := h.cookie
  answer := by
    rintro other (ha | ha)
    · cases ha
    · cases ha
      exact h.answer _ (.inl hdelivery)

theorem session_receive (h : s.InStep) {answer : AuthAnswer} (hproper : answer.Proper s.seen)
    {token : Token} (htoken : (s.jar.receive answer).session = some token) :
    token ∈ s.seen := by
  cases hcookie : answer.sessionCookie with
  | none =>
      rw [CookieJar.receive, hcookie] at htoken
      exact h.session token htoken
  | some value =>
      rw [CookieJar.receive, hcookie] at htoken
      have hvalue : value = some token := htoken
      rw [hvalue] at hcookie
      exact (hproper.session token hcookie).left

theorem userIn_receive {answer : AuthAnswer} (hproper : answer.Proper s.seen)
    (hcsrf : answer.csrfCookie = none) {userId : Nat}
    (huser : s.userIn (s.jar.receive answer) = some userId) :
    s.userIn s.jar = some userId := by
  cases hcookie : answer.sessionCookie with
  | none =>
      unfold Client.userIn CookieJar.receive at huser
      rw [hcookie] at huser
      exact huser
  | some value =>
      cases value with
      | none =>
          unfold Client.userIn CookieJar.receive at huser
          rw [hcookie] at huser
          cases huser
      | some token => exact absurd hcsrf (hproper.session token hcookie).right

theorem inStep_store (h : s.InStep) {k : Nat} (hcond : s.Undisturbed (.store k))
    (hact : s.act lib (.store k) = some s') : s'.InStep := by
  rcases store_cases hact with ⟨e, answer, hget, hdelivery, rfl⟩
  have he := h.exchanges e (List.mem_of_getElem? hget)
  have hproper := he.answer answer (.inl hdelivery)
  have hexchanges : forall other,
      other ∈ (s.setDelivery k e (.stored answer)).exchanges -> other.WellFormed s.seen :=
    exchanges_setDelivery h.exchanges (wellFormed_stored he hdelivery)
  have hnew : Exchange.waiting { e with delivery := .stored answer } =
      truthy answer.csrfHeader := rfl
  cases hcsrf : answer.csrfCookie with
  | none =>
      have hjar : (s.jar.receive answer).csrf = s.jar.csrf := by
        rw [CookieJar.receive, hcsrf, Option.none_or]
      refine inStep_frame h hjar (fun token => session_receive h hproper)
        (fun userId => userIn_receive hproper hcsrf) hexchanges ?_ ?_
        (fun _ _ _ hholds => hholds)
      · apply exchanges_setDelivery
        · exact h.waiting
        · intro csrf hw
          rw [hnew, hproper.inSync, hcsrf] at hw
          cases hw
      · intro i hs
        exact settled_of_not_waiting hget (waiting_of_answered hdelivery) hs
  | some csrf =>
      have hjar : (s.jar.receive answer).csrf = some csrf := by
        rw [CookieJar.receive, hcsrf, Option.some_or]
      have htoken : IsCsrfToken csrf := hproper.token csrf hcsrf
      have hwaits : Exchange.waiting { e with delivery := .stored answer } = some csrf := by
        rw [hnew, hproper.inSync, hcsrf, truthy_of_isCsrfToken htoken]
      rcases hcond e answer csrf hget hdelivery hcsrf with ⟨hothers, htabs⟩
      constructor
      · exact fun token => session_receive h hproper
      · intro token hin
        rw [hjar] at hin
        cases hin
        exact htoken
      · exact hexchanges
      · apply exchanges_setDelivery
        · intro other hother token hw
          rw [hjar, hothers other hother token hw]
        · intro token hw
          rw [hwaits] at hw
          cases hw
          exact hjar
      · intro i userId token huser hholds hs
        by_cases htab : i = e.tab
        · have hnone := hs _ (mem_setDelivery hget) htab.symm
          rw [hwaits] at hnone
          cases hnone
        · rw [hjar, htabs i htab (settled_of_ne hget htab hs) userId token huser hholds]

theorem wellFormed_finished {e : Exchange} {seen : List Token} (h : e.WellFormed seen) :
    Exchange.WellFormed seen { e with delivery := .finished } where
  cookie := h.cookie
  answer := by
    rintro answer (ha | ha)
    · cases ha
    · cases ha

theorem setTab_self (i : Nat) (tab : ApiTab) : (s.setTab i tab).tabs i = tab :=
  if_pos rfl

theorem setTab_of_ne {i j : Nat} (tab : ApiTab) (h : j ≠ i) :
    (s.setTab i tab).tabs j = s.tabs j :=
  if_neg h

theorem finish_eq_some {tab : ApiTab} {call : ApiCall} {token : String}
    (h : (tab.finish call).csrfToken = some token) : tab.finish call = tab := by
  cases call with
  | logout => cases h
  | _ => rfl

theorem capture_cases {k : Nat} (hact : s.act lib (.capture k) = some s') :
    exists e answer, s.exchanges[k]? = some e ∧ e.delivery = .stored answer ∧
      s' = (s.setDelivery k e .finished).setTab e.tab
        (((s.tabs e.tab).captureCsrfToken answer (s.userIn s.jar)).finish e.call) := by
  rcases Option.bind_eq_some_iff.mp hact with ⟨e, hget, hrest⟩
  cases hdelivery : e.delivery with
  | stored answer =>
      rw [hdelivery] at hrest
      exact ⟨e, answer, hget, hdelivery, (Option.some.inj hrest).symm⟩
  | sent => rw [hdelivery] at hrest; cases hrest
  | answered answer => rw [hdelivery] at hrest; cases hrest
  | finished => rw [hdelivery] at hrest; cases hrest

theorem inStep_capture (h : s.InStep) {k : Nat}
    (hact : s.act lib (.capture k) = some s') : s'.InStep := by
  rcases capture_cases hact with ⟨e, answer, hget, hdelivery, rfl⟩
  have he : e ∈ s.exchanges := List.mem_of_getElem? hget
  constructor
  · exact h.session
  · exact h.jar
  · exact exchanges_setDelivery h.exchanges (wellFormed_finished (h.exchanges e he))
  · apply exchanges_setDelivery
    · exact h.waiting
    · intro csrf hw
      cases hw
  · intro i userId token huser hholds hs
    rcases hholds with ⟨htoken, hfor⟩
    by_cases htab : i = e.tab
    · rw [htab, setTab_self] at htoken hfor
      have hfinish := finish_eq_some htoken
      rw [hfinish] at htoken hfor
      cases hheader : truthy answer.csrfHeader with
      | none =>
          rw [ApiTab.captureCsrfToken, hheader] at htoken hfor
          have hwaiting : e.waiting = none := by rw [waiting_of_stored hdelivery, hheader]
          exact h.tabs e.tab userId token huser ⟨htoken, hfor⟩
            (settled_of_not_waiting hget hwaiting (htab ▸ hs))
      | some csrf =>
          rw [ApiTab.captureCsrfToken, hheader] at htoken
          cases htoken
          exact h.waiting e he token (by rw [waiting_of_stored hdelivery, hheader])
    · rw [setTab_of_ne _ htab] at htoken hfor
      exact h.tabs i userId token huser ⟨htoken, hfor⟩ (settled_of_ne hget htab hs)

theorem fail_cases {k : Nat} (hact : s.act lib (.fail k) = some s') :
    exists e, s.exchanges[k]? = some e ∧ e.waiting = none ∧
      s' = (s.setDelivery k e .finished).setTab e.tab ((s.tabs e.tab).finish e.call) := by
  rcases Option.bind_eq_some_iff.mp hact with ⟨e, hget, hrest⟩
  cases hdelivery : e.delivery with
  | sent =>
      rw [hdelivery] at hrest
      exact ⟨e, hget, waiting_of_sent hdelivery, (Option.some.inj hrest).symm⟩
  | answered answer =>
      rw [hdelivery] at hrest
      exact ⟨e, hget, waiting_of_answered hdelivery, (Option.some.inj hrest).symm⟩
  | stored answer => rw [hdelivery] at hrest; cases hrest
  | finished => rw [hdelivery] at hrest; cases hrest

theorem inStep_fail (h : s.InStep) {k : Nat} (hact : s.act lib (.fail k) = some s') :
    s'.InStep := by
  rcases fail_cases hact with ⟨e, hget, hwaiting, rfl⟩
  have he : e ∈ s.exchanges := List.mem_of_getElem? hget
  refine inStep_frame h rfl h.session (fun _ hu => hu) ?_ ?_ ?_ ?_
  · exact exchanges_setDelivery h.exchanges (wellFormed_finished (h.exchanges e he))
  · apply exchanges_setDelivery
    · exact h.waiting
    · intro csrf hw
      cases hw
  · intro i hs
    exact settled_of_not_waiting hget hwaiting hs
  · rintro i userId token ⟨htoken, hfor⟩
    by_cases htab : i = e.tab
    · rw [htab, setTab_self] at htoken hfor
      have hfinish := finish_eq_some htoken
      rw [hfinish] at htoken hfor
      rw [htab]
      exact ⟨htoken, hfor⟩
    · rw [setTab_of_ne _ htab] at htoken hfor
      exact ⟨htoken, hfor⟩

theorem inStep_act {a : ClientAction} (h : s.InStep) (hcond : s.Undisturbed a)
    (hact : s.act lib a = some s') : s'.InStep := by
  cases a with
  | tick now => exact inStep_tick h hact
  | send tab call => exact inStep_send h hact
  | handle k draws => exact inStep_handle h hact
  | store k => exact inStep_store h hcond hact
  | capture k => exact inStep_capture h hact
  | fail k => exact inStep_fail h hact

end Steps

/-!
# Two tabs
-/

def plainLibrary : AuthLibrary where
  lower := id
  hashPassword := fun password _ => password
  verifyPassword := fun passwordHash password => passwordHash = password

def newServer : AuthSite where
  site :=
    { world := { db := Database.empty, blobs := fun _ => none, now := 0 }
      sessions := fun _ => none }
  users := .empty

def registration : List ClientAction :=
  [.send 0 (.register ⟨"u", "password", by decide⟩), .handle 0 ⟨"s", "a", ""⟩, .store 0,
    .capture 0]

def secondSignIn : List ClientAction :=
  [.send 1 (.login ⟨"u", "password"⟩), .handle 1 ⟨"t", "b", ""⟩, .store 1, .capture 1]

theorem undisturbed_of_first {s : Client} {a : ClientAction}
    (hwaiting : forall e, e ∈ s.exchanges -> e.waiting = none)
    (htabs : forall i, (s.tabs i).csrfToken = none) : s.Undisturbed a := by
  cases a with
  | store k =>
      intro e answer csrf _ _ _
      constructor
      · intro other hother token hw
        rw [hwaiting other hother] at hw
        cases hw
      · intro i _ _ userId token _ hholds
        have htoken := hholds.left
        rw [htabs i] at htoken
        cases htoken
  | _ => exact True.intro

/-!
# Runs
-/

theorem inStep_start (server : AuthSite) : (Client.start server).InStep where
  session := fun _ h => nomatch h
  jar := fun _ h => nomatch h
  exchanges := fun _ h => nomatch h
  waiting := fun _ h => nomatch h
  tabs := fun _ _ _ h => nomatch h

theorem admits_of_inStep {s : Client} (h : s.InStep) : s.Admits := by
  intro i userId token huser hholds hflight
  have hsettled : s.Settled i := by
    intro e he htab
    cases hdelivery : e.delivery with
    | sent => exact waiting_of_sent hdelivery
    | answered answer => exact waiting_of_answered hdelivery
    | stored answer => exact absurd ⟨answer, .inr hdelivery⟩ (hflight e he htab)
    | finished => rw [Exchange.waiting, hdelivery]
  have hjar := h.tabs i userId token huser hholds hsettled
  have htoken := h.jar token hjar
  refine ⟨verifyCsrf_ok htoken hjar ?_, hjar⟩
  show truthy (s.tabs i).csrfToken = some token
  rw [hholds.left, truthy_of_isCsrfToken htoken]

/-- Where a response does bring a token past a tab that waits for none, that tab is locked
out. -/
theorem not_admits_of_overtaken {lib : AuthLibrary} {s s' : Client} {k i userId : Nat}
    {e : Exchange} {answer : AuthAnswer} {csrf token : String}
    (hact : s.act lib (.store k) = some s') (hget : s.exchanges[k]? = some e)
    (hdelivery : e.delivery = .answered answer) (hcsrf : answer.csrfCookie = some csrf)
    (hne : i ≠ e.tab)
    (hflight : forall other, other ∈ s.exchanges -> other.tab = i -> ¬ other.InFlight)
    (huser : s.userIn (s.jar.receive answer) = some userId) (hholds : s.Holds i userId token)
    (hother : token ≠ csrf) : ¬ s'.Admits := by
  rcases store_cases hact with ⟨e', answer', hget', hdelivery', rfl⟩
  have he : e' = e := Option.some.inj (hget'.symm.trans hget)
  subst he
  have hanswer : answer' = answer := Delivery.answered.inj (hdelivery'.symm.trans hdelivery)
  subst hanswer
  intro hadmits
  have hquiet : forall other,
      other ∈ (s.setDelivery k e' (.stored answer')).exchanges -> other.tab = i ->
        ¬ other.InFlight :=
    exchanges_setDelivery hflight fun htab => absurd htab.symm hne
  have hjar := (hadmits i userId token huser hholds hquiet).right
  have hreceive : (s.jar.receive answer').csrf = some csrf := by
    rw [CookieJar.receive, hcsrf, Option.some_or]
  rw [hreceive] at hjar
  exact hother (Option.some.inj hjar).symm

/-- A tab that holds a token for the user who is signed in is let through, in every state
of a run in which no response brings a token past another tab or past another response. -/
theorem double_submit_admits {lib : AuthLibrary} {server : AuthSite}
    {trace : List (Client × ClientAction)} {s : Client}
    (hrun : Run (Client.act lib) (.start server) trace s)
    (hcond : EachStep Client.Undisturbed trace) :
    EachStep (fun s _ => s.Admits) trace ∧ s.Admits := by
  have halways := hrun.always (inStep_start server) (fun _ _ _ => inStep_act) hcond
  exact ⟨fun step hstep => admits_of_inStep (halways.left step hstep),
    admits_of_inStep halways.right⟩

/-- A response that sets the cookie repeats the one of the jar and signs nobody in, or it
comes while nothing is about to be captured and no other tab has a token. -/
def Client.SignsInAlone (s : Client) : ClientAction -> Prop
  | .store k => forall e answer csrf, s.exchanges[k]? = some e ->
      e.delivery = .answered answer -> answer.csrfCookie = some csrf ->
        (answer.sessionCookie = none ∧ s.jar.csrf = some csrf) ∨
          ((forall other, other ∈ s.exchanges -> other.waiting = none) ∧
            forall i, i ≠ e.tab -> (s.tabs i).csrfToken = none)
  | _ => True

theorem undisturbed_of_signsInAlone {s : Client} {a : ClientAction} (h : s.InStep)
    (ha : s.SignsInAlone a) : s.Undisturbed a := by
  cases a with
  | store k =>
      intro e answer csrf hget hdelivery hcsrf
      rcases ha e answer csrf hget hdelivery hcsrf with ⟨hsession, hjar⟩ | ⟨hwaiting, htabs⟩
      · constructor
        · intro other hother token hw
          exact Option.some.inj ((h.waiting other hother token hw).symm.trans hjar)
        · intro i _ hs userId token huser hholds
          have hsame : s.userIn (s.jar.receive answer) = s.userIn s.jar := by
            unfold Client.userIn CookieJar.receive
            rw [hsession]
            rfl
          rw [hsame] at huser
          exact Option.some.inj ((h.tabs i userId token huser hholds hs).symm.trans hjar)
      · constructor
        · intro other hother token hw
          rw [hwaiting other hother] at hw
          cases hw
        · intro i hne _ userId token _ hholds
          have htoken := hholds.left
          rw [htabs i hne] at htoken
          cases htoken
  | _ => exact True.intro

/-- Nobody is locked out where a user signs in only while no other tab has a token, and no
answer to `me` is overtaken by a sign-in. -/
theorem admits_of_signsInAlone {lib : AuthLibrary} {server : AuthSite}
    {trace : List (Client × ClientAction)} {s : Client}
    (hrun : Run (Client.act lib) (.start server) trace s)
    (hcond : EachStep Client.SignsInAlone trace) :
    EachStep (fun s _ => s.Admits) trace ∧ s.Admits := by
  have halways := hrun.always (inStep_start server)
    (fun _ _ _ h ha => inStep_act h (undisturbed_of_signsInAlone h ha)) hcond
  exact ⟨fun step hstep => admits_of_inStep (halways.left step hstep),
    admits_of_inStep halways.right⟩

theorem double_submit_admits_registration :
    exists trace s, Run (Client.act plainLibrary) (.start newServer) trace s ∧
      s.Holds 0 1 "a" ∧ s.Admits := by
  let out := (follow (Client.act plainLibrary) (.start newServer) registration).getD
    ([], .start newServer)
  have hfollow : follow (Client.act plainLibrary) (.start newServer) registration =
      some (out.1, out.2) := rfl
  have hrun := run_of_follow hfollow
  refine ⟨out.1, out.2, hrun, ⟨rfl, rfl⟩, (double_submit_admits hrun ?_).right⟩
  refine List.forall_mem_cons.mpr ⟨True.intro, List.forall_mem_cons.mpr ⟨True.intro,
    List.forall_mem_cons.mpr ⟨undisturbed_of_first ?_ (fun _ => rfl),
      List.forall_mem_cons.mpr ⟨True.intro, List.forall_mem_nil _⟩⟩⟩⟩
  exact List.forall_mem_cons.mpr ⟨rfl, List.forall_mem_nil _⟩

theorem second_sign_in_locks_out :
    exists trace s, Run (Client.act plainLibrary) (.start newServer) trace s ∧
      trace.map Prod.snd = registration ++ secondSignIn ∧
      s.userIn s.jar = some 1 ∧ s.Holds 0 1 "a" ∧ s.jar.csrf = some "b" ∧
      (forall e, e ∈ s.exchanges -> e.delivery = .finished) ∧
      verifyCsrf (s.request 0 .mutate) =
        .error (.http 403 "csrf token missing or invalid") ∧ ¬ s.Admits := by
  have hfollow : exists trace s,
      follow (Client.act plainLibrary) (.start newServer) (registration ++ secondSignIn) =
        some (trace, s) ∧ trace.map Prod.snd = registration ++ secondSignIn ∧
      s.userIn s.jar = some 1 ∧ s.Holds 0 1 "a" ∧ s.jar.csrf = some "b" ∧
      s.exchanges.map Exchange.delivery = [.finished, .finished] ∧
      verifyCsrf (s.request 0 .mutate) =
        .error (.http 403 "csrf token missing or invalid") :=
    ⟨_, _, rfl, rfl, rfl, ⟨rfl, rfl⟩, rfl, rfl, rfl⟩
  rcases hfollow with ⟨trace, s, hfollow, htrace, huser, hholds, hcookie, hlist, hverify⟩
  have hfinished : forall e, e ∈ s.exchanges -> e.delivery = .finished := by
    intro e he
    have hmem := List.mem_map_of_mem (f := Exchange.delivery) he
    rw [hlist] at hmem
    simpa using hmem
  refine ⟨trace, s, run_of_follow hfollow, htrace, huser, hholds, hcookie, hfinished, hverify,
    ?_⟩
  intro hadmits
  have hflight : forall e, e ∈ s.exchanges -> e.tab = 0 -> ¬ e.InFlight := by
    rintro e he _ ⟨answer, ha | ha⟩
    · exact Delivery.noConfusion ((hfinished e he).symm.trans ha)
    · exact Delivery.noConfusion ((hfinished e he).symm.trans ha)
  have hok := (hadmits 0 1 "a" huser hholds hflight).left
  rw [hverify] at hok
  cases hok

end ChatDoc
