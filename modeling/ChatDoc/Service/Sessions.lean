import ChatDoc.Store.Schema
import ChatDoc.Foundation.Transition

/-!
# Sessions

The session functions of `api/auth.py` and the requests that call them: login and
registration, `get_current_user_id` of `api/deps.py`, and logout.  The
connections commit by themselves, so that the statements of concurrent requests
interleave one by one.  They all read one clock.
-/

namespace ChatDoc

open Foundation

abbrev Token := String

/-- `SESSION_TTL`, twelve hours. -/
def sessionTtl : Time := seconds (12 * 3600)

/-- `ABSOLUTE_SESSION_TTL`, fourteen days. -/
def absoluteSessionTtl : Time := seconds (14 * 24 * 3600)

structure SessionRow where
  userId : Nat
  createdAt : Time
  expiresAt : Time
deriving DecidableEq

/-!
# Requests
-/

inductive AuthRequest where
  | login (userId : Nat)
  | authenticate (token : Token)
  | logout (token : Token)
deriving DecidableEq

def AuthRequest.token : AuthRequest -> Option Token
  | .login _ => none
  | .authenticate token => some token
  | .logout token => some token

/-- Where a request stands: before a statement, or at the clock with what its
last `SELECT` has returned. -/
inductive AuthPoint where
  | creating (userId : Nat)
  | inserting (userId : Nat) (token : Token) (expiresAt : Time)
  | selecting (token : Token)
  | selected (token : Token) (row : Option SessionRow)
  | expiring (token : Token)
  | touching (token : Token)
  | touchSelected (token : Token) (createdAt : Option Time)
  | updating (token : Token) (expiresAt : Time)
  | deleting (token : Token)
  | finished
deriving DecidableEq

def AuthRequest.start : AuthRequest -> AuthPoint
  | .login userId => .creating userId
  | .authenticate token => .selecting token
  | .logout token => .deleting token

def AuthPoint.token : AuthPoint -> Option Token
  | .creating _ => none
  | .inserting _ token _ => some token
  | .selecting token => some token
  | .selected token _ => some token
  | .expiring token => some token
  | .touching token => some token
  | .touchSelected token _ => some token
  | .updating token _ => some token
  | .deleting token => some token
  | .finished => none

/-!
# Statements
-/

structure AuthState where
  now : Time
  sessions : Token -> Option SessionRow
  /-- Tokens that were drawn or that a request has presented. -/
  seen : List Token
  requests : List AuthPoint

inductive AuthAction where
  | tick (now : Time)
  | request (r : AuthRequest)
  | step (i : Nat) (drawn : Token)
deriving DecidableEq

namespace AuthState

def init : AuthState where
  now := 0
  sessions := fun _ => none
  seen := []
  requests := []

def setRow (s : AuthState) (token : Token) (row : Option SessionRow) : AuthState :=
  { s with sessions := fun t => if t = token then row else s.sessions t }

def Undrawn (s : AuthState) (token : Token) : Bool :=
  s.requests.all fun
    | .inserting _ t _ => t ≠ token
    | _ => true

def expired (row : SessionRow) (now : Time) : Bool :=
  row.expiresAt < now ∨ row.createdAt + absoluteSessionTtl < now

/-- The next statement of a request, with the token that `token_urlsafe` would
give.  It gives one that nobody has seen. -/
def next (s : AuthState) (drawn : Token) : AuthPoint -> Option (AuthState × AuthPoint)
  | .creating userId =>
      if drawn ∈ s.seen then none
      else some ({ s with seen := drawn :: s.seen },
        .inserting userId drawn (s.now + sessionTtl))
  | .inserting userId token expiresAt =>
      some (s.setRow token (some ⟨userId, s.now, expiresAt⟩), .finished)
  | .selecting token => some (s, .selected token (s.sessions token))
  | .selected _ none => some (s, .finished)
  | .selected token (some row) =>
      if expired row s.now then some (s, .expiring token) else some (s, .touching token)
  | .expiring token => some (s.setRow token none, .finished)
  | .touching token =>
      some (s, .touchSelected token ((s.sessions token).map SessionRow.createdAt))
  | .touchSelected _ none => some (s, .finished)
  | .touchSelected token (some createdAt) =>
      some (s, .updating token (min (s.now + sessionTtl) (createdAt + absoluteSessionTtl)))
  | .updating token expiresAt =>
      some (s.setRow token ((s.sessions token).map fun row =>
        { row with expiresAt := expiresAt }), .finished)
  | .deleting token => some (s.setRow token none, .finished)
  | .finished => none

/-- The clock goes on, a request comes, or a request takes its next statement.
Nobody presents a token before it is handed out. -/
def act (s : AuthState) : AuthAction -> Option AuthState
  | .tick now => if s.now ≤ now then some { s with now := now } else none
  | .request r =>
      if r.token.all s.Undrawn then
        some { s with
          seen := r.token.toList ++ s.seen
          requests := s.requests ++ [r.start] }
      else none
  | .step i drawn =>
      (s.requests[i]?).bind fun point =>
        (s.next drawn point).map fun out =>
          { out.1 with requests := s.requests.set i out.2 }

/-!
# Events
-/

inductive Event where
  | created (userId : Nat) (token : Token)
  | selected (i : Nat) (token : Token)
  | accepted (i : Nat) (userId : Nat) (token : Token)
  | touched (i : Nat) (token : Token)
  | deleted (token : Token)
deriving DecidableEq

def pointEvent (now : Time) (i : Nat) : AuthPoint -> Option Event
  | .inserting userId token _ => some (.created userId token)
  | .selecting token => some (.selected i token)
  | .selected token (some row) =>
      if expired row now then none else some (.accepted i row.userId token)
  | .updating token _ => some (.touched i token)
  | .deleting token => some (.deleted token)
  | _ => none

def event (step : AuthState × AuthAction) : Option Event :=
  match step.2 with
  | .step i _ => (step.1.requests[i]?).bind (pointEvent step.1.now i)
  | _ => none

end AuthState
end ChatDoc
