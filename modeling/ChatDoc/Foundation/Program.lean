/-!
# Programs over atomic calls

A program is a tree of calls to its environment.  Each call is one atomic
request; the environment answers with a reply or makes the call raise, and the
rest of the program continues from that answer.  Exceptions propagate through
sequencing and are caught by handlers, as in the languages whose code is
modelled here.

`Safe` is the program logic of the tree: an obligation that holds at every
call the program makes, and one postcondition for each way it can end.  Its
rules follow the program's own constructors, so a proof about a program is
assembled from one lemma for each function it calls.
-/

namespace Foundation

/-- The requests a program can make, their replies, and what a call can raise. -/
structure Interface where
  Request : Type
  Reply : Request -> Type
  Fault : Type

abbrev Interface.Answer (I : Interface) (request : I.Request) : Type :=
  Except I.Fault (I.Reply request)

inductive Program (I : Interface) (alpha : Type) : Type where
  | ret (value : alpha)
  | raise (fault : I.Fault)
  | call (request : I.Request)
      (next : I.Answer request -> Program I alpha)

/-- A transition semantics for the requests of an interface. -/
abbrev Semantics (I : Interface) (sigma : Type) : Type :=
  (request : I.Request) -> sigma -> I.Answer request -> sigma -> Prop

namespace Program

variable {I : Interface} {alpha beta sigma : Type}

/-!
# Sequencing and handlers
-/

def bind : Program I alpha -> (alpha -> Program I beta) -> Program I beta
  | ret a, f => f a
  | raise e, _ => raise e
  | call r next, f => call r fun answer => bind (next answer) f

instance : Monad (Program I) where
  pure := ret
  bind := bind

def handle : Program I alpha -> (I.Fault -> Program I alpha) -> Program I alpha
  | ret a, _ => ret a
  | raise e, handler => handler e
  | call r next, handler => call r fun answer => handle (next answer) handler

def ofAnswer : Except I.Fault alpha -> Program I alpha
  | .ok a => ret a
  | .error e => raise e

def perform (r : I.Request) : Program I (I.Reply r) :=
  call r ofAnswer

def Ended : Program I alpha -> Prop
  | ret _ => True
  | raise _ => True
  | call _ _ => False

instance (p : Program I alpha) : Decidable p.Ended :=
  match p with
  | ret _ => .isTrue True.intro
  | raise _ => .isTrue True.intro
  | call _ _ => .isFalse id

theorem exists_call_of_not_ended {p : Program I alpha} (h : ¬ Ended p) :
    exists r k, p = call r k := by
  cases p with
  | ret a => exact absurd True.intro h
  | raise e => exact absurd True.intro h
  | call r k => exact ⟨r, k, rfl⟩

@[simp] theorem pure_eq_ret (a : alpha) :
    (pure a : Program I alpha) = ret a := rfl

@[simp] theorem bind_eq (p : Program I alpha) (f : alpha -> Program I beta) :
    p >>= f = p.bind f := rfl

@[simp] theorem ret_bind (a : alpha) (f : alpha -> Program I beta) :
    (ret a).bind f = f a := rfl

theorem bind_ret (p : Program I alpha) : p >>= ret = p := by
  induction p with
  | ret a => rfl
  | raise e => rfl
  | call r next ih => exact congrArg (call r) (funext ih)

@[simp] theorem raise_bind (e : I.Fault) (f : alpha -> Program I beta) :
    (raise e).bind f = raise e := rfl

/-!
# Safety of a program

The obligation `req` holds of each request in the state where it is made.
The two postconditions speak of normal and exceptional ends.
-/

def Safe (sem : Semantics I sigma) (req : I.Request -> sigma -> Prop)
    (post : alpha -> sigma -> Prop) (fail : I.Fault -> sigma -> Prop) :
    Program I alpha -> sigma -> Prop
  | ret a, s => post a s
  | raise e, s => fail e s
  | call r next, s =>
      req r s ∧
        forall answer s', sem r s answer s' ->
          Safe sem req post fail (next answer) s'

section Rules

variable {sem : Semantics I sigma} {req : I.Request -> sigma -> Prop}
  {post : alpha -> sigma -> Prop} {fail : I.Fault -> sigma -> Prop}
  {p : Program I alpha} {s : sigma}

theorem safe_mono {post' : alpha -> sigma -> Prop}
    {fail' : I.Fault -> sigma -> Prop}
    (h : Safe sem req post fail p s)
    (hpost : forall a s', post a s' -> post' a s')
    (hfail : forall e s', fail e s' -> fail' e s') :
    Safe sem req post' fail' p s := by
  induction p generalizing s with
  | ret a => exact hpost a s h
  | raise e => exact hfail e s h
  | call r next ih =>
      refine ⟨h.left, ?_⟩
      intro answer s' hsem
      exact ih answer (h.right answer s' hsem)

theorem safe_bind {f : alpha -> Program I beta}
    {post : beta -> sigma -> Prop}
    (h : Safe sem req (fun a s' => Safe sem req post fail (f a) s') fail p s) :
    Safe sem req post fail (p >>= f) s := by
  induction p generalizing s with
  | ret a => exact h
  | raise e => exact h
  | call r next ih =>
      refine ⟨h.left, ?_⟩
      intro answer s' hsem
      exact ih answer (h.right answer s' hsem)

theorem safe_handle {handler : I.Fault -> Program I alpha}
    (h : Safe sem req post
      (fun e s' => Safe sem req post fail (handler e) s') p s) :
    Safe sem req post fail (p.handle handler) s := by
  induction p generalizing s with
  | ret a => exact h
  | raise e => exact h
  | call r next ih =>
      refine ⟨h.left, ?_⟩
      intro answer s' hsem
      exact ih answer (h.right answer s' hsem)

theorem safe_perform {r : I.Request}
    {post : I.Reply r -> sigma -> Prop}
    (hreq : req r s)
    (hpost : forall a s', sem r s (.ok a) s' -> post a s')
    (hfail : forall e s', sem r s (.error e) s' -> fail e s') :
    Safe sem req post fail (perform r) s := by
  refine ⟨hreq, ?_⟩
  intro answer s' hsem
  cases answer with
  | ok a => exact hpost a s' hsem
  | error e => exact hfail e s' hsem

end Rules

/-!
# Partial executions

A run of a program can stop at any call: the process is killed there, or has
not been scheduled again.  The trace lists the calls answered so far.
-/

structure Event (I : Interface) where
  request : I.Request
  answer : I.Answer request

inductive Steps (sem : Semantics I sigma) :
    Program I alpha -> sigma -> List (Event I) ->
      Program I alpha -> sigma -> Prop where
  | refl (p : Program I alpha) (s : sigma) : Steps sem p s [] p s
  | call {r : I.Request} {next : I.Answer r -> Program I alpha}
      {answer : I.Answer r} {s s' t : sigma} {events : List (Event I)}
      {q : Program I alpha} :
      sem r s answer s' ->
      Steps sem (next answer) s' events q t ->
      Steps sem (.call r next) s (⟨r, answer⟩ :: events) q t

section Steps

variable {sem : Semantics I sigma} {req : I.Request -> sigma -> Prop}
  {post : alpha -> sigma -> Prop} {fail : I.Fault -> sigma -> Prop}

theorem steps_nil {p q : Program I alpha} {s t : sigma}
    (h : Steps sem p s [] q t) : p = q ∧ s = t := by
  cases h with
  | refl _ _ => exact ⟨rfl, rfl⟩

theorem steps_cons {p q : Program I alpha} {s t : sigma}
    {r : I.Request} {answer : I.Answer r} {events : List (Event I)}
    (h : Steps sem p s (⟨r, answer⟩ :: events) q t) :
    exists next s', p = call r next ∧ sem r s answer s' ∧
      Steps sem (next answer) s' events q t := by
  cases h with
  | call hsem hrest => exact ⟨_, _, rfl, hsem, hrest⟩

theorem steps_trans {p q r : Program I alpha} {s t v : sigma}
    {events events' : List (Event I)} (h : Steps sem p s events q t)
    (h' : Steps sem q t events' r v) : Steps sem p s (events ++ events') r v := by
  induction h with
  | refl p s => exact h'
  | call hsem _ ih => exact .call hsem (ih h')

theorem steps_bind {p q : Program I alpha} {f : alpha -> Program I beta} {s t : sigma}
    {events : List (Event I)} (h : Steps sem p s events q t) :
    Steps sem (p >>= f) s events (q >>= f) t := by
  induction h with
  | refl p s => exact .refl _ s
  | call hsem _ ih => exact .call hsem ih

theorem steps_handle {p q : Program I alpha} {handler : I.Fault -> Program I alpha}
    {s t : sigma} {events : List (Event I)} (h : Steps sem p s events q t) :
    Steps sem (p.handle handler) s events (q.handle handler) t := by
  induction h with
  | refl p s => exact .refl _ s
  | call hsem _ ih => exact .call hsem ih

theorem steps_ret_bind {p : Program I alpha} {f : alpha -> Program I beta}
    {q : Program I beta} {a : alpha} {s t v : sigma} {events events' : List (Event I)}
    (h : Steps sem p s events (ret a) t) (h' : Steps sem (f a) t events' q v) :
    Steps sem (p >>= f) s (events ++ events') q v :=
  steps_trans (steps_bind h) h'

theorem last_call_of_steps {p q : Program I alpha} {s t : sigma}
    {events : List (Event I)} {r : I.Request} {answer : I.Answer r}
    (hsteps : Steps sem p s (events ++ [⟨r, answer⟩]) q t)
    (h : Safe sem req post fail p s) :
    exists before, req r before ∧ sem r before answer t := by
  induction events generalizing p s with
  | nil =>
      rcases steps_cons hsteps with ⟨next, s', hp, hsem, hrest⟩
      rw [hp] at h
      rw [← (steps_nil hrest).right]
      exact ⟨s, h.left, hsem⟩
  | cons event events ih =>
      rcases event with ⟨r', answer'⟩
      rcases steps_cons hsteps with ⟨next, s', hp, hsem, hrest⟩
      rw [hp] at h
      exact ih hrest (h.right _ _ hsem)

theorem steps_invariant {inv : sigma -> Prop} {p q : Program I alpha}
    {s t : sigma} {events : List (Event I)}
    (hcall : forall r s answer s', sem r s answer s' -> inv s -> inv s')
    (hsteps : Steps sem p s events q t) (h : inv s) : inv t := by
  induction hsteps with
  | refl p s => exact h
  | call hsem _ ih => exact ih (hcall _ _ _ _ hsem h)

/-- A program that is safe in an abstract semantics runs there as it does in a
concrete one that simulates the calls it is allowed to make. -/
theorem steps_of_simulation {tau : Type} {concrete : Semantics I tau}
    (shows : tau -> sigma -> Prop) {p q : Program I alpha} {c d : tau}
    {s : sigma} {events : List (Event I)}
    (hsimulates : forall r c s answer c', shows c s -> req r s ->
      concrete r c answer c' -> exists s', sem r s answer s' ∧ shows c' s')
    (hsteps : Steps concrete p c events q d) (hshows : shows c s)
    (h : Safe sem req post fail p s) :
    exists t, Steps sem p s events q t ∧ shows d t := by
  induction hsteps generalizing s with
  | refl p c => exact ⟨s, .refl p s, hshows⟩
  | call hsem _ ih =>
      rcases hsimulates _ _ _ _ _ hshows h.left hsem with ⟨s', hcall, hshows'⟩
      rcases ih hshows' (h.right _ _ hcall) with ⟨t, hrest, ht⟩
      exact ⟨t, .call hcall hrest, ht⟩

def advance (step : (r : I.Request) -> sigma -> I.Answer r × sigma) :
    Nat -> Program I alpha -> sigma -> List (Event I) × Program I alpha × sigma
  | calls + 1, call r next, s =>
      let out := step r s
      let rest := advance step calls (next out.1) out.2
      (⟨r, out.1⟩ :: rest.1, rest.2)
  | _, p, s => ([], p, s)

theorem steps_advance {step : (r : I.Request) -> sigma -> I.Answer r × sigma}
    (hstep : forall r s, sem r s (step r s).1 (step r s).2) (calls : Nat)
    (p : Program I alpha) (s : sigma) :
    Steps sem p s (advance step calls p s).1 (advance step calls p s).2.1
      (advance step calls p s).2.2 := by
  induction calls generalizing p s with
  | zero => exact .refl p s
  | succ calls ih =>
      cases p with
      | ret a => exact .refl _ s
      | raise e => exact .refl _ s
      | call r next => exact .call (hstep r s) (ih (next (step r s).1) (step r s).2)

end Steps

end Program
end Foundation
