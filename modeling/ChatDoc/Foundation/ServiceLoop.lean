import ChatDoc.Foundation.Program

/-!
# Service loops

A service runs one program over and over.  When an iteration ends normally the
next one starts; an exception that leaves the iteration ends the service.

The environment is an oracle that answers the call made at each point of time,
so quantifying over oracles ranges over every sequence of replies and every
pattern of exceptions.
-/

namespace Foundation
namespace Program

variable {I : Interface} {alpha beta : Type}

/-!
# Strict and guarded calls

A call is strict when its exception leaves the program at once.  A program
raises exactly on its strict calls when every other exception is handled
inside it.
-/

def Avoids (strict : I.Request -> Prop) : Program I alpha -> Prop
  | ret _ => True
  | raise _ => True
  | call r next => ¬ strict r ∧ forall answer, Avoids strict (next answer)

/-- The program raises when, and only when, one of its strict calls does. -/
def RaisesExactly (strict : I.Request -> Prop) : Program I alpha -> Prop
  | ret _ => True
  | raise _ => False
  | call r next =>
      (forall a, RaisesExactly strict (next (.ok a))) ∧
      (strict r -> forall e, next (.error e) = raise e) ∧
      (¬ strict r -> forall e, RaisesExactly strict (next (.error e)))

section Rules

variable {strict : I.Request -> Prop}

theorem avoids_bind {p : Program I alpha} {f : alpha -> Program I beta}
    (hp : Avoids strict p) (hf : forall a, Avoids strict (f a)) :
    Avoids strict (p >>= f) := by
  induction p with
  | ret a => exact hf a
  | raise e => exact True.intro
  | call r next ih =>
      exact ⟨hp.left, fun answer => ih answer (hp.right answer)⟩

theorem avoids_handle {p : Program I alpha} {handler : I.Fault -> Program I alpha}
    (hp : Avoids strict p) (hh : forall e, Avoids strict (handler e)) :
    Avoids strict (p.handle handler) := by
  induction p with
  | ret a => exact True.intro
  | raise e => exact hh e
  | call r next ih =>
      exact ⟨hp.left, fun answer => ih answer (hp.right answer)⟩

theorem avoids_perform {r : I.Request} (hr : ¬ strict r) :
    Avoids strict (perform r) := by
  refine ⟨hr, ?_⟩
  intro answer
  cases answer <;> exact True.intro

theorem raisesExactly_perform {r : I.Request} (hr : strict r) :
    RaisesExactly strict (perform r) := by
  refine ⟨fun _ => True.intro, fun _ _ => rfl, ?_⟩
  intro hnot
  exact absurd hr hnot

theorem raisesExactly_bind {p : Program I alpha} {f : alpha -> Program I beta}
    (hp : RaisesExactly strict p) (hf : forall a, RaisesExactly strict (f a)) :
    RaisesExactly strict (p >>= f) := by
  induction p with
  | ret a => exact hf a
  | raise e => exact hp.elim
  | call r next ih =>
      rcases hp with ⟨hok, hstrict, hguarded⟩
      refine ⟨fun a => ih _ (hok a), ?_, fun hr e => ih _ (hguarded hr e)⟩
      intro hr e
      show (next (.error e)).bind f = raise e
      rw [hstrict hr e, raise_bind]

theorem raisesExactly_handle {p : Program I alpha}
    {handler : I.Fault -> Program I alpha}
    (hp : Avoids strict p) (hh : forall e, RaisesExactly strict (handler e)) :
    RaisesExactly strict (p.handle handler) := by
  induction p with
  | ret a => exact True.intro
  | raise e => exact hh e
  | call r next ih =>
      refine ⟨fun a => ih _ (hp.right _), ?_, fun _ e => ih _ (hp.right _)⟩
      intro hr
      exact absurd hr hp.left

end Rules

/-!
# Running the loop
-/

inductive LoopState (I : Interface) where
  | running (rest : Program I Unit)
  | stopped (fault : I.Fault)

namespace LoopState

def resume (body : Program I Unit) : Program I Unit -> LoopState I
  | ret _ => running body
  | raise e => stopped e
  | call r next => running (call r next)

def next (body : Program I Unit) (answer : (r : I.Request) -> I.Answer r) :
    LoopState I -> LoopState I
  | running (call r k) => resume body (k (answer r))
  | st => st

/-- The loop after the oracle has answered the first `n` calls. -/
def after (body : Program I Unit)
    (oracle : Nat -> (r : I.Request) -> I.Answer r) : Nat -> LoopState I
  | 0 => resume body body
  | n + 1 => (after body oracle n).next body (oracle n)

end LoopState

open LoopState

section Loop

variable {strict : I.Request -> Prop} {body : Program I Unit}
  {oracle : Nat -> (r : I.Request) -> I.Answer r}

def StrictCallsAnswered (strict : I.Request -> Prop) (body : Program I Unit)
    (oracle : Nat -> (r : I.Request) -> I.Answer r) : Prop :=
  forall n r k, after body oracle n = running (call r k) -> strict r ->
    exists a, oracle n r = .ok a

theorem after_succ_of_running {n : Nat} {r : I.Request}
    {k : I.Answer r -> Program I Unit}
    (h : after body oracle n = running (call r k)) :
    after body oracle (n + 1) = resume body (k (oracle n r)) := by
  show (after body oracle n).next body (oracle n) = _
  rw [h]
  rfl

theorem after_stopped {n : Nat} {e : I.Fault}
    (h : after body oracle n = stopped e) (d : Nat) :
    after body oracle (n + d) = stopped e := by
  induction d with
  | zero => exact h
  | succ d ih =>
      show (after body oracle (n + d)).next body (oracle (n + d)) = _
      rw [ih]
      rfl

theorem raisesExactly_answer {r : I.Request} {k : I.Answer r -> Program I Unit}
    (hp : RaisesExactly strict (call r k)) (answer : I.Answer r) :
    RaisesExactly strict (k answer) ∨
      exists e, strict r ∧ answer = .error e ∧ k answer = raise e := by
  cases answer with
  | ok a => exact Or.inl (hp.left a)
  | error e =>
      by_cases hr : strict r
      · exact Or.inr ⟨e, hr, rfl, hp.right.left hr e⟩
      · exact Or.inl (hp.right.right hr e)

theorem running_call {p : Program I Unit} {n : Nat}
    (hbody : RaisesExactly strict body) (hcall : ¬ Ended body)
    (hn : after body oracle n = resume body p) (hp : RaisesExactly strict p) :
    exists r k, after body oracle n = running (call r k) ∧
      RaisesExactly strict (call r k) := by
  cases p with
  | ret a =>
      rcases exists_call_of_not_ended hcall with ⟨r, k, hb⟩
      subst hb
      exact ⟨r, k, hn, hbody⟩
  | raise e => exact hp.elim
  | call r k => exact ⟨r, k, hn, hp⟩

/-- Every state of the loop is the start of a rest of the body that raises
exactly on strict calls, or the loop has stopped. -/
theorem after_cases (hbody : RaisesExactly strict body) (hcall : ¬ Ended body)
    (n : Nat) :
    (exists p, after body oracle n = resume body p ∧ RaisesExactly strict p) ∨
      exists e, after body oracle n = stopped e := by
  induction n with
  | zero => exact Or.inl ⟨body, rfl, hbody⟩
  | succ n ih =>
      rcases ih with ⟨p, hp, hexact⟩ | ⟨e, he⟩
      · rcases running_call hbody hcall hp hexact with ⟨r, k, hn, hk⟩
        rw [after_succ_of_running hn]
        rcases raisesExactly_answer hk (oracle n r) with hnext | ⟨e, _, _, hraise⟩
        · exact Or.inl ⟨_, rfl, hnext⟩
        · rw [hraise]
          exact Or.inr ⟨e, rfl⟩
      · exact Or.inr ⟨e, after_stopped he 1⟩

theorem after_of_strictCallsAnswered
    (hbody : RaisesExactly strict body) (hcall : ¬ Ended body)
    (hstrict : StrictCallsAnswered strict body oracle) (n : Nat) :
    exists p, after body oracle n = resume body p ∧ RaisesExactly strict p := by
  induction n with
  | zero => exact ⟨body, rfl, hbody⟩
  | succ n ih =>
      rcases ih with ⟨p, hp, hexact⟩
      rcases running_call hbody hcall hp hexact with ⟨r, k, hn, hk⟩
      refine ⟨k (oracle n r), after_succ_of_running hn, ?_⟩
      rcases raisesExactly_answer hk (oracle n r) with hnext | ⟨e, hr, hanswer, _⟩
      · exact hnext
      · rcases hstrict n r k hn hr with ⟨a, ha⟩
        rw [ha] at hanswer
        cases hanswer

theorem exists_restart
    (hstrict : StrictCallsAnswered strict body oracle)
    {p : Program I Unit} {n : Nat}
    (hn : after body oracle n = resume body p) (hp : RaisesExactly strict p) :
    exists m, n ≤ m ∧ after body oracle m = running body := by
  induction p generalizing n with
  | ret a => exact ⟨n, Nat.le_refl n, hn⟩
  | raise e => exact hp.elim
  | call r k ih =>
      have hsucc := after_succ_of_running hn
      rcases raisesExactly_answer hp (oracle n r) with hnext | ⟨e, hr, hanswer, _⟩
      · rcases ih _ hsucc hnext with ⟨m, hm, hbody⟩
        exact ⟨m, Nat.le_trans (Nat.le_succ n) hm, hbody⟩
      · rcases hstrict n r k hn hr with ⟨a, ha⟩
        rw [ha] at hanswer
        cases hanswer

/-- The loop starts iteration after iteration exactly when the environment
never answers one of its strict calls by an exception. -/
theorem restarts_forever_iff
    (hbody : RaisesExactly strict body) (hcall : ¬ Ended body) :
    (forall n, exists m, n ≤ m ∧ after body oracle m = running body) <->
      StrictCallsAnswered strict body oracle := by
  constructor
  · intro hrestarts n r k hn hr
    cases hanswer : oracle n r with
    | ok a => exact ⟨a, rfl⟩
    | error e =>
        exfalso
        have hk : RaisesExactly strict (call r k) := by
          have hcases :
              (exists p, after body oracle n = resume body p ∧
                RaisesExactly strict p) ∨
                exists e, after body oracle n = stopped e :=
            after_cases hbody hcall n
          rcases hcases with ⟨p, hp, hexact⟩ | ⟨e', he'⟩
          · rcases running_call hbody hcall hp hexact with ⟨r', k', hn', hk'⟩
            rw [hn] at hn'
            cases hn'
            exact hk'
          · rw [hn] at he'
            cases he'
        have hstop : after body oracle (n + 1) = stopped e := by
          rw [after_succ_of_running hn, hanswer, hk.right.left hr e]
          rfl
        rcases hrestarts (n + 1) with ⟨m, hm, hrun⟩
        rw [← Nat.add_sub_of_le hm, after_stopped hstop] at hrun
        cases hrun
  · intro hstrict n
    rcases after_of_strictCallsAnswered hbody hcall hstrict n with ⟨p, hp, hexact⟩
    exact exists_restart hstrict hp hexact

end Loop
end Program
end Foundation
