import ChatDoc.Foundation.Program

/-!
# Programs with their history

Some properties of a program speak of the calls it has made so far rather than
of the state they left behind.  The history is kept beside the state, and the
rules of the program logic carry over to invariants of both.
-/

namespace Foundation
namespace Program

variable {I : Interface} {alpha beta sigma : Type} {sem : Semantics I sigma}

def recorded (sem : Semantics I sigma) : Semantics I (List (Event I) × sigma) :=
  fun r s answer s' =>
    sem r s.2 answer s'.2 ∧ s'.1 = s.1 ++ [⟨r, answer⟩]

/-- The invariant holds at every call of a program and when it raises, and the
postcondition when it returns. -/
abbrev Keeps (sem : Semantics I sigma) (inv : List (Event I) -> sigma -> Prop)
    (post : alpha -> List (Event I) -> sigma -> Prop) (p : Program I alpha)
    (past : List (Event I)) (s : sigma) : Prop :=
  Safe (recorded sem) (fun _ s => inv s.1 s.2) (fun a s => post a s.1 s.2)
    (fun _ s => inv s.1 s.2) p (past, s)

variable {inv : List (Event I) -> sigma -> Prop} {past : List (Event I)} {s : sigma}

theorem keeps_bind {p : Program I alpha} {f : alpha -> Program I beta}
    {post : beta -> List (Event I) -> sigma -> Prop}
    (h : Keeps sem inv (fun a past s => Keeps sem inv post (f a) past s) p past s) :
    Keeps sem inv post (p >>= f) past s :=
  safe_bind h

theorem keeps_mono {p : Program I alpha}
    {post post' : alpha -> List (Event I) -> sigma -> Prop}
    (h : Keeps sem inv post p past s)
    (hpost : forall a past s, post a past s -> post' a past s) :
    Keeps sem inv post' p past s :=
  safe_mono h (fun a s' => hpost a s'.1 s'.2) fun _ _ hfail => hfail

theorem keeps_perform {r : I.Request}
    {post : I.Reply r -> List (Event I) -> sigma -> Prop}
    (hinv : inv past s)
    (hpost : forall a s', sem r s (.ok a) s' -> post a (past ++ [⟨r, .ok a⟩]) s')
    (hfail : forall e s', sem r s (.error e) s' -> inv (past ++ [⟨r, .error e⟩]) s') :
    Keeps sem inv post (perform r) past s := by
  refine safe_perform hinv ?_ ?_
  · intro a s' hsem
    rcases s' with ⟨past', s'⟩
    rcases hsem with ⟨hcall, hpast⟩
    cases hpast
    exact hpost a s' hcall
  · intro e s' hsem
    rcases s' with ⟨past', s'⟩
    rcases hsem with ⟨hcall, hpast⟩
    cases hpast
    exact hfail e s' hcall

theorem keeps_attempt {r : I.Request} {handler : I.Fault -> Program I (I.Reply r)}
    {post : I.Reply r -> List (Event I) -> sigma -> Prop}
    (hinv : inv past s)
    (hpost : forall a s', sem r s (.ok a) s' -> post a (past ++ [⟨r, .ok a⟩]) s')
    (hfail : forall e s', sem r s (.error e) s' ->
      Keeps sem inv post (handler e) (past ++ [⟨r, .error e⟩]) s') :
    Keeps sem inv post ((perform r).handle handler) past s := by
  apply safe_handle
  refine safe_perform hinv ?_ ?_
  · intro a s' hsem
    rcases s' with ⟨past', s'⟩
    rcases hsem with ⟨hcall, hpast⟩
    cases hpast
    exact hpost a s' hcall
  · intro e s' hsem
    rcases s' with ⟨past', s'⟩
    rcases hsem with ⟨hcall, hpast⟩
    cases hpast
    exact hfail e s' hcall

theorem inv_of_steps {p q : Program I alpha} {t : sigma} {events : List (Event I)}
    (hsteps : Steps sem p s events q t)
    (h : Keeps sem inv (fun _ past s => inv past s) p past s) :
    inv (past ++ events) t := by
  induction hsteps generalizing past with
  | refl p s =>
      rw [List.append_nil]
      cases p with
      | ret a => exact h
      | raise e => exact h
      | call r next => exact h.left
  | @call r next answer s s' t events q hsem _ ih =>
      have hnext := ih (h.right answer (past ++ [⟨r, answer⟩], s') ⟨hsem, rfl⟩)
      rw [List.append_assoc] at hnext
      exact hnext

/-!
# Programs that only make calls of a kind
-/

def AllCalls (kind : Event I -> Prop) : Program I alpha -> Prop
  | ret _ => True
  | raise _ => True
  | call r next => forall answer, kind ⟨r, answer⟩ ∧ AllCalls kind (next answer)

variable {kind : Event I -> Prop} {p : Program I alpha}

theorem allCalls_perform {r : I.Request} (h : forall answer, kind ⟨r, answer⟩) :
    AllCalls kind (perform r) := by
  intro answer
  refine ⟨h answer, ?_⟩
  cases answer with
  | ok a => exact True.intro
  | error e => exact True.intro

theorem allCalls_bind {f : alpha -> Program I beta} (h : AllCalls kind p)
    (hf : forall a, AllCalls kind (f a)) : AllCalls kind (p >>= f) := by
  induction p with
  | ret a => exact hf a
  | raise e => exact True.intro
  | call r next ih =>
      intro answer
      exact ⟨(h answer).left, ih answer (h answer).right⟩

theorem allCalls_handle {handler : I.Fault -> Program I alpha} (h : AllCalls kind p)
    (hhandler : forall e, AllCalls kind (handler e)) : AllCalls kind (p.handle handler) := by
  induction p with
  | ret a => exact True.intro
  | raise e => exact hhandler e
  | call r next ih =>
      intro answer
      exact ⟨(h answer).left, ih answer (h answer).right⟩

/-- What calls of the kind keep, the program keeps. -/
theorem keeps_of_allCalls {P : List (Event I) -> Prop}
    {post : alpha -> List (Event I) -> sigma -> Prop}
    (hkept : forall past e, kind e -> P past -> P (past ++ [e]))
    (hinv : forall past s, P past -> inv past s) (hp : AllCalls kind p) (h : P past)
    (hpost : forall a past s, P past -> post a past s) : Keeps sem inv post p past s := by
  induction p generalizing past s with
  | ret a => exact hpost a past s h
  | raise e => exact hinv past s h
  | call r next ih =>
      refine ⟨hinv past s h, ?_⟩
      rintro answer ⟨past', s'⟩ ⟨_, hpast⟩
      cases hpast
      exact ih answer (hp answer).right (hkept _ _ (hp answer).left h)

end Program
end Foundation
