import ChatDoc.Foundation.Program

/-!
# Handlers and what they isolate

A handler runs to its end on a state that it reads and changes; it returns or
raises.  `Isolated` compares its runs from two states that have the same own part:
it returns the same, leaves the same own part, and does not touch the other part
of its state.
-/

namespace Foundation

def Handler (sigma fault alpha : Type) : Type := sigma -> Except fault alpha × sigma

namespace Handler

variable {sigma fault alpha beta : Type}

def bind (p : Handler sigma fault alpha) (f : alpha -> Handler sigma fault beta) :
    Handler sigma fault beta := fun s =>
  match p s with
  | (.ok a, s') => f a s'
  | (.error e, s') => (.error e, s')

instance : Monad (Handler sigma fault) where
  pure a := fun s => (.ok a, s)
  bind := bind

def raise (e : fault) : Handler sigma fault alpha := fun s => (.error e, s)

def ofExcept (x : Except fault alpha) : Handler sigma fault alpha := fun s => (x, s)

def read (f : sigma -> alpha) : Handler sigma fault alpha := fun s => (.ok (f s), s)

theorem bind_ok {p : Handler sigma fault alpha} {f : alpha -> Handler sigma fault beta}
    {s s' : sigma} {a : alpha} (h : p s = (.ok a, s')) : (p >>= f) s = f a s' := by
  show bind p f s = f a s'
  unfold bind
  rw [h]

theorem bind_error {p : Handler sigma fault alpha}
    {f : alpha -> Handler sigma fault beta} {s s' : sigma} {e : fault}
    (h : p s = (.error e, s')) : (p >>= f) s = (.error e, s') := by
  show bind p f s = (.error e, s')
  unfold bind
  rw [h]

theorem bind_eq_ok {p : Handler sigma fault alpha} {f : alpha -> Handler sigma fault beta}
    {s t : sigma} {b : beta} (h : (p >>= f) s = (.ok b, t)) :
    exists a s', p s = (.ok a, s') ∧ f a s' = (.ok b, t) := by
  rcases hstep : p s with ⟨answer, s'⟩
  cases answer with
  | ok a =>
      rw [bind_ok hstep] at h
      exact ⟨a, s', rfl, h⟩
  | error e =>
      rw [bind_error hstep] at h
      cases h

theorem bind_rel {R : sigma -> sigma -> Prop} {p : Handler sigma fault alpha}
    {f : alpha -> Handler sigma fault beta}
    (htrans : forall s s' s'', R s s' -> R s' s'' -> R s s'')
    (hp : forall s, R s (p s).2) (hf : forall a s, R s (f a s).2) (s : sigma) :
    R s ((p >>= f) s).2 := by
  rcases hstep : p s with ⟨answer, s'⟩
  have hfirst : R s s' := by
    have h := hp s
    rwa [hstep] at h
  cases answer with
  | ok a =>
      rw [bind_ok hstep]
      exact htrans s s' _ hfirst (hf a s')
  | error e =>
      rw [bind_error hstep]
      exact hfirst

/-!
# Running a program

A program whose calls are answered by a function of the state.
-/

def ofProgram {I : Interface}
    (step : (r : I.Request) -> Handler sigma I.Fault (I.Reply r)) :
    Program I alpha -> Handler sigma I.Fault alpha
  | .ret a => pure a
  | .raise e => raise e
  | .call r next => fun s => ofProgram step (next (step r s).1) (step r s).2

section Programs

variable {I : Interface} {step : (r : I.Request) -> Handler sigma I.Fault (I.Reply r)}

theorem ofProgram_bind (p : Program I alpha) (f : alpha -> Program I beta) :
    ofProgram step (p >>= f) = ofProgram step p >>= fun a => ofProgram step (f a) := by
  induction p with
  | ret a => rfl
  | raise e => rfl
  | call r next ih =>
      funext s
      exact congrFun (ih (step r s).1) (step r s).2

theorem ofProgram_perform (r : I.Request) :
    ofProgram step (Program.perform r) = step r := by
  funext s
  show ofProgram step (Program.ofAnswer (step r s).1) (step r s).2 = step r s
  rcases hstep : step r s with ⟨answer, s'⟩
  cases answer with
  | ok a => rfl
  | error e => rfl

end Programs

/-!
# Isolation
-/

variable {own other : Type}

structure Isolated (mine : sigma -> own) (others : sigma -> other)
    (pre : sigma -> Prop) (p : Handler sigma fault alpha)
    (post : alpha -> sigma -> Prop) : Prop where
  meets : forall s a s', pre s -> p s = (.ok a, s') -> post a s'
  result : forall s s', pre s -> pre s' -> mine s = mine s' -> (p s).1 = (p s').1
  kept : forall s s', pre s -> pre s' -> mine s = mine s' -> mine (p s).2 = mine (p s').2
  frame : forall s, pre s -> others (p s).2 = others s

section Rules

variable {mine : sigma -> own} {others : sigma -> other} {pre : sigma -> Prop}
  {post : alpha -> sigma -> Prop}

theorem isolated_pure {a : alpha} (h : forall s, pre s -> post a s) :
    Isolated mine others pre (pure a : Handler sigma fault alpha) post where
  meets := by
    intro s a' s' hs hrun
    cases hrun
    exact h s hs
  result := fun _ _ _ _ _ => rfl
  kept := fun _ _ _ _ hmine => hmine
  frame := fun _ _ => rfl

theorem isolated_raise (e : fault) :
    Isolated mine others pre (raise e : Handler sigma fault alpha) post where
  meets := by
    intro s a s' _ hrun
    cases hrun
  result := fun _ _ _ _ _ => rfl
  kept := fun _ _ _ _ hmine => hmine
  frame := fun _ _ => rfl

theorem isolated_ofExcept {x : Except fault alpha}
    (h : forall s a, pre s -> x = .ok a -> post a s) :
    Isolated mine others pre (ofExcept x : Handler sigma fault alpha) post where
  meets := by
    intro s a s' hs hrun
    cases hrun
    exact h s a hs rfl
  result := fun _ _ _ _ _ => rfl
  kept := fun _ _ _ _ hmine => hmine
  frame := fun _ _ => rfl

theorem isolated_read {f : sigma -> alpha} (hpost : forall s, pre s -> post (f s) s)
    (hown : forall s s', pre s -> pre s' -> mine s = mine s' -> f s = f s') :
    Isolated mine others pre (read f : Handler sigma fault alpha) post where
  meets := by
    intro s a s' hs hrun
    cases hrun
    exact hpost s hs
  result := fun s s' hs hs' hmine => congrArg Except.ok (hown s s' hs hs' hmine)
  kept := fun _ _ _ _ hmine => hmine
  frame := fun _ _ => rfl

/-- Two runs from the same own part return the same value or raise the same fault, and
they go on from the same own part. -/
theorem Isolated.lockstep {p : Handler sigma fault alpha}
    (h : Isolated mine others pre p post) {s t : sigma} (hs : pre s) (ht : pre t)
    (hmine : mine s = mine t) :
    (exists a s' t', p s = (.ok a, s') ∧ p t = (.ok a, t') ∧ post a s' ∧ post a t' ∧
      mine s' = mine t') ∨
      exists e s' t', p s = (.error e, s') ∧ p t = (.error e, t') ∧ mine s' = mine t' := by
  have hresult := h.result s t hs ht hmine
  have hkept := h.kept s t hs ht hmine
  rcases hrun : p s with ⟨answer, s'⟩
  rcases hrun' : p t with ⟨answer', t'⟩
  rw [hrun, hrun'] at hresult hkept
  cases hresult
  cases answer with
  | ok a =>
      exact .inl ⟨a, s', t', rfl, rfl, h.meets s a s' hs hrun, h.meets t a t' ht hrun', hkept⟩
  | error e => exact .inr ⟨e, s', t', rfl, rfl, hkept⟩

theorem isolated_bind {p : Handler sigma fault alpha}
    {f : alpha -> Handler sigma fault beta} {mid : alpha -> sigma -> Prop}
    {post : beta -> sigma -> Prop} (hp : Isolated mine others pre p mid)
    (hf : forall a, Isolated mine others (mid a) (f a) post) :
    Isolated mine others pre (p >>= f) post := by
  constructor
  · intro s b t hs hrun
    rcases bind_eq_ok hrun with ⟨a, s', hstep, hlast⟩
    exact (hf a).meets s' b t (hp.meets s a s' hs hstep) hlast
  · intro s t hs ht hmine
    rcases hp.lockstep hs ht hmine with
      ⟨a, s', t', hrun, hrun', hs', ht', hkept⟩ | ⟨e, s', t', hrun, hrun', _⟩
    · rw [bind_ok hrun, bind_ok hrun']
      exact (hf a).result s' t' hs' ht' hkept
    · rw [bind_error hrun, bind_error hrun']
  · intro s t hs ht hmine
    rcases hp.lockstep hs ht hmine with
      ⟨a, s', t', hrun, hrun', hs', ht', hkept⟩ | ⟨e, s', t', hrun, hrun', hkept⟩
    · rw [bind_ok hrun, bind_ok hrun']
      exact (hf a).kept s' t' hs' ht' hkept
    · rw [bind_error hrun, bind_error hrun']
      exact hkept
  · intro s hs
    have hframe := hp.frame s hs
    rcases hrun : p s with ⟨answer, s'⟩
    rw [hrun] at hframe
    cases answer with
    | ok a =>
        rw [bind_ok hrun, (hf a).frame s' (hp.meets s a s' hs hrun)]
        exact hframe
    | error e =>
        rw [bind_error hrun]
        exact hframe

theorem isolated_bind_read {f : sigma -> alpha} {g : alpha -> Handler sigma fault beta}
    {post : beta -> sigma -> Prop}
    (hown : forall s s', pre s -> pre s' -> mine s = mine s' -> f s = f s')
    (hg : forall a, Isolated mine others pre (g a) post) :
    Isolated mine others pre (read f >>= g) post :=
  isolated_bind (isolated_read (fun _ hs => hs) hown) hg

theorem isolated_mono {p : Handler sigma fault alpha} {pre' : sigma -> Prop}
    {post' : alpha -> sigma -> Prop} (h : Isolated mine others pre p post)
    (hpre : forall s, pre' s -> pre s) (hpost : forall a s, post a s -> post' a s) :
    Isolated mine others pre' p post' where
  meets := fun s a s' hs hrun => hpost a s' (h.meets s a s' (hpre s hs) hrun)
  result := fun s s' hs hs' => h.result s s' (hpre s hs) (hpre s' hs')
  kept := fun s s' hs hs' => h.kept s s' (hpre s hs) (hpre s' hs')
  frame := fun s hs => h.frame s (hpre s hs)

theorem isolated_assuming {p : Handler sigma fault alpha} {P : Prop}
    (h : P -> Isolated mine others pre p post) :
    Isolated mine others (fun s => P ∧ pre s) p post where
  meets := fun s a s' hs hrun => (h hs.1).meets s a s' hs.2 hrun
  result := fun s s' hs hs' => (h hs.1).result s s' hs.2 hs'.2
  kept := fun s s' hs hs' => (h hs.1).kept s s' hs.2 hs'.2
  frame := fun s hs => (h hs.1).frame s hs.2

end Rules
end Handler
end Foundation
