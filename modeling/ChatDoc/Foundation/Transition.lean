/-!
# Runs of a labelled transition system

A system is a partial step function from a state and an action to the next
state.  A run keeps the states it went through together with the action taken
in each, so conditions on the steps of a run are statements about its trace.
-/

namespace Foundation

variable {state action : Type} {act : state -> action -> Option state}

inductive Run (act : state -> action -> Option state) (start : state) :
    List (state × action) -> state -> Prop where
  | nil : Run act start [] start
  | snoc {trace : List (state × action)} {s s' : state} {a : action} :
      Run act start trace s -> act s a = some s' ->
      Run act start (trace ++ [(s, a)]) s'

def EachStep (cond : state -> action -> Prop)
    (trace : List (state × action)) : Prop :=
  forall step, step ∈ trace -> cond step.1 step.2

theorem eachStep_snoc {cond : state -> action -> Prop}
    {trace : List (state × action)} {s : state} {a : action} :
    EachStep cond (trace ++ [(s, a)]) <-> EachStep cond trace ∧ cond s a := by
  constructor
  · intro h
    exact ⟨fun step hstep => h step (List.mem_append_left _ hstep),
      h (s, a) (by simp)⟩
  · intro h step hstep
    rcases List.mem_append.mp hstep with hin | hlast
    · exact h.left step hin
    · rw [List.mem_singleton.mp hlast]
      exact h.right

namespace Run

variable {start s : state} {trace : List (state × action)}

/-- A property that holds at the start and is kept by every step that meets the
condition holds at the end of every run whose steps all do. -/
theorem invariant {inv : state -> Prop} {cond : state -> action -> Prop}
    (hstart : inv start)
    (hstep : forall s a s', inv s -> cond s a -> act s a = some s' -> inv s')
    (hrun : Run act start trace s) (hcond : EachStep cond trace) : inv s := by
  induction hrun with
  | nil => exact hstart
  | snoc _ hact ih =>
      rcases eachStep_snoc.mp hcond with ⟨htrace, hlast⟩
      exact hstep _ _ _ (ih htrace) hlast hact

theorem always {inv : state -> Prop} {cond : state -> action -> Prop}
    (hstart : inv start)
    (hstep : forall s a s', inv s -> cond s a -> act s a = some s' -> inv s')
    (hrun : Run act start trace s) (hcond : EachStep cond trace) :
    EachStep (fun s _ => inv s) trace ∧ inv s := by
  induction hrun with
  | nil =>
      refine ⟨?_, hstart⟩
      intro step hin
      cases hin
  | snoc _ hact ih =>
      rcases eachStep_snoc.mp hcond with ⟨htrace, hlast⟩
      rcases ih htrace with ⟨hstates, hinv⟩
      exact ⟨eachStep_snoc.mpr ⟨hstates, hinv⟩, hstep _ _ _ hinv hlast hact⟩

/-- When every step from a good state leads to a good state exactly if it meets
the condition, a run stays good exactly if all its steps meet the condition.
The steps may be restricted to those of an assumption. -/
theorem always_iff_assuming {inv : state -> Prop}
    {cond given : state -> action -> Prop} (hstart : inv start)
    (hstep : forall before s a s', Run act start before s ->
      EachStep given before -> given s a -> inv s -> EachStep cond before ->
        act s a = some s' -> (inv s' <-> cond s a))
    (hrun : Run act start trace s) (hgiven : EachStep given trace) :
    (EachStep (fun s _ => inv s) trace ∧ inv s) <-> EachStep cond trace := by
  induction hrun with
  | nil =>
      constructor
      · intro _ step hin
        cases hin
      · intro _
        refine ⟨?_, hstart⟩
        intro step hin
        cases hin
  | snoc hprev hact ih =>
      rcases eachStep_snoc.mp hgiven with ⟨hbefore, hlast⟩
      rw [eachStep_snoc, eachStep_snoc, ih hbefore]
      constructor
      · intro h
        have hinv := ((ih hbefore).mpr h.left).right
        exact ⟨h.left,
          (hstep _ _ _ _ hprev hbefore hlast hinv h.left hact).mp h.right⟩
      · intro h
        have hinv := ((ih hbefore).mpr h.left).right
        exact ⟨h.left,
          (hstep _ _ _ _ hprev hbefore hlast hinv h.left hact).mpr h.right⟩

theorem always_iff {inv : state -> Prop} {cond : state -> action -> Prop}
    (hstart : inv start)
    (hstep : forall before s a s', Run act start before s -> inv s ->
      EachStep cond before -> act s a = some s' -> (inv s' <-> cond s a))
    (hrun : Run act start trace s) :
    (EachStep (fun s _ => inv s) trace ∧ inv s) <-> EachStep cond trace := by
  have hgiven : EachStep (fun (_ : state) (_ : action) => True) trace :=
    fun _ _ => True.intro
  exact hrun.always_iff_assuming hstart
    (fun before s a s' hbefore _ _ => hstep before s a s' hbefore) hgiven

/-- When a step leads to a good state exactly if it starts from one and meets the
condition, a run ends in a good state exactly if all its steps meet it. -/
theorem final_iff {inv : state -> Prop} {cond : state -> action -> Prop}
    (hstart : inv start)
    (hstep : forall s a s', act s a = some s' -> (inv s' <-> inv s ∧ cond s a))
    (hrun : Run act start trace s) : inv s <-> EachStep cond trace := by
  induction hrun with
  | nil =>
      constructor
      · intro _ step hin
        cases hin
      · intro _
        exact hstart
  | snoc _ hact ih => rw [hstep _ _ _ hact, eachStep_snoc, ih]

theorem exists_prefix {step : state × action}
    (hrun : Run act start trace s) (hstep : step ∈ trace) :
    exists before after, trace = before ++ step :: after ∧
      Run act start before step.1 := by
  induction hrun with
  | nil => cases hstep
  | @snoc trace s s' a hprev hact ih =>
      rcases List.mem_append.mp hstep with hin | hlast
      · rcases ih hin with ⟨before, after, htrace, hbefore⟩
        refine ⟨before, after ++ [(s, a)], ?_, hbefore⟩
        rw [htrace, List.append_assoc, List.cons_append]
      · rw [List.mem_singleton.mp hlast]
        exact ⟨trace, [], rfl, hprev⟩

theorem split {before after : List (state × action)}
    (hrun : Run act start (before ++ after) s) :
    exists middle, Run act start before middle ∧ Run act middle after s := by
  generalize hwhole : before ++ after = whole at hrun
  induction hrun generalizing after with
  | nil =>
      rcases List.append_eq_nil_iff.mp hwhole with ⟨hbefore, hafter⟩
      rw [hbefore, hafter]
      exact ⟨start, .nil, .nil⟩
  | @snoc trace s s' a hprev hact ih =>
      rcases List.eq_nil_or_concat after with hnil | ⟨front, last, hconcat⟩
      · subst hnil
        rw [List.append_nil] at hwhole
        rw [hwhole]
        exact ⟨s', .snoc hprev hact, .nil⟩
      · subst hconcat
        rw [List.concat_eq_append, ← List.append_assoc] at hwhole
        rcases List.append_inj' hwhole rfl with ⟨hfront, hlast⟩
        rcases ih hfront with ⟨middle, hbefore, hafter⟩
        refine ⟨middle, hbefore, ?_⟩
        rw [List.concat_eq_append, List.singleton_inj.mp hlast]
        exact .snoc hafter hact

theorem cons {s' t : state} {a : action} {trace : List (state × action)}
    (hact : act s a = some s') (hrun : Run act s' trace t) :
    Run act s ((s, a) :: trace) t := by
  induction hrun with
  | nil => exact .snoc (.nil : Run act s [] s) hact
  | snoc _ hlast ih => exact .snoc ih hlast

theorem append {middle : state} {before after : List (state × action)}
    (hbefore : Run act start before middle) (hafter : Run act middle after s) :
    Run act start (before ++ after) s := by
  induction hafter with
  | nil =>
      rw [List.append_nil]
      exact hbefore
  | snoc _ hact ih =>
      rw [← List.append_assoc]
      exact .snoc ih hact

theorem eq_start_of_nil (hrun : Run act start [] s) : s = start := by
  generalize hwhole : [] = whole at hrun
  cases hrun with
  | nil => rfl
  | snoc _ _ => simp at hwhole

theorem uncons {s' t : state} {a : action} {trace : List (state × action)}
    (hrun : Run act s ((s', a) :: trace) t) :
    s' = s ∧ exists s'', act s a = some s'' ∧ Run act s'' trace t := by
  generalize hwhole : (s', a) :: trace = whole at hrun
  induction hrun generalizing trace with
  | nil => cases hwhole
  | @snoc front s1 s2 b hprev hact ih =>
      cases front with
      | nil =>
          cases hwhole
          have hs1 := hprev.eq_start_of_nil
          subst hs1
          exact ⟨rfl, s2, hact, .nil⟩
      | cons first front =>
          rw [List.cons_append, List.cons.injEq] at hwhole
          rcases hwhole with ⟨hfirst, htrace⟩
          subst hfirst htrace
          rcases ih rfl with ⟨hs, s'', hfirst, hrest⟩
          exact ⟨hs, s'', hfirst, .snoc hrest hact⟩

theorem eachStep_act (hrun : Run act start trace s) :
    EachStep (fun s a => exists s', act s a = some s') trace := by
  induction hrun with
  | nil =>
      intro step hin
      cases hin
  | snoc _ hact ih => exact eachStep_snoc.mpr ⟨ih, _, hact⟩

end Run

/-!
# Executing a schedule
-/

def follow (act : state -> action -> Option state) (s : state) :
    List action -> Option (List (state × action) × state)
  | [] => some ([], s)
  | a :: rest =>
      (act s a).bind fun s' =>
        (follow act s' rest).map fun out => ((s, a) :: out.1, out.2)

theorem run_of_follow {s t : state} {schedule : List action}
    {trace : List (state × action)}
    (h : follow act s schedule = some (trace, t)) : Run act s trace t := by
  induction schedule generalizing s trace with
  | nil =>
      cases h
      exact .nil
  | cons a rest ih =>
      rcases Option.bind_eq_some_iff.mp h with ⟨s', hact, hrest⟩
      rcases Option.map_eq_some_iff.mp hrest with ⟨⟨trace', t'⟩, hfollow, hout⟩
      cases hout
      exact .cons hact (ih hfollow)

/-- A schedule that can be followed to an outcome with a decidable property
gives a run with that property. -/
theorem exists_run_of_follow {s : state} {schedule : List action}
    (good : List (state × action) -> state -> Bool)
    (h : (follow act s schedule).any (fun out => good out.1 out.2) = true) :
    exists trace t, Run act s trace t ∧ good trace t = true := by
  cases hfollow : follow act s schedule with
  | none =>
      rw [hfollow] at h
      cases h
  | some out =>
      rw [hfollow] at h
      exact ⟨out.1, out.2, run_of_follow hfollow, h⟩

end Foundation
