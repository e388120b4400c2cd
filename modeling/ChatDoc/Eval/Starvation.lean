import ChatDoc.Eval.TokenBucket
import ChatDoc.Foundation.Endless

/-!
# Whether a call of `acquire` returns

The bucket holds `rpm` tokens at most and a call takes a whole one.  From one token a
minute on a call ends after twelve sleeps, below that none ever does.
-/

namespace ChatDoc

open Foundation

variable {rpm : Rat} {s s' : BucketRun} {now : Rat}

/-- The n-th turn ends the call in progress. -/
def ReturnsAt (states : Nat -> BucketRun) (clock : Nat -> Rat) (n : Nat) : Prop :=
  (states (n + 1)).completed = (states n).completed ++ [clock n]

theorem acquireTurn_returns_or_sleeps (hturn : acquireTurn rpm s now = some s') :
    s'.completed = s.completed ++ [now] ∨ s.sleeps < s'.sleeps := by
  rcases (acquireTurn_cases hturn).right with ⟨_, rfl⟩ | ⟨_, rfl⟩
  · exact .inl rfl
  · exact .inr (Nat.lt_succ_self s.sleeps)

theorem returns_of_one_le (hrpm : 1 <= rpm) {created : Rat} {trace : List (BucketRun × Rat)}
    (hrun : Run (acquireTurn rpm) (BucketRun.start rpm created) trace s)
    {states : Nat -> BucketRun} {clock : Nat -> Rat}
    (h : Endless (acquireTurn rpm) s states clock) : exists n, ReturnsAt states clock n := by
  have hbound : forall n, (states n).sleeps <= 12 := by
    intro n
    rcases h.exists_run n with ⟨later, hlater⟩
    exact sleeps_le_twelve hrpm (hrun.append hlater)
  exact Endless.eventually hbound fun n => acquireTurn_returns_or_sleeps (h.steps n)

/-- A bucket smaller than a token never holds one, so the call goes back to sleep. -/
theorem acquireTurn_of_lt_one (hrpm : rpm < 1) (s : BucketRun) :
    exists now s', acquireTurn rpm s now = some s' ∧ s'.completed = s.completed := by
  have hwoken : exists s', acquireTurn rpm s (s.bucket.lastRefill + s.asked) = some s' := by
    rw [acquireTurn, if_pos le_rfl]
    dsimp only
    split <;> exact ⟨_, rfl⟩
  rcases hwoken with ⟨s', hturn⟩
  refine ⟨_, s', hturn, ?_⟩
  rcases (acquireTurn_cases hturn).right with ⟨hwhole, _⟩ | ⟨_, rfl⟩
  · exact absurd (le_trans hwhole (min_le_left _ _)) (not_le.mpr hrpm)
  · rfl

theorem starves_of_lt_one (hrpm : rpm < 1) (s : BucketRun) :
    exists states clock, Endless (acquireTurn rpm) s states clock ∧
      forall n, (states n).completed = s.completed := by
  have hkeep : forall t : BucketRun, t.completed = s.completed ->
      exists now t', acquireTurn rpm t now = some t' ∧ t'.completed = s.completed := by
    intro t ht
    rcases acquireTurn_of_lt_one hrpm t with ⟨now, t', hturn, hsame⟩
    exact ⟨now, t', hturn, hsame.trans ht⟩
  exact exists_endless (fun t : BucketRun => t.completed = s.completed) rfl hkeep

/-- From a reachable state, over every course of the clock, the call in progress returns:
this holds for a rate from one token a minute on, and for no other. -/
theorem acquire_returns_iff (rpm created : Rat) (_hrpm : 0 < rpm)
    (trace : List (BucketRun × Rat)) (s : BucketRun)
    (hrun : Run (acquireTurn rpm) (BucketRun.start rpm created) trace s) :
    (forall (states : Nat -> BucketRun) (clock : Nat -> Rat),
      Endless (acquireTurn rpm) s states clock -> exists n, ReturnsAt states clock n) <->
    1 <= rpm := by
  constructor
  · intro hreturns
    by_contra hslow
    rcases starves_of_lt_one (not_le.mp hslow) s with ⟨states, clock, hendless, hsame⟩
    rcases hreturns states clock hendless with ⟨n, hn⟩
    rw [ReturnsAt, hsame (n + 1), hsame n] at hn
    exact absurd (List.self_eq_append_right.mp hn) (List.cons_ne_nil _ _)
  · intro hrate states clock hendless
    exact returns_of_one_le hrate hrun hendless

/-- After the three calls the next one returns too. -/
theorem acquire_returns_iff_fourth :
    exists trace s, Run (acquireTurn 2) (BucketRun.start 2 0) trace s ∧
      s.completed = [0, 0, 30] ∧
      forall (states : Nat -> BucketRun) (clock : Nat -> Rat),
        Endless (acquireTurn 2) s states clock -> exists n, ReturnsAt states clock n := by
  rcases exists_run_threeCalls with ⟨trace, s, hrun, hcompleted⟩
  refine ⟨trace, s, hrun, hcompleted, ?_⟩
  exact (acquire_returns_iff 2 0 two_pos trace s hrun).mpr one_le_two

/-- With a token every two minutes the first call sleeps for ever. -/
theorem half_a_token_starves :
    ¬ forall (states : Nat -> BucketRun) (clock : Nat -> Rat),
      Endless (acquireTurn (1 / 2)) (BucketRun.start (1 / 2) 0) states clock ->
        exists n, ReturnsAt states clock n := by
  intro hreturns
  have hslow : (1 / 2 : Rat) < 1 := by norm_num
  rcases starves_of_lt_one hslow (BucketRun.start (1 / 2) 0) with
    ⟨states, clock, hendless, hsame⟩
  rcases hreturns states clock hendless with ⟨n, hn⟩
  rw [ReturnsAt, hsame (n + 1), hsame n] at hn
  cases hn

end ChatDoc
