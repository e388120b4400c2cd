import ChatDoc.Foundation.Credit
import ChatDoc.Foundation.Transition
import Mathlib.Algebra.Order.Field.Rat
import Mathlib.Tactic.FieldSimp

/-!
# The token bucket

`_TokenBucket` of `eval/quota_guard.py` in exact arithmetic: the turns of the loop of
`acquire`, each at a reading of the clock, over any sequence of calls.
-/

namespace ChatDoc

open Foundation

structure TokenBucket where
  tokens : Rat
  lastRefill : Rat

namespace TokenBucket

/-- `__post_init__`, at the reading of the clock that `_last_refill` starts from. -/
def fresh (rpm created : Rat) : TokenBucket := ⟨rpm, created⟩

variable (rpm : Rat) (bucket : TokenBucket) (now : Rat)

/-- What a turn of the loop stores before it decides. -/
def refill : TokenBucket :=
  let elapsed := now - bucket.lastRefill
  ⟨min rpm (bucket.tokens + elapsed * (rpm / 60)), now⟩

/-- How long `acquire` sleeps when there is no whole token. -/
def pause : Rat := min ((1 - bucket.tokens) * (60 / rpm)) 5

end TokenBucket

structure BucketRun where
  bucket : TokenBucket
  asked : Rat
  sleeps : Nat
  completed : List Rat

def BucketRun.start (rpm created : Rat) : BucketRun :=
  ⟨TokenBucket.fresh rpm created, 0, 0, []⟩

/-- One turn of the loop of `acquire` at a reading of the clock, which never goes back
and by which a sleep lasts as long as asked.  The turn after a call that has returned is
the first one of the next call. -/
def acquireTurn (rpm : Rat) (s : BucketRun) (now : Rat) : Option BucketRun :=
  if s.bucket.lastRefill + s.asked <= now then
    let bucket := s.bucket.refill rpm now
    if 1 <= bucket.tokens then
      some ⟨{ bucket with tokens := bucket.tokens - 1 }, 0, 0, s.completed ++ [now]⟩
    else some ⟨bucket, bucket.pause rpm, s.sleeps + 1, s.completed⟩
  else none

/-!
# The stored tokens
-/

section Tokens

variable {rpm : Rat}

structure TokenBucket.InRange (rpm : Rat) (bucket : TokenBucket) : Prop where
  nonneg : 0 <= bucket.tokens
  le_rpm : bucket.tokens <= rpm

variable {bucket : TokenBucket} {s s' : BucketRun} {now : Rat}

theorem TokenBucket.inRange_fresh (hrpm : 1 <= rpm) (created : Rat) :
    (TokenBucket.fresh rpm created).InRange rpm where
  nonneg := le_trans zero_le_one hrpm
  le_rpm := le_refl rpm

theorem TokenBucket.InRange.refill (h : bucket.InRange rpm) (hrpm : 1 <= rpm)
    (hnow : bucket.lastRefill <= now) : (bucket.refill rpm now).InRange rpm where
  nonneg := by
    have helapsed : 0 <= now - bucket.lastRefill := sub_nonneg.mpr hnow
    have hstored : 0 <= bucket.tokens := h.nonneg
    apply le_min
    · exact le_trans zero_le_one hrpm
    · positivity
  le_rpm := min_le_left _ _

theorem TokenBucket.pause_nonneg (hrpm : 1 <= rpm) (hshort : bucket.tokens < 1) :
    0 <= bucket.pause rpm := by
  have hmissing : 0 <= 1 - bucket.tokens := sub_nonneg.mpr (le_of_lt hshort)
  apply le_min
  · positivity
  · norm_num

theorem acquireTurn_cases (h : acquireTurn rpm s now = some s') :
    s.bucket.lastRefill + s.asked <= now ∧
      ((1 <= (s.bucket.refill rpm now).tokens ∧
        s' = ⟨⟨(s.bucket.refill rpm now).tokens - 1, now⟩, 0, 0, s.completed ++ [now]⟩) ∨
      ((s.bucket.refill rpm now).tokens < 1 ∧
        s' = ⟨s.bucket.refill rpm now, (s.bucket.refill rpm now).pause rpm, s.sleeps + 1,
          s.completed⟩)) := by
  rw [acquireTurn] at h
  split at h
  · rename_i hwoken
    refine ⟨hwoken, ?_⟩
    dsimp only at h
    split at h
    · rename_i hwhole
      exact .inl ⟨hwhole, (Option.some.inj h).symm⟩
    · rename_i hshort
      exact .inr ⟨not_le.mp hshort, (Option.some.inj h).symm⟩
  · cases h

structure BucketRun.Sound (rpm : Rat) (s : BucketRun) : Prop where
  inRange : s.bucket.InRange rpm
  asked_nonneg : 0 <= s.asked

theorem BucketRun.Sound.reading (h : s.Sound rpm) (hturn : acquireTurn rpm s now = some s') :
    s.bucket.lastRefill <= now :=
  le_trans (le_add_of_nonneg_right h.asked_nonneg) (acquireTurn_cases hturn).left

theorem BucketRun.sound_start (hrpm : 1 <= rpm) (created : Rat) :
    (BucketRun.start rpm created).Sound rpm where
  inRange := TokenBucket.inRange_fresh hrpm created
  asked_nonneg := le_refl 0

theorem BucketRun.Sound.turn (hrpm : 1 <= rpm) (h : s.Sound rpm)
    (hturn : acquireTurn rpm s now = some s') : s'.Sound rpm := by
  have hrefill := h.inRange.refill hrpm (h.reading hturn)
  rcases (acquireTurn_cases hturn).right with ⟨hwhole, rfl⟩ | ⟨hshort, rfl⟩
  · constructor
    · constructor
      · exact sub_nonneg.mpr hwhole
      · exact le_trans (sub_le_self _ zero_le_one) hrefill.le_rpm
    · exact le_refl 0
  · constructor
    · exact hrefill
    · exact TokenBucket.pause_nonneg hrpm hshort

/-!
# The end of a call
-/

/-- Each sleep of a call but the first has brought a twelfth of a token. -/
structure BucketRun.Waiting (rpm : Rat) (s : BucketRun) : Prop where
  sleeps_le : (s.sleeps : Rat) <= 1 + 12 * s.bucket.tokens
  short : s.bucket.tokens < 1
  asked_eq : s.asked = s.bucket.pause rpm

/-- A refill that is still short of a token comes after a whole pause of five seconds. -/
theorem twelfth_of_pause (hrpm : 1 <= rpm)
    (hwoken : bucket.lastRefill + bucket.pause rpm <= now)
    (hshort : (bucket.refill rpm now).tokens < 1) :
    bucket.tokens + 1 / 12 <= (bucket.refill rpm now).tokens := by
  have hpos : 0 < rpm := lt_of_lt_of_le zero_lt_one hrpm
  have hrate : 0 < rpm / 60 := by positivity
  have hrefill : (bucket.refill rpm now).tokens =
      bucket.tokens + (now - bucket.lastRefill) * (rpm / 60) := by
    apply min_eq_right
    by_contra hfull
    have hcapped : (bucket.refill rpm now).tokens = rpm :=
      min_eq_left (le_of_lt (not_le.mp hfull))
    exact absurd (hcapped ▸ hshort) (not_lt.mpr hrpm)
  have helapsed : bucket.pause rpm <= now - bucket.lastRefill := by linarith
  have hfive : bucket.pause rpm = 5 := by
    apply min_eq_right
    by_contra hlong
    -- the sleep was as long as the missing part of a token takes
    have hpause : bucket.pause rpm = (1 - bucket.tokens) * (60 / rpm) :=
      min_eq_left (le_of_lt (not_le.mp hlong))
    have hwhole : 1 - bucket.tokens <= (now - bucket.lastRefill) * (rpm / 60) := by
      calc 1 - bucket.tokens
          = (1 - bucket.tokens) * (60 / rpm) * (rpm / 60) := by field_simp
        _ <= (now - bucket.lastRefill) * (rpm / 60) := by
            rw [← hpause]
            exact mul_le_mul_of_nonneg_right helapsed (le_of_lt hrate)
    rw [hrefill] at hshort
    linarith
  have hgain : 5 * (rpm / 60) <= (now - bucket.lastRefill) * (rpm / 60) := by
    rw [← hfive]
    exact mul_le_mul_of_nonneg_right helapsed (le_of_lt hrate)
  rw [hrefill]
  linarith

theorem BucketRun.Waiting.turn (hrpm : 1 <= rpm) (hsound : s.Sound rpm)
    (h : s.sleeps = 0 ∨ s.Waiting rpm) (hturn : acquireTurn rpm s now = some s') :
    s'.sleeps = 0 ∨ s'.Waiting rpm := by
  rcases acquireTurn_cases hturn with ⟨hwoken, ⟨_, rfl⟩ | ⟨hshort, rfl⟩⟩
  · exact .inl rfl
  · right
    refine ⟨?_, hshort, rfl⟩
    dsimp only
    rw [Nat.cast_succ]
    rcases h with hfirst | hwaiting
    · have hnonneg := (hsound.inRange.refill hrpm (hsound.reading hturn)).nonneg
      rw [hfirst, Nat.cast_zero]
      linarith
    · have hgain := twelfth_of_pause hrpm (hwaiting.asked_eq ▸ hwoken) hshort
      have hsleeps := hwaiting.sleeps_le
      linarith

theorem sleeps_le_twelve (hrpm : 1 <= rpm) {created : Rat}
    {trace : List (BucketRun × Rat)}
    (hrun : Run (acquireTurn rpm) (BucketRun.start rpm created) trace s) :
    s.sleeps <= 12 := by
  have hinv : s.Sound rpm ∧ (s.sleeps = 0 ∨ s.Waiting rpm) := by
    induction hrun with
    | nil => exact ⟨BucketRun.sound_start hrpm created, .inl rfl⟩
    | snoc _ hturn ih =>
        exact ⟨ih.left.turn hrpm hturn, BucketRun.Waiting.turn hrpm ih.left ih.right hturn⟩
  rcases hinv.right with hnone | hwaiting
  · rw [hnone]
    exact Nat.zero_le 12
  · have hlt : (s.sleeps : Rat) < 13 := by
      have hsleeps := hwaiting.sleeps_le
      have hshort := hwaiting.short
      linarith
    exact Nat.lt_succ_iff.mp (by exact_mod_cast hlt)

/-!
# The rate
-/

def BucketRun.completedWithin (s : BucketRun) (opening span : Rat) : Nat :=
  (s.completed.filter fun time => opening <= time ∧ time <= opening + span).length

section Window

variable {opening span : Rat}

def BucketRun.AccountedWithin (rpm opening span : Rat) (s : BucketRun) : Prop :=
  Accounted rpm (rpm / 60) opening (opening + span) s.bucket.tokens s.bucket.lastRefill
    (s.completedWithin opening span)

theorem BucketRun.accountedWithin_turn (hrpm : 1 <= rpm) (hsound : s.Sound rpm)
    (h : s.AccountedWithin rpm opening span) (hturn : acquireTurn rpm s now = some s') :
    s'.AccountedWithin rpm opening span := by
  have hrate : 0 <= rpm / 60 := by positivity
  have hreading := hsound.reading hturn
  have hrefill := hsound.inRange.refill hrpm hreading
  have hgrown : Accounted rpm (rpm / 60) opening (opening + span)
      (s.bucket.refill rpm now).tokens now (s.completedWithin opening span) :=
    h.grow hreading (min_le_right _ _)
  rcases (acquireTurn_cases hturn).right with ⟨hwhole, rfl⟩ | ⟨_, rfl⟩
  · have hcompleted : BucketRun.completedWithin
        ⟨⟨(s.bucket.refill rpm now).tokens - 1, now⟩, 0, 0, s.completed ++ [now]⟩ opening span =
        s.completedWithin opening span +
          if opening <= now ∧ now <= opening + span then 1 else 0 := by
      rw [completedWithin, completedWithin, List.filter_append, List.length_append,
        List.filter_singleton]
      by_cases hin : opening <= now ∧ now <= opening + span
      · rw [if_pos hin, decide_eq_true hin]
        rfl
      · rw [if_neg hin, decide_eq_false hin]
        rfl
    rw [AccountedWithin, hcompleted]
    by_cases hin : opening <= now ∧ now <= opening + span
    · rw [if_pos hin]
      exact hgrown.spend hrate hrefill.le_rpm hwhole hin.left hin.right
    · rw [if_neg hin]
      exact hgrown.spend_outside
  · exact hgrown

end Window

theorem BucketRun.sound_run (hrpm : 1 <= rpm) {created : Rat}
    {trace : List (BucketRun × Rat)}
    (hrun : Run (acquireTurn rpm) (BucketRun.start rpm created) trace s) :
    EachStep (fun s now => s.Sound rpm ∧ s.bucket.lastRefill <= now) trace ∧
      s.Sound rpm := by
  induction hrun with
  | nil =>
      refine ⟨?_, BucketRun.sound_start hrpm created⟩
      intro step hin
      cases hin
  | snoc _ hturn ih =>
      exact ⟨eachStep_snoc.mpr ⟨ih.left, ih.right, ih.right.reading hturn⟩,
        ih.right.turn hrpm hturn⟩

theorem BucketRun.accountedWithin_run (hrpm : 1 <= rpm) {created opening span : Rat}
    (hspan : 0 <= span) {trace : List (BucketRun × Rat)}
    (hrun : Run (acquireTurn rpm) (BucketRun.start rpm created) trace s) :
    s.AccountedWithin rpm opening span := by
  induction hrun with
  | nil =>
      apply accounted_start
      · exact le_trans zero_le_one hrpm
      · positivity
      · exact le_add_of_nonneg_right hspan
  | snoc hprev hturn ih =>
      exact BucketRun.accountedWithin_turn hrpm (BucketRun.sound_run hrpm hprev).right ih hturn

/-- The bucket keeps its tokens between 0 and `rpm`, also within a turn, and in no
window of `span` seconds do more than `rpm * (1 + span / 60)` calls return. -/
theorem acquires_within_window (rpm created : Rat) (hrpm : 1 <= rpm)
    (trace : List (BucketRun × Rat)) (s : BucketRun)
    (hrun : Run (acquireTurn rpm) (BucketRun.start rpm created) trace s) :
    EachStep (fun s now => s.bucket.InRange rpm ∧ (s.bucket.refill rpm now).InRange rpm)
        trace ∧
      s.bucket.InRange rpm ∧
      forall opening span : Rat, 0 <= span ->
        (s.completedWithin opening span : Rat) <= rpm * (1 + span / 60) := by
  rcases BucketRun.sound_run hrpm hrun with ⟨hsteps, hsound⟩
  refine ⟨?_, hsound.inRange, ?_⟩
  · intro step hstep
    rcases hsteps step hstep with ⟨hbefore, hreading⟩
    exact ⟨hbefore.inRange, hbefore.inRange.refill hrpm hreading⟩
  · intro opening span hspan
    calc (s.completedWithin opening span : Rat)
        <= rpm + rpm / 60 * (opening + span - opening) :=
          (BucketRun.accountedWithin_run hrpm hspan hrun).bounded
      _ = rpm * (1 + span / 60) := by ring

def threeCalls : List Rat := [0, 0, 0, 5, 10, 15, 20, 25, 30]

theorem exists_run_threeCalls :
    exists trace s, Run (acquireTurn 2) (BucketRun.start 2 0) trace s ∧
      s.completed = [0, 0, 30] := by
  have hfollow : (follow (acquireTurn 2) (BucketRun.start 2 0) threeCalls).any
      (fun out => out.2.completed == [0, 0, 30]) = true := by
    decide +kernel
  rcases exists_run_of_follow (fun _ (s : BucketRun) => s.completed == [0, 0, 30]) hfollow with
    ⟨trace, s, hrun, hcompleted⟩
  exact ⟨trace, s, hrun, beq_iff_eq.mp hcompleted⟩

/-- The three calls use up what the window allows. -/
theorem acquires_within_window_tight :
    exists trace s, Run (acquireTurn 2) (BucketRun.start 2 0) trace s ∧
      EachStep (fun s now => s.bucket.InRange 2 ∧ (s.bucket.refill 2 now).InRange 2) trace ∧
      s.bucket.InRange 2 ∧
      (forall opening span : Rat, 0 <= span ->
        (s.completedWithin opening span : Rat) <= 2 * (1 + span / 60)) ∧
      (s.completedWithin 0 30 : Rat) = 2 * (1 + 30 / 60) := by
  rcases exists_run_threeCalls with ⟨trace, s, hrun, hcompleted⟩
  have hrpm : (1 : Rat) <= 2 := by norm_num
  rcases acquires_within_window 2 0 hrpm trace s hrun with ⟨hsteps, hrange, hwindows⟩
  refine ⟨trace, s, hrun, hsteps, hrange, hwindows, ?_⟩
  unfold BucketRun.completedWithin
  rw [hcompleted]
  decide +kernel

end Tokens
end ChatDoc
