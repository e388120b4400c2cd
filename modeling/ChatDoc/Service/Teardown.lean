import ChatDoc.Service.Generator

/-!
# Tearing down the upstream stream

Only the poll of `is_disconnected` sets the stop event.  A consumer that goes in
another way leaves the thread to read its stream to the end.
-/

namespace ChatDoc

open Foundation

def Point.early : Point -> Bool
  | .fresh => true
  | .yielding _ .retrieve => true
  | .yielding _ (.generate _) => true
  | .retrieving => true
  | _ => false

namespace QueryStream

/-- How many more chunks the thread may pull before it sees the stop event. -/
def credit : ThreadPoint -> Nat
  | .notStarted => 1
  | .opening => 1
  | .reading => 1
  | .sending _ => 1
  | _ => 0

def holdsStream : ThreadPoint -> Bool
  | .reading => true
  | .checking _ => true
  | .sending _ => true
  | .closing _ => true
  | _ => false

structure Consistent (s : QueryStream) : Prop where
  early : s.point.early = true -> s.thread = .notStarted
  upstream : s.upstream = .opened -> holdsStream s.thread = true
  stopped : s.stop = true -> exists d, s.point = .left d ∧ d.how = .disconnected ∧
    s.pulled + credit s.thread ≤ d.pulled + 1

variable {q : QueryRun} {s s' : QueryStream}

/-!
# Steps
-/

structure Advances (s s' : QueryStream) : Prop where
  inside : forall d, s.point ≠ .left d
  outside : forall d, s'.point = .left d -> d.how.byConsumer = false
  early : s'.point.early = true -> s.point.early = true
  stop : s'.stop = s.stop
  thread : s'.thread = s.thread
  upstream : s'.upstream = s.upstream
  pulled : s'.pulled = s.pulled

structure Starts (s s' : QueryStream) : Prop where
  early : s.point.early = true
  point : s'.point = .polling
  stop : s'.stop = s.stop
  thread : s'.thread = .opening
  upstream : s'.upstream = s.upstream
  pulled : s'.pulled = s.pulled

structure Works (s s' : QueryStream) : Prop where
  point : s'.point = s.point
  stop : s'.stop = s.stop
  started : s.thread ≠ .notStarted
  credited : s.stop = true ->
    s'.pulled + credit s'.thread ≤ s.pulled + credit s.thread
  upstream : (s.upstream = .opened -> holdsStream s.thread = true) ->
    s'.upstream = .opened -> holdsStream s'.thread = true

inductive Acted (s : QueryStream) : StreamAction -> QueryStream -> Prop where
  | advance {a : StreamAction} {s' : QueryStream} (ha : a ≠ .close ∧ a ≠ .cancel)
      (h : Advances s s') : Acted s a s'
  | start {a : StreamAction} {s' : QueryStream} (ha : a ≠ .close ∧ a ≠ .cancel)
      (h : Starts s s') : Acted s a s'
  | disconnect (h : forall d, s.point ≠ .left d) :
      Acted s (.polled true) (leave { s with stop := true } .disconnected)
  | close (h : forall d, s.point ≠ .left d) : Acted s .close (s.leave .closed)
  | cancel (h : forall d, s.point ≠ .left d) : Acted s .cancel (s.leave .cancelled)
  | work {a : ThreadAction} {s' : QueryStream} (h : Works s s') :
      Acted s (.thread a) s'

theorem advances_emit {t : QueryStream} (hinside : forall d, s.point ≠ .left d)
    (hstop : t.stop = s.stop) (hthread : t.thread = s.thread)
    (hupstream : t.upstream = s.upstream) (hpulled : t.pulled = s.pulled)
    (frames : List Frame) : Advances s (t.emit frames) := by
  cases frames with
  | nil =>
      refine ⟨hinside, ?_, ?_, hstop, hthread, hupstream, hpulled⟩
      · intro d hd
        cases hd
        rfl
      · intro hearly
        cases hearly
  | cons frame rest =>
      refine ⟨hinside, ?_, ?_, hstop, hthread, hupstream, hpulled⟩
      · intro d hd
        cases hd
      · intro hearly
        cases hearly

theorem advances_point {t : QueryStream} (hinside : forall d, s.point ≠ .left d)
    (hoff : forall d, t.point ≠ .left d) (hearly : t.point.early = false)
    (hstop : t.stop = s.stop) (hthread : t.thread = s.thread)
    (hupstream : t.upstream = s.upstream) (hpulled : t.pulled = s.pulled) :
    Advances s t := by
  refine ⟨hinside, fun d hd => absurd hd (hoff d), ?_, hstop, hthread, hupstream,
    hpulled⟩
  intro hpoint
  rw [hearly] at hpoint
  cases hpoint

theorem advances_early {t : QueryStream} (hinside : forall d, s.point ≠ .left d)
    (hearly : s.point.early = true) (hoff : forall d, t.point ≠ .left d)
    (hstop : t.stop = s.stop) (hthread : t.thread = s.thread)
    (hupstream : t.upstream = s.upstream) (hpulled : t.pulled = s.pulled) :
    Advances s t :=
  ⟨hinside, fun d hd => absurd hd (hoff d), fun _ => hearly, hstop, hthread, hupstream,
    hpulled⟩

theorem works_of {p p' : ThreadPoint} {t : QueryStream} (hthread : s.thread = p)
    (hthread' : t.thread = p') (hpoint : t.point = s.point) (hstop : t.stop = s.stop)
    (hstarted : p ≠ .notStarted)
    (hcredit : s.stop = true -> t.pulled + credit p' ≤ s.pulled + credit p)
    (hstream : t.upstream = .opened -> holdsStream p' = true ∨
      (s.upstream = .opened ∧ holdsStream p = false)) : Works s t := by
  subst hthread hthread'
  refine ⟨hpoint, hstop, hstarted, hcredit, ?_⟩
  intro hbefore hopened
  rcases hstream hopened with hholds | ⟨hwas, hno⟩
  · exact hholds
  · rw [hbefore hwas] at hno
    cases hno

theorem works_threadStep {a : ThreadAction} (h : s.threadStep s.thread a = some s') :
    Works s s' := by
  cases hthread : s.thread with
  | notStarted =>
      rw [hthread] at h
      cases a <;> cases h
  | opening =>
      rw [hthread] at h
      cases a with
      | opened =>
          cases h
          exact works_of hthread rfl rfl rfl (by decide) (fun _ => Nat.le_refl _)
            fun _ => .inl rfl
      | failed message =>
          cases h
          exact works_of hthread rfl rfl rfl (by decide) (fun _ => Nat.le_succ _)
            fun hopened => .inr ⟨hopened, rfl⟩
      | _ => cases h
  | reading =>
      rw [hthread] at h
      cases a with
      | chunk text =>
          cases h
          exact works_of hthread rfl rfl rfl (by decide) (fun _ => Nat.le_refl _)
            fun _ => .inl rfl
      | exhausted =>
          cases h
          exact works_of hthread rfl rfl rfl (by decide) (fun _ => Nat.le_succ _)
            fun _ => .inl rfl
      | failed message =>
          cases h
          exact works_of hthread rfl rfl rfl (by decide) (fun _ => Nat.le_succ _)
            fun _ => .inl rfl
      | _ => cases h
  | checking text =>
      rw [hthread] at h
      cases a with
      | proceed =>
          replace h : (if s.stop then some { s with thread := .closing none }
              else if text = "" then some { s with thread := .reading }
              else some { s with thread := .sending text }) = some s' := h
          split at h
          next =>
            cases h
            exact works_of hthread rfl rfl rfl (by simp) (fun _ => Nat.le_refl _)
              fun _ => .inl rfl
          next hstop =>
            split at h
            next =>
              cases h
              exact works_of hthread rfl rfl rfl (by simp)
                (fun hset => absurd hset hstop) fun _ => .inl rfl
            next =>
              cases h
              exact works_of hthread rfl rfl rfl (by simp)
                (fun hset => absurd hset hstop) fun _ => .inl rfl
      | _ => cases h
  | sending text =>
      rw [hthread] at h
      cases a with
      | proceed =>
          cases h
          exact works_of hthread rfl rfl rfl (by simp) (fun _ => Nat.le_refl _)
            fun _ => .inl rfl
      | _ => cases h
  | closing error =>
      rw [hthread] at h
      cases a with
      | proceed =>
          cases error with
          | none =>
              cases h
              exact works_of hthread rfl rfl rfl (by simp) (fun _ => Nat.le_refl _)
                fun hopened => by cases hopened
          | some message =>
              cases h
              exact works_of hthread rfl rfl rfl (by simp) (fun _ => Nat.le_refl _)
                fun hopened => by cases hopened
      | _ => cases error <;> cases h
  | reporting message =>
      rw [hthread] at h
      cases a with
      | proceed =>
          cases h
          exact works_of hthread rfl rfl rfl (by simp) (fun _ => Nat.le_refl _)
            fun hopened => .inr ⟨hopened, rfl⟩
      | _ => cases h
  | ending =>
      rw [hthread] at h
      cases a with
      | proceed =>
          cases h
          exact works_of hthread rfl rfl rfl (by decide) (fun _ => Nat.le_refl _)
            fun hopened => .inr ⟨hopened, rfl⟩
      | _ => cases h
  | ended =>
      rw [hthread] at h
      cases a <;> cases h

theorem acted_resume {now : Rat} {frame : Frame} {next : Resumed}
    (hpoint : s.point = .yielding frame next) :
    Acted s (.next now) (s.resume now next) := by
  have hinside (d : Departure) : s.point ≠ .left d := by
    rw [hpoint]
    intro hleft
    cases hleft
  have hother : (.next now : StreamAction) ≠ .close ∧ (.next now : StreamAction) ≠ .cancel :=
    ⟨by simp, by simp⟩
  cases next with
  | retrieve =>
      have hearly : s.point.early = true := by
        rw [hpoint]
        rfl
      exact .advance hother
        (advances_early hinside hearly (fun d hd => by cases hd) rfl rfl rfl rfl)
  | generate ctx =>
      unfold resume
      dsimp only
      split
      next => exact .advance hother (advances_emit hinside rfl rfl rfl rfl _)
      next =>
        refine .start hother ⟨?_, rfl, rfl, rfl, rfl, rfl⟩
        rw [hpoint]
        rfl
  | poll =>
      exact .advance hother
        (advances_point hinside (fun d hd => by cases hd) rfl rfl rfl rfl rfl)
  | beaten =>
      exact .advance hother
        (advances_point hinside (fun d hd => by cases hd) rfl rfl rfl rfl rfl)
  | frames rest =>
      exact .advance hother (advances_emit hinside rfl rfl rfl rfl rest)

theorem advances_receive {message : Message} {rest : List Message}
    (hinside : forall d, s.point ≠ .left d) :
    Advances s (receive q { s with queue := rest } message) := by
  cases message with
  | delta payload =>
      exact advances_point hinside (fun d hd => by cases hd) rfl rfl rfl rfl rfl
  | error message =>
      exact advances_emit (t := { s with queue := rest }) hinside rfl rfl rfl rfl
        [.error message, .done]
  | ended =>
      unfold receive
      dsimp only
      split
      next frames _ =>
        exact advances_emit (t := { s with queue := rest }) hinside rfl rfl rfl rfl frames
      next =>
        refine ⟨hinside, ?_, ?_, rfl, rfl, rfl, rfl⟩
        · intro d hd
          cases hd
          rfl
        · intro hearly
          cases hearly

theorem acted_of_act {a : StreamAction} (h : act q s a = some s') : Acted s a s' := by
  have hinside {p : Point} (hpoint : s.point = p) (hoff : forall d, p ≠ .left d) :
      forall d, s.point ≠ .left d := by
    rw [hpoint]
    exact hoff
  cases a with
  | next now =>
      unfold act at h
      dsimp only at h
      split at h
      next hpoint =>
        cases h
        have hearly : s.point.early = true := by
          rw [hpoint]
          rfl
        exact .advance ⟨by simp, by simp⟩ (advances_early (hinside hpoint (by simp))
          hearly (fun d hd => by cases hd) rfl rfl rfl rfl)
      next frame next hpoint =>
        cases h
        exact acted_resume hpoint
      next => cases h
  | retrieved =>
      unfold act at h
      dsimp only at h
      split at h
      next exc hpoint _ =>
        cases h
        exact .advance ⟨by simp, by simp⟩
          (advances_emit (hinside hpoint (by simp)) rfl rfl rfl rfl _)
      next ctx hpoint _ =>
        cases h
        have hearly : s.point.early = true := by
          rw [hpoint]
          rfl
        exact .advance ⟨by simp, by simp⟩ (advances_early (hinside hpoint (by simp))
          hearly (fun d hd => by cases hd) rfl rfl rfl rfl)
      next => cases h
  | polled disconnected =>
      unfold act at h
      dsimp only at h
      split at h
      next hpoint =>
        cases disconnected with
        | true =>
            rw [if_pos rfl] at h
            cases h
            exact .disconnect (hinside hpoint (by simp))
        | false =>
            rw [if_neg (by decide)] at h
            cases h
            exact .advance ⟨by simp, by simp⟩ (advances_point
              (hinside hpoint (by simp)) (fun d hd => by cases hd) rfl rfl rfl rfl rfl)
      next => cases h
  | received =>
      unfold act at h
      dsimp only at h
      split at h
      next message rest hpoint _ =>
        cases h
        exact .advance ⟨by simp, by simp⟩
          (advances_receive (hinside hpoint (by simp)))
      next => cases h
  | timedOut now =>
      unfold act at h
      dsimp only at h
      split at h
      next hpoint =>
        split at h
        next =>
          cases h
          exact .advance ⟨by simp, by simp⟩ (advances_point
            (hinside hpoint (by simp)) (fun d hd => by cases hd) rfl rfl rfl rfl rfl)
        next =>
          cases h
          exact .advance ⟨by simp, by simp⟩ (advances_point
            (hinside hpoint (by simp)) (fun d hd => by cases hd) rfl rfl rfl rfl rfl)
      next => cases h
  | close =>
      unfold act at h
      dsimp only at h
      split at h
      next hpoint =>
        cases h
        exact .close (hinside hpoint (by simp))
      next frame next hpoint =>
        cases h
        exact .close (hinside hpoint (by simp))
      next => cases h
  | cancel =>
      unfold act at h
      dsimp only at h
      split at h
      next hpoint =>
        cases h
        exact .cancel (hinside hpoint (by simp))
      next hpoint =>
        cases h
        exact .cancel (hinside hpoint (by simp))
      next hpoint =>
        cases h
        exact .cancel (hinside hpoint (by simp))
      next => cases h
  | thread a => exact .work (works_threadStep h)

/-!
# Invariants
-/

theorem consistent_init : Consistent init where
  early := fun _ => rfl
  upstream := by
    intro hopened
    cases hopened
  stopped := by
    intro hstop
    cases hstop

theorem not_stopped (h : Consistent s) (hinside : forall d, s.point ≠ .left d) :
    s.stop = false := by
  cases hstop : s.stop with
  | false => rfl
  | true =>
      rcases h.stopped hstop with ⟨d, hd, _⟩
      exact absurd hd (hinside d)

theorem credit_le (p : ThreadPoint) : credit p ≤ 1 := by
  cases p <;> simp [credit]

theorem consistent_leave {how : Exit} (h : Consistent s)
    (hinside : forall d, s.point ≠ .left d) : Consistent (s.leave how) where
  early := by
    intro hearly
    cases hearly
  upstream := h.upstream
  stopped := by
    intro hstop
    have hno : s.stop = true := hstop
    rw [not_stopped h hinside] at hno
    cases hno

theorem consistent_acted {a : StreamAction} (h : Consistent s) (hacted : Acted s a s') :
    Consistent s' := by
  cases hacted with
  | advance ha hadvance =>
      constructor
      · intro hearly
        rw [hadvance.thread]
        exact h.early (hadvance.early hearly)
      · rw [hadvance.upstream, hadvance.thread]
        exact h.upstream
      · rw [hadvance.stop, not_stopped h hadvance.inside]
        intro hstop
        cases hstop
  | start ha hstart =>
      have hbefore := h.early hstart.early
      constructor
      · rw [hstart.point]
        intro hearly
        cases hearly
      · rw [hstart.upstream]
        intro hopened
        have hholds := h.upstream hopened
        rw [hbefore] at hholds
        cases hholds
      · rw [hstart.stop]
        intro hstop
        rcases h.stopped hstop with ⟨d, hd, _⟩
        have hearly := hstart.early
        rw [hd] at hearly
        cases hearly
  | disconnect hinside =>
      constructor
      · intro hearly
        cases hearly
      · exact h.upstream
      · intro _
        exact ⟨_, rfl, rfl, Nat.add_le_add_left (credit_le _) _⟩
  | close hinside => exact consistent_leave h hinside
  | cancel hinside => exact consistent_leave h hinside
  | work hworks =>
      constructor
      · rw [hworks.point]
        intro hearly
        exact absurd (h.early hearly) hworks.started
      · exact hworks.upstream h.upstream
      · rw [hworks.stop]
        intro hstop
        rcases h.stopped hstop with ⟨d, hd, hhow, hpulled⟩
        rw [hworks.point]
        exact ⟨d, hd, hhow, (hworks.credited hstop).trans hpulled⟩

theorem consistent_of_run {trace : List (QueryStream × StreamAction)}
    (hrun : Run (act q) init trace s) : Consistent s := by
  have hany : EachStep (fun (_ : QueryStream) (_ : StreamAction) => True) trace :=
    fun _ _ => True.intro
  exact hrun.invariant consistent_init
    (fun _ _ _ h _ hact => consistent_acted h (acted_of_act hact)) hany

/-- Whether the stop event is set decides everything. -/
theorem tornDown_iff (h : Consistent s) :
    s.TornDown <-> forall d, s.point = .left d -> d.how.byConsumer = true ->
      d.unfinished = true -> s.stop = true := by
  constructor
  · intro htorn d hd hconsumer hunfinished
    exact (htorn d hd hconsumer hunfinished).1
  · intro hset d hd hconsumer hunfinished
    have hstop := hset d hd hconsumer hunfinished
    rcases h.stopped hstop with ⟨d', hd', _, hpulled⟩
    rw [hd] at hd'
    cases hd'
    refine ⟨hstop, (Nat.le_add_right _ _).trans hpulled, ?_⟩
    intro hended hopened
    have hholds := h.upstream hopened
    rw [hended] at hholds
    cases hholds

theorem tornDown_leave {how : Exit} (h : Consistent s)
    (hinside : forall d, s.point ≠ .left d) (hconsumer : how.byConsumer = true) :
    (s.leave how).TornDown <-> s.unfinished = false := by
  have hstop : (s.leave how).stop = false := by
    have hno : s.stop = false := not_stopped h hinside
    exact hno
  rw [tornDown_iff (consistent_leave h hinside), hstop]
  constructor
  · intro htorn
    cases hunfinished : s.unfinished with
    | false => rfl
    | true =>
        have hset := htorn _ rfl hconsumer hunfinished
        cases hset
  · intro hfinished d hd _ hunfinished
    cases hd
    have hno : s.unfinished = true := hunfinished
    rw [hfinished] at hno
    cases hno

theorem tornDown_acted {a : StreamAction} (h : Consistent s) (htorn : s.TornDown)
    (hacted : Acted s a s') : s'.TornDown <-> s.Undisturbed a := by
  have hconsistent := consistent_acted h hacted
  cases hacted with
  | advance ha hadvance =>
      constructor
      · intro _ hcases
        rcases hcases with hclose | hcancel
        · exact absurd hclose ha.1
        · exact absurd hcancel ha.2
      · intro _ d hd hconsumer
        rw [hadvance.outside d hd] at hconsumer
        cases hconsumer
  | start ha hstart =>
      constructor
      · intro _ hcases
        rcases hcases with hclose | hcancel
        · exact absurd hclose ha.1
        · exact absurd hcancel ha.2
      · intro _ d hd
        rw [hstart.point] at hd
        cases hd
  | disconnect hinside =>
      constructor
      · intro _ hcases
        rcases hcases with hclose | hcancel
        · cases hclose
        · cases hcancel
      · intro _
        rw [tornDown_iff hconsistent]
        exact fun _ _ _ _ => rfl
  | close hinside =>
      rw [tornDown_leave h hinside rfl]
      constructor
      · exact fun hfinished _ => hfinished
      · exact fun hundisturbed => hundisturbed (.inl rfl)
  | cancel hinside =>
      rw [tornDown_leave h hinside rfl]
      constructor
      · exact fun hfinished _ => hfinished
      · exact fun hundisturbed => hundisturbed (.inr rfl)
  | work hworks =>
      constructor
      · intro _ hcases
        rcases hcases with hclose | hcancel
        · cases hclose
        · cases hcancel
      · intro _
        rw [tornDown_iff hconsistent, hworks.point, hworks.stop]
        exact (tornDown_iff h).mp htorn

/-- The upstream stream is torn down after every exit of a run exactly when the
generator is never closed or cancelled while its thread is under way. -/
theorem tornDown_iff_undisturbed (q : QueryRun)
    {trace : List (QueryStream × StreamAction)} {s : QueryStream}
    (hrun : Run (act q) init trace s) :
    (EachStep (fun s _ => s.TornDown) trace ∧ s.TornDown) <->
      EachStep (fun s a => s.Undisturbed a) trace := by
  refine hrun.always_iff ?_ fun before s a s' hbefore htorn _ hact =>
    tornDown_acted (consistent_of_run hbefore) htorn (acted_of_act hact)
  intro d hd
  cases hd

/-!
# A closed generator

The consumer closes the generator at its first delta.  The stop event is not
set, and the thread goes on pulling.
-/

def plainQuery : QueryRun where
  u := .ascii
  rerank := fun _ _ => []
  parse := fun _ => none
  retrieved := .ok ⟨[(⟨7, 1, "577", none, none, none, none, none⟩, .finite 1)]⟩
  generation := ⟨[], .finished⟩
  startClock := 0

def firstDelta : List StreamAction :=
  [.next 0, .next 0, .retrieved, .next 0, .thread .opened, .thread (.chunk "a"),
   .thread .proceed, .thread .proceed, .polled false, .received]

def closedAtDelta : List StreamAction :=
  firstDelta ++ [.close, .thread (.chunk "b"), .thread .proceed, .thread .proceed,
    .thread (.chunk "c")]

def polledAfterDelta : List StreamAction :=
  firstDelta ++ [.next 0, .polled true, .thread (.chunk "b"), .thread .proceed,
    .thread .proceed, .thread .proceed]

def leftRunning (s : QueryStream) : Bool :=
  match s.point with
  | .left d => d.how.byConsumer && d.unfinished && !s.stop
  | _ => false

theorem tornDown_polled :
    exists trace s, Run (act plainQuery) init trace s ∧ s.thread = .ended ∧
      ((EachStep (fun s _ => s.TornDown) trace ∧ s.TornDown) <->
        EachStep (fun s a => s.Undisturbed a) trace) := by
  have hfollow : (follow (act plainQuery) init polledAfterDelta).any
      (fun out => decide (out.2.thread = .ended)) = true := by
    decide +kernel
  rcases exists_run_of_follow (fun _ (s : QueryStream) => decide (s.thread = .ended))
    hfollow with ⟨trace, s, hrun, hgood⟩
  exact ⟨trace, s, hrun, of_decide_eq_true hgood,
    tornDown_iff_undisturbed plainQuery hrun⟩

theorem exists_not_tornDown :
    ¬ forall (q : QueryRun) (trace : List (QueryStream × StreamAction))
      (s : QueryStream), Run (act q) init trace s -> s.TornDown := by
  intro hall
  have hfollow : (follow (act plainQuery) init closedAtDelta).any
      (fun out => leftRunning out.2) = true := by
    decide +kernel
  rcases exists_run_of_follow (fun _ (s : QueryStream) => leftRunning s) hfollow with
    ⟨trace, s, hrun, hgood⟩
  have htorn := hall plainQuery trace s hrun
  unfold leftRunning at hgood
  unfold TornDown at htorn
  cases hpoint : s.point with
  | left d =>
      rw [hpoint] at hgood
      rw [Bool.and_eq_true, Bool.and_eq_true] at hgood
      rcases hgood with ⟨⟨hconsumer, hunfinished⟩, hstop⟩
      rw [(htorn d hpoint hconsumer hunfinished).1] at hstop
      cases hstop
  | _ =>
      rw [hpoint] at hgood
      cases hgood

end QueryStream
end ChatDoc
