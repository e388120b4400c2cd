import ChatDoc.Foundation.Transition
import ChatDoc.Foundation.Updates
import ChatDoc.Web.Chat

/-!
# The turns of a conversation

`ChatPage.tsx` with any number of questions and their streams.  The handlers of
the form and of the cancel button run on what is shown, and their updates of the
turns are rendered at once.  The updates that the streams make are rendered
later, some of them after those of a click that came after them.
-/

namespace ChatDoc

open Foundation

/-!
# The updates of the turns
-/

/-- The functions that `setTurns` is called with. -/
inductive TurnsUpdate where
  | append (q : String)
  | event (index : Nat) (q : String) (evt : QueryEvent)
  | caught (index : Nat) (q : String)
  | cancel

def cancelledMessage : ErrorMessage := .sent (some (.string (jsText "cancelled")))

namespace TurnsUpdate

/-- An update of a turn that is not there would raise, or leave a hole. -/
def apply (turns : List TurnState) : TurnsUpdate -> Option (List TurnState)
  | append q => some (turns ++ [.generating q (some (.number (.finite false 0)))])
  | event index q evt =>
      (turns[index]?).map fun turn => turns.set index (onEvent q turn evt)
  | caught index q =>
      (turns[index]?).map fun _ => turns.set index (.error q .caught)
  | cancel =>
      match turns[turns.length - 1]? with
      | some (.generating question _) =>
          some (turns.set (turns.length - 1) (.error question cancelledMessage))
      | _ => some turns

def isAppend : TurnsUpdate -> Bool
  | append _ => true
  | _ => false

/-- The updates of `onSubmit` itself are rendered before the next click. -/
def Skippable (u : TurnsUpdate) : Prop := u.isAppend = false

end TurnsUpdate

/-- `turns.length > 0 && turns[turns.length - 1].kind === 'generating'`. -/
def isGenerating (turns : List TurnState) : Bool :=
  (turns[turns.length - 1]?).any TurnState.isGenerating

/-!
# The page
-/

/-- A call of `onSubmit` that has sent its request: the `index` and the `q` of its
closure, the events that its loop has taken from the stream, and the state of its
controller. -/
structure Asked where
  index : Nat
  question : String
  received : List QueryEvent
  aborted : Bool
  ended : Bool

structure ChatPage where
  queue : List (Queued TurnsUpdate)
  asked : List Asked
  abortRef : Option Nat

/-- `more` are the updates that are rendered with the click. -/
inductive ChatAction where
  | render (more : Nat -> Bool)
  | submit (q : String) (more : Nat -> Bool)
  | deliver (k : Nat) (evt : QueryEvent)
  | finish (k : Nat) (how : StreamEnd)
  | cancel (more : Nat -> Bool)

namespace ChatPage

def start : ChatPage where
  queue := []
  asked := []
  abortRef := none

def turns (page : ChatPage) : Option (List TurnState) :=
  applyAll TurnsUpdate.apply [] (allUpdates page.queue)

def view (page : ChatPage) : Option (List TurnState) :=
  applyAll TurnsUpdate.apply [] (renderedUpdates page.queue)

/-- `onSubmit` up to its loop; `q` is the trimmed question. -/
def onSubmit (page : ChatPage) (q : String) (more : Nat -> Bool)
    (view : List TurnState) : ChatPage :=
  if q = "" ∨ isGenerating view then page
  else
    { queue := render more page.queue ++ [⟨.append q, true⟩]
      asked := page.asked ++ [⟨view.length, q, [], false, false⟩]
      abortRef := some page.asked.length }

/-- One turn of the loop over the events. -/
def onDelivery (page : ChatPage) (k : Nat) (st : Asked) (evt : QueryEvent) : ChatPage :=
  { page with
    queue := page.queue ++ [⟨.event st.index st.question evt, false⟩]
    asked := page.asked.set k { st with received := st.received ++ [evt] } }

/-- The end of the loop, with the `catch` and the `finally` clause. -/
def onFinish (page : ChatPage) (k : Nat) (st : Asked) (how : StreamEnd) : ChatPage where
  queue :=
    match how with
    | .returned => page.queue
    | .thrown =>
        if st.aborted then page.queue
        else page.queue ++ [⟨.caught st.index st.question, false⟩]
  asked := page.asked.set k { st with ended := true }
  abortRef := none

def onCancel (page : ChatPage) (more : Nat -> Bool) : ChatPage :=
  { page with
    queue := render more page.queue ++ [⟨.cancel, true⟩]
    asked :=
      match page.abortRef with
      | none => page.asked
      | some k => page.asked.modify k fun st => { st with aborted := true } }

/-- The cancel button is there while the last turn is shown as generating.  A stream
may go on for a while after it was aborted. -/
def act (page : ChatPage) : ChatAction -> Option ChatPage
  | .render more => some { page with queue := Foundation.render more page.queue }
  | .submit q more => (page.view).map (page.onSubmit q more)
  | .deliver k evt =>
      (page.asked[k]?).bind fun st =>
        if st.ended then none else some (page.onDelivery k st evt)
  | .finish k how =>
      (page.asked[k]?).bind fun st =>
        if st.ended then none else some (page.onFinish k st how)
  | .cancel more =>
      (page.view).bind fun view =>
        if isGenerating view then some (page.onCancel more) else none

end ChatPage

/-!
# Which turns wait
-/

def QueryEvent.settles (evt : QueryEvent) : Bool :=
  evt.event = "answer".toList ∨ evt.event = "refusal".toList ∨ evt.event = "error".toList

theorem settles_delta {evt : QueryEvent} (h : evt.event = "delta".toList) :
    evt.settles = false := by
  unfold QueryEvent.settles
  rw [h]
  decide

theorem onEvent_isGenerating (q : String) (turn : TurnState) (evt : QueryEvent) :
    (onEvent q turn evt).isGenerating = (turn.isGenerating && !evt.settles) := by
  unfold onEvent
  split
  · next hdelta =>
      rw [settles_delta hdelta]
      cases turn <;> rfl
  · split
    · next hanswer =>
        have hsettles : evt.settles = true := decide_eq_true (.inl hanswer)
        rw [hsettles]
        exact (Bool.and_false _).symm
    · next hanswer =>
        split
        · next hrefusal =>
            have hsettles : evt.settles = true := decide_eq_true (.inr (.inl hrefusal))
            rw [hsettles]
            exact (Bool.and_false _).symm
        · next hrefusal =>
            split
            · next herror =>
                have hsettles : evt.settles = true := decide_eq_true (.inr (.inr herror))
                rw [hsettles]
                exact (Bool.and_false _).symm
            · next herror =>
                have hsettles : evt.settles = false :=
                  decide_eq_false fun h => h.elim hanswer fun h => h.elim hrefusal herror
                rw [hsettles]
                exact (Bool.and_true _).symm

def waiting (turns : List TurnState) (k : Nat) : Bool :=
  (turns[k]?).any TurnState.isGenerating

namespace TurnsUpdate

def opens (n k : Nat) : TurnsUpdate -> Bool
  | append _ => k = n
  | _ => false

def ends (n k : Nat) : TurnsUpdate -> Bool
  | append _ => false
  | event index _ evt => index = k && evt.settles
  | caught index _ => index = k
  | cancel => k + 1 = n

section Waiting

variable {turns turns' : List TurnState} {u : TurnsUpdate}

theorem waiting_set {index k : Nat} {turn : TurnState} (h : index < turns.length) :
    waiting (turns.set index turn) k =
      if index = k then turn.isGenerating else waiting turns k := by
  unfold waiting
  rw [List.getElem?_set]
  split
  · next hk =>
      subst hk
      rfl
  · rfl

theorem waiting_apply (h : u.apply turns = some turns') (k : Nat) :
    waiting turns' k =
      (u.opens turns.length k || (waiting turns k && !u.ends turns.length k)) := by
  cases u with
  | append q =>
      cases h
      unfold waiting opens ends
      rw [List.getElem?_append]
      split
      · next hk => simp [Nat.ne_of_lt hk]
      · next hk =>
          rw [List.getElem?_eq_none (Nat.le_of_not_lt hk), List.getElem?_singleton]
          by_cases hnew : k = turns.length
          · simp [hnew, TurnState.isGenerating]
          · have hpos : k - turns.length ≠ 0 := by omega
            simp [hnew, hpos]
  | event index q evt =>
      rcases Option.map_eq_some_iff.mp h with ⟨turn, hturn, rfl⟩
      rw [waiting_set (List.getElem?_eq_some_iff.mp hturn).1, onEvent_isGenerating]
      unfold opens ends
      by_cases hk : index = k
      · subst hk
        simp [waiting, hturn]
      · simp [hk]
  | caught index q =>
      rcases Option.map_eq_some_iff.mp h with ⟨turn, hturn, rfl⟩
      rw [waiting_set (List.getElem?_eq_some_iff.mp hturn).1]
      unfold opens ends
      by_cases hk : index = k
      · simp [hk, TurnState.isGenerating]
      · simp [hk]
  | cancel =>
      replace h : (match turns[turns.length - 1]? with
        | some (.generating question _) =>
            some (turns.set (turns.length - 1) (.error question cancelledMessage))
        | _ => some turns) = some turns' := h
      show waiting turns' k =
        (false || (waiting turns k && !decide (k + 1 = turns.length)))
      split at h
      · next question chars hlast =>
          cases h
          have hlt := (List.getElem?_eq_some_iff.mp hlast).1
          rw [waiting_set hlt]
          by_cases hk : k + 1 = turns.length
          · have hlastk : turns.length - 1 = k := by omega
            simp [hk, hlastk, TurnState.isGenerating]
          · have hother : turns.length - 1 ≠ k := by omega
            simp [hk, hother]
      · next hsettled =>
          cases h
          by_cases hk : k + 1 = turns.length
          · have hlastk : turns.length - 1 = k := by omega
            have hwait : waiting turns k = false := by
              unfold waiting
              rw [← hlastk]
              cases hturn : turns[turns.length - 1]? with
              | none => rfl
              | some turn =>
                  cases turn with
                  | generating question chars => exact absurd hturn (hsettled question chars)
                  | _ => rfl
            simp [hwait]
          · simp [hk]

theorem opens_eq_false (h : u.Skippable) (n k : Nat) : u.opens n k = false := by
  cases u with
  | append q => cases h
  | _ => rfl

theorem length_apply (h : u.apply turns = some turns') :
    turns'.length = turns.length + u.isAppend.toNat := by
  cases u with
  | append q =>
      cases h
      exact List.length_append
  | event index q evt =>
      rcases Option.map_eq_some_iff.mp h with ⟨turn, _, rfl⟩
      exact List.length_set
  | caught index q =>
      rcases Option.map_eq_some_iff.mp h with ⟨turn, _, rfl⟩
      exact List.length_set
  | cancel =>
      replace h : (match turns[turns.length - 1]? with
        | some (.generating question _) =>
            some (turns.set (turns.length - 1) (.error question cancelledMessage))
        | _ => some turns) = some turns' := h
      split at h
      · cases h
        exact List.length_set
      · cases h
        rfl

end Waiting
end TurnsUpdate

/-!
# What a turn shows
-/

/-- The turn is of the question, and shows what its own stream sent.  The texts of an
error that are the page's own stand for a stream that raised and for a click on cancel. -/
def TurnState.Shows (cancelled : Prop) (st : Asked) : TurnState -> Prop
  | .generating question chars =>
      question = st.question ∧ (chars = some (.number (.finite false 0)) ∨
        exists evt, evt ∈ st.received ∧ evt.event = "delta".toList ∧
          chars = jsProperty "chars" evt.data)
  | .answer question data =>
      question = st.question ∧
        exists evt, evt ∈ st.received ∧ evt.event = "answer".toList ∧ data = evt.data
  | .refusal question data =>
      question = st.question ∧
        exists evt, evt ∈ st.received ∧ evt.event = "refusal".toList ∧ data = evt.data
  | .error question message =>
      question = st.question ∧
        ((exists evt, evt ∈ st.received ∧ evt.event = "error".toList ∧
            message = .sent (jsProperty "message" evt.data)) ∨
          (message = .caught ∧ st.ended = true) ∨
          (message = cancelledMessage ∧ cancelled))

/-- The turns that a click on cancel found last are `cancelled`. -/
def ShowsOwn (cancelled : Nat -> Prop) (asked : List Asked) (turns : List TurnState) : Prop :=
  forall (k : Nat) (turn : TurnState), turns[k]? = some turn ->
    exists st, asked[k]? = some st ∧ turn.Shows (cancelled k) st

def TurnsUpdate.Made (cancelled : Nat -> Prop) (asked : List Asked) (n : Nat) :
    TurnsUpdate -> Prop
  | .append q => exists st, asked[n]? = some st ∧ q = st.question
  | .event index q evt =>
      index < n ∧ exists st, asked[index]? = some st ∧ q = st.question ∧ evt ∈ st.received
  | .caught index q =>
      index < n ∧ exists st, asked[index]? = some st ∧ q = st.question ∧ st.ended = true
  | .cancel => forall k, k + 1 = n -> cancelled k

def AllMade (cancelled : Nat -> Prop) (asked : List Asked) : Nat -> List TurnsUpdate -> Prop
  | _, [] => True
  | n, u :: rest =>
      u.Made cancelled asked n ∧ AllMade cancelled asked (n + u.isAppend.toNat) rest

section Contents

variable {cancelled : Nat -> Prop} {asked : List Asked} {turns turns' : List TurnState}
  {u : TurnsUpdate}

theorem onEvent_shows {was : Prop} {st : Asked} {turn : TurnState} {evt : QueryEvent}
    (hevt : evt ∈ st.received) (h : turn.Shows was st) :
    (onEvent st.question turn evt).Shows was st := by
  unfold onEvent
  split
  · next hdelta =>
      cases turn with
      | generating question chars => exact ⟨h.left, .inr ⟨evt, hevt, hdelta, rfl⟩⟩
      | _ => exact h
  · split
    · next hanswer => exact ⟨rfl, evt, hevt, hanswer, rfl⟩
    · split
      · next hrefusal => exact ⟨rfl, evt, hevt, hrefusal, rfl⟩
      · split
        · next herror => exact ⟨rfl, .inl ⟨evt, hevt, herror, rfl⟩⟩
        · exact h

theorem showsOwn_set {index : Nat} {turn : TurnState} {st : Asked}
    (h : ShowsOwn cancelled asked turns) (hst : asked[index]? = some st)
    (hturn : turn.Shows (cancelled index) st) : ShowsOwn cancelled asked (turns.set index turn) := by
  intro k turn' hk
  rw [List.getElem?_set] at hk
  split at hk
  · next hindex =>
      split at hk
      · cases hk
        subst hindex
        exact ⟨st, hst, hturn⟩
      · cases hk
  · exact h k turn' hk

theorem exists_apply (hmade : u.Made cancelled asked turns.length)
    (h : ShowsOwn cancelled asked turns) :
    exists turns', u.apply turns = some turns' ∧ ShowsOwn cancelled asked turns' := by
  cases u with
  | append q =>
      rcases hmade with ⟨st, hst, rfl⟩
      refine ⟨_, rfl, ?_⟩
      intro k turn hk
      rw [List.getElem?_append] at hk
      split at hk
      · exact h k turn hk
      · next hge =>
          rcases List.getElem?_eq_some_iff.mp hk with ⟨hlt, hturn⟩
          have hnew : k = turns.length := by
            rw [List.length_singleton] at hlt
            omega
          subst hnew
          rw [Nat.sub_self] at hk
          cases hk
          exact ⟨st, hst, rfl, .inl rfl⟩
  | event index q evt =>
      rcases hmade with ⟨hlt, st, hst, rfl, hevt⟩
      have hturn := List.getElem?_eq_getElem hlt
      rcases h index _ hturn with ⟨st', hst', hshows⟩
      rw [hst] at hst'
      cases hst'
      exact ⟨_, congrArg (Option.map _) hturn,
        showsOwn_set h hst (onEvent_shows hevt hshows)⟩
  | caught index q =>
      rcases hmade with ⟨hlt, st, hst, rfl, hended⟩
      have hturn := List.getElem?_eq_getElem hlt
      exact ⟨_, congrArg (Option.map _) hturn,
        showsOwn_set h hst ⟨rfl, .inr (.inl ⟨rfl, hended⟩)⟩⟩
  | cancel =>
      cases hlast : turns[turns.length - 1]? with
      | none =>
          refine ⟨turns, ?_, h⟩
          unfold TurnsUpdate.apply
          rw [hlast]
      | some turn =>
          cases turn with
          | generating question chars =>
              rcases h _ _ hlast with ⟨st, hst, hquestion, _⟩
              have hlt := (List.getElem?_eq_some_iff.mp hlast).1
              have hcancelled : cancelled (turns.length - 1) := hmade _ (by omega)
              refine ⟨turns.set (turns.length - 1) (.error question cancelledMessage), ?_,
                showsOwn_set h hst ⟨hquestion, .inr (.inr ⟨rfl, hcancelled⟩)⟩⟩
              unfold TurnsUpdate.apply
              rw [hlast]
          | _ =>
              refine ⟨turns, ?_, h⟩
              unfold TurnsUpdate.apply
              rw [hlast]

structure Lag (cancelled : Nat -> Prop) (asked : List Asked) (rest : List TurnsUpdate)
    (turns turns' : List TurnState) : Prop where
  made : AllMade cancelled asked turns.length rest
  count : turns.length + rest.countP TurnsUpdate.isAppend = asked.length
  length : turns'.length = turns.length
  own : ShowsOwn cancelled asked turns
  own' : ShowsOwn cancelled asked turns'
  waits : forall k, waiting turns' k = true -> waiting turns k = true

theorem Lag.count_next {u : TurnsUpdate} {rest : List TurnsUpdate}
    (h : Lag cancelled asked (u :: rest) turns turns') :
    turns.length + u.isAppend.toNat + rest.countP TurnsUpdate.isAppend = asked.length := by
  have hcount := h.count
  rw [List.countP_cons] at hcount
  cases hu : u.isAppend <;> simp [hu] at hcount ⊢ <;> omega

theorem lagging : Lagging TurnsUpdate.apply TurnsUpdate.Skippable
    (Lag cancelled asked) := by
  constructor
  · intro u rest turns turns' h
    rcases h.made with ⟨hmade, hrest⟩
    have hmade' := hmade
    rw [← h.length] at hmade'
    rcases exists_apply hmade h.own with ⟨t, ht, hown⟩
    rcases exists_apply hmade' h.own' with ⟨t', ht', hown'⟩
    have hlength := TurnsUpdate.length_apply ht
    have hlength' := TurnsUpdate.length_apply ht'
    rw [h.length] at hlength'
    refine ⟨t, t', ht, ht', ?_, ?_, hlength'.trans hlength.symm, hown, hown', ?_⟩
    · rw [hlength]
      exact hrest
    · rw [hlength]
      exact h.count_next
    · intro k hk
      rw [TurnsUpdate.waiting_apply ht', h.length] at hk
      rw [TurnsUpdate.waiting_apply ht]
      cases hopens : u.opens turns.length k with
      | true => rfl
      | false =>
          rw [hopens, Bool.false_or, Bool.and_eq_true] at hk
          rw [h.waits k hk.left, hk.right]
          rfl
  · intro u rest turns turns' h hskip
    rcases h.made with ⟨hmade, hrest⟩
    have hcount := h.count_next
    have hmade' := hmade
    rw [← h.length] at hmade'
    rcases exists_apply hmade' h.own' with ⟨t', ht', hown'⟩
    have hlength' := TurnsUpdate.length_apply ht'
    rw [hskip] at hrest hcount hlength'
    refine ⟨t', ht', hrest, hcount, hlength'.trans h.length, h.own, hown', ?_⟩
    intro k hk
    rw [TurnsUpdate.waiting_apply ht', TurnsUpdate.opens_eq_false hskip, Bool.false_or,
      Bool.and_eq_true] at hk
    exact h.waits k hk.left
  · intro u rest turns turns' h hskip
    rcases h.made with ⟨_, hrest⟩
    have hcount := h.count_next
    rw [hskip] at hrest hcount
    exact ⟨hrest, hcount, h.length, h.own, h.own', h.waits⟩

def Grown (asked asked' : List Asked) : Prop :=
  forall (k : Nat) (st : Asked), asked[k]? = some st ->
    exists st', asked'[k]? = some st' ∧ st'.question = st.question ∧
      (forall evt, evt ∈ st.received -> evt ∈ st'.received) ∧
        (st.ended = true -> st'.ended = true)

theorem grown_append (st : Asked) : Grown asked (asked ++ [st]) := by
  intro k st' hk
  have hlt := (List.getElem?_eq_some_iff.mp hk).1
  refine ⟨st', ?_, rfl, fun _ hevt => hevt, id⟩
  rw [List.getElem?_append_left hlt]
  exact hk

theorem grown_set {k : Nat} {st st' : Asked} (hk : asked[k]? = some st)
    (hquestion : st'.question = st.question)
    (hreceived : forall evt, evt ∈ st.received -> evt ∈ st'.received)
    (hended : st.ended = true -> st'.ended = true) : Grown asked (asked.set k st') := by
  intro i sti hi
  by_cases hki : k = i
  · subst hki
    rw [hk] at hi
    cases hi
    have hlt := (List.getElem?_eq_some_iff.mp hk).1
    exact ⟨st', List.getElem?_set_self hlt, hquestion, hreceived, hended⟩
  · refine ⟨sti, ?_, rfl, fun _ hevt => hevt, id⟩
    rw [List.getElem?_set_ne hki]
    exact hi

theorem grown_modify (k : Nat) :
    Grown asked (asked.modify k fun st => { st with aborted := true }) := by
  intro i sti hi
  rw [List.getElem?_modify, hi]
  by_cases hki : k = i
  · exact ⟨_, congrArg some (if_pos hki), rfl, fun _ hevt => hevt, id⟩
  · exact ⟨sti, congrArg some (if_neg hki), rfl, fun _ hevt => hevt, id⟩

variable {cancelled' : Nat -> Prop} {asked' : List Asked} {n : Nat} {us : List TurnsUpdate}

theorem made_mono (hcancel : forall k, cancelled k -> cancelled' k) (hgrown : Grown asked asked')
    (h : u.Made cancelled asked n) : u.Made cancelled' asked' n := by
  cases u with
  | append q =>
      rcases h with ⟨st, hst, hq⟩
      rcases hgrown n st hst with ⟨st', hst', hquestion, _⟩
      exact ⟨st', hst', hq.trans hquestion.symm⟩
  | event index q evt =>
      rcases h with ⟨hlt, st, hst, hq, hevt⟩
      rcases hgrown index st hst with ⟨st', hst', hquestion, hreceived, _⟩
      exact ⟨hlt, st', hst', hq.trans hquestion.symm, hreceived evt hevt⟩
  | caught index q =>
      rcases h with ⟨hlt, st, hst, hq, hended⟩
      rcases hgrown index st hst with ⟨st', hst', hquestion, _, hends⟩
      exact ⟨hlt, st', hst', hq.trans hquestion.symm, hends hended⟩
  | cancel => exact fun k hk => hcancel k (h k hk)

theorem allMade_mono (hcancel : forall k, cancelled k -> cancelled' k) (hgrown : Grown asked asked')
    (h : AllMade cancelled asked n us) : AllMade cancelled' asked' n us := by
  induction us generalizing n with
  | nil => exact True.intro
  | cons u rest ih => exact ⟨made_mono hcancel hgrown h.left, ih h.right⟩

theorem allMade_snoc (h : AllMade cancelled asked n us)
    (hlast : u.Made cancelled asked (n + us.countP TurnsUpdate.isAppend)) :
    AllMade cancelled asked n (us ++ [u]) := by
  induction us generalizing n with
  | nil => exact ⟨hlast, True.intro⟩
  | cons first rest ih =>
      refine ⟨h.left, ih h.right ?_⟩
      rw [List.countP_cons] at hlast
      have hsame : n + first.isAppend.toNat + rest.countP TurnsUpdate.isAppend =
          n + (rest.countP TurnsUpdate.isAppend + if first.isAppend then 1 else 0) := by
        cases first.isAppend with
        | false => rfl
        | true =>
            simp
            omega
      rw [hsame]
      exact hlast

end Contents

/-!
# What every action keeps
-/

namespace ChatPage

/-- Cancel was clicked when this turn was the last one. -/
def Cancelled (page : ChatPage) (k : Nat) : Prop :=
  exists earlier later, allUpdates page.queue = earlier ++ .cancel :: later ∧
    earlier.countP TurnsUpdate.isAppend = k + 1

theorem cancelled_snoc {page page' : ChatPage} {u : TurnsUpdate} {k : Nat}
    (hqueue : allUpdates page'.queue = allUpdates page.queue ++ [u])
    (h : page.Cancelled k) : page'.Cancelled k := by
  rcases h with ⟨earlier, later, hsplit, hcount⟩
  refine ⟨earlier, later ++ [u], ?_, hcount⟩
  rw [hqueue, hsplit, List.append_assoc, List.cons_append]

structure Tidy (page : ChatPage) : Prop where
  made : AllMade page.Cancelled page.asked 0 (allUpdates page.queue)
  count : (allUpdates page.queue).countP TurnsUpdate.isAppend = page.asked.length
  eager : forall e, e ∈ page.queue -> e.rendered = false -> e.update.Skippable
  index : forall (k : Nat) (st : Asked), page.asked[k]? = some st -> st.index = k
  last : forall view, page.view = some view ->
    forall k, waiting view k = true -> k + 1 = view.length
  abort : forall k, page.abortRef = some k -> k + 1 = page.asked.length

section Steps

variable {page page' : ChatPage} {view : List TurnState}

theorem Tidy.views {queue : List (Queued TurnsUpdate)} (h : page.Tidy)
    (hmore : Rendered page.queue queue) :
    exists view view', page.view = some view ∧
      applyAll TurnsUpdate.apply [] (renderedUpdates queue) = some view' ∧
        Lag page.Cancelled page.asked [] view view' := by
  have hempty : ShowsOwn page.Cancelled page.asked [] := by
    intro k turn hk
    cases hk
  refine lagging.views hmore h.eager ⟨h.made, ?_, rfl, hempty, hempty, fun _ hk => hk⟩
  rw [h.count]
  exact Nat.zero_add _

theorem Tidy.length (h : page.Tidy) (hview : page.view = some view) :
    view.length = page.asked.length := by
  rcases h.views (rendered_refl page.queue) with ⟨view1, view2, hview1, _, hlag⟩
  rw [hview] at hview1
  cases hview1
  exact hlag.count

theorem tidy_rendered {queue : List (Queued TurnsUpdate)} (h : page.Tidy)
    (hmore : Rendered page.queue queue) : Tidy { page with queue := queue } := by
  have hsame : allUpdates queue = allUpdates page.queue := allUpdates_of_rendered hmore
  rcases h.views hmore with ⟨view, view', hview, hview', hlag⟩
  constructor
  · unfold Cancelled
    rw [hsame]
    exact h.made
  · rw [hsame]
    exact h.count
  · intro e he hwaits
    rcases mem_of_rendered hmore he with ⟨old, hold, hupdate, hstays⟩
    rw [hupdate]
    apply h.eager old hold
    cases hrendered : old.rendered with
    | false => rfl
    | true =>
        rw [hstays hrendered] at hwaits
        cases hwaits
  · exact h.index
  · intro shown hshown k hk
    replace hshown : applyAll TurnsUpdate.apply [] (renderedUpdates queue) = some shown := hshown
    rw [hview'] at hshown
    cases hshown
    rw [hlag.length]
    exact h.last view hview k (hlag.waits k hk)
  · exact h.abort

theorem tidy_streamed {queue : List (Queued TurnsUpdate)} {asked : List Asked}
    (h : page.Tidy) (hgrown : Grown page.asked asked)
    (hlength : asked.length = page.asked.length)
    (hindex : forall (k : Nat) (st : Asked), asked[k]? = some st -> st.index = k)
    (hqueue : queue = page.queue ∨ exists u, queue = page.queue ++ [⟨u, false⟩] ∧
      u.Skippable ∧ u.Made page.Cancelled asked page.asked.length)
    (habort : forall k, page'.abortRef = some k -> k + 1 = page.asked.length)
    (hpage : page'.queue = queue ∧ page'.asked = asked) : page'.Tidy := by
  rcases page' with ⟨queue', asked', abortRef⟩
  rcases hpage with ⟨rfl, rfl⟩
  have hlast {shown : List (Queued TurnsUpdate)}
      (hshown : renderedUpdates shown = renderedUpdates page.queue) (view : List TurnState)
      (hview : applyAll TurnsUpdate.apply [] (renderedUpdates shown) = some view) (k : Nat)
      (hk : waiting view k = true) : k + 1 = view.length := by
    rw [hshown] at hview
    exact h.last view hview k hk
  rcases hqueue with rfl | ⟨u, rfl, hskip, hmade⟩
  · exact ⟨allMade_mono (fun _ => id) hgrown h.made, h.count.trans hlength.symm, h.eager, hindex,
      hlast rfl, fun k hk => (habort k hk).trans hlength.symm⟩
  · have hcancel (k : Nat) : page.Cancelled k ->
        Cancelled ⟨page.queue ++ [⟨u, false⟩], asked', abortRef⟩ k :=
      cancelled_snoc allUpdates_snoc
    refine ⟨?_, ?_, ?_, hindex, hlast (renderedUpdates_waiting rfl),
      fun k hk => (habort k hk).trans hlength.symm⟩
    · show AllMade _ _ _ (allUpdates (page.queue ++ [⟨u, false⟩]))
      rw [allUpdates_snoc]
      refine allMade_snoc (allMade_mono hcancel hgrown h.made) ?_
      rw [h.count, Nat.zero_add]
      exact made_mono hcancel (fun k st hk => ⟨st, hk, rfl, fun _ hevt => hevt, id⟩) hmade
    · show (allUpdates (page.queue ++ [⟨u, false⟩])).countP _ = _
      rw [allUpdates_snoc, List.countP_append, h.count, List.countP_singleton, hskip]
      exact hlength.symm
    · intro e he hwaits
      rcases List.mem_append.mp he with hold | hnew
      · exact h.eager e hold hwaits
      · rw [List.mem_singleton.mp hnew]
        exact hskip

theorem index_set {k : Nat} {st st' : Asked} (h : page.Tidy)
    (hk : page.asked[k]? = some st) (hst : st'.index = st.index) (i : Nat) (sti : Asked)
    (hi : (page.asked.set k st')[i]? = some sti) : sti.index = i := by
  rw [List.getElem?_set] at hi
  split at hi
  · next hki =>
      split at hi
      · cases hi
        rw [hst, h.index k st hk, hki]
      · cases hi
  · exact h.index i sti hi

theorem tidy_onDelivery {k : Nat} {st : Asked} {evt : QueryEvent} (h : page.Tidy)
    (hk : page.asked[k]? = some st) : (page.onDelivery k st evt).Tidy := by
  have hlt := (List.getElem?_eq_some_iff.mp hk).1
  have hgrown : Grown page.asked
      (page.asked.set k { st with received := st.received ++ [evt] }) :=
    grown_set hk rfl (fun e he => List.mem_append_left _ he) id
  refine tidy_streamed h hgrown List.length_set (index_set h hk rfl)
    (.inr ⟨.event st.index st.question evt, rfl, rfl, ?_⟩) h.abort ⟨rfl, rfl⟩
  rw [h.index k st hk]
  exact ⟨hlt, _, List.getElem?_set_self hlt, rfl,
    List.mem_append_right _ (List.mem_singleton_self evt)⟩

theorem tidy_onFinish {k : Nat} {st : Asked} {how : StreamEnd} (h : page.Tidy)
    (hk : page.asked[k]? = some st) : (page.onFinish k st how).Tidy := by
  have hlt := (List.getElem?_eq_some_iff.mp hk).1
  have hgrown : Grown page.asked (page.asked.set k { st with ended := true }) :=
    grown_set hk rfl (fun e he => he) fun _ => rfl
  refine tidy_streamed h hgrown List.length_set (index_set h hk rfl) ?_ nofun ⟨rfl, rfl⟩
  cases how with
  | returned => exact .inl rfl
  | thrown =>
      have hqueue : (page.onFinish k st .thrown).queue = if st.aborted then page.queue
        else page.queue ++ [⟨.caught st.index st.question, false⟩] := rfl
      rw [hqueue]
      split
      · exact .inl rfl
      · refine .inr ⟨.caught st.index st.question, rfl, rfl, ?_⟩
        rw [h.index k st hk]
        exact ⟨hlt, _, List.getElem?_set_self hlt, rfl, rfl⟩

theorem tidy_onSubmit {q : String} {more : Nat -> Bool} (h : page.Tidy)
    (hview : page.view = some view) : (page.onSubmit q more view).Tidy := by
  unfold onSubmit
  split
  · exact h
  next hguard =>
    have hsettled : waiting view (view.length - 1) = false :=
      Bool.eq_false_of_not_eq_true fun hwaits => hguard (.inr hwaits)
    have hmore := rendered_render more page.queue
    have hall : allUpdates (render more page.queue) = allUpdates page.queue :=
      allUpdates_of_rendered hmore
    have h1 := tidy_rendered h hmore
    have hlength := h.length hview
    rcases h.views hmore with ⟨view0, view1, hview0, hview1, hlag⟩
    rw [hview] at hview0
    cases hview0
    have hgrown : Grown page.asked (page.asked ++ [⟨view.length, q, [], false, false⟩]) :=
      grown_append _
    constructor
    · show AllMade _ _ _ (allUpdates (render more page.queue ++ [⟨.append q, true⟩]))
      rw [allUpdates_snoc, hall]
      refine allMade_snoc (allMade_mono (fun k => ?_) hgrown h.made) ?_
      · apply cancelled_snoc
        show allUpdates (render more page.queue ++ [⟨.append q, true⟩]) = _
        rw [allUpdates_snoc, hall]
      · rw [h.count, Nat.zero_add]
        exact ⟨_, List.getElem?_concat_length, rfl⟩
    · show (allUpdates (render more page.queue ++ [⟨.append q, true⟩])).countP _ = _
      rw [allUpdates_snoc, hall, List.countP_append, h.count]
      show _ = (page.asked ++ [_]).length
      rw [List.length_append]
      rfl
    · intro e he hwaits
      rcases List.mem_append.mp he with hold | hnew
      · exact h1.eager e hold hwaits
      · rw [List.mem_singleton.mp hnew] at hwaits
        cases hwaits
    · intro k st hk
      rw [List.getElem?_append] at hk
      split at hk
      · exact h.index k st hk
      · rcases List.getElem?_eq_some_iff.mp hk with ⟨hlt, hst⟩
        rw [List.length_singleton] at hlt
        have hnew : k = page.asked.length := by omega
        subst hnew
        rw [Nat.sub_self] at hk
        cases hk
        exact hlength
    · intro shown hshown k hk
      replace hshown : applyAll TurnsUpdate.apply []
        (renderedUpdates (render more page.queue ++ [⟨.append q, true⟩])) = some shown := hshown
      rw [renderedUpdates_snoc rfl, applyAll_snoc, hview1, Option.bind_some] at hshown
      rw [TurnsUpdate.waiting_apply hshown] at hk
      have hlong := TurnsUpdate.length_apply hshown
      replace hlong : shown.length = view1.length + 1 := hlong
      replace hk : (decide (k = view1.length) || (waiting view1 k && true)) = true := hk
      rw [Bool.or_eq_true, Bool.and_true, decide_eq_true_eq] at hk
      rcases hk with hnew | hold
      · rw [hlong, hnew]
      · -- An older turn that still waits would be the last one shown at the click.
        have hwaits := hlag.waits k hold
        have hlast := h.last view hview k hwaits
        have hk : k = view.length - 1 := by omega
        rw [hk, hsettled] at hwaits
        cases hwaits
    · intro k hk
      cases hk
      show _ = (page.asked ++ [_]).length
      rw [List.length_append]
      rfl

theorem tidy_onCancel {more : Nat -> Bool} (h : page.Tidy) : (page.onCancel more).Tidy := by
  have hmore := rendered_render more page.queue
  have hall : allUpdates (render more page.queue) = allUpdates page.queue :=
    allUpdates_of_rendered hmore
  have h1 := tidy_rendered h hmore
  rcases h.views hmore with ⟨view0, view1, hview0, hview1, hlag⟩
  have hasked : Grown page.asked (page.onCancel more).asked ∧
      (page.onCancel more).asked.length = page.asked.length ∧
        forall (k : Nat) (st : Asked), (page.onCancel more).asked[k]? = some st ->
          st.index = k := by
    cases habort : page.abortRef with
    | none =>
        have hsame : (page.onCancel more).asked = page.asked := by
          unfold onCancel
          rw [habort]
        rw [hsame]
        exact ⟨fun k st hk => ⟨st, hk, rfl, fun _ hevt => hevt, id⟩, rfl, h.index⟩
    | some i =>
        have hsame : (page.onCancel more).asked =
            page.asked.modify i fun st => { st with aborted := true } := by
          unfold onCancel
          rw [habort]
        rw [hsame]
        refine ⟨grown_modify i, List.length_modify _ _ _, ?_⟩
        intro k st hk
        rw [List.getElem?_modify] at hk
        rcases Option.map_eq_some_iff.mp hk with ⟨old, hold, hst⟩
        rw [← hst]
        split
        · exact h.index k old hold
        · exact h.index k old hold
  rcases hasked with ⟨hgrown, hlength, hindex⟩
  have hqueue : allUpdates (page.onCancel more).queue = allUpdates page.queue ++ [.cancel] := by
    show allUpdates (render more page.queue ++ [⟨.cancel, true⟩]) = _
    rw [allUpdates_snoc, hall]
  have hcancelled (k : Nat) (hk : k + 1 = page.asked.length) :
      (page.onCancel more).Cancelled k :=
    ⟨allUpdates page.queue, [], hqueue, h.count.trans hk.symm⟩
  constructor
  · rw [hqueue]
    refine allMade_snoc (allMade_mono (fun k => cancelled_snoc hqueue) hgrown h.made) ?_
    intro k hk
    rw [h.count, Nat.zero_add] at hk
    exact hcancelled k hk
  · rw [hqueue, List.countP_append, h.count, hlength]
    rfl
  · intro e he hwaits
    rcases List.mem_append.mp he with hold | hnew
    · exact h1.eager e hold hwaits
    · rw [List.mem_singleton.mp hnew] at hwaits
      cases hwaits
  · exact hindex
  · intro shown hshown k hk
    replace hshown : applyAll TurnsUpdate.apply []
      (renderedUpdates (render more page.queue ++ [⟨.cancel, true⟩])) = some shown := hshown
    rw [renderedUpdates_snoc rfl, applyAll_snoc, hview1, Option.bind_some] at hshown
    rw [TurnsUpdate.waiting_apply hshown] at hk
    replace hk : (waiting view1 k && !decide (k + 1 = view1.length)) = true := hk
    rw [Bool.and_eq_true] at hk
    rw [TurnsUpdate.length_apply hshown]
    exact h1.last view1 hview1 k hk.left
  · intro k hk
    rw [hlength]
    exact h.abort k hk

theorem tidy_act {a : ChatAction} (h : page.Tidy) (hact : page.act a = some page') :
    page'.Tidy := by
  cases a with
  | render more =>
      cases hact
      exact tidy_rendered h (rendered_render more page.queue)
  | submit q more =>
      rcases Option.map_eq_some_iff.mp hact with ⟨view, hview, rfl⟩
      exact tidy_onSubmit h hview
  | deliver k evt =>
      rcases Option.bind_eq_some_iff.mp hact with ⟨st, hst, hsome⟩
      rcases Option.ite_none_left_eq_some.mp hsome with ⟨_, hpage⟩
      cases hpage
      exact tidy_onDelivery h hst
  | finish k how =>
      rcases Option.bind_eq_some_iff.mp hact with ⟨st, hst, hsome⟩
      rcases Option.ite_none_left_eq_some.mp hsome with ⟨_, hpage⟩
      cases hpage
      exact tidy_onFinish h hst
  | cancel more =>
      rcases Option.bind_eq_some_iff.mp hact with ⟨view, _, hsome⟩
      rcases Option.ite_none_right_eq_some.mp hsome with ⟨_, hpage⟩
      cases hpage
      exact tidy_onCancel h

theorem tidy_start : start.Tidy := by
  refine ⟨True.intro, rfl, nofun, nofun, ?_, nofun⟩
  intro view hview k hk
  cases hview
  cases hk

/-- One turn for each question in order, which shows what its own stream sent, and
none but the last still waits. -/
structure Sound (page : ChatPage) (turns : List TurnState) : Prop where
  length : turns.length = page.asked.length
  own : ShowsOwn page.Cancelled page.asked turns
  last : forall k, waiting turns k = true -> k + 1 = turns.length

/-- However the streams of a conversation overlap and whatever of their updates is
rendered when: every update finds its turn, no answer is shown under another question,
all turns but the last are settled, and a click on cancel aborts the last stream or none.
What is shown may only lag behind. -/
theorem conversation_sound {trace : List (ChatPage × ChatAction)}
    (hrun : Run act start trace page) :
    (exists turns view, page.turns = some turns ∧ page.view = some view ∧
      page.Sound turns ∧ page.Sound view ∧
        forall k, waiting turns k = true -> waiting view k = true) ∧
      (forall (k : Nat) (st : Asked), page.asked[k]? = some st -> st.index = k) ∧
        forall k, page.abortRef = some k -> k + 1 = page.asked.length := by
  have h : page.Tidy := by
    induction hrun with
    | nil => exact tidy_start
    | snoc _ hact ih => exact tidy_act ih hact
  rcases h.views (rendered_all page.queue) with ⟨view, turns, hview, hturns, hlag⟩
  rw [renderedUpdates_all] at hturns
  have hlength : view.length = page.asked.length := hlag.count
  refine ⟨⟨turns, view, hturns, hview, ⟨hlag.length.trans hlength, hlag.own', ?_⟩,
    ⟨hlength, hlag.own, h.last view hview⟩, hlag.waits⟩, h.index, h.abort⟩
  intro k hk
  rw [hlag.length]
  exact h.last view hview k (hlag.waits k hk)

end Steps

def twoQuestions : List ChatAction :=
  [.submit "revenue" fun _ => false, .deliver 0 ⟨"answer".toList, .null⟩,
    .finish 0 .returned, .render fun _ => true, .submit "profit" fun _ => false,
    .cancel fun _ => false, .deliver 1 ⟨"answer".toList, .null⟩]

theorem conversation_sound_twoQuestions :
    exists trace page turns, Run act start trace page ∧ page.asked.length = 2 ∧
      page.turns = some turns ∧ page.Sound turns := by
  have hfollow : (follow act start twoQuestions).any
      (fun out => out.2.asked.length == 2) = true := by
    decide +kernel
  rcases exists_run_of_follow (fun _ (page : ChatPage) => page.asked.length == 2) hfollow with
    ⟨trace, page, hrun, htwo⟩
  rcases (conversation_sound hrun).left with ⟨turns, _, hturns, _, hsound, _⟩
  exact ⟨trace, page, turns, hrun, beq_iff_eq.mp htwo, hturns, hsound⟩

end ChatPage

end ChatDoc
