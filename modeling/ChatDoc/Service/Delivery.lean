import ChatDoc.Service.Backends

/-!
# What a stream delivers

The pieces of a stream are a front part of the bytes that were saved for its key, and all
of them when it ends, whatever becomes of the key in the meantime.
-/

namespace ChatDoc

open Foundation

/-!
# The events of a stream
-/

def streamKeys (events : List StorageEvent) : List StorageKey :=
  events.filterMap fun
    | .streamed key => some key
    | _ => none

def piecesOf (stream : Nat) (events : List StorageEvent) : List Bytes :=
  events.filterMap fun
    | .pulled g piece => if g = stream then some piece else none
    | _ => none

def received (stream : Nat) (events : List StorageEvent) : Bytes :=
  (piecesOf stream events).flatten

/-- The bytes were saved under the key, or are a front part that a failing save left. -/
def Written (events : List StorageEvent) (key : StorageKey) (data : Bytes) : Prop :=
  .saved key data ∈ events ∨
    exists whole n, .saveRaised key whole (some n) ∈ events ∧ data = whole.take n

/-- A pull raised, with a `StorageError` or otherwise. -/
def Broken (stream : Nat) (events : List StorageEvent) : Prop :=
  .pullMissing stream ∈ events ∨ .pullRaised stream ∈ events

/-- What the callers of a storage can rely on. -/
structure Delivered (events : List StorageEvent) (stream : Nat) (key : StorageKey) : Prop where
  pieces : forall piece, piece ∈ piecesOf stream events ->
    piece ≠ [] ∧ piece.length ≤ chunkSize
  front : received stream events = [] ∨
    exists data, Written events key data ∧ received stream events <+: data
  whole : .ended stream ∈ events -> ¬ Broken stream events ->
    exists data, Written events key data ∧ received stream events = data

section Snoc

variable {events : List StorageEvent} {a : StorageEvent} {stream : Nat} {key : StorageKey}
  {data : Bytes}

theorem streamKeys_snoc : streamKeys (events ++ [a]) = streamKeys events ++ streamKeys [a] :=
  List.filterMap_append

theorem piecesOf_snoc :
    piecesOf stream (events ++ [a]) = piecesOf stream events ++ piecesOf stream [a] :=
  List.filterMap_append

theorem received_snoc :
    received stream (events ++ [a]) = received stream events ++ received stream [a] := by
  unfold received
  rw [piecesOf_snoc, List.flatten_append]

theorem Written.later (h : Written events key data) : Written (events ++ [a]) key data := by
  rcases h with hsaved | ⟨whole, n, hraised, hdata⟩
  · exact .inl (List.mem_append_left _ hsaved)
  · exact .inr ⟨whole, n, List.mem_append_left _ hraised, hdata⟩

theorem not_mem_snoc {b : StorageEvent} (h : b ∉ events) (hne : a ≠ b) :
    b ∉ events ++ [a] := by
  rw [List.mem_append, List.mem_singleton]
  rintro (hin | heq)
  · exact h hin
  · exact hne heq.symm

end Snoc

/-!
# What a step of the shelf does
-/

namespace Shelf

structure Quiet (a : StorageEvent) : Prop where
  keys : streamKeys [a] = []
  pieces : forall g, piecesOf g [a] = []
  ended : forall g, a ≠ .ended g

def ofStream : StorageEvent -> Bool
  | .streamed _ | .pulled _ _ | .ended _ | .pullMissing _ | .pullRaised _ => true
  | _ => false

theorem quiet_of_not_ofStream {a : StorageEvent} (h : ofStream a = false) : Quiet a := by
  constructor
  · cases a with
    | streamed key => cases h
    | _ => rfl
  · intro g
    cases a with
    | pulled g' piece => cases h
    | _ => rfl
  · rintro g rfl
    cases h

inductive Moved (t : Shelf) (a : StorageEvent) (t' : Shelf) : Prop where
  | put (hquiet : Quiet a) (key : StorageKey) (data : Option Bytes) (ht : t' = t.put key data)
      (hdata : forall d, data = some d -> Written [a] key d)
  | quiet (hquiet : Quiet a) (hblobs : t'.blobs = t.blobs) (hstreams : t'.streams = t.streams)
  | created (key : StorageKey) (ha : a = .streamed key)
      (ht : t' = { t with streams := t.streams ++ [.created key] })
  | pulled (g : Nat) (piece rest : Bytes) (ha : a = .pulled g piece)
      (hsource : sourceOf t.blobs t.streams g = some rest)
      (hpiece : piece ≠ [] ∧ piece.length ≤ chunkSize ∧ piece <+: rest)
      (ht : t' = { t with
        streams := t.streams.set g (.reading (rest.drop piece.length)) })
  | ended (g : Nat) (ha : a = .ended g)
      (hsource : sourceOf t.blobs t.streams g = some [])
      (ht : t' = { t with streams := t.streams.set g .finished })
  | endedBefore (g : Nat) (ha : a = .ended g) (hdone : t.streams[g]? = some .finished)
      (ht : t' = t)
  | broken (g : Nat) (ha : a = .pullMissing g ∨ a = .pullRaised g)
      (hlt : g < t.streams.length)
      (ht : t' = { t with streams := t.streams.set g .finished })

section Steps

variable {sure : Bool} {t t' : Shelf} {events : List StorageEvent} {a : StorageEvent}

theorem moved (hact : t.act sure a = some t') : Moved t a t' := by
  cases a with
  | saved key data =>
      cases hact
      refine .put (quiet_of_not_ofStream rfl) key (some data) rfl ?_
      rintro d ⟨⟩
      exact .inl List.mem_cons_self
  | saveRaised key whole left =>
      cases left with
      | none =>
          cases hact
          exact .quiet (quiet_of_not_ofStream rfl) rfl rfl
      | some n =>
          cases hact
          refine .put (quiet_of_not_ofStream rfl) key (some (whole.take n)) rfl ?_
          rintro d ⟨⟩
          exact .inr ⟨whole, n, List.mem_cons_self, rfl⟩
  | deleted key =>
      cases hact
      refine .put (quiet_of_not_ofStream rfl) key none rfl ?_
      intro d hd
      cases hd
  | deleteRaised key landed =>
      cases hact
      cases landed with
      | false => exact .quiet (quiet_of_not_ofStream rfl) rfl rfl
      | true =>
          refine .put (quiet_of_not_ofStream rfl) key none rfl ?_
          intro d hd
          cases hd
  | existed key answer =>
      have hsame : t' = t := by
        simp only [act] at hact
        split at hact
        · rcases Option.map_eq_some_iff.mp hact with ⟨_, _, rfl⟩
          rfl
        · rcases Option.ite_none_left_eq_some.mp hact with ⟨_, hs⟩
          exact (Option.some.inj hs).symm
      subst hsame
      exact .quiet (quiet_of_not_ofStream rfl) rfl rfl
  | existsRaised key =>
      cases hact
      exact .quiet (quiet_of_not_ofStream rfl) rfl rfl
  | opened key =>
      rcases Option.map_eq_some_iff.mp hact with ⟨_, _, rfl⟩
      exact .quiet (quiet_of_not_ofStream rfl) rfl rfl
  | openMissing key =>
      rcases Option.ite_none_left_eq_some.mp hact with ⟨_, hs⟩
      cases hs
      exact .quiet (quiet_of_not_ofStream rfl) rfl rfl
  | openRaised key downloading =>
      cases hact
      exact .quiet (quiet_of_not_ofStream rfl) rfl rfl
  | bodyRead w data =>
      rcases Option.bind_eq_some_iff.mp hact with ⟨_, _, hact⟩
      rcases Option.ite_none_right_eq_some.mp hact with ⟨_, hs⟩
      cases hs
      exact .quiet (quiet_of_not_ofStream rfl) rfl rfl
  | bodyMissing w =>
      rcases Option.bind_eq_some_iff.mp hact with ⟨_, _, hact⟩
      rcases Option.ite_none_right_eq_some.mp hact with ⟨_, hs⟩
      cases hs
      exact .quiet (quiet_of_not_ofStream rfl) rfl rfl
  | closed w =>
      rcases Option.map_eq_some_iff.mp hact with ⟨_, _, rfl⟩
      exact .quiet (quiet_of_not_ofStream rfl) rfl rfl
  | streamed key =>
      cases hact
      exact .created key rfl rfl
  | pulled g piece =>
      rcases Option.bind_eq_some_iff.mp hact with ⟨rest, hsource, hact⟩
      rcases Option.ite_none_right_eq_some.mp hact with ⟨hpiece, hs⟩
      cases hs
      exact .pulled g piece rest rfl hsource hpiece rfl
  | ended g =>
      simp only [act] at hact
      split at hact
      · next hdone =>
          cases hact
          exact .endedBefore g rfl hdone rfl
      · rcases Option.bind_eq_some_iff.mp hact with ⟨rest, hsource, hact⟩
        rcases Option.ite_none_right_eq_some.mp hact with ⟨hrest, hs⟩
        cases hs
        rw [hrest] at hsource
        exact .ended g rfl hsource rfl
  | pullMissing g =>
      simp only [act] at hact
      split at hact
      · next hcreated =>
          rcases Option.ite_none_left_eq_some.mp hact with ⟨_, hs⟩
          cases hs
          exact .broken g (.inl rfl) (List.getElem?_eq_some_iff.mp hcreated).1 rfl
      · cases hact
  | pullRaised g =>
      rcases Option.map_eq_some_iff.mp hact with ⟨_, hgen, rfl⟩
      exact .broken g (.inr rfl) (List.getElem?_eq_some_iff.mp hgen).1 rfl

def Front (events : List StorageEvent) (g : Nat) (key : StorageKey) : Prop :=
  received g events = [] ∨
    exists data, Written events key data ∧ received g events <+: data

inductive Progress (events : List StorageEvent) (g : Nat) (key : StorageKey) :
    Generator Bytes -> Prop
  | created (hpieces : piecesOf g events = []) (hended : .ended g ∉ events) :
      Progress events g key (.created key)
  | reading {data rest : Bytes} (hdata : Written events key data)
      (hrest : received g events ++ rest = data) (hended : .ended g ∉ events) :
      Progress events g key (.reading rest)
  | finished (hfront : Front events g key)
      (hwhole : ¬ Broken g events ->
        exists data, Written events key data ∧ received g events = data) :
      Progress events g key .finished

structure Tracked (events : List StorageEvent) (t : Shelf) : Prop where
  blobs : forall key data, t.blobs key = some data -> Written events key data
  length : t.streams.length = (streamKeys events).length
  progress : forall (g : Nat) (gen : Generator Bytes) (key : StorageKey),
    t.streams[g]? = some gen -> (streamKeys events)[g]? = some key ->
      Progress events g key gen
  pieces : forall g piece, piece ∈ piecesOf g events -> piece ≠ [] ∧ piece.length ≤ chunkSize
  unborn : forall g, t.streams.length ≤ g -> piecesOf g events = [] ∧ .ended g ∉ events

theorem received_later {g : Nat} (h : piecesOf g [a] = []) :
    received g (events ++ [a]) = received g events := by
  rw [received_snoc, received, received, h]
  exact List.append_nil _

theorem Front.later {g : Nat} {key : StorageKey} (h : Front events g key)
    (hpieces : piecesOf g [a] = []) : Front (events ++ [a]) g key := by
  unfold Front
  rw [received_later hpieces]
  rcases h with hnil | ⟨data, hdata, hprefix⟩
  · exact .inl hnil
  · exact .inr ⟨data, hdata.later, hprefix⟩

theorem Progress.front {g : Nat} {key : StorageKey} {gen : Generator Bytes}
    (h : Progress events g key gen) : Front events g key := by
  cases h with
  | created hnil _ =>
      left
      rw [received, hnil]
      rfl
  | reading hdata hrest _ => exact .inr ⟨_, hdata, _, hrest⟩
  | finished hfront _ => exact hfront

theorem not_broken_of_later {g : Nat} (h : ¬ Broken g (events ++ [a])) : ¬ Broken g events := by
  rintro (hmissing | hraised)
  · exact h (.inl (List.mem_append_left _ hmissing))
  · exact h (.inr (List.mem_append_left _ hraised))

theorem Progress.finished_later {g : Nat} {key : StorageKey}
    (h : Progress events g key .finished) (hpieces : piecesOf g [a] = []) :
    Progress (events ++ [a]) g key .finished := by
  cases h with
  | finished hfront hwhole =>
      rw [← received_later hpieces] at hwhole
      constructor
      · exact hfront.later hpieces
      · intro hbroken
        rcases hwhole (not_broken_of_later hbroken) with ⟨data, hdata, heq⟩
        exact ⟨data, hdata.later, heq⟩

theorem Progress.later {g : Nat} {key : StorageKey} {gen : Generator Bytes}
    (h : Progress events g key gen) (hpieces : piecesOf g [a] = []) (hended : a ≠ .ended g) :
    Progress (events ++ [a]) g key gen := by
  cases h with
  | created hnil hold =>
      refine .created ?_ (not_mem_snoc hold hended)
      rw [piecesOf_snoc, hnil, hpieces]
      rfl
  | reading hdata hrest hold =>
      rw [← received_later hpieces] at hrest
      exact .reading hdata.later hrest (not_mem_snoc hold hended)
  | finished hfront hwhole => exact (Progress.finished hfront hwhole).finished_later hpieces

theorem Tracked.source (h : Tracked events t) {g : Nat} {rest : Bytes}
    (hsource : sourceOf t.blobs t.streams g = some rest) :
    g < t.streams.length ∧ forall key, (streamKeys events)[g]? = some key ->
      Written events key (received g events ++ rest) ∧ .ended g ∉ events := by
  unfold sourceOf at hsource
  split at hsource
  · next key' hcreated =>
      refine ⟨(List.getElem?_eq_some_iff.mp hcreated).1, ?_⟩
      intro key hkey
      cases h.progress g _ key hcreated hkey with
      | created hnil hold =>
          have hreceived : received g events = [] := by
            unfold received
            rw [hnil]
            rfl
          rw [hreceived]
          exact ⟨h.blobs _ rest hsource, hold⟩
  · next rest' hreading =>
      cases hsource
      refine ⟨(List.getElem?_eq_some_iff.mp hreading).1, ?_⟩
      intro key hkey
      cases h.progress g _ key hreading hkey with
      | reading hdata hrest hold =>
          rw [hrest]
          exact ⟨hdata, hold⟩
  · cases hsource

theorem Tracked.set (h : Tracked events t) {g : Nat} {gen : Generator Bytes}
    (hlt : g < t.streams.length) (hkeys : streamKeys [a] = [])
    (hothers : forall g', g' ≠ g -> piecesOf g' [a] = [] ∧ a ≠ .ended g')
    (hpieces : forall piece, piece ∈ piecesOf g [a] -> piece ≠ [] ∧ piece.length ≤ chunkSize)
    (hgen : forall key, (streamKeys events)[g]? = some key ->
      Progress (events ++ [a]) g key gen) :
    Tracked (events ++ [a]) { t with streams := t.streams.set g gen } := by
  have hsame : streamKeys (events ++ [a]) = streamKeys events := by
    rw [streamKeys_snoc, hkeys, List.append_nil]
  constructor
  · intro key data hdata
    exact (h.blobs key data hdata).later
  · rw [hsame, List.length_set]
    exact h.length
  · intro g' gen' key hgen' hkey
    rw [hsame] at hkey
    rcases getElem?_set_cases hgen' with ⟨rfl, rfl⟩ | ⟨hne, hold⟩
    · exact hgen key hkey
    · rcases hothers g' hne with ⟨hnone, hended⟩
      exact (h.progress g' gen' key hold hkey).later hnone hended
  · intro g' piece hpiece
    rw [piecesOf_snoc] at hpiece
    rcases List.mem_append.mp hpiece with hold | hnew
    · exact h.pieces g' piece hold
    · by_cases hg : g' = g
      · rw [hg] at hnew
        exact hpieces piece hnew
      · rw [(hothers g' hg).left] at hnew
        cases hnew
  · intro g' hg'
    rw [List.length_set] at hg'
    have hne : g' ≠ g := by
      rintro rfl
      exact absurd hlt (Nat.not_lt.mpr hg')
    rcases hothers g' hne with ⟨hnone, hended⟩
    rcases h.unborn g' hg' with ⟨hnil, hold⟩
    rw [piecesOf_snoc, hnil, hnone]
    exact ⟨rfl, not_mem_snoc hold hended⟩

theorem Tracked.stay (h : Tracked events t) (hquiet : Quiet a)
    (hstreams : t'.streams = t.streams)
    (hblobs : forall key data, t'.blobs key = some data -> Written (events ++ [a]) key data) :
    Tracked (events ++ [a]) t' := by
  have hsame : streamKeys (events ++ [a]) = streamKeys events := by
    rw [streamKeys_snoc, hquiet.keys, List.append_nil]
  have hpieces (g : Nat) : piecesOf g (events ++ [a]) = piecesOf g events := by
    rw [piecesOf_snoc, hquiet.pieces, List.append_nil]
  constructor
  · exact hblobs
  · rw [hsame, hstreams]
    exact h.length
  · intro g gen key hgen hkey
    rw [hstreams] at hgen
    rw [hsame] at hkey
    exact (h.progress g gen key hgen hkey).later (hquiet.pieces g) (hquiet.ended g)
  · intro g piece hpiece
    rw [hpieces] at hpiece
    exact h.pieces g piece hpiece
  · intro g hg
    rw [hstreams] at hg
    rw [hpieces]
    exact ⟨(h.unborn g hg).left, not_mem_snoc (h.unborn g hg).right (hquiet.ended g)⟩

theorem Tracked.create (h : Tracked events t) (key : StorageKey) :
    Tracked (events ++ [.streamed key]) { t with streams := t.streams ++ [.created key] } := by
  have hkeys : streamKeys (events ++ [.streamed key]) = streamKeys events ++ [key] :=
    streamKeys_snoc
  have hpieces (g : Nat) : piecesOf g (events ++ [.streamed key]) = piecesOf g events := by
    rw [piecesOf_snoc]
    exact List.append_nil _
  constructor
  · intro key' data hdata
    exact (h.blobs key' data hdata).later
  · rw [hkeys, List.length_append, List.length_append, h.length]
    rfl
  · intro g gen key' hgen hkey
    rw [hkeys] at hkey
    rcases getElem?_snoc_cases hgen with hgen | ⟨hg, hgen⟩
    · rcases getElem?_snoc_cases hkey with hkey | ⟨hg, _⟩
      · exact (h.progress g gen key' hgen hkey).later rfl nofun
      · rw [hg, ← h.length, List.getElem?_eq_none (Nat.le_refl _)] at hgen
        cases hgen
    · rcases getElem?_snoc_cases hkey with hkey | ⟨_, hkey⟩
      · rw [hg, h.length, List.getElem?_eq_none (Nat.le_refl _)] at hkey
        cases hkey
      · rcases h.unborn g (Nat.le_of_eq hg.symm) with ⟨hnil, hold⟩
        rw [hgen, hkey]
        rw [← hpieces] at hnil
        exact .created hnil (not_mem_snoc hold nofun)
  · intro g piece hpiece
    rw [hpieces] at hpiece
    exact h.pieces g piece hpiece
  · intro g hg
    rw [List.length_append] at hg
    rcases h.unborn g (Nat.le_of_add_right_le hg) with ⟨hnil, hold⟩
    rw [hpieces]
    exact ⟨hnil, not_mem_snoc hold nofun⟩

theorem Tracked.step (h : Tracked events t) (hmoved : Moved t a t') :
    Tracked (events ++ [a]) t' := by
  cases hmoved with
  | put hquiet key data ht hdata =>
      have hstreams : t'.streams = t.streams := by
        rw [ht]
        rfl
      apply h.stay hquiet hstreams
      intro key' d hd
      rw [ht] at hd
      unfold Shelf.put at hd
      dsimp only at hd
      split at hd
      · next hkey =>
          rw [hkey]
          rcases hdata d hd with hsaved | ⟨whole, n, hraised, heq⟩
          · exact .inl (List.mem_append_right _ hsaved)
          · exact .inr ⟨whole, n, List.mem_append_right _ hraised, heq⟩
      · exact (h.blobs key' d hd).later
  | quiet hquiet hblobs hstreams =>
      apply h.stay hquiet hstreams
      intro key data hdata
      rw [hblobs] at hdata
      exact (h.blobs key data hdata).later
  | created key ha ht =>
      subst ha ht
      exact h.create key
  | pulled g piece rest ha hsource hpiece ht =>
      subst ha ht
      rcases hpiece with ⟨hne, hlength, hprefix⟩
      rcases h.source hsource with ⟨hlt, hnext⟩
      have hown : piecesOf g [.pulled g piece] = [piece] := by
        simp [piecesOf]
      apply h.set hlt rfl
      · intro g' hg'
        refine ⟨?_, nofun⟩
        simp [piecesOf, Ne.symm hg']
      · intro piece' hpiece'
        rw [hown, List.mem_singleton] at hpiece'
        rw [hpiece']
        exact ⟨hne, hlength⟩
      · intro key hkey
        rcases hnext key hkey with ⟨hwritten, hold⟩
        refine .reading hwritten.later ?_ (not_mem_snoc hold nofun)
        have hpieces : received g [.pulled g piece] = piece := by
          rw [received, hown]
          exact List.append_nil _
        rw [received_snoc, hpieces, List.append_assoc,
          List.prefix_iff_eq_append.mp hprefix]
  | ended g ha hsource ht =>
      subst ha ht
      rcases h.source hsource with ⟨hlt, hnext⟩
      apply h.set hlt rfl
      · intro g' hg'
        exact ⟨rfl, fun heq => hg' (StorageEvent.ended.inj heq).symm⟩
      · nofun
      · intro key hkey
        rcases hnext key hkey with ⟨hwritten, _⟩
        rw [List.append_nil, ← received_later (a := .ended g) rfl] at hwritten
        exact .finished (.inr ⟨_, hwritten.later, List.prefix_refl _⟩)
          fun _ => ⟨_, hwritten.later, rfl⟩
  | endedBefore g ha hdone ht =>
      subst ha
      rcases List.getElem?_eq_some_iff.mp hdone with ⟨hlt, hlast⟩
      have hset : t' = { t with streams := t.streams.set g .finished } := by
        rw [ht, ← hlast, List.set_getElem_self hlt]
      rw [hset]
      apply h.set hlt rfl
      · intro g' hg'
        exact ⟨rfl, fun heq => hg' (StorageEvent.ended.inj heq).symm⟩
      · nofun
      · intro key hkey
        exact (h.progress g _ key hdone hkey).finished_later rfl
  | broken g ha hlt ht =>
      subst ht
      have hbreaks : streamKeys [a] = [] ∧ (forall g', piecesOf g' [a] = [] ∧ a ≠ .ended g') ∧
          Broken g (events ++ [a]) := by
        rcases ha with rfl | rfl
        · exact ⟨rfl, fun _ => ⟨rfl, nofun⟩, .inl (List.mem_append_right _ List.mem_cons_self)⟩
        · exact ⟨rfl, fun _ => ⟨rfl, nofun⟩, .inr (List.mem_append_right _ List.mem_cons_self)⟩
      rcases hbreaks with ⟨hkeys, hnone, hbroken⟩
      apply h.set hlt hkeys (fun g' _ => hnone g')
      · intro piece hpiece
        rw [(hnone g).left] at hpiece
        cases hpiece
      · intro key hkey
        have hold := h.progress g _ key (List.getElem?_eq_getElem hlt) hkey
        exact .finished (hold.front.later (hnone g).left) fun hnot => absurd hbroken hnot

end Steps

theorem tracked_start : Tracked [] start := by
  constructor
  · intro key data hdata
    cases hdata
  · rfl
  · intro g gen key hgen _
    cases hgen
  · intro g piece hpiece
    cases hpiece
  · intro g _
    exact ⟨rfl, List.not_mem_nil⟩

theorem tracked_of_performs {sure : Bool} {events : List StorageEvent} {t : Shelf}
    (h : Performs (act sure) start events t) : Tracked events t := by
  apply Performs.rec_snoc tracked_start _ h
  intro events t a t' _ htracked hact
  exact htracked.step (moved hact)

theorem delivered {sure : Bool} {events : List StorageEvent} {t : Shelf}
    (h : Performs (act sure) start events t) {stream : Nat} {key : StorageKey}
    (hkey : (streamKeys events)[stream]? = some key) : Delivered events stream key := by
  have htracked := tracked_of_performs h
  have hlt : stream < t.streams.length := by
    rw [htracked.length]
    exact (List.getElem?_eq_some_iff.mp hkey).1
  have hprogress := htracked.progress stream _ key (List.getElem?_eq_getElem hlt) hkey
  refine ⟨htracked.pieces stream, hprogress.front, ?_⟩
  intro hended hbroken
  cases hgen : t.streams[stream] with
  | created key' =>
      rw [hgen] at hprogress
      cases hprogress with
      | created _ hnot => exact absurd hended hnot
  | reading rest =>
      rw [hgen] at hprogress
      cases hprogress with
      | reading _ _ hnot => exact absurd hended hnot
  | finished =>
      rw [hgen] at hprogress
      cases hprogress with
      | finished _ hwhole => exact hwhole hbroken

end Shelf

/-!
# Both storages
-/

/-- Every stream delivers what was saved under its key, in every run of the bucket and in
every run of the directory that saves no key twice. -/
theorem streams_delivered (root : Path) :
    (forall events s, Performs (LocalStorage.act root) LocalStorage.start events s ->
      (savedKeys events).Nodup ->
        forall stream key, (streamKeys events)[stream]? = some key ->
          Delivered events stream key) ∧
    forall events s, Performs R2Storage.act R2Storage.start events s ->
      forall stream key, (streamKeys events)[stream]? = some key ->
        Delivered events stream key := by
  constructor
  · intro events s hperforms hkeys stream key hkey
    rcases LocalStorage.refines hperforms hkeys with ⟨t, hshelf, _⟩
    exact Shelf.delivered hshelf hkey
  · intro events s hperforms stream key hkey
    rcases (R2Storage.refines hperforms).left with ⟨t, hshelf, _⟩
    exact Shelf.delivered hshelf hkey

theorem streams_delivered_deletedWhileOpen :
    received 0 deletedWhileOpen = [37, 80, 68, 70] ∧
      (exists s, Performs (LocalStorage.act []) LocalStorage.start deletedWhileOpen s ∧
        Delivered deletedWhileOpen 0 uploadedKey) ∧
      exists s, Performs R2Storage.act R2Storage.start deletedWhileOpen s ∧
        Delivered deletedWhileOpen 0 uploadedKey := by
  have hlocal : exists s, Performs (LocalStorage.act []) LocalStorage.start
      deletedWhileOpen s := exists_performs_of_follow (by decide +kernel)
  have hr2 : exists s, Performs R2Storage.act R2Storage.start deletedWhileOpen s :=
    exists_performs_of_follow (by decide +kernel)
  have hkey : (streamKeys deletedWhileOpen)[0]? = some uploadedKey := by decide +kernel
  rcases hlocal with ⟨s, hs⟩
  rcases hr2 with ⟨s', hs'⟩
  refine ⟨by decide +kernel, ⟨s, hs, ?_⟩, s', hs', ?_⟩
  · exact (streams_delivered []).left _ s hs (by decide +kernel) 0 _ hkey
  · exact (streams_delivered []).right _ s' hs' 0 _ hkey

end ChatDoc
