import ChatDoc.Service.Routes
import ChatDoc.Service.Storage
import Mathlib.Data.Option.Defs

/-!
# Both storages are shelves

Every run of `R2Storage` is one of a shelf, and so is every run of `LocalStorage` in which
no key is saved twice.  The answers of `LocalStorage` that a key is missing are sure.
-/

namespace ChatDoc

open Foundation

/-!
# The bucket
-/

namespace StorageEvent

def makesTemp : StorageEvent -> Bool
  | opened _ => true
  | openMissing _ => true
  | openRaised _ downloading => downloading
  | _ => false

def leavesTemp : StorageEvent -> Bool
  | openRaised _ downloading => downloading
  | _ => false

end StorageEvent

def tempCalls (events : List StorageEvent) : List StorageEvent :=
  events.filter StorageEvent.makesTemp

theorem tempCalls_made {events : List StorageEvent} {a : StorageEvent}
    (h : a.makesTemp = true) : tempCalls (events ++ [a]) = tempCalls events ++ [a] := by
  unfold tempCalls
  rw [List.filter_append, List.filter_singleton, h, cond_true]

theorem tempCalls_other {events : List StorageEvent} {a : StorageEvent}
    (h : a.makesTemp = false) : tempCalls (events ++ [a]) = tempCalls events := by
  unfold tempCalls
  rw [List.filter_append, List.filter_singleton, h, cond_false, List.append_nil]

namespace R2Storage

structure Shows (s : R2Storage) (t : Shelf) : Prop where
  blobs : t.blobs = s.objects
  streams : t.streams = s.streams
  blocks : List.Forall₂ (Option.Rel fun i b => s.temps[i]? = some (some b.2)) s.blocks t.blocks

/-- A temporary file is there while the block that it was made for is open, or because its
download raised.  No two blocks have the same one. -/
structure TempFiles (s : R2Storage) (events : List StorageEvent) : Prop where
  length : s.temps.length = (tempCalls events).length
  exist : forall i, (exists data, s.temps[i]? = some (some data)) <->
    some i ∈ s.blocks ∨ exists a, (tempCalls events)[i]? = some a ∧ a.leavesTemp = true
  opened : forall i, some i ∈ s.blocks ->
    exists key, (tempCalls events)[i]? = some (.opened key)
  distinct : forall (w w' i : Nat), s.blocks[w]? = some (some i) ->
    s.blocks[w']? = some (some i) -> w = w'

section Steps

variable {s s' : R2Storage} {t : Shelf} {events : List StorageEvent} {a : StorageEvent}

theorem Shows.put (h : s.Shows t) (key : StorageKey) (data : Option Bytes) :
    (s.putObject key data).Shows (t.put key data) := by
  refine ⟨?_, h.streams, h.blocks⟩
  unfold putObject Shelf.put
  rw [h.blobs]

theorem Shows.stream (h : s.Shows t) (streams : List (Generator Bytes)) :
    Shows { s with streams := streams } { t with streams := streams } :=
  ⟨h.blobs, rfl, h.blocks⟩

theorem Shows.block (h : s.Shows t) {w i : Nat} (hw : s.blocks[w]? = some (some i)) :
    exists b, t.blocks[w]? = some (some b) ∧ s.temps[i]? = some (some b.2) := by
  rcases exists_getElem?_of_forall₂ h.blocks hw with ⟨b, hb, hrel⟩
  cases hrel with
  | some htemp => exact ⟨_, hb, htemp⟩

theorem Shows.grow (h : s.Shows t) (temp : Option Bytes) :
    Shows { s with temps := s.temps ++ [temp] } t := by
  refine ⟨h.blobs, h.streams, ?_⟩
  apply h.blocks.imp
  intro i b hrel
  cases hrel with
  | none => exact .none
  | some htemp => exact .some (List.getElem?_append_left
      (List.getElem?_eq_some_iff.mp htemp).1 ▸ htemp)

theorem Shows.openBlock (h : s.Shows t) (key : StorageKey) (data : Bytes) :
    Shows { s with temps := s.temps ++ [some data], blocks := s.blocks ++ [some s.temps.length] }
      { t with blocks := t.blocks ++ [some (key, data)] } := by
  refine ⟨h.blobs, h.streams, ?_⟩
  apply forall₂_snoc (h.grow (some data)).blocks
  exact .some List.getElem?_concat_length

theorem Shows.closeBlock (h : s.Shows t) (hfiles : s.TempFiles events) {w i : Nat}
    (hw : s.blocks[w]? = some (some i)) :
    Shows { s with temps := s.temps.set i none, blocks := s.blocks.set w none }
      { t with blocks := t.blocks.set w none } := by
  refine ⟨h.blobs, h.streams, ?_⟩
  apply forall₂_set_others h.blocks .none
  intro w' x y hne hx _ hrel
  cases hrel with
  | none => exact .none
  | @some j b htemp =>
      have hij : i ≠ j := by
        rintro rfl
        exact hne (hfiles.distinct w' w i hx hw)
      exact .some (by rw [List.getElem?_set_ne hij]; exact htemp)

theorem Shows.step (h : s.Shows t) (hfiles : s.TempFiles events)
    (hact : s.act a = some s') : exists t', t.act false a = some t' ∧ s'.Shows t' := by
  cases a with
  | saved key data =>
      cases hact
      exact ⟨_, rfl, h.put key (some data)⟩
  | saveRaised key data left =>
      cases left with
      | none =>
          cases hact
          exact ⟨t, rfl, h⟩
      | some n =>
          simp only [act, Option.ite_none_right_eq_some] at hact
          rcases hact with ⟨hlength, hs⟩
          cases hs
          refine ⟨_, rfl, ?_⟩
          rw [List.take_of_length_le hlength]
          exact h.put key (some data)
  | deleted key =>
      cases hact
      exact ⟨_, rfl, h.put key none⟩
  | deleteRaised key landed =>
      cases hact
      cases landed with
      | false => exact ⟨t, rfl, h⟩
      | true => exact ⟨_, rfl, h.put key none⟩
  | existed key answer =>
      cases answer with
      | false =>
          cases hact
          exact ⟨t, rfl, h⟩
      | true =>
          rcases Option.map_eq_some_iff.mp hact with ⟨data, hdata, rfl⟩
          rw [← h.blobs] at hdata
          refine ⟨t, ?_, h⟩
          simp only [Shelf.act, hdata]
          rfl
  | existsRaised key =>
      cases hact
      exact ⟨t, rfl, h⟩
  | opened key =>
      rcases Option.map_eq_some_iff.mp hact with ⟨data, hdata, rfl⟩
      rw [← h.blobs] at hdata
      refine ⟨_, ?_, h.openBlock key data⟩
      simp only [Shelf.act, hdata]
      rfl
  | openMissing key =>
      cases hact
      exact ⟨t, rfl, h.grow none⟩
  | openRaised key downloading =>
      cases hact
      cases downloading with
      | false => exact ⟨t, rfl, h⟩
      | true => exact ⟨t, rfl, h.grow (some [])⟩
  | bodyRead w data =>
      rcases Option.bind_eq_some_iff.mp hact with ⟨i, hblock, hact⟩
      rcases Option.ite_none_right_eq_some.mp hact with ⟨htemp, hs⟩
      cases hs
      rcases h.block (Option.join_eq_some_iff.mp hblock) with ⟨b, hb, htemp'⟩
      rw [htemp] at htemp'
      cases htemp'
      refine ⟨t, ?_, h⟩
      simp only [Shelf.act, hb, Option.join_some, Option.bind_some, if_pos]
  | bodyMissing w =>
      rcases Option.bind_eq_some_iff.mp hact with ⟨i, hblock, hact⟩
      rcases Option.ite_none_right_eq_some.mp hact with ⟨htemp, hs⟩
      rcases h.block (Option.join_eq_some_iff.mp hblock) with ⟨b, hb, htemp'⟩
      rw [htemp] at htemp'
      cases htemp'
  | closed w =>
      rcases Option.map_eq_some_iff.mp hact with ⟨i, hblock, rfl⟩
      have hw := Option.join_eq_some_iff.mp hblock
      rcases h.block hw with ⟨b, hb, _⟩
      refine ⟨_, ?_, h.closeBlock hfiles hw⟩
      simp only [Shelf.act, hb]
      rfl
  | streamed key =>
      cases hact
      rw [← h.streams]
      exact ⟨_, rfl, h.stream _⟩
  | pulled g piece =>
      rcases Option.bind_eq_some_iff.mp hact with ⟨rest, hsource, hact⟩
      rcases Option.ite_none_right_eq_some.mp hact with ⟨hpiece, hs⟩
      cases hs
      rw [← h.blobs, ← h.streams] at hsource
      rw [← h.streams]
      refine ⟨_, ?_, h.stream _⟩
      simp only [Shelf.act, hsource, Option.bind_some, if_pos hpiece]
  | ended g =>
      simp only [act] at hact
      split at hact
      · next hdone =>
          cases hact
          rw [← h.streams] at hdone
          refine ⟨t, ?_, h⟩
          simp only [Shelf.act, if_pos hdone]
      · next hnot =>
          rcases Option.bind_eq_some_iff.mp hact with ⟨rest, hsource, hact⟩
          rcases Option.ite_none_right_eq_some.mp hact with ⟨hrest, hs⟩
          cases hs
          rw [← h.blobs, ← h.streams] at hsource
          rw [← h.streams] at hnot
          rw [← h.streams]
          refine ⟨_, ?_, h.stream _⟩
          simp only [Shelf.act, if_neg hnot, hsource, Option.bind_some, if_pos hrest]
  | pullMissing g =>
      simp only [act] at hact
      split at hact
      · next key hcreated =>
          cases hact
          rw [← h.streams] at hcreated
          rw [← h.streams]
          refine ⟨_, ?_, h.stream _⟩
          simp only [Shelf.act, hcreated]
          rfl
      · cases hact
  | pullRaised g =>
      rcases Option.map_eq_some_iff.mp hact with ⟨gen, hgen, rfl⟩
      rw [← h.streams] at hgen
      rw [← h.streams]
      refine ⟨_, ?_, h.stream _⟩
      simp only [Shelf.act, hgen]
      rfl

inductive Filed (s : R2Storage) (a : StorageEvent) (s' : R2Storage) : Prop where
  | same (htemps : s'.temps = s.temps) (hblocks : s'.blocks = s.blocks)
      (hcall : a.makesTemp = false)
  | taken (temp : Option Bytes) (htemps : s'.temps = s.temps ++ [temp])
      (hblocks : s'.blocks = s.blocks) (hcall : a.makesTemp = true)
      (hleft : a.leavesTemp = temp.isSome)
  | opened (key : StorageKey) (data : Bytes) (htemps : s'.temps = s.temps ++ [some data])
      (hblocks : s'.blocks = s.blocks ++ [some s.temps.length]) (hcall : a = .opened key)
  | closed (w i : Nat) (hopen : s.blocks[w]? = some (some i))
      (htemps : s'.temps = s.temps.set i none) (hblocks : s'.blocks = s.blocks.set w none)
      (hcall : a.makesTemp = false)

theorem filed (hact : s.act a = some s') : Filed s a s' := by
  cases a with
  | saved key data =>
      cases hact
      exact .same rfl rfl rfl
  | saveRaised key data left =>
      cases left with
      | none =>
          cases hact
          exact .same rfl rfl rfl
      | some n =>
          rcases Option.ite_none_right_eq_some.mp hact with ⟨_, hs⟩
          cases hs
          exact .same rfl rfl rfl
  | deleted key =>
      cases hact
      exact .same rfl rfl rfl
  | deleteRaised key landed =>
      cases hact
      cases landed with
      | false => exact .same rfl rfl rfl
      | true => exact .same rfl rfl rfl
  | existed key answer =>
      cases answer with
      | false =>
          cases hact
          exact .same rfl rfl rfl
      | true =>
          rcases Option.map_eq_some_iff.mp hact with ⟨data, _, rfl⟩
          exact .same rfl rfl rfl
  | existsRaised key =>
      cases hact
      exact .same rfl rfl rfl
  | opened key =>
      rcases Option.map_eq_some_iff.mp hact with ⟨data, _, rfl⟩
      exact .opened key data rfl rfl rfl
  | openMissing key =>
      cases hact
      exact .taken none rfl rfl rfl rfl
  | openRaised key downloading =>
      cases hact
      cases downloading with
      | false => exact .same rfl rfl rfl
      | true => exact .taken (some []) rfl rfl rfl rfl
  | bodyRead w data =>
      rcases Option.bind_eq_some_iff.mp hact with ⟨i, _, hact⟩
      rcases Option.ite_none_right_eq_some.mp hact with ⟨_, hs⟩
      cases hs
      exact .same rfl rfl rfl
  | bodyMissing w =>
      rcases Option.bind_eq_some_iff.mp hact with ⟨i, _, hact⟩
      rcases Option.ite_none_right_eq_some.mp hact with ⟨_, hs⟩
      cases hs
      exact .same rfl rfl rfl
  | closed w =>
      rcases Option.map_eq_some_iff.mp hact with ⟨i, hblock, rfl⟩
      exact .closed w i (Option.join_eq_some_iff.mp hblock) rfl rfl rfl
  | streamed key =>
      cases hact
      exact .same rfl rfl rfl
  | pulled g piece =>
      rcases Option.bind_eq_some_iff.mp hact with ⟨rest, _, hact⟩
      rcases Option.ite_none_right_eq_some.mp hact with ⟨_, hs⟩
      cases hs
      exact .same rfl rfl rfl
  | ended g =>
      simp only [act] at hact
      split at hact
      · cases hact
        exact .same rfl rfl rfl
      · rcases Option.bind_eq_some_iff.mp hact with ⟨rest, _, hact⟩
        rcases Option.ite_none_right_eq_some.mp hact with ⟨_, hs⟩
        cases hs
        exact .same rfl rfl rfl
  | pullMissing g =>
      simp only [act] at hact
      split at hact
      · cases hact
        exact .same rfl rfl rfl
      · cases hact
  | pullRaised g =>
      rcases Option.map_eq_some_iff.mp hact with ⟨gen, _, rfl⟩
      exact .same rfl rfl rfl

theorem TempFiles.lt (h : s.TempFiles events) {i : Nat} (hi : some i ∈ s.blocks) :
    i < s.temps.length := by
  rcases h.opened i hi with ⟨key, hcall⟩
  rw [h.length]
  exact (List.getElem?_eq_some_iff.mp hcall).1

theorem TempFiles.grow (h : s.TempFiles events) (hcall : a.makesTemp = true)
    {temp : Option Bytes} {blocks : List (Option Nat)}
    (hold : forall i, i < s.temps.length -> (some i ∈ blocks <-> some i ∈ s.blocks))
    (hnew : temp.isSome = true <-> some s.temps.length ∈ blocks ∨ a.leavesTemp = true)
    (hopened : forall i, some i ∈ blocks -> i < s.temps.length ∨
      (i = s.temps.length ∧ exists key, a = .opened key))
    (hdistinct : forall (w w' i : Nat), blocks[w]? = some (some i) ->
      blocks[w']? = some (some i) -> w = w') :
    TempFiles { s with temps := s.temps ++ [temp], blocks := blocks } (events ++ [a]) := by
  have hlast : (tempCalls events ++ [a])[s.temps.length]? = some a := by
    rw [h.length]
    exact List.getElem?_concat_length
  refine ⟨?_, ?_, ?_, hdistinct⟩
  · rw [tempCalls_made hcall, List.length_append, List.length_append, h.length]
    rfl
  · intro i
    rw [tempCalls_made hcall]
    dsimp only
    rcases Nat.lt_trichotomy i s.temps.length with hlt | rfl | hgt
    · have hlt' := hlt
      rw [h.length] at hlt'
      rw [List.getElem?_append_left hlt, List.getElem?_append_left hlt', hold i hlt]
      exact h.exist i
    · rw [List.getElem?_concat_length, hlast]
      simp only [Option.some.injEq, exists_eq_left', ← hnew]
      exact Option.isSome_iff_exists.symm
    · constructor
      · rintro ⟨data, hdata⟩
        have hi := (List.getElem?_eq_some_iff.mp hdata).1
        rw [List.length_append, List.length_singleton] at hi
        omega
      · rintro (hi | ⟨b, hb, _⟩)
        · rcases hopened i hi with hlt | ⟨rfl, _⟩
          · omega
          · omega
        · have hi := (List.getElem?_eq_some_iff.mp hb).1
          rw [List.length_append, List.length_singleton, ← h.length] at hi
          omega
  · intro i hi
    rw [tempCalls_made hcall]
    rcases hopened i hi with hlt | ⟨rfl, key, rfl⟩
    · rcases h.opened i ((hold i hlt).mp hi) with ⟨key, hkey⟩
      rw [h.length] at hlt
      rw [List.getElem?_append_left hlt]
      exact ⟨key, hkey⟩
    · exact ⟨key, hlast⟩

theorem TempFiles.close (h : s.TempFiles events) (hcall : a.makesTemp = false) {w i : Nat}
    (hopen : s.blocks[w]? = some (some i)) :
    TempFiles { s with temps := s.temps.set i none, blocks := s.blocks.set w none }
      (events ++ [a]) := by
  have hmem {j : Nat} (hj : some j ∈ s.blocks.set w none) : j ≠ i ∧ some j ∈ s.blocks := by
    rcases List.mem_iff_getElem?.mp hj with ⟨w', hw'⟩
    rcases getElem?_set_cases hw' with ⟨_, hnone⟩ | ⟨hne, hw'⟩
    · cases hnone
    · refine ⟨?_, List.mem_of_getElem? hw'⟩
      rintro rfl
      exact hne (h.distinct w' w j hw' hopen)
  refine ⟨?_, ?_, ?_, ?_⟩
  · rw [tempCalls_other hcall, List.length_set, h.length]
  · intro j
    rw [tempCalls_other hcall]
    dsimp only
    by_cases hij : i = j
    · subst hij
      constructor
      · rintro ⟨data, hdata⟩
        rcases getElem?_set_cases hdata with ⟨_, hnone⟩ | ⟨hne, _⟩
        · cases hnone
        · exact absurd rfl hne
      · rintro (hblock | ⟨b, hb, hleft⟩)
        · exact absurd rfl (hmem hblock).left
        · -- The file was made for the block, not left behind.
          rcases h.opened i (List.mem_of_getElem? hopen) with ⟨key, hkey⟩
          rw [hkey] at hb
          cases hb
          cases hleft
    · have hblock : some j ∈ s.blocks.set w none <-> some j ∈ s.blocks := by
        refine ⟨fun hj => (hmem hj).right, ?_⟩
        intro hj
        rcases List.mem_iff_getElem?.mp hj with ⟨w', hw'⟩
        have hne : w ≠ w' := by
          rintro rfl
          rw [hopen] at hw'
          exact hij (Option.some.inj (Option.some.inj hw'))
        exact List.mem_of_getElem? ((List.getElem?_set_ne hne).trans hw')
      rw [List.getElem?_set_ne hij, hblock]
      exact h.exist j
  · intro j hj
    rw [tempCalls_other hcall]
    exact h.opened j (hmem hj).right
  · intro w1 w2 j h1 h2
    rcases getElem?_set_cases h1 with ⟨_, hnone⟩ | ⟨_, h1⟩
    · cases hnone
    · rcases getElem?_set_cases h2 with ⟨_, hnone⟩ | ⟨_, h2⟩
      · cases hnone
      · exact h.distinct w1 w2 j h1 h2

theorem TempFiles.of_fields {r r' : R2Storage} (h : r.TempFiles events)
    (htemps : r'.temps = r.temps) (hblocks : r'.blocks = r.blocks) : r'.TempFiles events := by
  rcases r with ⟨objects, temps, blocks, streams⟩
  rcases r' with ⟨objects', temps', blocks', streams'⟩
  subst htemps hblocks
  exact ⟨h.length, h.exist, h.opened, h.distinct⟩

theorem TempFiles.step (h : s.TempFiles events) (hact : s.act a = some s') :
    s'.TempFiles (events ++ [a]) := by
  cases filed hact with
  | same htemps hblocks hcall =>
      refine TempFiles.of_fields ?_ htemps hblocks
      rcases h with ⟨hlength, hexist, hopened, hdistinct⟩
      rw [← tempCalls_other hcall] at hlength hexist hopened
      exact ⟨hlength, hexist, hopened, hdistinct⟩
  | taken temp htemps hblocks hcall hleft =>
      refine TempFiles.of_fields (h.grow hcall (fun _ _ => Iff.rfl) ?_
        (fun i hi => .inl (h.lt hi)) h.distinct) htemps hblocks
      rw [hleft]
      exact (or_iff_right fun hi => Nat.lt_irrefl _ (h.lt hi)).symm
  | opened key data htemps hblocks hcall =>
      subst hcall
      refine TempFiles.of_fields (h.grow rfl ?_ ?_ ?_ ?_) htemps hblocks
      · intro i hlt
        simp [Nat.ne_of_lt hlt]
      · exact iff_of_true rfl (.inl (List.mem_append_right _ (List.mem_singleton_self _)))
      · intro i hi
        rcases List.mem_append.mp hi with hold | hnew
        · exact .inl (h.lt hold)
        · exact .inr ⟨Option.some.inj (List.mem_singleton.mp hnew), key, rfl⟩
      · intro w w' i hw hw'
        rcases getElem?_snoc_cases hw with hw | ⟨hw, hi⟩
        · rcases getElem?_snoc_cases hw' with hw' | ⟨_, hi'⟩
          · exact h.distinct w w' i hw hw'
          · rw [Option.some.inj hi'] at hw
            exact absurd (h.lt (List.mem_of_getElem? hw)) (Nat.lt_irrefl _)
        · rcases getElem?_snoc_cases hw' with hw' | ⟨hw', _⟩
          · rw [Option.some.inj hi] at hw'
            exact absurd (h.lt (List.mem_of_getElem? hw')) (Nat.lt_irrefl _)
          · rw [hw, hw']
  | closed w i hopen htemps hblocks hcall =>
      exact TempFiles.of_fields (h.close hcall hopen) htemps hblocks

end Steps

/-- The bucket is a shelf whose missing keys are not sure, and its temporary files are
accounted for. -/
theorem refines {events : List StorageEvent} {s : R2Storage}
    (h : Performs act start events s) :
    (exists t, Performs (Shelf.act false) Shelf.start events t ∧ s.Shows t) ∧
      s.TempFiles events := by
  have hstart : start.TempFiles [] := ⟨rfl, by simp [start, tempCalls], nofun, nofun⟩
  have hsim : exists t, Performs (Shelf.act false) Shelf.start events t ∧
      (s.Shows t ∧ s.TempFiles events) := by
    apply Performs.simulate (fun _ => True) (fun _ _ => id) ⟨⟨rfl, rfl, .nil⟩, hstart⟩ _ h
      trivial
    intro events s t a s' _ hrelated hact
    rcases hrelated.left.step hrelated.right hact with ⟨t', hact', hshows⟩
    exact ⟨t', hact', hshows, hrelated.right.step hact⟩
  rcases hsim with ⟨t, hperforms, hshows, hfiles⟩
  exact ⟨⟨t, hperforms, hshows⟩, hfiles⟩

end R2Storage

/-!
# The directory
-/

namespace LocalStorage

structure BlockShows (root : Path) (events : List StorageEvent) (files : Path -> Option Nat)
    (inodes : List Bytes) (p : Path) (b : StorageKey × Bytes) : Prop where
  path : p = LocalStorage.path root b.1
  saved : b.1 ∈ savedKeys events
  bytes : exists i, inodes[i]? = some b.2 ∧ (files p = some i ∨ files p = none)

inductive StreamShows (inodes : List Bytes) : Generator (Nat × Nat) -> Generator Bytes -> Prop
  | created (key : StorageKey) : StreamShows inodes (.created key) (.created key)
  | reading {i : Nat} {data : Bytes} (hdata : inodes[i]? = some data) (offset : Nat) :
      StreamShows inodes (.reading (i, offset)) (.reading (data.drop offset))
  | finished : StreamShows inodes .finished .finished

structure Shows (root : Path) (events : List StorageEvent) (s : LocalStorage) (t : Shelf) :
    Prop where
  blobs : forall key, t.blobs key = (s.files (path root key)).bind fun i => s.inodes[i]?
  files : forall key i, s.files (path root key) = some i ->
    i < s.inodes.length ∧ key ∈ savedKeys events
  blocks : List.Forall₂ (Option.Rel (BlockShows root events s.files s.inodes)) s.blocks
    t.blocks
  streams : List.Forall₂ (StreamShows s.inodes) s.streams t.streams

section Steps

variable {root : Path} {s s' : LocalStorage} {t : Shelf} {events : List StorageEvent}
  {a : StorageEvent} {key : StorageKey} {data : Bytes}

theorem mem_savedKeys_snoc (h : key ∈ savedKeys events) : key ∈ savedKeys (events ++ [a]) := by
  unfold savedKeys at h ⊢
  rw [List.filterMap_append]
  exact List.mem_append_left _ h

theorem BlockShows.later {files : Path -> Option Nat} {inodes : List Bytes} {p : Path}
    {b : StorageKey × Bytes} (h : BlockShows root events files inodes p b) :
    BlockShows root (events ++ [a]) files inodes p b :=
  ⟨h.path, mem_savedKeys_snoc h.saved, h.bytes⟩

theorem Shows.later (h : Shows root events s t) : Shows root (events ++ [a]) s t := by
  refine ⟨h.blobs, ?_, ?_, h.streams⟩
  · intro key i hi
    exact ⟨(h.files key i hi).left, mem_savedKeys_snoc (h.files key i hi).right⟩
  · apply h.blocks.imp
    intro p b hrel
    cases hrel with
    | none => exact .none
    | some hblock => exact .some hblock.later

theorem StreamShows.grow {inodes : List Bytes} {x : Generator (Nat × Nat)}
    {y : Generator Bytes} (h : StreamShows inodes x y) (data : Bytes) :
    StreamShows (inodes ++ [data]) x y := by
  cases h with
  | created key => exact .created key
  | reading hdata offset =>
      rw [← List.getElem?_append_left (List.getElem?_eq_some_iff.mp hdata).1] at hdata
      exact .reading hdata offset
  | finished => exact .finished

theorem writeBytes_new {p : Path} (h : s.files p = none) (data : Bytes) :
    s.writeBytes p data =
      { s with
        files := fun q => if q = p then some s.inodes.length else s.files q
        inodes := s.inodes ++ [data] } := by
  unfold writeBytes
  rw [h]

theorem Shows.save (h : Shows root events s t) (hfresh : key ∉ savedKeys events)
    (hsaved : key ∈ savedKeys (events ++ [a])) (data : Bytes) :
    Shows root (events ++ [a]) (s.writeBytes (path root key) data) (t.put key (some data)) := by
  have hnone : s.files (path root key) = none := by
    cases hfile : s.files (path root key) with
    | none => rfl
    | some i => exact absurd (h.files key i hfile).right hfresh
  have hpath {key' : StorageKey} (hne : key' ≠ key) : path root key' ≠ path root key :=
    fun heq => hne (path_injective root heq)
  have hold {i : Nat} (hi : i < s.inodes.length) :
      (s.inodes ++ [data])[i]? = s.inodes[i]? := List.getElem?_append_left hi
  rw [writeBytes_new hnone]
  constructor
  · intro key'
    by_cases hkey : key' = key
    · subst hkey
      simp [Shelf.put]
    · simp only [Shelf.put, if_neg hkey, if_neg (hpath hkey)]
      rw [h.blobs key']
      cases hfile : s.files (path root key') with
      | none => rfl
      | some i => exact (hold (h.files key' i hfile).left).symm
  · intro key' i hi
    by_cases hkey : key' = key
    · subst hkey
      dsimp only at hi
      rw [if_pos rfl] at hi
      cases hi
      exact ⟨by simp, hsaved⟩
    · simp only [if_neg (hpath hkey)] at hi
      refine ⟨?_, mem_savedKeys_snoc (h.files key' i hi).right⟩
      rw [List.length_append]
      exact Nat.lt_add_right _ (h.files key' i hi).left
  · apply h.blocks.imp
    intro p b hrel
    cases hrel with
    | none => exact .none
    | @some p b hblock =>
        rcases hblock.bytes with ⟨i, hi, hfile⟩
        have hne : b.1 ≠ key := by
          rintro rfl
          exact hfresh hblock.saved
        refine .some ⟨hblock.path, mem_savedKeys_snoc hblock.saved, i, ?_, ?_⟩
        · exact (hold (List.getElem?_eq_some_iff.mp hi).1).trans hi
        · rw [hblock.path] at hfile ⊢
          dsimp only
          rw [if_neg (hpath hne)]
          exact hfile
  · exact h.streams.imp fun x y hrel => hrel.grow data

theorem Shows.delete (h : Shows root events s t) (key : StorageKey) :
    Shows root (events ++ [a]) (s.unlink (path root key)) (t.put key none) := by
  have hlater : Shows root (events ++ [a]) s t := h.later
  constructor
  · intro key'
    by_cases hkey : key' = key
    · subst hkey
      simp [Shelf.put, unlink]
    · have hpath : path root key' ≠ path root key := fun heq => hkey (path_injective root heq)
      simp only [Shelf.put, unlink, if_neg hkey, if_neg hpath]
      exact h.blobs key'
  · intro key' i hi
    simp only [unlink] at hi
    split at hi
    · cases hi
    · exact hlater.files key' i hi
  · apply hlater.blocks.imp
    intro p b hrel
    cases hrel with
    | none => exact .none
    | some hblock =>
        rcases hblock.bytes with ⟨i, hi, hfile⟩
        refine .some ⟨hblock.path, hblock.saved, i, hi, ?_⟩
        simp only [unlink]
        split
        · exact .inr rfl
        · exact hfile
  · exact h.streams

theorem Shows.isSome_blobs (h : Shows root events s t) :
    (t.blobs key).isSome = (s.files (path root key)).isSome := by
  rw [h.blobs]
  cases hfile : s.files (path root key) with
  | none => rfl
  | some i =>
      rw [Option.bind_some, List.getElem?_eq_getElem (h.files key i hfile).left]
      rfl

theorem Shows.blobs_of_none (h : Shows root events s t)
    (hnone : s.files (path root key) = none) : t.blobs key = none := by
  rw [h.blobs, hnone]
  rfl

theorem Shows.block (h : Shows root events s t) {w : Nat} {p : Path}
    (hw : s.blocks[w]? = some (some p)) :
    exists b, t.blocks[w]? = some (some b) ∧
      BlockShows root events s.files s.inodes p b := by
  rcases exists_getElem?_of_forall₂ h.blocks hw with ⟨b, hb, hrel⟩
  cases hrel with
  | some hblock => exact ⟨_, hb, hblock⟩

theorem Shows.openBlock (h : Shows root events s t) {i : Nat}
    (hfile : s.files (path root key) = some i) (hdata : s.inodes[i]? = some data)
    (hsaved : key ∈ savedKeys events) :
    Shows root events { s with blocks := s.blocks ++ [some (path root key)] }
      { t with blocks := t.blocks ++ [some (key, data)] } :=
  ⟨h.blobs, h.files, forall₂_snoc h.blocks (.some ⟨rfl, hsaved, i, hdata, .inl hfile⟩),
    h.streams⟩

theorem Shows.closeBlock (h : Shows root events s t) (w : Nat) :
    Shows root events { s with blocks := s.blocks.set w none }
      { t with blocks := t.blocks.set w none } :=
  ⟨h.blobs, h.files, forall₂_set h.blocks .none, h.streams⟩

theorem Shows.stream (h : Shows root events s t) {xs : List (Generator (Nat × Nat))}
    {ys : List (Generator Bytes)} (hstreams : List.Forall₂ (StreamShows s.inodes) xs ys) :
    Shows root events { s with streams := xs } { t with streams := ys } :=
  ⟨h.blobs, h.files, h.blocks, hstreams⟩

theorem Shows.source (h : Shows root events s t) {g : Nat} {place : Nat × Nat}
    (hsource : sourceOf (s.openFile root) s.streams g = some place) :
    sourceOf t.blobs t.streams g = some (s.restOf place) ∧
      exists data, s.inodes[place.1]? = some data ∧ s.restOf place = data.drop place.2 := by
  have hrest {data : Bytes} (hdata : s.inodes[place.1]? = some data) :
      s.restOf place = data.drop place.2 := by
    unfold restOf
    rw [hdata]
    rfl
  unfold sourceOf at hsource
  split at hsource
  · next key hcreated =>
      rcases exists_getElem?_of_forall₂ h.streams hcreated with ⟨y, hy, hrel⟩
      cases hrel
      rcases Option.map_eq_some_iff.mp hsource with ⟨i, hi, rfl⟩
      have hdata := List.getElem?_eq_getElem (h.files key i hi).left
      refine ⟨?_, _, hdata, hrest hdata⟩
      rw [hrest hdata]
      simp only [sourceOf, hy]
      rw [h.blobs, hi]
      exact hdata
  · next place' hreading =>
      cases hsource
      rcases exists_getElem?_of_forall₂ h.streams hreading with ⟨y, hy, hrel⟩
      cases hrel with
      | reading hdata offset =>
          refine ⟨?_, _, hdata, hrest hdata⟩
          rw [hrest hdata]
          simp only [sourceOf, hy]
  · cases hsource

theorem Shows.finished_iff (h : Shows root events s t) {g : Nat} :
    s.streams[g]? = some .finished <-> t.streams[g]? = some .finished := by
  constructor
  · intro hs
    rcases exists_getElem?_of_forall₂ h.streams hs with ⟨y, hy, hrel⟩
    cases hrel
    exact hy
  · intro ht
    rcases exists_getElem?_of_forall₂_right h.streams ht with ⟨x, hx, hrel⟩
    cases hrel
    exact hx

theorem Shows.step (h : Shows root events s t) (hkeys : (savedKeys (events ++ [a])).Nodup)
    (hact : s.act root a = some s') :
    exists t', t.act true a = some t' ∧ Shows root (events ++ [a]) s' t' := by
  have hfresh {key : StorageKey} (hkey : savedKeys [a] = [key]) :
      key ∉ savedKeys events ∧ key ∈ savedKeys (events ++ [a]) := by
    have happend : savedKeys (events ++ [a]) = savedKeys events ++ [key] := by
      rw [← hkey]
      exact List.filterMap_append
    rw [happend] at hkeys ⊢
    exact ⟨fun hin => (List.nodup_append.mp hkeys).2.2 key hin key List.mem_cons_self rfl,
      List.mem_append_right _ List.mem_cons_self⟩
  cases a with
  | saved key data =>
      cases hact
      rcases hfresh rfl with ⟨hnew, hsaved⟩
      exact ⟨_, rfl, h.save hnew hsaved data⟩
  | saveRaised key data left =>
      cases left with
      | none =>
          cases hact
          exact ⟨t, rfl, h.later⟩
      | some n =>
          cases hact
          rcases hfresh rfl with ⟨hnew, hsaved⟩
          exact ⟨_, rfl, h.save hnew hsaved (data.take n)⟩
  | deleted key =>
      cases hact
      exact ⟨_, rfl, h.delete key⟩
  | deleteRaised key landed =>
      cases landed with
      | false =>
          cases hact
          exact ⟨t, rfl, h.later⟩
      | true => cases hact
  | existed key answer =>
      rcases Option.ite_none_right_eq_some.mp hact with ⟨hanswer, hs⟩
      cases hs
      refine ⟨t, ?_, h.later⟩
      rw [← h.isSome_blobs] at hanswer
      cases hblob : t.blobs key with
      | none =>
          rw [hblob] at hanswer
          subst hanswer
          simp [Shelf.act, hblob]
      | some data =>
          rw [hblob] at hanswer
          subst hanswer
          simp [Shelf.act, hblob]
  | existsRaised key =>
      cases hact
      exact ⟨t, rfl, h.later⟩
  | opened key =>
      rcases Option.map_eq_some_iff.mp hact with ⟨i, hi, rfl⟩
      have hdata := List.getElem?_eq_getElem (h.files key i hi).left
      have hblob := h.blobs key
      rw [hi, Option.bind_some, hdata] at hblob
      refine ⟨_, ?_, h.later.openBlock hi hdata (mem_savedKeys_snoc (h.files key i hi).right)⟩
      simp only [Shelf.act, hblob]
      rfl
  | openMissing key =>
      rcases Option.ite_none_right_eq_some.mp hact with ⟨hnone, hs⟩
      cases hs
      refine ⟨t, ?_, h.later⟩
      simp [Shelf.act, h.blobs_of_none hnone]
  | openRaised key downloading =>
      cases downloading with
      | false =>
          cases hact
          exact ⟨t, rfl, h.later⟩
      | true => cases hact
  | bodyRead w data =>
      rcases Option.bind_eq_some_iff.mp hact with ⟨p, hblock, hact⟩
      rcases Option.ite_none_right_eq_some.mp hact with ⟨hread, hs⟩
      cases hs
      rcases h.block (Option.join_eq_some_iff.mp hblock) with ⟨b, hb, hrel⟩
      rcases Option.bind_eq_some_iff.mp hread with ⟨i, hi, hdata⟩
      have hsame : b.2 = data := by
        rcases hrel.bytes with ⟨j, hj, hfile | hfile⟩
        · rw [hi] at hfile
          cases hfile
          rw [hdata] at hj
          exact (Option.some.inj hj).symm
        · rw [hi] at hfile
          cases hfile
      refine ⟨t, ?_, h.later⟩
      simp only [Shelf.act, hb, Option.join_some, Option.bind_some, if_pos hsame]
  | bodyMissing w =>
      rcases Option.bind_eq_some_iff.mp hact with ⟨p, hblock, hact⟩
      rcases Option.ite_none_right_eq_some.mp hact with ⟨hnone, hs⟩
      cases hs
      rcases h.block (Option.join_eq_some_iff.mp hblock) with ⟨b, hb, hrel⟩
      rw [hrel.path] at hnone
      refine ⟨t, ?_, h.later⟩
      simp only [Shelf.act, hb, Option.join_some, Option.bind_some,
        if_pos (h.blobs_of_none hnone)]
  | closed w =>
      rcases Option.map_eq_some_iff.mp hact with ⟨p, hblock, rfl⟩
      rcases h.block (Option.join_eq_some_iff.mp hblock) with ⟨b, hb, _⟩
      have hlater : Shows root (events ++ [.closed w]) s t := h.later
      refine ⟨_, ?_, hlater.closeBlock w⟩
      simp only [Shelf.act, hb]
      rfl
  | streamed key =>
      cases hact
      have hlater : Shows root (events ++ [.streamed key]) s t := h.later
      exact ⟨_, rfl, hlater.stream (forall₂_snoc h.streams (.created key))⟩
  | pulled g piece =>
      rcases Option.bind_eq_some_iff.mp hact with ⟨place, hsource, hact⟩
      rcases Option.ite_none_right_eq_some.mp hact with ⟨⟨hne, hpiece⟩, hs⟩
      cases hs
      rcases h.source hsource with ⟨hsource', data, hdata, hrest⟩
      have hprefix : piece <+: s.restOf place := by
        rw [hpiece]
        exact List.take_prefix _ _
      have hlength : piece.length ≤ chunkSize := by
        rw [hpiece, List.length_take]
        exact Nat.min_le_left _ _
      have hlater : Shows root (events ++ [.pulled g piece]) s t := h.later
      refine ⟨_, ?_, hlater.stream (forall₂_set h.streams (.reading hdata _))⟩
      simp only [Shelf.act, hsource', Option.bind_some]
      rw [if_pos ⟨hne, hlength, hprefix⟩, hrest, List.drop_drop]
  | ended g =>
      have hlater : Shows root (events ++ [.ended g]) s t := h.later
      simp only [act] at hact
      split at hact
      · next hdone =>
          cases hact
          refine ⟨t, ?_, hlater⟩
          simp only [Shelf.act, if_pos (h.finished_iff.mp hdone)]
      · next hnot =>
          rcases Option.bind_eq_some_iff.mp hact with ⟨place, hsource, hact⟩
          rcases Option.ite_none_right_eq_some.mp hact with ⟨hrest, hs⟩
          cases hs
          rcases h.source hsource with ⟨hsource', _⟩
          refine ⟨_, ?_, hlater.stream (forall₂_set h.streams .finished)⟩
          simp only [Shelf.act, if_neg (mt h.finished_iff.mpr hnot), hsource',
            Option.bind_some, if_pos hrest]
  | pullMissing g =>
      have hlater : Shows root (events ++ [.pullMissing g]) s t := h.later
      simp only [act] at hact
      split at hact
      · next key hcreated =>
          rcases Option.ite_none_right_eq_some.mp hact with ⟨hnone, hs⟩
          cases hs
          rcases exists_getElem?_of_forall₂ h.streams hcreated with ⟨y, hy, hrel⟩
          cases hrel
          refine ⟨_, ?_, hlater.stream (forall₂_set h.streams .finished)⟩
          simp [Shelf.act, hy, h.blobs_of_none hnone]
      · cases hact
  | pullRaised g =>
      rcases Option.map_eq_some_iff.mp hact with ⟨gen, hgen, rfl⟩
      rcases exists_getElem?_of_forall₂ h.streams hgen with ⟨y, hy, _⟩
      have hlater : Shows root (events ++ [.pullRaised g]) s t := h.later
      refine ⟨_, ?_, hlater.stream (forall₂_set h.streams .finished)⟩
      simp only [Shelf.act, hy]
      rfl

end Steps

/-- The directory is a shelf whose missing keys are sure. -/
theorem refines {root : Path} {events : List StorageEvent} {s : LocalStorage}
    (h : Performs (act root) start events s) (hkeys : (savedKeys events).Nodup) :
    exists t, Performs (Shelf.act true) Shelf.start events t ∧ Shows root events s t := by
  have hstart : Shows root [] start Shelf.start := by
    refine ⟨fun _ => rfl, ?_, .nil, .nil⟩
    intro key i hi
    cases hi
  apply Performs.simulate (fun events => (savedKeys events).Nodup) _ hstart _ h hkeys
  · intro events a hall
    unfold savedKeys at hall ⊢
    rw [List.filterMap_append] at hall
    exact (List.nodup_append.mp hall).1
  · intro events s t a s' hall hshows hact
    exact hshows.step hall hact

end LocalStorage

/-!
# Both storages
-/

/-- Every run of a storage is one of a shelf that ends with the same bytes: of one whose
answers are sure for the directory, if no key is saved twice.  In the bucket's runs the
temporary files are one for each open block and one for each download that raised. -/
theorem storages_refine (root : Path) :
    (forall events s, Performs (LocalStorage.act root) LocalStorage.start events s ->
      (savedKeys events).Nodup ->
        exists t, Performs (Shelf.act true) Shelf.start events t ∧
          forall key, t.blobs key =
            (s.files (LocalStorage.path root key)).bind fun i => s.inodes[i]?) ∧
    forall events s, Performs R2Storage.act R2Storage.start events s ->
      (exists t, Performs (Shelf.act false) Shelf.start events t ∧ t.blobs = s.objects) ∧
        s.TempFiles events := by
  constructor
  · intro events s hperforms hkeys
    rcases LocalStorage.refines hperforms hkeys with ⟨t, hshelf, hshows⟩
    exact ⟨t, hshelf, hshows.blobs⟩
  · intro events s hperforms
    rcases R2Storage.refines hperforms with ⟨⟨t, hshelf, hshows⟩, hfiles⟩
    exact ⟨⟨t, hshelf, hshows.blobs⟩, hfiles⟩

def uploadedKey : StorageKey :=
  ⟨"user1_0.pdf", ⟨by decide, by decide, by decide, by decide⟩⟩

def deletedWhileOpen : List StorageEvent :=
  [.saved uploadedKey [37, 80, 68, 70], .openRaised uploadedKey false, .opened uploadedKey,
    .streamed uploadedKey, .bodyRead 0 [37, 80, 68, 70], .pulled 0 [37, 80, 68, 70],
    .deleted uploadedKey, .existed uploadedKey false, .closed 0, .ended 0]

def downloadRaised : List StorageEvent :=
  [.saved uploadedKey [37, 80], .opened uploadedKey, .openRaised uploadedKey true]

theorem storages_refine_deletedWhileOpen :
    (exists s t, Performs (LocalStorage.act []) LocalStorage.start deletedWhileOpen s ∧
      Performs (Shelf.act true) Shelf.start deletedWhileOpen t ∧
        forall key, t.blobs key =
          (s.files (LocalStorage.path [] key)).bind fun i => s.inodes[i]?) ∧
    exists s t,
      Performs R2Storage.act R2Storage.start (deletedWhileOpen ++ downloadRaised) s ∧
      Performs (Shelf.act false) Shelf.start (deletedWhileOpen ++ downloadRaised) t ∧
        t.blobs = s.objects ∧ s.TempFiles (deletedWhileOpen ++ downloadRaised) := by
  have hlocal : exists s, Performs (LocalStorage.act []) LocalStorage.start
      deletedWhileOpen s := exists_performs_of_follow (by decide +kernel)
  have hr2 : exists s, Performs R2Storage.act R2Storage.start
      (deletedWhileOpen ++ downloadRaised) s := exists_performs_of_follow (by decide +kernel)
  rcases hlocal with ⟨s, hs⟩
  rcases hr2 with ⟨s', hs'⟩
  rcases (storages_refine []).left _ s hs (by decide +kernel) with ⟨t, ht, hblobs⟩
  rcases (storages_refine []).right _ s' hs' with ⟨⟨t', ht', hobjects⟩, hfiles⟩
  exact ⟨⟨s, t, hs, ht, hblobs⟩, s', t', hs', ht', hobjects, hfiles⟩

/-!
# The storage of the service
-/

theorem plain_storageKey {docKey : String} (h : '/' ∉ docKey.toList) :
    PlainName (storageKey docKey).toList := by
  have hlist : (storageKey docKey).toList = docKey.toList ++ ['.', 'p', 'd', 'f'] :=
    String.toList_append
  have hlength : 4 ≤ (storageKey docKey).toList.length := by
    rw [hlist, List.length_append]
    exact Nat.le_add_left _ _
  constructor
  · intro heq
    rw [heq] at hlength
    exact absurd hlength (by decide)
  · intro heq
    rw [heq] at hlength
    exact absurd hlength (by decide)
  · intro heq
    rw [heq] at hlength
    exact absurd hlength (by decide)
  · rw [hlist, List.mem_append]
    rintro (hin | hin)
    · exact h hin
    · exact absurd hin (by decide)

/-- The blobs are what pymupdf reads from the bytes. -/
def World.Holds (decode : Bytes -> Pdf) (w : World) (t : Shelf) : Prop :=
  forall key : StorageKey, w.blobs key.name = (t.blobs key).map decode

theorem StorageKey.eq_of_name {key key' : StorageKey} (h : key.name = key'.name) :
    key = key' := by
  rcases key with ⟨name, plain⟩
  rcases key' with ⟨name', plain'⟩
  subst h
  rfl

theorem World.Holds.put {decode : Bytes -> Pdf} {w : World} {t : Shelf}
    (h : w.Holds decode t) (key : StorageKey) (data : Option Bytes) :
    World.Holds decode
      { w with blobs := fun k => if k = key.name then data.map decode else w.blobs k }
      (t.put key data) := by
  intro key'
  unfold Shelf.put
  dsimp only
  by_cases hkey : key' = key
  · rw [if_pos hkey, if_pos (congrArg StorageKey.name hkey)]
  · rw [if_neg hkey, if_neg (mt StorageKey.eq_of_name hkey)]
    exact h key'

theorem World.exec_shelf (M : EmbeddingModel) {decode : Bytes -> Pdf} {w : World} {t : Shelf}
    (h : w.Holds decode t) (key : StorageKey) :
    (forall data, exists t', t.act true (.saved key data) = some t' ∧
      (w.exec M (.storageSave key.name (decode data))).2.Holds decode t') ∧
    (exists t', t.act true (.deleted key) = some t' ∧
      (w.exec M (.storageDelete key.name)).2.Holds decode t') ∧
    forall file, (w.exec M (.openLocal key.name)).1 = .ok file <->
      exists data, t.blobs key = some data ∧ file = ⟨key.name, decode data⟩ := by
  refine ⟨?_, ?_, ?_⟩
  · intro data
    exact ⟨_, rfl, h.put key (some data)⟩
  · exact ⟨_, rfl, h.put key none⟩
  · intro file
    have hopen : (w.exec M (.openLocal key.name)).1 = w.openLocal key.name := rfl
    rw [hopen, World.openLocal, h key]
    cases hdata : t.blobs key with
    | none =>
        constructor
        · intro hfile
          cases hfile
        · rintro ⟨_, hsome, _⟩
          cases hsome
    | some data =>
        constructor
        · intro hfile
          cases hfile
          exact ⟨data, rfl, rfl⟩
        · rintro ⟨_, hsome, rfl⟩
          cases hsome
          rfl

end ChatDoc
