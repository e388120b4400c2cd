import ChatDoc.Gate.Verdicts
import ChatDoc.Service.Endpoints

/-!
# Isolation of users

The state of the service is split by the owner of each row.  A request of a
signed-in user works on the part of that user: it answers from this part and
changes nothing else.
-/

namespace ChatDoc

open Foundation

/-!
# Parts of the state
-/

def World.holds (w : World) (whose : Option Nat -> Bool) (documentId : Nat) : Bool :=
  (w.db.documents.lookup documentId).any fun d => whose d.userId

/-- Sessions and documents of some owners, with the chunks, the jobs and the blob of
each document. -/
structure Part where
  now : Time
  sessions : Token -> Option SessionRow
  documents : Nat -> Option Document
  chunks : Nat -> Option ChunkRow
  jobs : Nat -> Option Job
  blobs : Nat -> Option Pdf

namespace Site

def part (s : Site) (whose : Option Nat -> Bool) : Part where
  now := s.world.now
  sessions token := (s.sessions token).filter fun row => whose (some row.userId)
  documents id := (s.world.db.documents.lookup id).filter fun d => whose d.userId
  chunks id := (s.world.db.chunks.lookup id).filter fun r =>
    s.world.holds whose r.documentId
  jobs id := (s.world.db.jobs.lookup id).filter fun r =>
    s.world.holds whose r.documentId
  blobs id := ((s.world.db.documents.lookup id).filter fun d => whose d.userId).bind
    fun d => s.world.blobs d.sourcePath

abbrev own (s : Site) (userId : Nat) : Part := s.part fun owner => owner = some userId

abbrev others (s : Site) (userId : Nat) : Part :=
  s.part fun owner => owner ≠ some userId

abbrev KeysUnique (s : Site) : Prop := s.world.KeysUnique

/-- The cookie of a request is a session of the user. -/
def SessionOf (s : Site) (userId : Nat) (token : Token) : Prop :=
  exists row, s.sessions token = some row ∧ row.userId = userId

abbrev Unreferenced (s : Site) (key : String) : Prop := s.world.Unreferenced key

def deleteDocumentRow (s : Site) (documentId : Nat) : Site :=
  { s with world := { s.world with db := s.world.db.deleteDocumentRow documentId } }

end Site

def Part.setSession (p : Part) (token : Token) (row : Option SessionRow) : Part :=
  { p with sessions := fun t => if t = token then row else p.sessions t }

def Part.deleteDocument (p : Part) (documentId : Nat) : Part where
  now := p.now
  sessions := p.sessions
  documents id := if id = documentId then none else p.documents id
  chunks id := (p.chunks id).filter fun r => r.documentId ≠ documentId
  jobs id := (p.jobs id).filter fun r => r.documentId ≠ documentId
  blobs id := if id = documentId then none else p.blobs id

/-!
# Changes of the state and of its parts
-/

section Parts

variable {s : Site} {whose : Option Nat -> Bool}

theorem part_setSession (token : Token) (row : Option SessionRow) :
    (s.setSession token row).part whose =
      (s.part whose).setSession token
        (row.filter fun row => whose (some row.userId)) := by
  have hsessions : ((s.setSession token row).part whose).sessions =
      ((s.part whose).setSession token
        (row.filter fun row => whose (some row.userId))).sessions := by
    funext t
    unfold Site.setSession Part.setSession Site.part
    dsimp only
    split
    · rfl
    · rfl
  unfold Part.setSession at *
  unfold Site.part at *
  rw [Part.mk.injEq]
  exact ⟨rfl, hsessions, rfl, rfl, rfl, rfl⟩

theorem lookup_deleteDocumentRow (documentId id : Nat) :
    (s.deleteDocumentRow documentId).world.db.documents.lookup id =
      if id = documentId then none else s.world.db.documents.lookup id :=
  s.world.db.lookup_deleteDocumentRow documentId id

theorem holds_deleteDocumentRow (documentId id : Nat) :
    (s.deleteDocumentRow documentId).world.holds whose id =
      (decide (id ≠ documentId) && s.world.holds whose id) := by
  unfold World.holds
  rw [lookup_deleteDocumentRow]
  by_cases hid : id = documentId
  · simp [hid]
  · simp [hid]

theorem filter_filter_and {alpha : Type} (o : Option alpha) (p q : alpha -> Bool) :
    (o.filter p).filter q = o.filter fun a => q a && p a := by
  cases o with
  | none => rfl
  | some a =>
      cases hp : p a
      · simp [Option.filter, hp]
      · simp [Option.filter, hp]

theorem filter_cascade {alpha : Type} (o : Option alpha) (drop : alpha -> Bool)
    (p : alpha -> Bool) :
    (o.filter fun a => !drop a).filter (fun a => !drop a && p a) =
      (o.filter p).filter fun a => !drop a := by
  rw [filter_filter_and, filter_filter_and]
  congr 1
  funext a
  cases drop a
  · simp
  · simp

theorem part_deleteDocumentRow (documentId : Nat) :
    (s.deleteDocumentRow documentId).part whose =
      (s.part whose).deleteDocument documentId := by
  unfold Part.deleteDocument Site.part
  rw [Part.mk.injEq]
  refine ⟨rfl, rfl, ?_, ?_, ?_, ?_⟩
  · funext id
    rw [lookup_deleteDocumentRow]
    split
    · rfl
    · rfl
  · funext id
    have hcascade : (s.deleteDocumentRow documentId).world.db.chunks.lookup id =
        (s.world.db.chunks.lookup id).filter fun r => !decide (r.documentId = documentId) :=
      SerialTable.lookup_delete _ _ _
    rw [hcascade]
    simp only [holds_deleteDocumentRow, ne_eq, decide_not]
    exact filter_cascade _ _ _
  · funext id
    have hcascade : (s.deleteDocumentRow documentId).world.db.jobs.lookup id =
        (s.world.db.jobs.lookup id).filter fun r => !decide (r.documentId = documentId) :=
      SerialTable.lookup_delete _ _ _
    rw [hcascade]
    simp only [holds_deleteDocumentRow, ne_eq, decide_not]
    exact filter_cascade _ _ _
  · funext id
    rw [lookup_deleteDocumentRow]
    split
    · rfl
    · rfl

theorem deleteDocument_absent {documentId : Nat}
    (h : s.world.holds whose documentId = false) :
    (s.part whose).deleteDocument documentId = s.part whose := by
  have habsent : (s.part whose).documents documentId = none := by
    show (s.world.db.documents.lookup documentId).filter (fun d => whose d.userId) = none
    rw [Option.filter_eq_none_iff]
    intro d hd hwhose
    unfold World.holds at h
    rw [hd, Option.any_some, hwhose] at h
    cases h
  have hkept {alpha : Type} (o : Option alpha) (document : alpha -> Nat) :
      (o.filter fun a => s.world.holds whose (document a)).filter
        (fun a => document a ≠ documentId) =
          o.filter fun a => s.world.holds whose (document a) := by
    cases o with
    | none => rfl
    | some a =>
        by_cases ha : document a = documentId
        · simp [Option.filter, ha, h]
        · cases hholds : s.world.holds whose (document a)
          · simp [Option.filter, hholds]
          · simp [Option.filter, hholds, ha]
  have hdocuments : (fun id => if id = documentId then none
      else (s.part whose).documents id) = (s.part whose).documents := by
    funext id
    split
    next hid => rw [hid, habsent]
    next => rfl
  have hblobs : (fun id => if id = documentId then none
      else (s.part whose).blobs id) = (s.part whose).blobs := by
    funext id
    split
    next hid =>
      rw [hid]
      show none = ((s.part whose).documents documentId).bind _
      rw [habsent]
      rfl
    next => rfl
  unfold Part.deleteDocument
  rw [hdocuments, hblobs]
  unfold Site.part at *
  rw [Part.mk.injEq]
  exact ⟨rfl, rfl, rfl, funext fun id => hkept _ _, funext fun id => hkept _ _, rfl⟩

theorem part_storageDelete {M : EmbeddingModel} {key : String}
    (h : s.Unreferenced key) :
    (call M (.storageDelete key) s).2.part whose = s.part whose := by
  have hblobs : ((call M (.storageDelete key) s).2.part whose).blobs =
      (s.part whose).blobs := by
    funext id
    show ((s.world.db.documents.lookup id).filter _).bind _ =
      ((s.world.db.documents.lookup id).filter _).bind _
    apply Option.bind_congr
    intro d hd
    exact if_neg (h id d (Option.filter_eq_some_iff.mp hd).1)
  unfold Site.part at *
  rw [Part.mk.injEq]
  exact ⟨rfl, rfl, rfl, rfl, rfl, hblobs⟩

end Parts
end ChatDoc
