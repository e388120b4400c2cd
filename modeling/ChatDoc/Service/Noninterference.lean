import ChatDoc.Service.Isolation

/-!
# Noninterference

Each function that an endpoint calls is isolated, and so are the endpoints.
-/

namespace ChatDoc

open Foundation
open Foundation.Handler

abbrev PrivateTo {alpha : Type} (userId : Nat) (pre : Site -> Prop) (p : Route alpha)
    (post : alpha -> Site -> Prop) : Prop :=
  Isolated (fun s => s.own userId) (fun s => s.others userId) pre p post

section Statements

variable {userId : Nat} {s s' : Site}

theorem own_row {token : Token} {row : SessionRow} (hown : s.own userId = s'.own userId)
    (hrow : s.sessions token = some row) (huser : row.userId = userId) :
    s'.sessions token = some row := by
  have hmine : (s.own userId).sessions token = some row :=
    Option.filter_eq_some_iff.mpr ⟨hrow, decide_eq_true (congrArg some huser)⟩
  rw [hown] at hmine
  exact (Option.filter_eq_some_iff.mp hmine).1

theorem own_now (hown : s.own userId = s'.own userId) : s.world.now = s'.world.now :=
  congrArg Part.now hown

theorem others_setSession {token : Token} {row : Option SessionRow}
    (hold : s.SessionOf userId token) (hnew : forall r, row = some r -> r.userId = userId) :
    (s.setSession token row).others userId = s.others userId := by
  have hsessions : ((s.setSession token row).others userId).sessions =
      (s.others userId).sessions := by
    funext t
    show (if t = token then row else s.sessions t).filter _ = (s.sessions t).filter _
    split
    next ht =>
      rcases hold with ⟨old, hrow, huser⟩
      have hnone : row.filter (fun r => some r.userId ≠ some userId) = none := by
        rw [Option.filter_eq_none_iff]
        intro r hr hother
        exact of_decide_eq_true hother (congrArg some (hnew r hr))
      have hmine : (some old).filter (fun r => some r.userId ≠ some userId) = none := by
        rw [Option.filter_eq_none_iff]
        intro r hr hother
        cases hr
        exact of_decide_eq_true hother (congrArg some huser)
      rw [hnone, ht, hrow, hmine]
    next => rfl
  unfold Site.others Site.part at *
  rw [Part.mk.injEq]
  exact ⟨rfl, hsessions, rfl, rfl, rfl, rfl⟩

theorem own_setSession {token : Token} {row : Option SessionRow}
    (hown : s.own userId = s'.own userId) :
    (s.setSession token row).own userId = (s'.setSession token row).own userId := by
  unfold Site.own at *
  rw [part_setSession, part_setSession, hown]

theorem privateTo_getSessionUser (token : Token) :
    PrivateTo userId (fun s => s.KeysUnique ∧ s.SessionOf userId token)
      (getSessionUser token) fun answer s =>
        s.KeysUnique ∧ forall v, answer = some v ->
          v = userId ∧ s.SessionOf userId token := by
  constructor
  · intro s answer t hs hanswer
    rcases hs with ⟨hunique, row, hrow, huser⟩
    rw [getSessionUser_row hrow] at hanswer
    split at hanswer
    · cases hanswer
      refine ⟨hunique, ?_⟩
      intro v hv
      cases hv
    · cases hanswer
      refine ⟨hunique, ?_⟩
      intro v hv
      cases hv
      exact ⟨huser, row, hrow, huser⟩
  · intro s t hs ht hown
    rcases hs with ⟨_, row, hrow, huser⟩
    rw [getSessionUser_row hrow, getSessionUser_row (own_row hown hrow huser), own_now hown]
    split
    · rfl
    · rfl
  · intro s t hs ht hown
    rcases hs with ⟨_, row, hrow, huser⟩
    rw [getSessionUser_row hrow, getSessionUser_row (own_row hown hrow huser), own_now hown]
    split
    · exact own_setSession hown
    · exact hown
  · intro s hs
    rcases hs with ⟨_, row, hrow, huser⟩
    rw [getSessionUser_row hrow]
    split
    · refine others_setSession ⟨row, hrow, huser⟩ ?_
      intro r hr
      cases hr
    · rfl

theorem privateTo_touchSession (token : Token) :
    PrivateTo userId (fun s => s.KeysUnique ∧ s.SessionOf userId token)
      (touchSession token) fun _ s => s.KeysUnique := by
  constructor
  · intro s answer t hs hanswer
    rcases hs with ⟨hunique, row, hrow, huser⟩
    rw [touchSession_row hrow] at hanswer
    cases hanswer
    exact hunique
  · intro s t hs ht hown
    rfl
  · intro s t hs ht hown
    rcases hs with ⟨_, row, hrow, huser⟩
    rw [touchSession_row hrow, touchSession_row (own_row hown hrow huser), own_now hown]
    exact own_setSession hown
  · intro s hs
    rcases hs with ⟨_, row, hrow, huser⟩
    rw [touchSession_row hrow]
    refine others_setSession ⟨row, hrow, huser⟩ ?_
    intro r hr
    rw [← Option.some.inj hr, touched_userId]
    exact huser

theorem privateTo_getCurrentUserId {http : HttpRequest} {token : Token}
    (hcookie : http.sessionCookie = some token) :
    PrivateTo userId (fun s => s.KeysUnique ∧ s.SessionOf userId token)
      (getCurrentUserId http) fun v s => v = userId ∧ s.KeysUnique := by
  have hlive (v : Nat) (hv : v = userId) :
      PrivateTo userId (fun s => s.KeysUnique ∧ s.SessionOf userId token)
        (touchSession token >>= fun _ => pure v) fun v s => v = userId ∧ s.KeysUnique :=
    isolated_bind (privateTo_touchSession token) fun _ =>
      isolated_pure fun s hs => ⟨hv, hs⟩
  unfold getCurrentUserId
  rw [hcookie]
  apply isolated_bind (privateTo_getSessionUser token)
  intro answer
  cases answer with
  | none => exact isolated_raise _
  | some v =>
      refine isolated_mono (isolated_assuming (hlive v)) ?_ fun _ _ h => h
      intro s hs
      rcases hs with ⟨hunique, hfound⟩
      rcases hfound v rfl with ⟨huser, hsession⟩
      exact ⟨huser, hunique, hsession⟩

/-!
# Statements on documents
-/

theorem privateTo_getDocument (M : EmbeddingModel) (documentId : Nat) :
    PrivateTo userId Site.KeysUnique (call M (.getDocument userId documentId))
      fun row s => s.KeysUnique ∧ row = (s.own userId).documents documentId where
  meets := by
    intro s row t hs hrun
    cases hrun
    exact ⟨hs, rfl⟩
  result := by
    intro s t _ _ hown
    exact congrArg (fun p : Part => Except.ok (p.documents documentId)) hown
  kept := fun _ _ _ _ hown => hown
  frame := fun _ _ => rfl

theorem holds_of_own {documentId : Nat} {d : Document}
    (h : (s.own userId).documents documentId = some d) :
    s.world.holds (fun owner => owner = some userId) documentId = true := by
  rcases Option.filter_eq_some_iff.mp h with ⟨hd, howner⟩
  unfold World.holds
  rw [hd, Option.any_some]
  exact howner

theorem not_holds_others {documentId : Nat} {d : Document}
    (h : (s.own userId).documents documentId = some d) :
    s.world.holds (fun owner => owner ≠ some userId) documentId = false := by
  rcases Option.filter_eq_some_iff.mp h with ⟨hd, howner⟩
  unfold World.holds
  rw [hd, Option.any_some]
  exact decide_eq_false fun hother => hother (of_decide_eq_true howner)

theorem call_deleteDocument (M : EmbeddingModel) (s : Site) (documentId : Nat) :
    call M (.deleteDocument userId documentId) s =
      if ((s.own userId).documents documentId).isSome then
        (.ok true, s.deleteDocumentRow documentId)
      else (.ok false, s) := by
  have hdelete : s.world.db.deleteDocument userId documentId =
      if ((s.own userId).documents documentId).isSome then
        (true, s.world.db.deleteDocumentRow documentId)
      else (false, s.world.db) := rfl
  show (Except.ok (s.world.db.deleteDocument userId documentId).1,
    ({ s with world := { s.world with
      db := (s.world.db.deleteDocument userId documentId).2 } } : Site)) = _
  rw [hdelete]
  split
  · rfl
  · rfl

theorem privateTo_deleteDocument (M : EmbeddingModel) (documentId : Nat)
    (row : Option Document) :
    PrivateTo userId
      (fun s => s.KeysUnique ∧ row = (s.own userId).documents documentId)
      (call M (.deleteDocument userId documentId)) fun deleted s =>
        deleted = true -> forall d, row = some d -> s.Unreferenced d.sourcePath := by
  constructor
  · rintro s deleted t ⟨hunique, rfl⟩ hrun hdeleted d hd
    rw [call_deleteDocument] at hrun
    split at hrun
    · cases hrun
      exact World.unreferenced_of_unique hunique (Option.filter_eq_some_iff.mp hd).1 rfl
    · cases hrun
      cases hdeleted
  · rintro s t ⟨_, rfl⟩ ⟨_, hrow⟩ _
    rw [call_deleteDocument, call_deleteDocument, ← hrow]
    split
    · rfl
    · rfl
  · rintro s t ⟨_, rfl⟩ ⟨_, hrow⟩ hown
    rw [call_deleteDocument, call_deleteDocument, ← hrow]
    split
    · show (s.deleteDocumentRow documentId).own userId =
        (t.deleteDocumentRow documentId).own userId
      unfold Site.own at *
      rw [part_deleteDocumentRow, part_deleteDocumentRow]
      exact congrArg (fun p : Part => p.deleteDocument documentId) hown
    · exact hown
  · rintro s ⟨_, rfl⟩
    rw [call_deleteDocument]
    split
    next hsome =>
      rcases Option.isSome_iff_exists.mp hsome with ⟨d, hd⟩
      show (s.deleteDocumentRow documentId).others userId = s.others userId
      unfold Site.others
      rw [part_deleteDocumentRow]
      exact deleteDocument_absent (not_holds_others hd)
    next => rfl

theorem privateTo_storageDelete (M : EmbeddingModel) (key : String) :
    PrivateTo userId (fun s => s.Unreferenced key) (call M (.storageDelete key))
      fun _ _ => True where
  meets := fun _ _ _ _ _ => True.intro
  result := fun _ _ _ _ _ => rfl
  kept := by
    intro s t hs ht hown
    show (call M (.storageDelete key) s).2.own userId =
      (call M (.storageDelete key) t).2.own userId
    unfold Site.own at *
    rw [part_storageDelete hs, part_storageDelete ht]
    exact hown
  frame := fun s hs => part_storageDelete hs

theorem privateTo_deleteDoc (M : EmbeddingModel) (documentId : Nat) :
    PrivateTo userId Site.KeysUnique
      (Handler.ofProgram (call M) (deleteDoc userId documentId)) fun _ _ => True := by
  unfold deleteDoc ask
  rw [ofProgram_bind, ofProgram_perform]
  apply isolated_bind (privateTo_getDocument M documentId)
  intro row
  rw [ofProgram_bind, ofProgram_perform]
  apply isolated_bind (privateTo_deleteDocument M documentId row)
  intro deleted
  cases deleted with
  | false => exact isolated_raise _
  | true =>
      cases row with
      | none => exact isolated_raise _
      | some d =>
          refine isolated_mono (privateTo_storageDelete M d.sourcePath) ?_ fun _ _ h => h
          intro s hs
          exact hs rfl d rfl

end Statements

/-!
# Endpoints
-/

section Endpoints

variable {score : Type} (B : Backend score) {http : HttpRequest} {userId : Nat}

theorem listDocuments_own {s s' : Site} (hown : s.own userId = s'.own userId) :
    s.world.db.listDocuments B.tie userId = s'.world.db.listDocuments B.tie userId := by
  unfold Database.listDocuments
  apply SerialTable.orderBy_congr B.tie _
  intro id d huser
  have hmine (s : Site) : (s.own userId).documents id = some d <->
      s.world.db.documents.lookup id = some d := by
    show (s.world.db.documents.lookup id).filter _ = some d <-> _
    rw [Option.filter_eq_some_iff]
    exact and_iff_left huser
  rw [← hmine s, ← hmine s', hown]

theorem privateTo_listDocs :
    PrivateTo userId Site.KeysUnique (listDocs B userId) fun _ _ => True := by
  refine isolated_bind_read ?_ ?_
  · intro s s' _ _ hown
    exact listDocuments_own B hown
  · intro rows
    exact isolated_pure fun _ _ => True.intro

theorem privateTo_getDoc (documentId : Nat) :
    PrivateTo userId Site.KeysUnique (getDoc B userId documentId) fun _ _ => True := by
  apply isolated_bind (privateTo_getDocument B.embedding documentId)
  intro row
  cases row with
  | none => exact isolated_raise _
  | some row => exact isolated_pure fun _ _ => True.intro

theorem blob_own {s : Site} {documentId : Nat} {d : Document}
    (h : (s.own userId).documents documentId = some d) :
    s.world.blobs d.sourcePath = (s.own userId).blobs documentId := by
  show _ = ((s.own userId).documents documentId).bind fun d => s.world.blobs d.sourcePath
  rw [h]
  rfl

theorem privateTo_getDocFile (documentId : Nat) :
    PrivateTo userId Site.KeysUnique (getDocFile B userId documentId)
      fun _ _ => True := by
  apply isolated_bind (privateTo_getDocument B.embedding documentId)
  intro row
  cases row with
  | none => exact isolated_raise _
  | some row =>
      dsimp only
      split
      · exact isolated_raise _
      · refine isolated_bind_read ?_ ?_
        · intro s s' hs hs' hown
          rw [blob_own hs.2.symm, blob_own hs'.2.symm]
          exact congrArg (fun p : Part => p.blobs documentId) hown
        · intro contents
          cases contents with
          | none => exact isolated_raise _
          | some contents => exact isolated_pure fun _ _ => True.intro

theorem privateTo_verifyCsrf :
    PrivateTo userId Site.KeysUnique (Handler.ofExcept (verifyCsrf http))
      fun _ s => s.KeysUnique :=
  isolated_ofExcept fun _ _ hs _ => hs

theorem privateTo_deleteDocRoute (documentId : Nat) :
    PrivateTo userId Site.KeysUnique (deleteDocRoute B http userId documentId)
      fun _ _ => True := by
  apply isolated_bind privateTo_verifyCsrf
  intro _
  apply isolated_bind (privateTo_deleteDoc B.embedding documentId)
  intro _
  exact isolated_pure fun _ _ => True.intro

variable [LinearOrder score]

theorem retrieve_own {s s' : Site} {documentId : Nat} (question : String)
    (hown : s.own userId = s'.own userId)
    (h : s.world.holds (fun owner => owner = some userId) documentId = true)
    (h' : s'.world.holds (fun owner => owner = some userId) documentId = true) :
    retrieve B s.world.db documentId question =
      retrieve B s'.world.db documentId question := by
  apply retrieve_congr
  rintro id row rfl
  have hmine {s : Site}
      (hs : s.world.holds (fun owner => owner = some userId) row.documentId = true) :
      (s.own userId).chunks id = some row <-> s.world.db.chunks.lookup id = some row := by
    show (s.world.db.chunks.lookup id).filter _ = some row <-> _
    rw [Option.filter_eq_some_iff]
    exact and_iff_left hs
  rw [← hmine h, ← hmine h', hown]

theorem privateTo_query (body : QueryRequest) (schedule : Schedule) :
    PrivateTo userId Site.KeysUnique (query B http userId body schedule)
      fun _ _ => True := by
  apply isolated_bind privateTo_verifyCsrf
  intro _
  apply isolated_bind (privateTo_getDocument B.embedding body.documentId)
  intro doc
  cases doc with
  | none => exact isolated_raise _
  | some doc =>
      dsimp only
      split
      · exact isolated_raise _
      · refine isolated_bind_read ?_ ?_
        · intro s s' hs hs' hown
          exact retrieve_own B body.question hown (holds_of_own hs.2.symm)
            (holds_of_own hs'.2.symm)
        · intro ctx
          exact isolated_pure fun _ _ => True.intro

theorem privateTo_handle (endpoint : Endpoint) :
    PrivateTo userId Site.KeysUnique (endpoint.handle B http userId)
      fun _ _ => True := by
  cases endpoint with
  | listDocs => exact privateTo_listDocs B
  | getDoc documentId => exact privateTo_getDoc B documentId
  | getDocFile documentId => exact privateTo_getDocFile B documentId
  | deleteDoc documentId => exact privateTo_deleteDocRoute B documentId
  | query body schedule => exact privateTo_query B body schedule

/-- Requests with a session of the user are isolated. -/
theorem privateTo_serve {token : Token} (endpoint : Endpoint)
    (hcookie : http.sessionCookie = some token) :
    PrivateTo userId (fun s => s.KeysUnique ∧ s.SessionOf userId token)
      (serve B http endpoint) fun _ _ => True := by
  apply isolated_bind (privateTo_getCurrentUserId hcookie)
  intro v
  apply isolated_assuming
  rintro rfl
  exact privateTo_handle B endpoint

end Endpoints
end ChatDoc
