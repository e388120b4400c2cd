import ChatDoc.Ingest.Coverage

/-!
# Empty text layers

`chunk_pdf` consumed to its end: the chunks it yields, and whether it raises
`EmptyTextLayerError` after the last page.
-/

namespace ChatDoc

open Foundation

structure Consumed where
  yielded : List Chunk
  error : Option Exn

section Emptiness

variable (u : PyUnicode)

def consume (path : String) (excludedPages : Nat -> Bool) (pages : List Page) :
    Consumed where
  yielded := chunksIn (chunkPdf excludedPages (readPdf u pages))
  error :=
    if anyText excludedPages (readPdf u pages) then none
    else some (emptyTextLayerError path)

def Shown (text : List Char) : Prop :=
  exists c, c ∈ text ∧ u.space c = false ∧ c ≠ '\x00'

/-- Apart from white space, `page.get_text()` and the spans of
`page.get_text("dict")` have the same characters. -/
def SameCharacters (page : Page) : Prop :=
  forall c, u.space c = false ->
    (c ∈ page.text <-> exists block, block ∈ page.blocks ∧ block.type = 0 ∧
      exists span, span ∈ block.spans ∧ c ∈ span.text)

def Walked (excludedPages : Nat -> Bool) (pages : List Page) (pageNum : Nat)
    (page : Page) : Prop :=
  pages[pageNum]? = some page ∧ excludedPages pageNum = false

variable {u}

theorem chunksIn_map_chunk (chunks : List Chunk) :
    chunksIn (chunks.map ChunkEvent.chunk) = chunks := by
  induction chunks with
  | nil => rfl
  | cons chunk chunks ih => rw [List.map_cons, chunksIn_chunk, ih]

theorem mem_chunkPages {excludedPages : Nat -> Bool} {pageCount pageNum chunksSoFar : Nat}
    {pages : List PageContent} {chunk : Chunk} :
    chunk ∈ chunksIn (chunkPages excludedPages pageCount pageNum chunksSoFar pages) <->
      exists i page, pages[i]? = some page ∧ excludedPages (pageNum + i) = false ∧
        chunk ∈ page.chunks := by
  induction pages generalizing pageNum chunksSoFar with
  | nil =>
      constructor
      · intro h
        cases h
      · intro h
        rcases h with ⟨i, page, hpage, _⟩
        cases hpage
  | cons page pages ih =>
      have hlater : (exists i later, pages[i]? = some later ∧
          excludedPages (pageNum + 1 + i) = false ∧ chunk ∈ later.chunks) <->
          exists i later, (page :: pages)[i + 1]? = some later ∧
            excludedPages (pageNum + (i + 1)) = false ∧ chunk ∈ later.chunks := by
        simp only [List.getElem?_cons_succ, Nat.add_assoc, Nat.add_comm 1]
      rw [chunkPages]
      cases hexcluded : excludedPages pageNum with
      | true =>
          rw [if_pos rfl, chunksIn_onPage, ih, hlater]
          constructor
          · intro h
            rcases h with ⟨i, later, hin⟩
            exact ⟨i + 1, later, hin⟩
          · intro h
            rcases h with ⟨i, later, hpage, hwalked, hchunk⟩
            cases i with
            | zero =>
                rw [Nat.add_zero, hexcluded] at hwalked
                cases hwalked
            | succ i => exact ⟨i, later, hpage, hwalked, hchunk⟩
      | false =>
          rw [if_neg Bool.false_ne_true, chunksIn_append, chunksIn_onPage, List.mem_append,
            ih, hlater, chunksIn_map_chunk]
          constructor
          · intro h
            rcases h with hhere | ⟨i, later, hin⟩
            · exact ⟨0, page, rfl, hexcluded, hhere⟩
            · exact ⟨i + 1, later, hin⟩
          · intro h
            rcases h with ⟨i, later, hpage, hwalked, hchunk⟩
            cases i with
            | zero =>
                rw [List.getElem?_cons_zero, Option.some.injEq] at hpage
                rw [hpage]
                exact .inl hchunk
            | succ i => exact .inr ⟨i, later, hpage, hwalked, hchunk⟩

theorem mem_yielded {path : String} {excludedPages : Nat -> Bool} {pages : List Page}
    {chunk : Chunk} :
    chunk ∈ (consume u path excludedPages pages).yielded <->
      exists pageNum page, Walked excludedPages pages pageNum page ∧
        chunk ∈ pageChunks u pageNum page := by
  change chunk ∈ chunksIn (chunkPages _ _ 0 0 _) <-> _
  rw [mem_chunkPages]
  constructor
  · intro h
    rcases h with ⟨i, content, hcontent, hwalked, hchunk⟩
    rw [readPdf, List.getElem?_mapIdx, Option.map_eq_some_iff] at hcontent
    rcases hcontent with ⟨page, hpage, rfl⟩
    rw [Nat.zero_add] at hwalked
    exact ⟨i, page, ⟨hpage, hwalked⟩, hchunk⟩
  · intro h
    rcases h with ⟨i, page, ⟨hpage, hwalked⟩, hchunk⟩
    refine ⟨i, page.content u i, ?_, ?_, hchunk⟩
    · rw [readPdf, List.getElem?_mapIdx, hpage]
      rfl
    · rw [Nat.zero_add]
      exact hwalked

theorem anyText_iff {excludedPages : Nat -> Bool} {pages : List Page} :
    anyText excludedPages (readPdf u pages) = true <->
      exists pageNum page, Walked excludedPages pages pageNum page ∧
        visible u page.text = true := by
  rw [anyText, List.any_eq_true]
  constructor
  · intro h
    rcases h with ⟨⟨content, i⟩, hmem, hwalked⟩
    rw [List.mk_mem_zipIdx_iff_getElem?, readPdf, List.getElem?_mapIdx,
      Option.map_eq_some_iff] at hmem
    rcases hmem with ⟨page, hpage, rfl⟩
    rw [Bool.and_eq_true, Bool.not_eq_true'] at hwalked
    exact ⟨i, page, ⟨hpage, hwalked.left⟩, hwalked.right⟩
  · intro h
    rcases h with ⟨i, page, ⟨hpage, hwalked⟩, hvisible⟩
    refine ⟨(page.content u i, i), ?_, ?_⟩
    · rw [List.mk_mem_zipIdx_iff_getElem?, readPdf, List.getElem?_mapIdx, hpage]
      rfl
    · rw [Bool.and_eq_true, Bool.not_eq_true']
      exact ⟨hwalked, hvisible⟩

theorem exists_shown_chunk {page : Page} (hsame : SameCharacters u page)
    (hshown : Shown u page.text) (pageNum : Nat) :
    exists chunk, chunk ∈ pageChunks u pageNum page ∧ Shown u chunk.text.toList := by
  rcases hshown with ⟨c, hc, hspace, hnul⟩
  rcases (hsame c hspace).mp hc with ⟨block, hblock, htype, span, hspan, hcspan⟩
  cases htaken : (tableBboxes u page).any block.bbox.overlaps with
  | true =>
      rcases any_tableBboxes.mp htaken with ⟨table, htable, hrows, _⟩
      refine ⟨tableChunk u pageNum page (table, tableToMarkdown u table), ?_, '|', ?_,
        space_bar, by decide⟩
      · apply List.mem_append_left
        exact List.mem_map_of_mem (mem_keptTables.mpr ⟨htable, hrows, rfl⟩)
      · change '|' ∈ (String.ofList (clean (headed _ _))).toList
        rw [String.toList_ofList, mem_clean, headed_eq]
        constructor
        · exact List.mem_append_right _ (bar_mem_markdown hrows)
        · decide
  | false =>
      have hlone : u.strip [c] = [c] := by
        rw [PyText.strip, List.dropWhile_cons, hspace, if_neg Bool.false_ne_true,
          List.rdropWhile_singleton, hspace, if_neg Bool.false_ne_true]
      have hin : [c] <:+: u.strip span.text := by
        rw [← hlone]
        exact strip_infix_strip (infix_singleton hcspan)
      have hvisible : visible u [c] = true :=
        visible_iff.mpr ⟨c, List.mem_singleton_self c, hspace⟩
      rcases exists_paragraph hblock htype htaken hspan
        (visible_iff.mpr ⟨c, hcspan, hspace⟩) with ⟨p, hp, hinfix⟩
      have hshort : [c].length ≤ 200 := by
        change 1 ≤ 200
        omega
      rcases exists_proseChunk pageNum (extractHeaders u page) hp (hin.trans hinfix) hshort
        hvisible with ⟨chunk, hchunk, hquote⟩
      refine ⟨chunk, List.mem_append_right _ hchunk, c, hquote.mem ?_, hspace, hnul⟩
      exact mem_clean.mpr ⟨List.mem_singleton_self c, hnul⟩

/-- Nothing is ingested as empty: the generator raises or yields a chunk with a
shown character, and it raises exactly when no page that it walks has one. -/
def NothingEmpty (u : PyUnicode) (path : String) (excludedPages : Nat -> Bool)
    (pages : List Page) : Prop :=
  ((consume u path excludedPages pages).error = some (emptyTextLayerError path) ∨
    exists chunk, chunk ∈ (consume u path excludedPages pages).yielded ∧
      Shown u chunk.text.toList) ∧
  ((consume u path excludedPages pages).error = some (emptyTextLayerError path) <->
    forall pageNum page, Walked excludedPages pages pageNum page -> ¬ Shown u page.text)

theorem visible_of_shown {text : List Char} (h : Shown u text) : visible u text = true := by
  rcases h with ⟨c, hc, hspace, _⟩
  exact visible_iff.mpr ⟨c, hc, hspace⟩

/-- The generator raises when all text layers that it walks are blank. -/
theorem error_iff {path : String} {excludedPages : Nat -> Bool} {pages : List Page} :
    (consume u path excludedPages pages).error = some (emptyTextLayerError path) <->
      forall pageNum page, Walked excludedPages pages pageNum page ->
        visible u page.text = false := by
  change (if anyText excludedPages (readPdf u pages) then none
    else some (emptyTextLayerError path)) = _ <-> _
  cases hany : anyText excludedPages (readPdf u pages) with
  | true =>
      rw [if_pos rfl]
      constructor
      · intro h
        cases h
      · intro h
        rcases anyText_iff.mp hany with ⟨pageNum, page, hwalked, hvisible⟩
        rw [h pageNum page hwalked] at hvisible
        cases hvisible
  | false =>
      rw [if_neg Bool.false_ne_true]
      constructor
      · intro _ pageNum page hwalked
        rw [Bool.eq_false_iff]
        intro hvisible
        rw [anyText_iff.mpr ⟨pageNum, page, hwalked, hvisible⟩] at hany
        cases hany
      · intro _
        rfl

theorem shown_of_visible {text : List Char} (h : visible u text = true)
    (hnul : '\x00' ∉ text) : Shown u text := by
  rcases visible_iff.mp h with ⟨c, hc, hspace⟩
  refine ⟨c, hc, hspace, ?_⟩
  intro heq
  exact hnul (heq ▸ hc)

/-- A text layer with no shown character but with a NUL passes for text. -/
theorem nothingEmpty_iff (path : String) (excludedPages : Nat -> Bool) (pages : List Page)
    (hsame : forall pageNum page, Walked excludedPages pages pageNum page ->
      SameCharacters u page) :
    NothingEmpty u path excludedPages pages <->
      (exists pageNum page, Walked excludedPages pages pageNum page ∧ Shown u page.text) ∨
        forall pageNum page, Walked excludedPages pages pageNum page ->
          '\x00' ∉ page.text := by
  constructor
  · intro h
    by_contra hneither
    rw [not_or] at hneither
    rcases hneither with ⟨hnone, hnul⟩
    apply hnul
    intro pageNum page hwalked hmem
    have hblank := error_iff.mp (h.right.mpr fun pageNum page hwalked hshown =>
      hnone ⟨pageNum, page, hwalked, hshown⟩) pageNum page hwalked
    rw [visible_iff.mpr ⟨'\x00', hmem, space_nul⟩] at hblank
    cases hblank
  · intro h
    by_cases hshown : exists pageNum page, Walked excludedPages pages pageNum page ∧
        Shown u page.text
    · rcases hshown with ⟨pageNum, page, hwalked, hshown⟩
      have hyielded : exists chunk,
          chunk ∈ (consume u path excludedPages pages).yielded ∧
            Shown u chunk.text.toList := by
        rcases exists_shown_chunk (hsame pageNum page hwalked) hshown pageNum with
          ⟨chunk, hchunk, hin⟩
        exact ⟨chunk, mem_yielded.mpr ⟨pageNum, page, hwalked, hchunk⟩, hin⟩
      constructor
      · exact .inr hyielded
      · constructor
        · intro herror
          have hblank := error_iff.mp herror pageNum page hwalked
          rw [visible_of_shown hshown] at hblank
          cases hblank
        · intro hnone
          exact absurd hshown (hnone pageNum page hwalked)
    · have hnul := h.resolve_left hshown
      have hnone : forall pageNum page, Walked excludedPages pages pageNum page ->
          ¬ Shown u page.text :=
        fun pageNum page hwalked hin => hshown ⟨pageNum, page, hwalked, hin⟩
      have herror : (consume u path excludedPages pages).error =
          some (emptyTextLayerError path) := by
        apply error_iff.mpr
        intro pageNum page hwalked
        rw [Bool.eq_false_iff]
        intro hvisible
        exact hnone pageNum page hwalked (shown_of_visible hvisible (hnul pageNum page hwalked))
      exact ⟨.inl herror, fun _ => hnone, fun _ => herror⟩

def linePage (line : List Char) : Page where
  text := line ++ ['\n']
  blocks :=
    [{ type := 0, bbox := (0, 0, 10, 10),
       lines := [[{ text := line, flags := 0, bbox := (0, 0, 10, 10) }]] }]
  tables := some []

theorem linePage_sameCharacters (line : List Char) : SameCharacters u (linePage line) := by
  intro c hspace
  constructor
  · intro hc
    rcases List.mem_append.mp hc with hline | hend
    · exact ⟨_, List.mem_singleton_self _, rfl, _, List.mem_singleton_self _, hline⟩
    · rw [List.mem_singleton.mp hend, space_newline] at hspace
      cases hspace
  · intro h
    rcases h with ⟨block, hblock, _, span, hspan, hc⟩
    rw [List.mem_singleton.mp hblock] at hspan
    rw [List.mem_singleton.mp hspan] at hc
    exact List.mem_append_left _ hc

theorem walked_linePage {line : List Char} {pageNum : Nat} {page : Page}
    (h : Walked noneExcluded [linePage line] pageNum page) : page = linePage line := by
  have hmem := List.mem_of_getElem? h.left
  exact List.mem_singleton.mp hmem

theorem nothingEmpty_iff_line :
    NothingEmpty PyUnicode.ascii "report.pdf" noneExcluded [linePage "Net income".toList] :=
  (nothingEmpty_iff "report.pdf" noneExcluded [linePage "Net income".toList]
    (fun _ _ hwalked => walked_linePage hwalked ▸ linePage_sameCharacters _)).mpr
    (.inl ⟨0, linePage "Net income".toList, ⟨rfl, rfl⟩, 'N', by decide, by decide, by decide⟩)

/-- A NUL alone is ingested as an empty text, and nothing is raised. -/
theorem nul_ingested_empty :
    SameCharacters PyUnicode.ascii (linePage ['\x00']) ∧
      (consume PyUnicode.ascii "scan.pdf" noneExcluded
        [linePage ['\x00']]).yielded.map Chunk.text = [""] ∧
      ¬ NothingEmpty PyUnicode.ascii "scan.pdf" noneExcluded [linePage ['\x00']] := by
  refine ⟨linePage_sameCharacters _, by decide +kernel, ?_⟩
  intro h
  have hnone : forall pageNum page, Walked noneExcluded [linePage ['\x00']] pageNum page ->
      ¬ Shown PyUnicode.ascii page.text := by
    intro pageNum page hwalked hshown
    rcases hshown with ⟨c, hc, hspace, hnul⟩
    rw [walked_linePage hwalked] at hc
    rcases List.mem_append.mp hc with hline | hend
    · exact hnul (List.mem_singleton.mp hline)
    · rw [List.mem_singleton.mp hend, space_newline] at hspace
      cases hspace
  have hblank := error_iff.mp (h.right.mpr hnone) 0 (linePage ['\x00']) ⟨rfl, rfl⟩
  revert hblank
  decide

end Emptiness
end ChatDoc
