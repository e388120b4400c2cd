import ChatDoc.Ingest.Grouping
import ChatDoc.Ingest.Pipeline

/-!
# What is ingested

Which of a page's text reaches its chunks, and when `chunk_pdf` raises
`EmptyTextLayerError`.
-/

namespace ChatDoc

open Foundation

section Coverage

variable {u : PyUnicode}

/-!
# Stripping
-/

theorem infix_dropWhile {p : Char -> Bool} {quote l : List Char} {c : Char}
    (h : quote <:+: l) (hhead : quote.head? = some c) (hc : p c = false) :
    quote <:+: l.dropWhile p := by
  rcases h with ⟨pre, post, rfl⟩
  have hquote : (quote ++ post).dropWhile p = quote ++ post := by
    cases quote with
    | nil => cases hhead
    | cons d quote =>
        rw [List.head?_cons, Option.some.injEq] at hhead
        subst hhead
        rw [List.cons_append, List.dropWhile_cons, hc]
        rfl
  rw [List.append_assoc, List.dropWhile_append, hquote]
  split
  · exact (List.prefix_append _ _).isInfix
  · exact ⟨pre.dropWhile p, post, List.append_assoc _ _ _⟩

theorem infix_rdropWhile {p : Char -> Bool} {quote l : List Char} {c : Char}
    (h : quote <:+: l) (hlast : quote.getLast? = some c) (hc : p c = false) :
    quote <:+: l.rdropWhile p := by
  rw [List.rdropWhile, ← List.reverse_infix, List.reverse_reverse]
  apply infix_dropWhile (List.reverse_infix.mpr h) _ hc
  rw [List.head?_reverse]
  exact hlast

theorem strip_ends {l : List Char} (h : u.strip l ≠ []) :
    (exists c, (u.strip l).head? = some c ∧ u.space c = false) ∧
      exists c, (u.strip l).getLast? = some c ∧ u.space c = false := by
  have hdrop : l.dropWhile u.space ≠ [] := by
    intro hnil
    apply h
    rw [PyText.strip, hnil, List.rdropWhile_nil]
  constructor
  · refine ⟨(l.dropWhile u.space).head hdrop, ?_, ?_⟩
    · rcases List.rdropWhile_prefix u.space (l.dropWhile u.space) with ⟨rest, hsplit⟩
      rw [← List.head?_eq_some_head hdrop, ← hsplit]
      exact (List.head?_append_of_ne_nil _ h).symm
    · exact List.head_dropWhile_not u.space hdrop
  · refine ⟨(u.strip l).getLast h, List.getLast?_eq_some_getLast h, ?_⟩
    exact Bool.eq_false_iff.mpr (List.rdropWhile_last_not _ _ h)

theorem strip_infix_strip {l l' : List Char} (h : l <:+: l') :
    u.strip l <:+: u.strip l' := by
  by_cases hnil : u.strip l = []
  · rw [hnil]
    exact List.nil_infix
  · rcases strip_ends hnil with ⟨⟨first, hfirst, hfirstSpace⟩, last, hlast, hlastSpace⟩
    have hdrop := infix_dropWhile ((infix_strip l).trans h) hfirst hfirstSpace
    exact infix_rdropWhile hdrop hlast hlastSpace

theorem visible_strip {l : List Char} (h : visible u l = true) :
    visible u (u.strip l) = true := by
  rw [visible, bne_iff_ne] at h
  rcases (strip_ends h).left with ⟨c, hc, hspace⟩
  exact visible_iff.mpr ⟨c, List.mem_of_head? hc, hspace⟩

/-!
# Prose
-/

theorem visible_eq_false {l : List Char} : visible u l = false <-> u.strip l = [] := by
  rw [visible, bne_eq_false_iff_eq]

theorem exists_paragraph {page : Page} {tableBboxes : List Bbox} {block : Block}
    (hblock : block ∈ page.blocks) (htype : block.type = 0)
    (hfree : tableBboxes.any block.bbox.overlaps = false) {span : Span}
    (hspan : span ∈ block.spans) (hvisible : visible u span.text = true) :
    exists p, p ∈ proseParagraphs u page tableBboxes ∧ u.strip span.text <:+: p.text := by
  have hinfix : u.strip span.text <:+: block.text u :=
    strip_infix_strip (infix_intercalate (List.mem_map_of_mem hspan))
  have htext : block.text u ≠ [] := by
    intro hnil
    rw [hnil, List.infix_nil, ← visible_eq_false, hvisible] at hinfix
    cases hinfix
  refine ⟨{ text := block.text u, bbox := block.bbox }, ?_, hinfix⟩
  apply List.mem_filterMap.mpr
  refine ⟨block, hblock, ?_⟩
  rw [if_neg (not_not.mpr htype), hfree, if_neg Bool.false_ne_true, if_neg htext]

theorem infix_clean {l l' : List Char} (h : l <:+: l') : clean l <:+: clean l' := by
  rcases h with ⟨pre, post, rfl⟩
  rw [clean_append, clean_append]
  exact ⟨clean pre, clean post, rfl⟩

theorem exists_proseChunk (pageNum : Nat) (headers : Headers) {paragraphs : List Paragraph}
    {p : Paragraph} (hp : p ∈ paragraphs) {quote : List Char} (hquote : quote <:+: p.text)
    (hshort : quote.length ≤ proseChunkOverlapChars) (hvisible : visible u quote = true) :
    exists chunk,
      chunk ∈ groupParagraphs u pageNum headers paragraphs Buffers.empty ∧
        clean quote <:+: chunk.text.toList := by
  rcases groupParagraphs_groups (u := u) pageNum paragraphs
    (holds_empty headers) with ⟨groups, hflat, hchunks⟩
  have hin : p ∈ groups.flatMap ProseGroup.paragraphs := by
    rw [hflat]
    exact hp
  rcases List.mem_flatMap.mp hin with ⟨g, hg, hpg⟩
  rcases splitProse_windows (u := u) g.joined with ⟨windows, hpieces, hwindowed⟩
  rcases hwindowed.exists_piece (hquote.trans (joined_text_within hpg)) hshort hvisible with
    ⟨w, hw, hpiece⟩
  refine ⟨proseChunk pageNum g.header g.bbox w.piece, ?_, ?_⟩
  · rw [hchunks]
    apply List.mem_flatMap.mpr
    refine ⟨g, hg, ?_⟩
    rw [ProseGroup.chunks, hpieces]
    exact List.mem_map_of_mem (List.mem_map_of_mem hw)
  · rw [proseChunk_text]
    exact (infix_clean hpiece).trans (List.suffix_append _ _).isInfix

/-!
# Between tables and prose
-/

/-- A short span of a text block that lies outside every detected table is in
the text of a prose chunk. -/
def SpansIngested (u : PyUnicode) (pageNum : Nat) (page : Page) : Prop :=
  forall block, block ∈ page.blocks -> block.type = 0 ->
    forall span, span ∈ block.spans -> visible u span.text = true ->
      span.text.length ≤ proseChunkOverlapChars ->
        (forall table, table ∈ page.tables.getD [] ->
          span.bbox.overlaps table.bbox = false) ->
          exists chunk, chunk ∈ proseChunks u pageNum page ∧
            clean (u.strip span.text) <:+: chunk.text.toList

/-- A block that a table with rows touches has no span outside the tables. -/
def BlocksWithinTables (page : Page) : Prop :=
  forall block, block ∈ page.blocks -> block.type = 0 ->
    (exists table, table ∈ page.tables.getD [] ∧ table.rows ≠ [] ∧
      block.bbox.overlaps table.bbox = true) ->
      forall span, span ∈ block.spans ->
        exists table, table ∈ page.tables.getD [] ∧ span.bbox.overlaps table.bbox = true

def Block.retext (f : Span -> List Char) (block : Block) : Block :=
  { block with lines := block.lines.map (List.map fun span => { span with text := f span }) }

def Page.layout (page : Page) : Page :=
  { page with text := [], blocks := page.blocks.map (Block.retext fun _ => []) }

theorem spans_retext (f : Span -> List Char) (block : Block) :
    (block.retext f).spans = block.spans.map fun span => { span with text := f span } :=
  List.map_flatten.symm

theorem retext_retext (f f' : Span -> List Char) (block : Block) :
    (block.retext f).retext f' =
      block.retext fun span => f' { span with text := f span } := by
  simp [Block.retext, Function.comp_def]

def loneSpan (page : Page) (block : Block) (span : Span) : Page :=
  { page with
    blocks := page.blocks.map fun b =>
      b.retext fun s => if b = block ∧ s = span then ['x'] else [] }

theorem layout_loneSpan (page : Page) (block : Block) (span : Span) :
    (loneSpan page block span).layout = page.layout := by
  simp [loneSpan, Page.layout, Function.comp_def, retext_retext]

theorem mem_intercalate {sep : List Char} {texts : List (List Char)} {c : Char}
    (h : c ∈ sep.intercalate texts) : c ∈ sep ∨ exists text, text ∈ texts ∧ c ∈ text := by
  induction texts with
  | nil => cases h
  | cons first rest ih =>
      cases rest with
      | nil =>
          refine .inr ⟨first, List.mem_singleton_self first, ?_⟩
          simpa [List.intercalate] using h
      | cons second rest =>
          rw [intercalate_cons_cons, List.mem_append, List.mem_append] at h
          rcases h with hfirst | hsep | hrest
          · exact .inr ⟨first, List.mem_cons_self, hfirst⟩
          · exact .inl hsep
          · rcases ih hrest with hsep | ⟨text, htext, hc⟩
            · exact .inl hsep
            · exact .inr ⟨text, List.mem_cons_of_mem _ htext, hc⟩

theorem space_bar : u.space '|' = false := space_eq (by decide)

theorem space_x : u.space 'x' = false := space_eq (by decide)

theorem space_nul : u.space '\x00' = false := space_eq (by decide)

theorem bar_mem_markdown {table : Table} (h : table.rows ≠ []) :
    '|' ∈ tableToMarkdown u table := by
  rw [tableToMarkdown]
  cases hrows : table.rows with
  | nil => exact absurd hrows h
  | cons header rows =>
      have hrow : '|' ∈ markdownRow (header.map (tableCell u)) := by
        rw [markdownRow, List.append_assoc]
        exact List.mem_append_left _ (by decide)
      exact (infix_intercalate List.mem_cons_self).mem hrow

theorem mem_keptTables {page : Page} {kept : Table × List Char} :
    kept ∈ keptTables u page <->
      kept.1 ∈ page.tables.getD [] ∧ kept.1.rows ≠ [] ∧
        kept.2 = tableToMarkdown u kept.1 := by
  rw [keptTables, List.mem_filterMap]
  constructor
  · intro h
    rcases h with ⟨table, htable, hsome⟩
    dsimp only at hsome
    split at hsome
    · cases hsome
    · rename_i hmd
      rw [Option.some.injEq] at hsome
      subst hsome
      refine ⟨htable, ?_, rfl⟩
      intro hrows
      apply hmd
      rw [tableToMarkdown, hrows]
      rfl
  · intro h
    rcases h with ⟨htable, hrows, hmd⟩
    refine ⟨kept.1, htable, ?_⟩
    have hbar : u.strip (tableToMarkdown u kept.1) ≠ [] := by
      rw [ne_eq, strip_eq_nil_iff]
      intro hall
      have hspace := hall '|' (bar_mem_markdown hrows)
      rw [space_bar] at hspace
      cases hspace
    dsimp only
    rw [if_neg hbar, ← hmd]

theorem any_tableBboxes {page : Page} {b : Bbox} :
    (tableBboxes u page).any b.overlaps = true <->
      exists table, table ∈ page.tables.getD [] ∧ table.rows ≠ [] ∧
        b.overlaps table.bbox = true := by
  rw [List.any_eq_true, tableBboxes]
  constructor
  · intro h
    rcases h with ⟨_, hmem, hoverlaps⟩
    rcases List.mem_map.mp hmem with ⟨kept, hkept, rfl⟩
    rcases mem_keptTables.mp hkept with ⟨htable, hrows, _⟩
    exact ⟨kept.1, htable, hrows, hoverlaps⟩
  · intro h
    rcases h with ⟨table, htable, hrows, hoverlaps⟩
    refine ⟨table.bbox, List.mem_map.mpr ⟨(table, tableToMarkdown u table), ?_, rfl⟩,
      hoverlaps⟩
    exact mem_keptTables.mpr ⟨htable, hrows, rfl⟩

theorem spansIngested_of_blocksWithinTables {page : Page} (h : BlocksWithinTables page)
    (pageNum : Nat) : SpansIngested u pageNum page := by
  intro block hblock htype span hspan hvisible hshort houtside
  have hfree : (tableBboxes u page).any block.bbox.overlaps = false := by
    rw [Bool.eq_false_iff]
    intro hany
    rcases h block hblock htype (any_tableBboxes.mp hany) span hspan with
      ⟨table, htable, hoverlaps⟩
    rw [houtside table htable] at hoverlaps
    cases hoverlaps
  rcases exists_paragraph hblock htype hfree hspan hvisible with ⟨p, hp, hinfix⟩
  exact exists_proseChunk pageNum _ hp hinfix ((infix_strip _).length_le.trans hshort)
    (visible_strip hvisible)

theorem blocksWithinTables_layout {page : Page} :
    BlocksWithinTables page.layout <-> BlocksWithinTables page := by
  constructor
  · intro h block hblock htype htable span hspan
    have hblank := h (block.retext fun _ => []) (List.mem_map_of_mem hblock) htype htable
    rw [spans_retext, List.forall_mem_map] at hblank
    exact hblank span hspan
  · intro h block hblock
    rcases List.mem_map.mp hblock with ⟨original, horiginal, rfl⟩
    intro htype htable
    rw [spans_retext, List.forall_mem_map]
    exact h original horiginal htype htable

/-- A page whose only text is in a block that a table touches has no prose. -/
theorem proseChunks_loneSpan {page : Page} {block : Block} {span : Span}
    (htable : exists table, table ∈ page.tables.getD [] ∧ table.rows ≠ [] ∧
      block.bbox.overlaps table.bbox = true) (pageNum : Nat) :
    proseChunks u pageNum (loneSpan page block span) = [] := by
  have hnone : proseParagraphs u (loneSpan page block span)
      (tableBboxes u (loneSpan page block span)) = [] := by
    apply List.filterMap_eq_nil_iff.mpr
    intro b hb
    rcases List.mem_map.mp hb with ⟨original, _, rfl⟩
    split
    · rfl
    · split
      · rfl
      · rename_i hfree
        have hother : original ≠ block := by
          intro heq
          apply hfree
          subst heq
          exact any_tableBboxes.mpr htable
        have hblank : (original.retext fun s =>
            if original = block ∧ s = span then ['x'] else []).text u = [] := by
          rw [Block.text, strip_eq_nil_iff]
          intro c hc
          rcases mem_intercalate hc with hsep | ⟨text, htext, hctext⟩
          · rw [List.mem_singleton.mp hsep]
            exact space_newline
          · rw [spans_retext, List.map_map] at htext
            rcases List.mem_map.mp htext with ⟨s, _, rfl⟩
            rw [Function.comp_apply, if_neg (fun h => hother h.left)] at hctext
            cases hctext
        rw [if_pos hblank]
  rw [proseChunks, hnone]
  rfl

/-- Text outside the tables is ingested, whatever it is, exactly on the pages
where no text block that a table touches has a span outside the tables. -/
theorem spansIngested_iff (u : PyUnicode) (pageNum : Nat) (page : Page) :
    (forall page' : Page, page'.layout = page.layout -> SpansIngested u pageNum page') <->
      BlocksWithinTables page := by
  constructor
  · intro h block hblock htype htable span hspan
    by_contra hnone
    have hin : block.retext (fun s => if block = block ∧ s = span then ['x'] else []) ∈
        (loneSpan page block span).blocks :=
      List.mem_map_of_mem hblock
    have hspan' : { span with text := ['x'] } ∈
        (block.retext fun s => if block = block ∧ s = span then ['x'] else []).spans := by
      rw [spans_retext]
      apply List.mem_map.mpr
      exact ⟨span, hspan, by rw [if_pos ⟨rfl, rfl⟩]⟩
    rcases h (loneSpan page block span) (layout_loneSpan page block span) _ hin htype _ hspan'
      (visible_iff.mpr ⟨'x', List.mem_singleton_self _, space_x⟩)
      (by change 1 ≤ 200; omega)
      (fun table htable => Bool.eq_false_iff.mpr
        fun hoverlaps => hnone ⟨table, htable, hoverlaps⟩) with ⟨chunk, hchunk, _⟩
    rw [proseChunks_loneSpan htable] at hchunk
    cases hchunk
  · intro h page' hlayout
    apply spansIngested_of_blocksWithinTables
    rw [← blocksWithinTables_layout, hlayout, blocksWithinTables_layout]
    exact h

end Coverage

def straddlingPage : Page where
  text := "1\nNet of tax\n".toList
  blocks :=
    [{ type := 0, bbox := (50, 100, 300, 250),
       lines := [[{ text := "1".toList, flags := 0, bbox := (60, 110, 80, 120) }],
         [{ text := "Net of tax".toList, flags := 0, bbox := (50, 230, 200, 240) }]] }]
  tables := some [{ bbox := (50, 100, 300, 200), rows := [[some "1".toList]] }]

theorem straddlingPage_loses_text :
    ¬ SpansIngested PyUnicode.ascii 0 straddlingPage := by
  intro h
  have hnone : proseChunks PyUnicode.ascii 0 straddlingPage = [] := by decide +kernel
  rcases h _ List.mem_cons_self rfl
    { text := "Net of tax".toList, flags := 0, bbox := (50, 230, 200, 240) }
    (by decide) (by decide) (by decide) (by decide +kernel) with ⟨chunk, hchunk, _⟩
  rw [hnone] at hchunk
  cases hchunk

end ChatDoc
