import ChatDoc.Ingest.CurrencySearch

/-!
# Where the scale of a table comes from

`chunk_pdf` looks for the scale of a table in its Markdown and then in the text of the
whole page.  Text that has nothing to do with the table decides its scale unless the
text before it does.
-/

namespace ChatDoc

open Foundation
open Foundation.Regex

/-!
# The text of a page
-/

/-- A line as `page.get_text()` writes it. -/
def lineText (line : List Span) : List Char := line.flatMap Span.text ++ ['\n']

/-- What `page.get_text()` writes of a block: the lines of a text block. -/
def Block.written (block : Block) : List Char :=
  if block.type = 0 then block.lines.flatMap lineText else []

/-- `page.get_text()` writes the blocks of `page.get_text("dict")` one after the other. -/
def Page.Written (page : Page) : Prop := page.text = page.blocks.flatMap Block.written

/-- A text block stands elsewhere if it lies below the table, or if it belongs to another
table that is wholly above this one: it ends no lower than that one. -/
def Page.elsewhere (page : Page) (table : Table) (block : Block) : Bool :=
  block.type == 0 &&
    (decide (table.bbox.y1 ≤ block.bbox.y0) ||
      (page.tables.getD []).any fun other =>
        decide (other.bbox.y1 ≤ table.bbox.y0 ∧ block.bbox.y1 ≤ other.bbox.y1))

def Page.own (page : Page) (table : Table) (block : Block) : Bool :=
  !page.elsewhere table block

/-- The same page with other text elsewhere: the places of the blocks and of the tables,
the table itself and all other text stay. -/
structure Page.Retold (page : Page) (table : Table) (page' : Page) : Prop where
  written : page'.Written
  found : table ∈ page'.tables.getD []
  tables : (page'.tables.getD []).map Table.bbox = (page.tables.getD []).map Table.bbox
  blocks : List.Forall₂
    (fun block block' => block'.type = block.type ∧ block'.bbox = block.bbox ∧
      (page.own table block = true -> block' = block)) page.blocks page'.blocks

structure SameUnits (chunk chunk' : Chunk) : Prop where
  scale : chunk.unitScale = chunk'.unitScale
  currency : chunk.unitCurrency = chunk'.unitCurrency
  note : chunk.unitNote = chunk'.unitNote

def Block.saying (line : List Char) (block : Block) : Block :=
  { block with lines := [[⟨line, 0, block.bbox⟩]] }

def sayingElsewhere (own : Block -> Bool) (line : List Char) (blocks : List Block) :
    List Block :=
  blocks.map fun block => if own block then block else block.saying line

def Page.saying (page : Page) (table : Table) (line : List Char) : Page :=
  let blocks := sayingElsewhere (page.own table) line page.blocks
  { page with text := blocks.flatMap Block.written, blocks := blocks }

def leadText (page : Page) (kept : Table × List Char) : List Char :=
  kept.2 ++ '\n' :: (page.blocks.takeWhile (page.own kept.1)).flatMap Block.written

/-- The Markdown of a table and the text of the page, with a full stop on a line of its
own for every block elsewhere. -/
def ownText (page : Page) (kept : Table × List Char) : List Char :=
  kept.2 ++ '\n' :: (page.saying kept.1 ['.']).text

/-- The text before anything elsewhere has a scale phrase and ends its note, and the
text that is not elsewhere names the currency. -/
structure ScaleSettled (u : PyUnicode) (page : Page) (kept : Table × List Char) : Prop where
  phrase : exists hit, (scaleCore u).search (leadText page kept) = some hit ∧
    noteOpen u hit.rest = false
  currency : ((currencyRe u).search (ownText page kept)).isSome = true

section ScaleContext

variable {u : PyUnicode} {page page' : Page} {kept : Table × List Char} {table : Table}

theorem getLast?_lineText (line : List Span) : (lineText line).getLast? = some '\n' :=
  List.getLast?_concat

theorem Block.getLast?_written (block : Block) :
    block.written = [] ∨ block.written.getLast? = some '\n' := by
  rw [written]
  split
  · rcases List.eq_nil_or_concat block.lines with hnil | ⟨front, last, hconcat⟩
    · left
      rw [hnil]
      rfl
    · right
      rw [hconcat, List.concat_eq_append, List.flatMap_append, List.flatMap_singleton,
        List.getLast?_append, getLast?_lineText]
      rfl
  · exact .inl rfl

theorem getLast?_append_written {text : List Char} {prev : Option Char}
    (h : text.getLast?.or prev = some '\n') (blocks : List Block) :
    (text ++ blocks.flatMap Block.written).getLast?.or prev = some '\n' := by
  induction blocks generalizing text with
  | nil =>
      rw [List.flatMap_nil, List.append_nil]
      exact h
  | cons block blocks ih =>
      rw [List.flatMap_cons, ← List.append_assoc]
      apply ih
      rw [List.getLast?_append]
      rcases block.getLast?_written with hnil | hline
      · rw [hnil]
        exact h
      · rw [hline]
        rfl

theorem getLast?_leadText (page : Page) (kept : Table × List Char) :
    (leadText page kept).getLast? = some '\n' := by
  have hstart : (kept.2 ++ ['\n']).getLast?.or none = some '\n' := by
    rw [List.getLast?_concat]
    rfl
  have hblocks := getLast?_append_written hstart (page.blocks.takeWhile (page.own kept.1))
  rw [Option.or_none] at hblocks
  rw [leadText, List.append_cons]
  exact hblocks

theorem written_saying {block : Block} (h : block.type = 0) (line : List Char) :
    (block.saying line).written = line ++ ['\n'] := by
  have htype : (block.saying line).type = 0 := h
  rw [Block.written, if_pos htype]
  simp [Block.saying, lineText]

theorem type_of_elsewhere {block : Block} (h : page.own table block = false) :
    block.type = 0 := by
  rw [Page.own, Bool.not_eq_false', Page.elsewhere, Bool.and_eq_true] at h
  exact beq_iff_eq.mp h.left

theorem retold_saying (hfound : table ∈ page.tables.getD []) (line : List Char) :
    page.Retold table (page.saying table line) where
  written := rfl
  found := hfound
  tables := rfl
  blocks := by
    rw [Page.saying, sayingElsewhere]
    dsimp only
    rw [List.forall₂_map_right_iff, List.forall₂_same]
    intro block _
    cases page.own table block with
    | true => exact ⟨rfl, rfl, fun _ => rfl⟩
    | false =>
        refine ⟨rfl, rfl, ?_⟩
        intro h
        cases h

theorem retold_self (hwritten : page.Written) (hfound : table ∈ page.tables.getD []) :
    page.Retold table page where
  written := hwritten
  found := hfound
  tables := rfl
  blocks := List.forall₂_same.mpr fun _ _ => ⟨rfl, rfl, fun _ => rfl⟩

/-!
# Two runs
-/

theorem written_of_retold {own : Block -> Bool} {blocks blocks' : List Block}
    (h : List.Forall₂ (fun block block' => own block = true -> block' = block) blocks blocks') :
    exists rest, blocks'.flatMap Block.written =
      (blocks.takeWhile own).flatMap Block.written ++ rest := by
  induction h with
  | nil => exact ⟨[], rfl⟩
  | @cons block block' blocks blocks' hblock _ ih =>
      cases hown : own block with
      | true =>
          rcases ih with ⟨rest, hrest⟩
          refine ⟨rest, ?_⟩
          rw [List.takeWhile_cons_of_pos hown, List.flatMap_cons, List.flatMap_cons,
            hblock hown, hrest, List.append_assoc]
      | false =>
          rw [List.takeWhile_cons_of_neg (Bool.eq_false_iff.mp hown)]
          exact ⟨_, rfl⟩

theorem Page.Retold.own_blocks (h : page.Retold table page') :
    List.Forall₂ (fun block block' => page.own table block = true -> block' = block)
      page.blocks page'.blocks :=
  h.blocks.imp fun _ _ hblock => hblock.2.2

theorem leadText_of_retold (h : page.Retold kept.1 page') :
    exists rest, kept.2 ++ '\n' :: page'.text = leadText page kept ++ rest := by
  rcases written_of_retold h.own_blocks with ⟨rest, hrest⟩
  refine ⟨rest, ?_⟩
  rw [h.written, hrest, leadText, List.append_assoc, List.cons_append]

theorem written_saying_elsewhere {own : Block -> Bool} {blocks : List Block}
    (htext : forall block, own block = false -> block.type = 0)
    (h : exists block, block ∈ blocks ∧ own block = false) (line : List Char) :
    exists rest, (sayingElsewhere own line blocks).flatMap Block.written =
      (blocks.takeWhile own).flatMap Block.written ++ (line ++ '\n' :: rest) := by
  induction blocks with
  | nil =>
      rcases h with ⟨block, hin, _⟩
      cases hin
  | cons first blocks ih =>
      rw [sayingElsewhere, List.map_cons, List.flatMap_cons, ← sayingElsewhere]
      cases hfirst : own first with
      | false =>
          refine ⟨(sayingElsewhere own line blocks).flatMap Block.written, ?_⟩
          rw [List.takeWhile_cons_of_neg (Bool.eq_false_iff.mp hfirst), if_neg Bool.false_ne_true,
            written_saying (htext first hfirst), List.append_assoc]
          rfl
      | true =>
          have hrest : exists block, block ∈ blocks ∧ own block = false := by
            rcases h with ⟨block, hin, helsewhere⟩
            rcases List.mem_cons.mp hin with rfl | hrest
            · rw [hfirst] at helsewhere
              cases helsewhere
            · exact ⟨block, hrest, helsewhere⟩
          rcases ih hrest with ⟨rest, heq⟩
          refine ⟨rest, ?_⟩
          rw [List.takeWhile_cons_of_pos hfirst, List.flatMap_cons, if_pos rfl, heq,
            List.append_assoc]

theorem leadText_saying (h : exists block, block ∈ page.blocks ∧
    page.own kept.1 block = false) (line : List Char) :
    exists rest, kept.2 ++ '\n' :: (page.saying kept.1 line).text =
      leadText page kept ++ (line ++ '\n' :: rest) := by
  rcases written_saying_elsewhere (fun _ => type_of_elsewhere) h line with ⟨rest, hrest⟩
  refine ⟨rest, ?_⟩
  rw [leadText, List.append_assoc, List.cons_append, ← hrest]
  rfl

theorem currency_of_retold {own : Block -> Bool} {blocks blocks' : List Block}
    (htext : forall block, own block = false -> block.type = 0)
    (h : List.Forall₂ (fun block block' => own block = true -> block' = block) blocks blocks')
    {lines : List Char} {prev : Option Char} (hlines : lines.getLast?.or prev = some '\n')
    (hstops : ((currencyRe u).searchFrom prev
      (lines ++ (sayingElsewhere own ['.'] blocks).flatMap Block.written)).isSome = true) :
    ((currencyRe u).searchFrom prev
      (lines ++ blocks'.flatMap Block.written)).isSome = true := by
  -- the lines are those since the last block elsewhere
  induction h generalizing lines prev with
  | nil => exact hstops
  | @cons block block' blocks blocks' hblock _ ih =>
      rw [sayingElsewhere, List.map_cons, List.flatMap_cons, ← sayingElsewhere] at hstops
      rw [List.flatMap_cons, ← List.append_assoc]
      have hlines' := getLast?_append_written hlines [block']
      rw [List.flatMap_singleton] at hlines'
      cases hown : own block with
      | true =>
          rw [hown, if_pos rfl, ← List.append_assoc, ← hblock hown] at hstops
          exact ih hlines' hstops
      | false =>
          rw [hown, if_neg Bool.false_ne_true, written_saying (htext block hown)] at hstops
          rcases searchFrom_append_cases lines hstops with
            ⟨pre, post, rfl, hne, hfirst⟩ | hback
          · have hpost : post.getLast? = some '\n' := by
              rw [List.getLast?_append_of_ne_nil _ hne] at hlines
              rcases List.exists_cons_of_ne_nil hne with ⟨c, rest, heq⟩
              rw [heq, List.getLast?_cons] at hlines ⊢
              exact hlines
            rw [List.append_assoc, List.append_assoc]
            apply searchFrom_isSome_append
            apply searchFrom_isSome_of_first
            exact first_currencyRe_of_stop hpost hfirst _
          · apply searchFrom_isSome_append
            rw [hlines']
            rw [hlines] at hback
            have hnone : (([] : List Char).getLast?).or (some '\n') = some '\n' := rfl
            have hline (rest : List Char) : ['.'] ++ ['\n'] ++ rest = '.' :: '\n' :: rest := rfl
            rw [hline, searchFrom_currencyRe_stop] at hback
            exact ih hnone hback

/-!
# What a table chunk says of its units
-/

theorem ofList_map_inj {a b : Option (List Char)} :
    a.map String.ofList = b.map String.ofList <-> a = b := by
  constructor
  · intro h
    apply Option.map_injective _ h
    intro l l' heq
    exact String.ofList_inj.mp heq
  · exact congrArg _

theorem cleanString_map_inj {a b : Option (List Char)} :
    a.map cleanString = b.map cleanString <-> a.map clean = b.map clean := by
  rw [← ofList_map_inj, Option.map_map, Option.map_map]
  rfl

theorem sameUnits_iff {pageNum : Nat} :
    SameUnits (tableChunk u pageNum page kept) (tableChunk u pageNum page' kept) <->
      (tableScale u page kept.2).scale = (tableScale u page' kept.2).scale ∧
        (tableScale u page kept.2).currency = (tableScale u page' kept.2).currency ∧
          (tableScale u page kept.2).note.map clean =
            (tableScale u page' kept.2).note.map clean := by
  rw [← ofList_map_inj, ← ofList_map_inj, ← cleanString_map_inj]
  constructor
  · intro h
    exact ⟨h.scale, h.currency, h.note⟩
  · intro h
    exact ⟨h.left, h.right.left, h.right.right⟩

theorem currency_detectScale (text : List Char) :
    (detectScale u text).currency =
      if ((currencyRe u).search text).isSome then some "USD".toList else none := rfl

theorem tableScale_of_settled (h : ScaleSettled u page kept)
    (hretold : page.Retold kept.1 page') :
    (tableScale u page' kept.2).scale = (detectScale u (leadText page kept)).scale ∧
      (tableScale u page' kept.2).currency = some "USD".toList ∧
        (tableScale u page' kept.2).note = (detectScale u (leadText page kept)).note := by
  rcases h.phrase with ⟨hit, hphrase, hshut⟩
  rcases leadText_of_retold hretold with ⟨rest, hrest⟩
  rcases detectScale_of_shut (getLast?_leadText page kept) hphrase hshut rest with
    ⟨hscale, hnote⟩
  have hcurrency : ((currencyRe u).search (kept.2 ++ '\n' :: page'.text)).isSome = true := by
    have hstart : (kept.2 ++ ['\n']).getLast?.or none = some '\n' := by
      rw [List.getLast?_concat]
      rfl
    have howned := h.currency
    rw [ownText, Page.saying, List.append_cons] at howned
    rw [hretold.written, List.append_cons]
    exact currency_of_retold (fun _ => type_of_elsewhere) hretold.own_blocks hstart howned
  rw [tableScale, currency_detectScale, if_pos hcurrency, hrest]
  exact ⟨hscale, rfl, hnote⟩

theorem text_of_own (hwritten : page.Written) (hretold : page.Retold kept.1 page')
    (h : forall block, block ∈ page.blocks -> page.own kept.1 block = true) :
    page'.text = page.text := by
  have hsame : page'.blocks = page.blocks := by
    have hblocks := hretold.own_blocks
    generalize page'.blocks = blocks' at hblocks
    generalize page.blocks = blocks at hblocks h
    induction hblocks with
    | nil => rfl
    | cons hblock _ ih =>
        rw [List.forall_mem_cons] at h
        rw [hblock h.left, ih h.right]
  rw [hretold.written, hwritten, hsame]

/-- Behind text without a phrase, the first line elsewhere decides the scale. -/
theorem scale_saying {word : String} {c : Char} {tail : List Char}
    (helsewhere : exists block, block ∈ page.blocks ∧ page.own kept.1 block = false)
    (hnone : (scaleCore u).search (leadText page kept) = none)
    (hcons : word.toList = c :: tail) (hc : u.space c = false)
    (hlower : u.lower word.toList = word.toList)
    (hword : forall rest prev, (scaleWord u).first prev (word.toList ++ '\n' :: rest) =
      some ⟨word.toList, [word.toList], '\n' :: rest⟩) :
    (tableScale u (page.saying kept.1 ("in ".toList ++ word.toList)) kept.2).scale =
      some word.toList := by
  rcases leadText_saying helsewhere ("in ".toList ++ word.toList) with ⟨rest, hrest⟩
  rw [tableScale, hrest]
  exact scale_of_line (getLast?_leadText page kept) hnone hcons hc hlower rest (hword rest)

theorem lower_letters {word : String} (hletters : InLetters word)
    (h : word.toList.map Char.toLower = word.toList) : u.lower word.toList = word.toList := by
  rw [u.lower_ascii word.toList fun c hc => toNat_lt_of_isAlpha (hletters c hc), h]

theorem exists_phrase (helsewhere : exists block, block ∈ page.blocks ∧
    page.own kept.1 block = false)
    (h : forall line line', (tableScale u (page.saying kept.1 line) kept.2).scale =
      (tableScale u (page.saying kept.1 line') kept.2).scale) :
    exists hit, (scaleCore u).search (leadText page kept) = some hit := by
  by_contra hnone
  rw [not_exists] at hnone
  have hsearch : (scaleCore u).search (leadText page kept) = none :=
    Option.eq_none_iff_forall_ne_some.mpr hnone
  have hthousands := scale_saying helsewhere hsearch rfl (space_of_isAlpha (by decide))
    (lower_letters inLetters_thousands (by decide))
    fun rest prev => first_scaleWord_thousands prev rest
  have hmillions := scale_saying helsewhere hsearch rfl (space_of_isAlpha (by decide))
    (lower_letters inLetters_millions (by decide))
    fun rest prev => first_scaleWord_millions prev rest
  have hsame := h ("in ".toList ++ "thousands".toList) ("in ".toList ++ "millions".toList)
  rw [hthousands, hmillions] at hsame
  revert hsame
  decide

theorem noteOpen_eq_false (helsewhere : exists block, block ∈ page.blocks ∧
    page.own kept.1 block = false)
    (h : forall line line', (tableScale u (page.saying kept.1 line) kept.2).note.map clean =
      (tableScale u (page.saying kept.1 line') kept.2).note.map clean)
    {hit : Hit} (hphrase : (scaleCore u).search (leadText page kept) = some hit) :
    noteOpen u hit.rest = false := by
  by_contra hopen
  rw [Bool.not_eq_false] at hopen
  have hlast := getLast?_leadText page kept
  rcases leadText_saying helsewhere "except a".toList with ⟨rest, hrest⟩
  rcases leadText_saying helsewhere ['.'] with ⟨rest', hrest'⟩
  rcases note_of_stop hlast hphrase hopen ('\n' :: rest') with ⟨note, hnote, hcases⟩
  have hsame := h "except a".toList ['.']
  rw [tableScale, tableScale, hrest, hrest', note_of_except hlast hphrase hopen rest] at hsame
  have hstop : ['.'] ++ '\n' :: rest' = '.' :: '\n' :: rest' := rfl
  rw [hstop, hnote, Option.map_some, Option.map_some, Option.some.injEq, clean,
    List.filter_append, List.filter_append, clean, List.filter_append,
    List.append_cancel_left_eq] at hsame
  have hlength := congrArg List.length hsame
  have hletters : ("except a".toList.filter fun c => c != '\x00').length = 8 := by decide
  rw [List.length_append, hletters] at hlength
  rcases hcases with rfl | rfl
  · rw [List.filter_nil, List.length_nil] at hlength
    omega
  · omega

theorem currency_ownText (helsewhere : exists block, block ∈ page.blocks ∧
    page.own kept.1 block = false)
    (h : forall line line', (tableScale u (page.saying kept.1 line) kept.2).currency =
      (tableScale u (page.saying kept.1 line') kept.2).currency) :
    ((currencyRe u).search (ownText page kept)).isSome = true := by
  rcases leadText_saying helsewhere "USD".toList with ⟨rest, hrest⟩
  have hsame := h "USD".toList ['.']
  rw [tableScale, hrest, currency_detectScale,
    if_pos (search_currencyRe_line (getLast?_leadText page kept) rest), tableScale,
    currency_detectScale, ← ownText] at hsame
  by_contra hnone
  rw [if_neg hnone] at hsame
  cases hsame

end ScaleContext

/-- The units of a table stay when other text elsewhere on the page is replaced exactly if
there is no such text, or the text before it and the table's own text settle them. -/
theorem unitsOwn_iff (u : PyUnicode) (pageNum : Nat) (page : Page) (kept : Table × List Char)
    (hwritten : page.Written) (hkept : kept ∈ keptTables u page) :
    (forall page', page.Retold kept.1 page' ->
      SameUnits (tableChunk u pageNum page' kept) (tableChunk u pageNum page kept)) <->
      (forall block, block ∈ page.blocks -> page.own kept.1 block = true) ∨
        ScaleSettled u page kept := by
  have hfound : kept.1 ∈ page.tables.getD [] := (mem_keptTables.mp hkept).left
  constructor
  · intro h
    by_cases hown : forall block, block ∈ page.blocks -> page.own kept.1 block = true
    · exact .inl hown
    · right
      have helsewhere : exists block, block ∈ page.blocks ∧ page.own kept.1 block = false := by
        rw [not_forall] at hown
        rcases hown with ⟨block, hblock⟩
        rw [Classical.not_imp, Bool.not_eq_true] at hblock
        exact ⟨block, hblock⟩
      have hsaying (line : List Char) := sameUnits_iff.mp (h _ (retold_saying hfound line))
      rcases exists_phrase helsewhere fun line line' =>
        (hsaying line).left.trans (hsaying line').left.symm with ⟨hit, hphrase⟩
      constructor
      · refine ⟨hit, hphrase, ?_⟩
        apply noteOpen_eq_false helsewhere _ hphrase
        intro line line'
        exact (hsaying line).right.right.trans (hsaying line').right.right.symm
      · apply currency_ownText helsewhere
        intro line line'
        exact (hsaying line).right.left.trans (hsaying line').right.left.symm
  · intro h page' hretold
    rw [sameUnits_iff]
    rcases h with hown | hsettled
    · rw [tableScale, tableScale, text_of_own hwritten hretold hown]
      exact ⟨rfl, rfl, rfl⟩
    · rcases tableScale_of_settled hsettled hretold with ⟨hscale', hcurrency', hnote'⟩
      rcases tableScale_of_settled hsettled (retold_self hwritten hfound) with
        ⟨hscale, hcurrency, hnote⟩
      rw [hscale', hcurrency', hnote', hscale, hcurrency, hnote]
      exact ⟨rfl, rfl, rfl⟩

/-!
# Two tables on a page
-/

def lineBlock (y0 y1 : Rat) (line : String) : Block :=
  ⟨0, (0, y0, 100, y1), [[⟨line.toList, 0, (0, y0, 100, y1)⟩]]⟩

def captionedTable : Table := ⟨(0, 40, 100, 50), [[some ['2']]]⟩

def captionedPage (footnote : String) : Page where
  text := (footnote ++ "\n1\nin thousands\n2\n").toList
  blocks := [lineBlock 0 10 footnote, lineBlock 10 20 "1", lineBlock 30 40 "in thousands",
    lineBlock 40 50 "2"]
  tables := some [⟨(0, 10, 100, 20), [[some ['1']]]⟩, captionedTable]

def captioned : Table × List Char := (captionedTable, "| 2 |\n| --- |".toList)

theorem captionedPage_written (footnote : String) : (captionedPage footnote).Written := by
  rw [Page.Written, captionedPage]
  simp [lineBlock, Block.written, lineText]

theorem mem_keptTables_captioned (footnote : String) :
    captioned ∈ keptTables PyUnicode.ascii (captionedPage footnote) := by
  rw [mem_keptTables]
  refine ⟨List.mem_pair.mpr (.inr rfl), List.cons_ne_nil _ _, ?_⟩
  decide

/-- The scale of the table is that of the footnote, and another one without it. -/
theorem footnote_decides_scale :
    let page := captionedPage "in millions"
    (tableChunk PyUnicode.ascii 0 page captioned).unitScale = some "millions" ∧
      ¬ forall page', page.Retold captioned.1 page' ->
        SameUnits (tableChunk PyUnicode.ascii 0 page' captioned)
          (tableChunk PyUnicode.ascii 0 page captioned) := by
  intro page
  have hmillions : (tableScale PyUnicode.ascii page captioned.2).scale =
      some "millions".toList := by decide
  have hthousands : (tableScale PyUnicode.ascii (page.saying captioned.1 ['-'])
      captioned.2).scale = some "thousands".toList := by decide
  constructor
  · rw [tableChunk, hmillions]
    rfl
  · intro h
    have hfound : captioned.1 ∈ page.tables.getD [] := List.mem_pair.mpr (.inr rfl)
    have hsame := (sameUnits_iff.mp (h _ (retold_saying hfound ['-']))).left
    rw [hmillions, hthousands] at hsame
    revert hsame
    decide

theorem unitsOwn_iff_captioned :
    (forall page', (captionedPage "in millions").Retold captioned.1 page' ->
      SameUnits (tableChunk PyUnicode.ascii 0 page' captioned)
        (tableChunk PyUnicode.ascii 0 (captionedPage "in millions") captioned)) <->
      (forall block, block ∈ (captionedPage "in millions").blocks ->
        (captionedPage "in millions").own captioned.1 block = true) ∨
          ScaleSettled PyUnicode.ascii (captionedPage "in millions") captioned :=
  unitsOwn_iff PyUnicode.ascii 0 (captionedPage "in millions") captioned
    (captionedPage_written "in millions") (mem_keptTables_captioned "in millions")

end ChatDoc
