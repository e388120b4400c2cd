import ChatDoc.Foundation.Windows
import ChatDoc.Gate.Unicode
import ChatDoc.Service.World

/-!
# The chunker

`ingest/chunker.py`: what PyMuPDF finds on a page, and the table and prose
chunks that come out of it.
-/

namespace ChatDoc

open Foundation

def proseChunkChars : Nat := 1600

def proseChunkOverlapChars : Nat := 200

/-!
# Pages

What `page.get_text()`, `page.get_text("dict")` and `page.find_tables()` return.
-/

/-- A rectangle `(x0, y0, x1, y1)`. -/
abbrev Bbox := Rat × Rat × Rat × Rat

namespace Bbox

def x0 (b : Bbox) : Rat := b.1
def y0 (b : Bbox) : Rat := b.2.1
def x1 (b : Bbox) : Rat := b.2.2.1
def y1 (b : Bbox) : Rat := b.2.2.2

end Bbox

structure Span where
  text : List Char
  flags : Nat
  bbox : Bbox
deriving DecidableEq

/-- The type of a text block is 0. -/
structure Block where
  type : Nat
  bbox : Bbox
  lines : List (List Span)
deriving DecidableEq

/-- A detected table with the rows that `table.extract()` returns. -/
structure Table where
  bbox : Bbox
  rows : List (List (Option (List Char)))
deriving DecidableEq

/-- There are no tables where `find_tables` raises. -/
structure Page where
  text : List Char
  blocks : List Block
  tables : Option (List Table)
deriving DecidableEq

namespace Block

def spans (block : Block) : List Span := block.lines.flatten

end Block

def clean (text : List Char) : List Char := text.filter fun c => c != '\x00'

section Chunker

variable (u : PyUnicode)

/-!
# Scale footnotes
-/

/-- A word of an expression under `re.IGNORECASE`. -/
def ignoringCase (word : String) : Regex := .literal u.sameLetter word.toList

def wordBoundary : Regex := .assertion (.boundary u.word)

/-- `in\s+(thousands|millions|billions)\b`. -/
def scaleCore : Regex :=
  .seq (ignoringCase u "in")
    (.seq (.many u.space 1 none)
      (.seq
        (.group (.alt (ignoringCase u "thousands")
          (.alt (ignoringCase u "millions") (ignoringCase u "billions"))))
        (wordBoundary u)))

/-- `\s*,?\s*except\s+([^.\n]{0,80})`. -/
def exceptPart : Regex :=
  .seq (.many u.space 0 none)
    (.seq (.maybe (.one fun c => c == ','))
      (.seq (.many u.space 0 none)
        (.seq (ignoringCase u "except")
          (.seq (.many u.space 1 none)
            (.group (.many (fun c => c != '.' && c != '\n') 0 (some 80)))))))

/-- `_SCALE_RE`. -/
def scaleRe : Regex := .seq (scaleCore u) (.maybe (exceptPart u))

/-- `_CURRENCY_RE`. -/
def currencyRe : Regex :=
  .seq (wordBoundary u)
    (.seq
      (.group (.alt (ignoringCase u "USD")
        (.alt (.seq (ignoringCase u "US") (.one fun c => c == '$'))
          (.seq (ignoringCase u "U")
            (.seq (.one fun c => c == '.')
              (.seq (ignoringCase u "S")
                (.seq (.one fun c => c == '.')
                  (.seq (.many u.space 0 none) (ignoringCase u "dollars")))))))))
      (wordBoundary u))

structure Scale where
  scale : Option (List Char)
  currency : Option (List Char)
  note : Option (List Char)
deriving DecidableEq

def detectScale (text : List Char) : Scale where
  scale := ((scaleRe u).search text).bind fun m => m.groups.head?.map u.lower
  currency := if ((currencyRe u).search text).isSome then some "USD".toList else none
  note := ((scaleRe u).search text).map Hit.taken

/-!
# Tables
-/

def tableCell (c : Option (List Char)) : List Char :=
  (u.strip (c.getD [])).map fun ch => if ch = '\n' then ' ' else ch

def markdownRow (cells : List (List Char)) : List Char :=
  "| ".toList ++ " | ".toList.intercalate cells ++ " |".toList

def tableToMarkdown (table : Table) : List Char :=
  match table.rows with
  | [] => []
  | header :: rows =>
      ['\n'].intercalate
        (markdownRow (header.map (tableCell u)) ::
          markdownRow (header.map fun _ => "---".toList) ::
            rows.map fun row => markdownRow (row.map (tableCell u)))

/-!
# Section headers
-/

abbrev HeaderText := { text : List Char // text ≠ [] }

abbrev Headers := List (Rat × HeaderText)

def boldFlag : Nat := 1 <<< 4

def spanHeader (span : Span) : Option (Rat × HeaderText) :=
  let text := u.strip span.text
  if h : text ≠ [] then
    if 100 < text.length then none
    else if span.flags &&& boldFlag = 0 then none
    else if text = "Table of Contents".toList || text.all u.digit then none
    else some (span.bbox.y0, ⟨text, h⟩)
  else none

def extractHeaders (page : Page) : Headers :=
  page.blocks.flatMap fun block =>
    if block.type = 0 then block.spans.filterMap (spanHeader u) else []

/-- The loop keeps the lowest heading at or above `y`, the first of several. -/
def nearestHeader (headers : Headers) (y : Rat) : Option HeaderText :=
  (headers.foldl
    (fun (best : Rat × Option HeaderText) header =>
      if header.1 ≤ y ∧ best.1 < header.1 then (header.1, some header.2) else best)
    (-1, none)).2

/-!
# Prose
-/

structure Paragraph where
  text : List Char
  bbox : Bbox
deriving DecidableEq

def Bbox.overlaps (b t : Bbox) : Bool :=
  !(b.x1 < t.x0 || b.x0 > t.x1 || b.y1 < t.y0 || b.y0 > t.y1)

/-- The spans' texts, one to a line, without white space around them. -/
def Block.text (block : Block) : List Char :=
  u.strip (['\n'].intercalate (block.spans.map Span.text))

def proseParagraphs (page : Page) (tableBboxes : List Bbox) : List Paragraph :=
  page.blocks.filterMap fun block =>
    if block.type ≠ 0 then none
    else if tableBboxes.any block.bbox.overlaps then none
    else if block.text u = [] then none
    else some { text := block.text u, bbox := block.bbox }

def visible (window : List Char) : Bool := u.strip window != []

def splitProse (text : List Char) : List (List Char) :=
  if text.length ≤ proseChunkChars then [text]
  else
    windowsOver proseChunkChars (proseChunkChars - proseChunkOverlapChars) (visible u)
      text

def headed (header : Option HeaderText) (piece : List Char) : List Char :=
  match header with
  | some header => header.val ++ "\n\n".toList ++ piece
  | none => piece

def cleanString (text : List Char) : String := String.ofList (clean text)

def cleanHeader (header : Option HeaderText) : Option String :=
  header.map fun header => cleanString header.val

def proseChunk (pageNum : Nat) (header : Option HeaderText) (bbox : Bbox)
    (piece : List Char) : Chunk where
  pageNum := pageNum
  chunkType := .prose
  text := cleanString (headed header piece)
  sectionHeader := cleanHeader header
  unitScale := none
  unitCurrency := none
  unitNote := none
  bbox := some bbox

def unionBbox (first : Bbox) (rest : List Bbox) : Bbox :=
  ((rest.map Bbox.x0).foldl min first.x0, (rest.map Bbox.y0).foldl min first.y0,
    (rest.map Bbox.x1).foldl max first.x1, (rest.map Bbox.y1).foldl max first.y1)

structure Buffers where
  buf : List (List Char)
  bufLen : Nat
  bufHeader : Option HeaderText
  bufBboxes : List Bbox

namespace Buffers

def empty : Buffers := ⟨[], 0, none, []⟩

/-- `flush`; the buffers of texts and of rectangles are filled together. -/
def flush (pageNum : Nat) (b : Buffers) : List Chunk × Buffers :=
  match b.buf, b.bufBboxes with
  | _ :: _, first :: rest =>
      ((splitProse u (['\n'].intercalate b.buf)).map
        (proseChunk pageNum b.bufHeader (unionBbox first rest)), empty)
  | _, _ => ([], b)

def push (b : Buffers) (header : Option HeaderText) (p : Paragraph) : Buffers where
  buf := b.buf ++ [p.text]
  bufLen := b.bufLen + p.text.length
  bufHeader := b.bufHeader.or header
  bufBboxes := b.bufBboxes ++ [p.bbox]

def mustFlush (b : Buffers) (header : Option HeaderText) (p : Paragraph) : Bool :=
  b.buf != [] && (decide (proseChunkChars < b.bufLen + p.text.length) ||
    decide (header ≠ b.bufHeader))

end Buffers

/-- The loop over the paragraphs, with the last flush after it. -/
def groupParagraphs (pageNum : Nat) (headers : Headers) :
    List Paragraph -> Buffers -> List Chunk
  | [], b => (b.flush u pageNum).1
  | p :: rest, b =>
      let header := nearestHeader headers p.bbox.y0
      let flushed := if b.mustFlush header p then b.flush u pageNum else ([], b)
      flushed.1 ++ groupParagraphs pageNum headers rest (flushed.2.push header p)

/-!
# `chunk_pdf`
-/

def keptTables (page : Page) : List (Table × List Char) :=
  (page.tables.getD []).filterMap fun table =>
    let md := tableToMarkdown u table
    if u.strip md = [] then none else some (table, md)

def tableBboxes (page : Page) : List Bbox :=
  (keptTables u page).map fun kept => kept.1.bbox

def tableScale (page : Page) (md : List Char) : Scale :=
  detectScale u (md ++ '\n' :: page.text)

def tableChunk (pageNum : Nat) (page : Page) (kept : Table × List Char) : Chunk :=
  let scale := tableScale u page kept.2
  let header := nearestHeader (extractHeaders u page) kept.1.bbox.y0
  { pageNum := pageNum
    chunkType := .table
    text := cleanString (headed header kept.2)
    sectionHeader := cleanHeader header
    unitScale := scale.scale.map String.ofList
    unitCurrency := scale.currency.map String.ofList
    unitNote := scale.note.map cleanString
    bbox := some kept.1.bbox }

def proseChunks (pageNum : Nat) (page : Page) : List Chunk :=
  groupParagraphs u pageNum (extractHeaders u page)
    (proseParagraphs u page (tableBboxes u page)) Buffers.empty

def pageChunks (pageNum : Nat) (page : Page) : List Chunk :=
  (keptTables u page).map (tableChunk u pageNum page) ++ proseChunks u pageNum page

def Page.content (pageNum : Nat) (page : Page) : PageContent where
  hasText := visible u page.text
  chunks := pageChunks u pageNum page

def readPdf (pages : List Page) : Pdf where
  pages := pages.mapIdx fun pageNum page => page.content u pageNum

/-!
# Pages of chunks
-/

variable {u}

theorem pageNum_flush {pageNum : Nat} {b : Buffers} {chunk : Chunk}
    (h : chunk ∈ (b.flush u pageNum).1) : chunk.pageNum = pageNum := by
  unfold Buffers.flush at h
  split at h
  · rcases List.mem_map.mp h with ⟨piece, _, rfl⟩
    rfl
  · cases h

theorem pageNum_groupParagraphs {pageNum : Nat} {headers : Headers}
    {paragraphs : List Paragraph} {b : Buffers} {chunk : Chunk}
    (h : chunk ∈ groupParagraphs u pageNum headers paragraphs b) :
    chunk.pageNum = pageNum := by
  induction paragraphs generalizing b with
  | nil => exact pageNum_flush h
  | cons p rest ih =>
      rcases List.mem_append.mp h with hflushed | hrest
      · split at hflushed
        · exact pageNum_flush hflushed
        · cases hflushed
      · exact ih hrest

theorem pageNum_pageChunks {pageNum : Nat} {page : Page} {chunk : Chunk}
    (h : chunk ∈ pageChunks u pageNum page) : chunk.pageNum = pageNum := by
  rcases List.mem_append.mp h with htable | hprose
  · rcases List.mem_map.mp htable with ⟨kept, _, rfl⟩
    rfl
  · exact pageNum_groupParagraphs hprose

end Chunker
end ChatDoc
