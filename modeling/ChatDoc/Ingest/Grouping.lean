import ChatDoc.Ingest.Chunker

/-!
# Windows and groups

`_split_prose` lays windows over a text, and the grouping loop of `chunk_pdf`
cuts the paragraphs of a page into groups under one header each.
-/

namespace ChatDoc

open Foundation

section Grouping

variable {u : PyUnicode}

theorem strip_eq_nil_iff {l : List Char} :
    u.strip l = [] <-> forall c, c ∈ l -> u.space c = true := by
  rw [PyText.strip, List.rdropWhile_eq_nil_iff]
  constructor
  · intro h c hc
    rw [← List.takeWhile_append_dropWhile (p := u.space) (l := l),
      List.mem_append] at hc
    rcases hc with hfront | hrest
    · exact List.mem_takeWhile_imp hfront
    · exact h c hrest
  · intro h c hc
    exact h c (List.dropWhile_suffix _ |>.mem hc)

theorem infix_strip (l : List Char) : u.strip l <:+: l :=
  (List.rdropWhile_prefix _ _).isInfix.trans (List.dropWhile_suffix _).isInfix

theorem visible_iff {l : List Char} :
    visible u l = true <-> exists c, c ∈ l ∧ u.space c = false := by
  rw [visible, bne_iff_ne, ne_eq, strip_eq_nil_iff]
  simp

theorem visible_of_infix {l l' : List Char} (h : l <:+: l') (hl : visible u l = true) :
    visible u l' = true := by
  rcases visible_iff.mp hl with ⟨c, hc, hspace⟩
  exact visible_iff.mpr ⟨c, h.mem hc, hspace⟩

/-- Windows over a text, in order, with every short range that has more than
white space in it inside one of them. -/
structure Windowed (u : PyUnicode) (text : List Char)
    (windows : List (Window text proseChunkChars)) : Prop where
  ordered : windows.Pairwise Window.Before
  holds : forall start stop, start ≤ stop -> stop ≤ text.length ->
    stop - start ≤ proseChunkOverlapChars -> visible u (text.extract start stop) = true ->
      exists w, w ∈ windows ∧ w.Holds start stop

theorem splitProse_windows (text : List Char) :
    exists windows, splitProse u text = windows.map Window.piece ∧
      Windowed u text windows := by
  rw [splitProse]
  split
  · rename_i hshort
    refine ⟨[Window.whole hshort], ?_, List.pairwise_singleton _ _, ?_⟩
    · rw [List.map_singleton, Window.piece_whole]
    · intro start stop _ hstop _ _
      exact ⟨Window.whole hshort, List.mem_singleton_self _, Nat.zero_le _, hstop⟩
  · have hstep : 0 < proseChunkChars - proseChunkOverlapChars := by decide
    rcases windowsOver_spec proseChunkChars (visible u) text hstep with
      ⟨windows, hpieces, hordered, hholds⟩
    refine ⟨windows, hpieces, hordered, ?_⟩
    intro start stop hle hstop hlength hvisible
    have hoverlap : proseChunkOverlapChars ≤ proseChunkChars := by decide
    apply hholds start stop
    · rcases visible_iff.mp hvisible with ⟨c, hc, _⟩
      have hpos := List.length_pos_of_mem hc
      rw [List.extract_eq_take_drop, List.length_take, List.length_drop] at hpos
      omega
    · exact hstop
    · omega
    · intro window hwindow
      exact visible_of_infix hwindow hvisible

/-- No text is cut in two, unless it is longer than what two windows share. -/
theorem splitProse_keeps_quotes (text : List Char) :
    exists windows : List (Window text proseChunkChars),
      splitProse u text = windows.map Window.piece ∧
        (forall w, w ∈ windows ->
          w.piece <:+: text ∧ w.piece.length ≤ proseChunkChars) ∧
        windows.Pairwise Window.Before ∧
        (forall start stop, start ≤ stop -> stop ≤ text.length ->
          stop - start ≤ proseChunkOverlapChars ->
            (exists c, c ∈ text.extract start stop ∧ u.space c = false) ->
              exists w, w ∈ windows ∧ w.start ≤ start ∧ stop ≤ w.stop) ∧
        (text.length ≤ proseChunkChars -> splitProse u text = [text]) := by
  rcases splitProse_windows (u := u) text with ⟨windows, hpieces, hwindowed⟩
  refine ⟨windows, hpieces, ?_, hwindowed.ordered, ?_, ?_⟩
  · intro w _
    exact ⟨w.infix_piece, w.length_piece⟩
  · intro start stop hle hstop hlength hvisible
    exact hwindowed.holds start stop hle hstop hlength (visible_iff.mpr hvisible)
  · intro hshort
    rw [splitProse, if_pos hshort]

/-!
# The smallest box
-/

def Bbox.Within (b box : Bbox) : Prop :=
  box.x0 ≤ b.x0 ∧ box.y0 ≤ b.y0 ∧ b.x1 ≤ box.x1 ∧ b.y1 ≤ box.y1

structure Bbox.Smallest (box : Bbox) (boxes : List Bbox) : Prop where
  within : forall b, b ∈ boxes -> b.Within box
  least : forall other, (forall b, b ∈ boxes -> Bbox.Within b other) -> box.Within other

theorem le_foldl_min_iff {first c : Rat} {rest : List Rat} :
    c ≤ rest.foldl min first <-> c ≤ first ∧ forall x, x ∈ rest -> c ≤ x := by
  induction rest generalizing first with
  | nil => simp
  | cons x rest ih =>
      rw [List.foldl_cons, ih, le_min_iff, List.forall_mem_cons, and_assoc]

theorem foldl_max_le_iff {first c : Rat} {rest : List Rat} :
    rest.foldl max first ≤ c <-> first ≤ c ∧ forall x, x ∈ rest -> x ≤ c := by
  induction rest generalizing first with
  | nil => simp
  | cons x rest ih =>
      rw [List.foldl_cons, ih, max_le_iff, List.forall_mem_cons, and_assoc]

theorem unionBbox_within_iff {first : Bbox} {rest : List Bbox} {box : Bbox} :
    (unionBbox first rest).Within box <->
      forall b, b ∈ first :: rest -> Bbox.Within b box := by
  have hmap (side : Bbox -> Rat) (q : Rat -> Prop) :
      (forall x, x ∈ rest.map side -> q x) <-> forall b, b ∈ rest -> q (side b) :=
    List.forall_mem_map
  rw [List.forall_mem_cons]
  change (_ ≤ List.foldl min _ _ ∧ _ ≤ List.foldl min _ _ ∧
    List.foldl max _ _ ≤ _ ∧ List.foldl max _ _ ≤ _) <-> _
  rw [le_foldl_min_iff, le_foldl_min_iff, foldl_max_le_iff, foldl_max_le_iff,
    hmap, hmap, hmap, hmap]
  constructor
  · intro h
    rcases h with ⟨⟨hx0, hx0'⟩, ⟨hy0, hy0'⟩, ⟨hx1, hx1'⟩, hy1, hy1'⟩
    exact ⟨⟨hx0, hy0, hx1, hy1⟩,
      fun b hb => ⟨hx0' b hb, hy0' b hb, hx1' b hb, hy1' b hb⟩⟩
  · intro h
    rcases h with ⟨⟨hx0, hy0, hx1, hy1⟩, hrest⟩
    exact ⟨⟨hx0, fun b hb => (hrest b hb).left⟩,
      ⟨hy0, fun b hb => (hrest b hb).right.left⟩,
      ⟨hx1, fun b hb => (hrest b hb).right.right.left⟩,
      hy1, fun b hb => (hrest b hb).right.right.right⟩

theorem within_rfl (b : Bbox) : b.Within b :=
  ⟨le_refl _, le_refl _, le_refl _, le_refl _⟩

theorem unionBbox_smallest (first : Bbox) (rest : List Bbox) :
    (unionBbox first rest).Smallest (first :: rest) where
  within := unionBbox_within_iff.mp (within_rfl _)
  least := fun _ h => unionBbox_within_iff.mpr h

/-!
# Groups of paragraphs
-/

/-- Consecutive paragraphs under one nearest header. -/
structure ProseGroup (headers : Headers) where
  first : Paragraph
  rest : List Paragraph
  header : Option HeaderText
  sameHeader : forall p, p ∈ first :: rest ->
    nearestHeader headers p.bbox.y0 = header

namespace ProseGroup

variable {headers : Headers} (g : ProseGroup headers)

def paragraphs : List Paragraph := g.first :: g.rest

def joined : List Char := ['\n'].intercalate (g.paragraphs.map Paragraph.text)

def bbox : Bbox := unionBbox g.first.bbox (g.rest.map Paragraph.bbox)

def chunks (u : PyUnicode) (pageNum : Nat) : List Chunk :=
  (splitProse u g.joined).map (proseChunk pageNum g.header g.bbox)

def single (headers : Headers) (p : Paragraph) : ProseGroup headers where
  first := p
  rest := []
  header := nearestHeader headers p.bbox.y0
  sameHeader := fun _ hq => congrArg (fun q : Paragraph => nearestHeader headers q.bbox.y0)
    (List.mem_singleton.mp hq)

def snoc (p : Paragraph) (h : nearestHeader headers p.bbox.y0 = g.header) :
    ProseGroup headers where
  first := g.first
  rest := g.rest ++ [p]
  header := g.header
  sameHeader := by
    intro q hq
    rw [← List.cons_append] at hq
    rcases List.mem_append.mp hq with hold | hnew
    · exact g.sameHeader q hold
    · rw [List.mem_singleton.mp hnew]
      exact h

theorem paragraphs_snoc (p : Paragraph) (h : nearestHeader headers p.bbox.y0 = g.header) :
    (g.snoc p h).paragraphs = g.paragraphs ++ [p] := rfl

end ProseGroup

/-!
# The grouping loop
-/

variable {headers : Headers}

def Holds (b : Buffers) : Option (ProseGroup headers) -> Prop
  | none => b.buf = [] ∧ b.bufBboxes = [] ∧ b.bufHeader = none
  | some g =>
      b.buf = g.paragraphs.map Paragraph.text ∧
        b.bufBboxes = g.paragraphs.map Paragraph.bbox ∧ b.bufHeader = g.header

theorem flush_none {b : Buffers} {pageNum : Nat}
    (h : Holds b (none : Option (ProseGroup headers))) : b.flush u pageNum = ([], b) := by
  rw [Buffers.flush, h.left]

theorem flush_some {b : Buffers} {pageNum : Nat} {g : ProseGroup headers}
    (h : Holds b (some g)) :
    b.flush u pageNum = (g.chunks u pageNum, Buffers.empty) := by
  rcases h with ⟨hbuf, hbboxes, hheader⟩
  rw [Buffers.flush, hbuf, hbboxes, hheader]
  rfl

theorem holds_empty (headers : Headers) :
    Holds Buffers.empty (none : Option (ProseGroup headers)) := ⟨rfl, rfl, rfl⟩

theorem push_none {b : Buffers} (h : Holds b (none : Option (ProseGroup headers)))
    (p : Paragraph) :
    Holds (b.push (nearestHeader headers p.bbox.y0) p)
      (some (ProseGroup.single headers p)) := by
  rcases h with ⟨hbuf, hbboxes, hheader⟩
  refine ⟨?_, ?_, ?_⟩
  · rw [Buffers.push, hbuf]
    rfl
  · rw [Buffers.push, hbboxes]
    rfl
  · rw [Buffers.push, hheader]
    rfl

theorem push_some {b : Buffers} {g : ProseGroup headers} (h : Holds b (some g))
    {p : Paragraph} (hheader : nearestHeader headers p.bbox.y0 = g.header) :
    Holds (b.push (nearestHeader headers p.bbox.y0) p) (some (g.snoc p hheader)) := by
  rcases h with ⟨hbuf, hbboxes, hbuffered⟩
  refine ⟨?_, ?_, ?_⟩
  · rw [Buffers.push, hbuf, ProseGroup.paragraphs_snoc, List.map_append]
    rfl
  · rw [Buffers.push, hbboxes, ProseGroup.paragraphs_snoc, List.map_append]
    rfl
  · rw [Buffers.push, hbuffered, hheader]
    cases hg : g.header with
    | none =>
        change none = g.header
        exact hg.symm
    | some _ =>
        change some _ = g.header
        exact hg.symm

theorem same_of_not_mustFlush {b : Buffers} {g : ProseGroup headers} (h : Holds b (some g))
    {header : Option HeaderText} {p : Paragraph} (hkeep : ¬ b.mustFlush header p = true) :
    header = g.header := by
  rcases h with ⟨hbuf, _, hbuffered⟩
  rw [Bool.not_eq_true, Buffers.mustFlush, hbuf, hbuffered, Bool.and_eq_false_iff,
    Bool.or_eq_false_iff, decide_eq_false_iff_not, decide_eq_false_iff_not, not_not] at hkeep
  rcases hkeep with hempty | hsame
  · cases hempty
  · exact hsame.right

theorem groupParagraphs_groups (pageNum : Nat) (paragraphs : List Paragraph)
    {b : Buffers} {held : Option (ProseGroup headers)} (h : Holds b held) :
    exists groups : List (ProseGroup headers),
      groups.flatMap ProseGroup.paragraphs =
        held.toList.flatMap ProseGroup.paragraphs ++ paragraphs ∧
      groupParagraphs u pageNum headers paragraphs b =
        groups.flatMap fun g => g.chunks u pageNum := by
  induction paragraphs generalizing b held with
  | nil =>
      refine ⟨held.toList, (List.append_nil _).symm, ?_⟩
      cases held with
      | none =>
          rw [groupParagraphs, flush_none h]
          rfl
      | some g =>
          rw [groupParagraphs, flush_some h]
          exact (List.flatMap_singleton _ _).symm
  | cons p paragraphs ih =>
      cases held with
      | none =>
          rcases ih (push_none h p) with ⟨groups, hflat, hchunks⟩
          refine ⟨groups, hflat, ?_⟩
          rw [groupParagraphs, flush_none h, ite_self]
          exact hchunks
      | some g =>
          rw [groupParagraphs, flush_some h]
          split
          · rcases ih (push_none (holds_empty headers) p) with ⟨groups, hflat, hchunks⟩
            refine ⟨g :: groups, ?_, ?_⟩
            · rw [List.flatMap_cons, hflat]
              simp [ProseGroup.single, ProseGroup.paragraphs]
            · rw [List.flatMap_cons, ← hchunks]
          · rename_i hkeep
            have hheader := same_of_not_mustFlush h hkeep
            rcases ih (push_some h hheader) with ⟨groups, hflat, hchunks⟩
            refine ⟨groups, ?_, hchunks⟩
            rw [hflat]
            simp [ProseGroup.paragraphs_snoc]

/-!
# What stands in a group's chunks
-/

theorem clean_append (l l' : List Char) : clean (l ++ l') = clean l ++ clean l' :=
  List.filter_append _ _

theorem headed_eq (header : Option HeaderText) (piece : List Char) :
    headed header piece = headed header [] ++ piece := by
  cases header with
  | none => rfl
  | some header => simp [headed]

theorem proseChunk_text (pageNum : Nat) (header : Option HeaderText) (bbox : Bbox)
    (piece : List Char) :
    (proseChunk pageNum header bbox piece).text.toList =
      clean (headed header []) ++ clean piece := by
  change (String.ofList (clean (headed header piece))).toList = _
  rw [String.toList_ofList, headed_eq, clean_append]

theorem mem_clean {text : List Char} {c : Char} :
    c ∈ clean text <-> c ∈ text ∧ c ≠ '\x00' := by
  rw [clean, List.mem_filter, bne_iff_ne]

theorem infix_singleton {text : List Char} {c : Char} (h : c ∈ text) : [c] <:+: text := by
  rcases List.append_of_mem h with ⟨pre, post, rfl⟩
  exact ⟨pre, post, by simp⟩

theorem length_clean_le (text : List Char) : (clean text).length ≤ text.length :=
  List.length_filter_le _ _

theorem intercalate_cons_cons (sep first second : List Char) (rest : List (List Char)) :
    sep.intercalate (first :: second :: rest) =
      first ++ (sep ++ sep.intercalate (second :: rest)) := by
  simp [List.intercalate, List.intersperse]

theorem infix_intercalate {sep text : List Char} {texts : List (List Char)}
    (h : text ∈ texts) : text <:+: sep.intercalate texts := by
  induction texts with
  | nil => cases h
  | cons first rest ih =>
      cases rest with
      | nil =>
          rw [List.mem_singleton.mp h]
          simp [List.intercalate]
      | cons second rest =>
          rw [intercalate_cons_cons]
          rcases List.mem_cons.mp h with rfl | hrest
          · exact (List.prefix_append _ _).isInfix
          · have htail := (List.suffix_append sep (sep.intercalate (second :: rest))).trans
              (List.suffix_append first _)
            exact (ih hrest).trans htail.isInfix

theorem joined_text_within {g : ProseGroup headers} {p : Paragraph} (h : p ∈ g.paragraphs) :
    p.text <:+: g.joined :=
  infix_intercalate (List.mem_map_of_mem h)

/-- A short piece of text with more than white space in it stands in some window. -/
theorem Windowed.exists_piece {text quote : List Char}
    {windows : List (Window text proseChunkChars)} (h : Windowed u text windows)
    (hquote : quote <:+: text) (hshort : quote.length ≤ proseChunkOverlapChars)
    (hvisible : visible u quote = true) :
    exists w, w ∈ windows ∧ quote <:+: w.piece := by
  rcases hquote with ⟨pre, post, rfl⟩
  have hextract : (pre ++ quote ++ post).extract pre.length
      (pre.length + quote.length) = quote := by
    rw [List.extract_eq_take_drop, List.append_assoc, List.drop_left,
      Nat.add_sub_cancel_left, List.take_left]
  rcases h.holds pre.length (pre.length + quote.length) (Nat.le_add_right _ _)
    (by rw [List.length_append, List.length_append]; omega) (by omega)
    (by rw [hextract]; exact hvisible) with ⟨w, hw, hholds⟩
  refine ⟨w, hw, ?_⟩
  have hpiece := hholds.within
  rw [hextract] at hpiece
  exact hpiece

/-- The prose chunks of a page come from a partition of its paragraphs into
consecutive groups. -/
theorem proseChunks_grouped (pageNum : Nat) (headers : Headers)
    (paragraphs : List Paragraph) :
    exists groups : List (ProseGroup headers),
      groups.flatMap ProseGroup.paragraphs = paragraphs ∧
      groupParagraphs u pageNum headers paragraphs Buffers.empty =
        groups.flatMap (fun g => g.chunks u pageNum) ∧
      forall g, g ∈ groups ->
        g.paragraphs ≠ [] ∧
        (forall p, p ∈ g.paragraphs -> nearestHeader headers p.bbox.y0 = g.header) ∧
        g.bbox.Smallest (g.paragraphs.map Paragraph.bbox) ∧
        exists windows : List (Window g.joined proseChunkChars),
          g.chunks u pageNum =
            windows.map (fun w => proseChunk pageNum g.header g.bbox w.piece) ∧
          (forall w, w ∈ windows ->
            (proseChunk pageNum g.header g.bbox w.piece).bbox = some g.bbox ∧
            (proseChunk pageNum g.header g.bbox w.piece).sectionHeader =
              g.header.map (fun header => String.ofList (clean header.val)) ∧
            (proseChunk pageNum g.header g.bbox w.piece).text.toList =
              clean (headed g.header []) ++ clean w.piece ∧
            (clean w.piece).length ≤ proseChunkChars) ∧
          (forall i, (hi : i < g.joined.length) -> u.space g.joined[i] = false ->
            exists w, w ∈ windows ∧ w.start ≤ i ∧ i < w.stop) ∧
          forall p, p ∈ g.paragraphs -> forall c, c ∈ p.text ->
            u.space c = false -> c ≠ '\x00' ->
              exists w, w ∈ windows ∧ c ∈ clean w.piece := by
  rcases groupParagraphs_groups (u := u) pageNum paragraphs
    (holds_empty headers) with ⟨groups, hflat, hchunks⟩
  refine ⟨groups, hflat, hchunks, ?_⟩
  intro g _
  refine ⟨List.cons_ne_nil _ _, g.sameHeader, unionBbox_smallest _ _, ?_⟩
  rcases splitProse_windows (u := u) g.joined with ⟨windows, hpieces, hwindowed⟩
  refine ⟨windows, ?_, ?_, ?_, ?_⟩
  · rw [ProseGroup.chunks, hpieces, List.map_map]
    rfl
  · intro w _
    exact ⟨rfl, rfl, proseChunk_text _ _ _ _,
      (length_clean_le _).trans w.length_piece⟩
  · intro i hi hspace
    have hextract : g.joined.extract i (i + 1) = [g.joined[i]] := by
      rw [List.extract_eq_take_drop, Nat.add_sub_cancel_left, List.drop_eq_getElem_cons hi,
        List.take_succ_cons, List.take_zero]
    apply hwindowed.holds i (i + 1) (Nat.le_succ i) hi
    · rw [Nat.add_sub_cancel_left]
      decide
    · rw [hextract]
      exact visible_iff.mpr ⟨_, List.mem_singleton_self _, hspace⟩
  · intro p hp c hc hspace hnul
    rcases hwindowed.exists_piece ((infix_singleton hc).trans (joined_text_within hp))
      (by change 1 ≤ 200; omega)
      (visible_iff.mpr ⟨c, List.mem_singleton_self c, hspace⟩) with ⟨w, hw, hpiece⟩
    exact ⟨w, hw, mem_clean.mpr ⟨hpiece.mem (List.mem_singleton_self c), hnul⟩⟩

end Grouping
end ChatDoc
