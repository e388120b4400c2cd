import ChatDoc.Foundation.Integer
import ChatDoc.Foundation.Separated
import ChatDoc.Service.Retrieval

/-!
# The framing of the excerpts

What the context of `eval/prompt.py` says about the chunks it was built from.  The texts
stand in it as they are, with the delimiters around them.
-/

namespace ChatDoc

open Foundation

/-!
# The delimiters
-/

def idLabel : List Char := "<excerpt id=".toList

def pageLabel : List Char := " page=".toList

def excerptHead (chunkId pageNum : Int) : List Char :=
  idLabel ++ '"' :: (intText chunkId ++ '"' :: (pageLabel ++
    '"' :: (intText pageNum ++ '"' :: ['>', '\n'])))

def closingTag : List Char := "</excerpt>".toList

def excerptClosing : List Char := '\n' :: closingTag

def excerptBoundary (chunkId pageNum : Int) : List Char :=
  excerptClosing ++ '\n' :: '\n' :: excerptHead chunkId pageNum

def RetrievedChunk.excerpt (c : RetrievedChunk) : List Char :=
  excerptHead c.chunkId c.pageNum ++ (c.text.toList ++ excerptClosing)

def RetrievedChunk.shown (c : RetrievedChunk) : Int × Int × String :=
  (c.chunkId, c.pageNum, c.text)

def contextText : List RetrievedChunk -> List Char
  | [] => []
  | [c] => c.excerpt
  | c :: rest => c.excerpt ++ '\n' :: '\n' :: contextText rest

theorem excerpt_eq (c : RetrievedChunk) :
    ("<excerpt id=\"" ++ toString c.chunkId ++ "\" page=\"" ++ toString c.pageNum ++
      "\">\n" ++ c.text ++ "\n</excerpt>").toList = c.excerpt := by
  have hid : "<excerpt id=\"".toList = idLabel ++ ['"'] := rfl
  have hpage : "\" page=\"".toList = '"' :: (pageLabel ++ ['"']) := rfl
  have hend : "\">\n".toList = ['"', '>', '\n'] := rfl
  have hclosing : "\n</excerpt>".toList = excerptClosing := rfl
  rw [toString_int, toString_int, RetrievedChunk.excerpt, excerptHead]
  simp only [String.toList_append, String.toList_ofList, hid, hpage, hend, hclosing,
    List.append_assoc, List.cons_append, List.nil_append]

theorem intercalate_excerpts (chunks : List RetrievedChunk) :
    ['\n', '\n'].intercalate (chunks.map RetrievedChunk.excerpt) = contextText chunks := by
  induction chunks with
  | nil => rfl
  | cons c rest ih =>
      cases rest with
      | nil => simp [contextText]
      | cons c' rest =>
          rw [List.map_cons, List.map_cons, List.intercalate_cons_cons, ← List.map_cons, ih,
            List.append_assoc]
          rfl

theorem buildContext_toList (chunks : List RetrievedChunk) :
    (buildContext chunks).toList = contextText chunks := by
  have hblank : "\n\n".toList = ['\n', '\n'] := rfl
  rw [buildContext, String.toList_intercalate, List.map_map, hblank, ← intercalate_excerpts]
  congr 1
  exact List.map_congr_left fun c _ => excerpt_eq c

theorem quote_notMem_intText (n : Int) : '"' ∉ intText n := by
  intro h
  rcases mem_intText h with hsign | hdigit
  · exact absurd hsign (by decide)
  · exact absurd hdigit (by decide)

theorem excerptHead_append (id page : Int) (u : List Char) :
    excerptHead id page ++ u = idLabel ++ '"' :: (intText id ++ '"' :: (pageLabel ++
      '"' :: (intText page ++ '"' :: '>' :: '\n' :: u))) := by
  simp [excerptHead]

theorem excerptHead_unique {id id' page page' : Int} {u v : List Char}
    (h : excerptHead id page ++ u = excerptHead id' page' ++ v) :
    id = id' ∧ page = page' ∧ u = v := by
  rw [excerptHead_append, excerptHead_append] at h
  have hafter := List.tail_eq_of_cons_eq (List.append_cancel_left h)
  rcases field_unique_of_notMem (quote_notMem_intText id) (quote_notMem_intText id') hafter with
    ⟨hid, hrest⟩
  have hpages := List.tail_eq_of_cons_eq (List.append_cancel_left hrest)
  rcases field_unique_of_notMem (quote_notMem_intText page) (quote_notMem_intText page')
    hpages with ⟨hpage, hend⟩
  exact ⟨intText_injective hid, intText_injective hpage,
    List.tail_eq_of_cons_eq (List.tail_eq_of_cons_eq hend)⟩

/-!
# Reading the context
-/

def contextRest : List RetrievedChunk -> List Char
  | [] => []
  | rest => '\n' :: '\n' :: contextText rest

theorem contextText_cons (c : RetrievedChunk) (rest : List RetrievedChunk) :
    contextText (c :: rest) = excerptHead c.chunkId c.pageNum ++
      (c.text.toList ++ (excerptClosing ++ contextRest rest)) := by
  cases rest with
  | nil => rw [contextRest, List.append_nil, contextText, RetrievedChunk.excerpt]
  | cons d rest =>
      have hrest : contextRest (d :: rest) = '\n' :: '\n' :: contextText (d :: rest) := rfl
      rw [hrest, contextText, RetrievedChunk.excerpt, List.append_assoc, List.append_assoc]
      nofun

theorem contextText_cons_ne_nil (c : RetrievedChunk) (rest : List RetrievedChunk) :
    contextText (c :: rest) ≠ [] := by
  rw [contextText_cons, excerptHead_append]
  exact List.append_ne_nil_of_right_ne_nil _ (List.cons_ne_nil _ _)

theorem contextRest_inj {rest others : List RetrievedChunk}
    (h : contextRest rest = contextRest others) : contextText rest = contextText others := by
  cases rest with
  | nil =>
      cases others with
      | nil => rfl
      | cons d others => cases h
  | cons c rest =>
      cases others with
      | nil => cases h
      | cons d others => exact List.tail_eq_of_cons_eq (List.tail_eq_of_cons_eq h)

theorem contextText_cons_inj {c d : RetrievedChunk} {rest others : List RetrievedChunk}
    (h : contextText (c :: rest) = contextText (d :: others)) :
    c.chunkId = d.chunkId ∧ c.pageNum = d.pageNum ∧
      c.text.toList ++ (excerptClosing ++ contextRest rest) =
        d.text.toList ++ (excerptClosing ++ contextRest others) := by
  rw [contextText_cons, contextText_cons] at h
  exact excerptHead_unique h

theorem contextRest_cons (c : RetrievedChunk) (rest : List RetrievedChunk) :
    excerptClosing ++ contextRest (c :: rest) = excerptBoundary c.chunkId c.pageNum ++
      (c.text.toList ++ (excerptClosing ++ contextRest rest)) := by
  have hrest : contextRest (c :: rest) = '\n' :: '\n' :: contextText (c :: rest) := rfl
  rw [hrest, contextText_cons, excerptBoundary, List.append_assoc, List.cons_append,
    List.cons_append]

theorem exists_before_closing (c : RetrievedChunk) (rest : List RetrievedChunk) :
    exists before, c.text.toList ++ (excerptClosing ++ contextRest rest) =
      before ++ excerptClosing := by
  induction rest generalizing c with
  | nil => exact ⟨c.text.toList, by rw [contextRest, List.append_nil]⟩
  | cons d rest ih =>
      rcases ih d with ⟨before, hbefore⟩
      refine ⟨c.text.toList ++ (excerptBoundary d.chunkId d.pageNum ++ before), ?_⟩
      rw [contextRest_cons, hbefore, List.append_assoc, List.append_assoc]

theorem buildContext_merge (c d : RetrievedChunk) (rest : List RetrievedChunk) :
    buildContext ({ c with text := String.ofList (c.text.toList ++
      (excerptBoundary d.chunkId d.pageNum ++ d.text.toList)) } :: rest) =
      buildContext (c :: d :: rest) := by
  rw [← String.toList_inj, buildContext_toList, buildContext_toList, contextText_cons,
    contextText_cons, contextRest_cons, String.toList_ofList, List.append_assoc,
    List.append_assoc]

/-!
# Which contexts can be read back
-/

def Unambiguous (chunks : List RetrievedChunk) : Prop :=
  forall others, buildContext others = buildContext chunks ->
    others.map RetrievedChunk.shown = chunks.map RetrievedChunk.shown

def HasBoundary (text : String) : Prop :=
  exists chunkId pageNum, excerptBoundary chunkId pageNum <:+: text.toList

def RetrievedChunk.ClosesOnce (c : RetrievedChunk) : Prop :=
  forall front back, c.excerpt = front ++ (excerptClosing ++ back) -> back = []

/-- The end of an excerpt occurs in the text, or is completed by the line break before. -/
def EndsExcerpt (text : String) : Prop := excerptClosing <:+: '\n' :: text.toList

theorem newline_notMem_closingTag : '\n' ∉ closingTag := by decide

theorem no_boundary_of_unambiguous {chunks : List RetrievedChunk} (h : Unambiguous chunks) :
    chunks.length <= 1 ∧ forall c, c ∈ chunks -> ¬ HasBoundary c.text := by
  cases chunks with
  | nil => exact ⟨Nat.zero_le 1, fun c hc => absurd hc List.not_mem_nil⟩
  | cons c rest =>
      cases rest with
      | cons d rest =>
          have hsame := congrArg List.length (h _ (buildContext_merge c d rest))
          simp at hsame
      | nil =>
          refine ⟨Nat.le_refl 1, ?_⟩
          intro c' hc' ⟨chunkId, pageNum, front, back, hboundary⟩
          rw [List.mem_singleton.mp hc', List.append_assoc] at hboundary
          have hsplit := buildContext_merge { c with text := String.ofList front }
            { c with chunkId := chunkId, pageNum := pageNum, text := String.ofList back } []
          simp only [String.toList_ofList, hboundary, String.ofList_toList] at hsplit
          have hsame := congrArg List.length (h _ hsplit.symm)
          simp at hsame

theorem unambiguous_of_no_boundary {chunks : List RetrievedChunk} (hone : chunks.length <= 1)
    (htexts : forall c, c ∈ chunks -> ¬ HasBoundary c.text) : Unambiguous chunks := by
  intro others h
  rw [← String.toList_inj, buildContext_toList, buildContext_toList] at h
  rcases chunks with _ | ⟨c, _ | ⟨d, rest⟩⟩
  · cases others with
    | nil => rfl
    | cons d others => exact absurd h (contextText_cons_ne_nil d others)
  · cases others with
    | nil => exact absurd h.symm (contextText_cons_ne_nil c [])
    | cons d others =>
        rcases contextText_cons_inj h.symm with ⟨hid, hpage, htail⟩
        rw [contextRest, List.append_nil] at htail
        cases others with
        | nil =>
            rw [contextRest, List.append_nil, List.append_cancel_right_eq,
              String.toList_inj] at htail
            simp [RetrievedChunk.shown, hid, hpage, htail]
        | cons e others =>
            rcases exists_before_closing e others with ⟨before, hbefore⟩
            rw [contextRest_cons, hbefore, ← List.append_assoc, ← List.append_assoc,
              List.append_cancel_right_eq] at htail
            exact absurd ⟨e.chunkId, e.pageNum, d.text.toList, before, htail.symm⟩
              (htexts c List.mem_cons_self)
  · simp at hone

theorem closesOnce_iff (c : RetrievedChunk) : c.ClosesOnce <-> ¬ EndsExcerpt c.text := by
  have hhead : exists head, '\n' ∉ head ∧
      excerptHead c.chunkId c.pageNum = head ++ ['\n'] := by
    refine ⟨idLabel ++ '"' :: (intText c.chunkId ++ '"' :: (pageLabel ++
      '"' :: (intText c.pageNum ++ '"' :: ['>']))), ?_, ?_⟩
    · have hnumber : forall n, '\n' ∉ intText n := by
        intro n hn
        rcases mem_intText hn with hsign | hdigit
        · exact absurd hsign (by decide)
        · exact absurd hdigit (by decide)
      have hid : '\n' ∉ idLabel := by decide
      have hpage : '\n' ∉ pageLabel := by decide
      simp [hnumber, hid, hpage]
    · simp [excerptHead]
  rcases hhead with ⟨head, hline, hhead⟩
  have hexcerpt : c.excerpt = head ++ '\n' :: c.text.toList ++ excerptClosing := by
    rw [RetrievedChunk.excerpt, hhead, List.append_assoc, List.append_assoc]
    rfl
  constructor
  · rintro honce ⟨front, back, hends⟩
    have hback := honce (head ++ front) (back ++ excerptClosing) (by
      rw [hexcerpt, ← hends]
      simp only [List.append_assoc])
    exact absurd (List.append_eq_nil_iff.mp hback).right (List.cons_ne_nil _ _)
  · intro hends front back hsplit
    have hnone : ¬ excerptClosing <:+: head ++ '\n' :: c.text.toList :=
      fun hin => hends (marker_infix_append hline hin)
    rw [hexcerpt, ← List.append_nil excerptClosing] at hsplit
    have hlength := marker_after newline_notMem_closingTag hnone hsplit.symm
    have htotal := congrArg List.length hsplit
    simp only [List.length_append, List.length_nil] at htotal hlength
    apply List.eq_nil_of_length_eq_zero
    omega

theorem shown_of_no_closing {chunks others : List RetrievedChunk}
    (hchunks : forall c, c ∈ chunks -> ¬ EndsExcerpt c.text)
    (hothers : forall c, c ∈ others -> ¬ EndsExcerpt c.text)
    (h : contextText others = contextText chunks) :
    others.map RetrievedChunk.shown = chunks.map RetrievedChunk.shown := by
  have hclosed : forall c : RetrievedChunk, ¬ EndsExcerpt c.text ->
      ¬ excerptClosing <:+: c.text.toList :=
    fun c hc hin => hc (hin.trans (List.suffix_cons '\n' c.text.toList).isInfix)
  induction chunks generalizing others with
  | nil =>
      cases others with
      | nil => rfl
      | cons d others => exact absurd h (contextText_cons_ne_nil d others)
  | cons c rest ih =>
      cases others with
      | nil => exact absurd h.symm (contextText_cons_ne_nil c rest)
      | cons d others =>
          rcases contextText_cons_inj h with ⟨hid, hpage, htail⟩
          rcases marker_unique newline_notMem_closingTag
            (hclosed d (hothers d List.mem_cons_self))
            (hclosed c (hchunks c List.mem_cons_self)) htail with ⟨htext, hrest⟩
          have hmore := ih (fun e he => hchunks e (List.mem_cons_of_mem c he))
            (fun e he => hothers e (List.mem_cons_of_mem d he)) (contextRest_inj hrest)
          rw [List.map_cons, List.map_cons, hmore]
          simp [RetrievedChunk.shown, hid, hpage, String.toList_inj.mp htext]

/-- What the delimiters achieve.  A context is that of its chunks alone exactly if there is
one at most, without a boundary in its text; an excerpt ends at its own end exactly if its
text has none; and between lists whose texts have no such end the framing is unambiguous. -/
theorem context_unambiguous_iff (chunks : List RetrievedChunk) :
    (Unambiguous chunks <->
      chunks.length <= 1 ∧ forall c, c ∈ chunks -> ¬ HasBoundary c.text) ∧
    (forall c, c ∈ chunks -> (c.ClosesOnce <-> ¬ EndsExcerpt c.text)) ∧
    forall others : List RetrievedChunk,
      (forall c, c ∈ chunks -> ¬ EndsExcerpt c.text) ->
      (forall c, c ∈ others -> ¬ EndsExcerpt c.text) ->
      buildContext others = buildContext chunks ->
        others.map RetrievedChunk.shown = chunks.map RetrievedChunk.shown := by
  refine ⟨⟨no_boundary_of_unambiguous, fun h => unambiguous_of_no_boundary h.left h.right⟩,
    fun c _ => closesOnce_iff c, ?_⟩
  intro others hchunks hothers h
  rw [← String.toList_inj, buildContext_toList, buildContext_toList] at h
  exact shown_of_no_closing hchunks hothers h

def plainChunk (chunkId pageNum : Int) (text : String) : RetrievedChunk :=
  ⟨chunkId, pageNum, text, none, none, none, none, none⟩

/-- A text of one chunk that looks like two excerpts. -/
theorem two_excerpts_in_one :
    buildContext [plainChunk 1 0 "a\n</excerpt>\n\n<excerpt id=\"2\" page=\"0\">\nb"] =
      buildContext [plainChunk 1 0 "a", plainChunk 2 0 "b"] ∧
    [plainChunk 1 0 "a\n</excerpt>\n\n<excerpt id=\"2\" page=\"0\">\nb"].map
      RetrievedChunk.shown ≠
      [plainChunk 1 0 "a", plainChunk 2 0 "b"].map RetrievedChunk.shown := by
  constructor
  · have htext : "a\n</excerpt>\n\n<excerpt id=\"2\" page=\"0\">\nb" =
        String.ofList ("a".toList ++ (excerptBoundary 2 0 ++ "b".toList)) := by
      rw [← String.toList_inj, String.toList_ofList]
      rfl
    rw [htext]
    exact buildContext_merge (plainChunk 1 0 "a") (plainChunk 2 0 "b") []
  · intro hsame
    have hlength := congrArg List.length hsame
    cases hlength

end ChatDoc
