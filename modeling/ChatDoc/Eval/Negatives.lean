import ChatDoc.Eval.Ingestion
import ChatDoc.Eval.Runner
import ChatDoc.Eval.Temporal
import ChatDoc.Ingest.Emptiness

/-!
# Unanswerable questions

`build_n1`, `build_n0` and `main` of `eval/build_negatives.py`, and what the runner serves
for the lines that they write.  The same directory of PDFs is read by the builder, page
by page, and later by the chunker.
-/

namespace ChatDoc

open Foundation

abbrev Library := String -> Option (List Page)

/-- `page_texts`. -/
def pageTexts (library : Library) (docName : String) : Option (List String) :=
  (library docName).map fun pages => pages.map fun page => String.ofList page.text

/-- A line of `answerable.jsonl`, with the pages of its evidence. -/
structure EvidencedRecord extends AnswerableRecord where
  evidence : List Int
deriving DecidableEq

/-!
# Ablated evidence
-/

structure N1Item where
  tier : String
  financebenchId : String
  question : String
  goldValue : Rat
  goldIsPercent : Bool
  servedDocName : String
  ablatedPages : List Int
  expected : String

structure N1State where
  kept : List N1Item
  dropped : Nat

section N1

variable (u : PyText) (library : Library) (r : EvidencedRecord)

def n1Item : N1Item where
  tier := "N1"
  financebenchId := r.financebenchId
  question := r.question
  goldValue := r.goldValue
  goldIsPercent := r.goldIsPercent
  servedDocName := r.docName
  ablatedPages := r.evidence.dedup.mergeSort
  expected := "unanswerable"

def n1Turn (st : N1State) : Except Exn N1State :=
  match pageTexts library r.docName with
  | none => .ok st
  | some pages => do
      if ← leaksElsewhere u (.finite r.goldValue) pages r.evidence then
        return { st with dropped := st.dropped + 1 }
      else return { st with kept := st.kept ++ [n1Item r] }

def buildN1 (records : List EvidencedRecord) : Except Exn (List N1Item × Nat) := do
  let st ← records.foldlM (fun st r => n1Turn u library r st) ⟨[], 0⟩
  return (st.kept, st.dropped)

end N1

/-!
# Wrong companies
-/

structure N0Item where
  tier : String
  financebenchId : String
  question : String
  goldValue : Rat
  goldIsPercent : Bool
  servedDocName : String
  correctDocName : String
  expected : String

structure N0State where
  draws : Nat
  items : List N0Item

section N0

variable (rng : SeededChoices) (docInfo : DocInfoTable) (r : AnswerableRecord)

/-- `sorted({info["company"] for info in doc_info.values()})`. -/
def companies : List String :=
  (docInfo.entries.map fun entry => entry.2.company).dedup.mergeSort fun a b => decide (a <= b)

def otherCompanies : List String :=
  (companies docInfo).filter fun c => c ≠ r.company

def sortedDocs (company : String) : List String :=
  (docInfo.byCompany company).mergeSort fun a b => decide (a <= b)

def n0Item (servedDoc : String) : N0Item where
  tier := "N0"
  financebenchId := r.financebenchId
  question := r.question
  goldValue := r.goldValue
  goldIsPercent := r.goldIsPercent
  servedDocName := servedDoc
  correctDocName := r.docName
  expected := "unanswerable"

/-- What `rng.choice` raises for a sequence without elements. -/
def emptyChoice : Exn := .exception "Cannot choose from an empty sequence"

def n0Turn (st : N0State) : Except Exn N0State :=
  if h : otherCompanies docInfo r = [] then .error emptyChoice
  else
    let wrongCompany := rng.choice st.draws (otherCompanies docInfo r) h
    if h' : sortedDocs docInfo wrongCompany = [] then .error emptyChoice
    else
      let servedDoc := rng.choice (st.draws + 1) (sortedDocs docInfo wrongCompany) h'
      .ok ⟨st.draws + 2, st.items ++ [n0Item r servedDoc]⟩

def buildN0 (records : List AnswerableRecord) : Except Exn (List N0Item) := do
  let st ← records.foldlM (fun st r => n0Turn rng docInfo r st) ⟨0, []⟩
  return st.items

end N0

/-!
# `main`
-/

def DocInfoTable.restrict (docInfo : DocInfoTable) (p : String -> Bool) : DocInfoTable where
  entries := docInfo.entries.filter fun entry => p entry.1
  distinct := docInfo.distinct.sublist (List.filter_sublist.map Prod.fst)

structure Negatives where
  n1 : List N1Item
  n1Dropped : Nat
  n2 : List N2Item
  n2Dropped : Nat
  n0 : List N0Item
  n3 : List EvalRecord

def N1Item.line (item : N1Item) : EvalRecord where
  financebenchId := item.financebenchId
  question := item.question
  docName := none
  servedDocName := some item.servedDocName
  ablatedPages := some item.ablatedPages
  tier := some item.tier
  goldValue := some (.finite item.goldValue)

def N2Item.line (item : N2Item) : EvalRecord where
  financebenchId := item.financebenchId
  question := item.question
  docName := none
  servedDocName := some item.servedDocName
  ablatedPages := none
  tier := some item.tier
  goldValue := some (.finite item.goldValue)

def N0Item.line (item : N0Item) : EvalRecord where
  financebenchId := item.financebenchId
  question := item.question
  docName := none
  servedDocName := some item.servedDocName
  ablatedPages := none
  tier := some item.tier
  goldValue := some (.finite item.goldValue)

namespace Negatives

/-- The lines of `negatives.jsonl`. -/
def lines (built : Negatives) : List EvalRecord :=
  built.n1.map N1Item.line ++ built.n2.map N2Item.line ++ built.n0.map N0Item.line ++ built.n3

def tierLines (built : Negatives) : Split -> List EvalRecord
  | .answerable => []
  | .n0 => built.n0.map N0Item.line
  | .n1 => built.n1.map N1Item.line
  | .n2 => built.n2.map N2Item.line
  | .n3 => built.n3

end Negatives

/-- The rest of `negatives_manifest.json` is the hash of the lines and a note. -/
structure NegativesManifest where
  counts : Split -> Nat
  droppedN1 : Nat
  droppedN2 : Nat
  total : Nat

def Negatives.manifest (built : Negatives) : NegativesManifest where
  counts
    | .answerable => 0
    | .n0 => built.n0.length
    | .n1 => built.n1.length
    | .n2 => built.n2.length
    | .n3 => built.n3.length
  droppedN1 := built.n1Dropped
  droppedN2 := built.n2Dropped
  total := built.lines.length

/-- `main`, with the random draws of `build_n2` and those of `build_n0`, and the lines of
`n3_false_premise.jsonl`. -/
def buildNegatives (u : PyText) (rng rng' : SeededChoices) (library : Library)
    (allDocInfo : DocInfoTable) (records : List EvidencedRecord) (n3 : List EvalRecord) :
    Except Exn Negatives :=
  let docInfo := allDocInfo.restrict fun name => (library name).isSome
  let plain := records.map EvidencedRecord.toAnswerableRecord
  if records.countP (fun r => (library r.docName).isSome) = 0 then
    -- `raise SystemExit(1)`
    .error (.exception "1")
  else do
    let (n1, n1Dropped) ← buildN1 u library records
    let (n2, n2Dropped) ← buildN2 u rng (pageTexts library) docInfo plain
    let n0 ← buildN0 rng' docInfo plain
    return ⟨n1, n1Dropped, n2, n2Dropped, n0, n3⟩

/-!
# What is kept
-/

/-- The spellings of the gold value that are searched stand on no page that is left. -/
def Absent (u : PyText) (goldValue : Rat) (pages : List Page) (excludedPages : List Int) :
    Prop :=
  forall variants, goldFigureVariants (.finite goldValue) = .ok variants ->
    forall (i : Nat) (page : Page), pages[i]? = some page -> (i : Int) ∉ excludedPages ->
      forall v, v ∈ variants -> ¬ exists pre post, Bounded u v page.text pre post

def N1Item.MadeOf (u : PyText) (library : Library) (r : EvidencedRecord) (item : N1Item) :
    Prop :=
  item = n1Item r ∧
    exists pages, library r.docName = some pages ∧ Absent u r.goldValue pages r.evidence

def N2Item.MadeOf (u : PyText) (library : Library) (docInfo : DocInfoTable)
    (r : AnswerableRecord) (item : N2Item) : Prop :=
  exists d p q, item = n2Item r d p q ∧ d ∈ sortedCandidates docInfo r ∧
    exists pages, library d = some pages ∧ Absent u r.goldValue pages []

def N0Item.MadeOf (docInfo : DocInfoTable) (r : AnswerableRecord) (item : N0Item) : Prop :=
  exists d, item = n0Item r d ∧
    exists info, docInfo.find d = some info ∧ info.company ≠ r.company

section Kept

variable {u : PyText} {library : Library} {docInfo : DocInfoTable} {rng : SeededChoices}

theorem pageTexts_eq_some {docName : String} {texts : List String}
    (h : pageTexts library docName = some texts) :
    exists pages, library docName = some pages ∧
      texts = pages.map fun page => String.ofList page.text := by
  rcases Option.map_eq_some_iff.mp h with ⟨pages, hpages, htexts⟩
  exact ⟨pages, hpages, htexts.symm⟩

theorem absent_of_kept {goldValue : Rat} {pages : List Page} {excludedPages : List Int}
    (h : leaksElsewhere u (.finite goldValue)
      (pages.map fun page => String.ofList page.text) excludedPages = .ok false) :
    Absent u goldValue pages excludedPages := by
  intro variants hvariants i page hpage hleft v hv
  have htext : (pages.map fun page => String.ofList page.text)[i]? =
      some (String.ofList page.text) := by
    rw [List.getElem?_map, hpage]
    rfl
  have hnone := not_bounded_of_kept hvariants (List.ne_nil_of_mem hv) h htext hleft hv
  rw [String.toList_ofList] at hnone
  exact hnone

theorem mem_buildN1 {records : List EvidencedRecord} {kept : List N1Item} {dropped : Nat}
    (h : buildN1 u library records = .ok (kept, dropped)) {item : N1Item}
    (hitem : item ∈ kept) : exists r, r ∈ records ∧ item.MadeOf u library r := by
  rcases bind_eq_ok.mp h with ⟨st, hst, hend⟩
  cases hend
  refine mem_of_foldlM N1State.kept (fun r item => item.MadeOf u library r) rfl ?_ hst hitem
  intro st r st' _ hturn item hitem
  unfold n1Turn at hturn
  split at hturn
  · cases hturn
    exact .inl hitem
  · next texts htexts =>
      rcases pageTexts_eq_some htexts with ⟨pages, hpages, rfl⟩
      rcases bind_eq_ok.mp hturn with ⟨leaks, hleaks, hrest⟩
      cases leaks with
      | true =>
          cases hrest
          exact .inl hitem
      | false =>
          cases hrest
          rcases List.mem_append.mp hitem with hold | hnew
          · exact .inl hold
          · exact .inr ⟨List.mem_singleton.mp hnew, pages, hpages, absent_of_kept hleaks⟩

theorem mem_buildN2 {records : List AnswerableRecord} {kept : List N2Item} {dropped : Nat}
    (h : buildN2 u rng (pageTexts library) docInfo records = .ok (kept, dropped))
    {item : N2Item} (hitem : item ∈ kept) :
    exists r, r ∈ records ∧ item.MadeOf u library docInfo r := by
  rcases bind_eq_ok.mp h with ⟨st, hst, hend⟩
  cases hend
  refine mem_of_foldlM N2State.kept (fun r item => item.MadeOf u library docInfo r) rfl ?_ hst
    hitem
  intro st r st' _ hturn item hitem
  unfold n2Turn at hturn
  split at hturn
  · cases hturn
    exact .inl hitem
  · next hsome =>
      dsimp only at hturn
      split at hturn
      · cases hturn
        exact .inl hitem
      · next texts htexts =>
          rcases pageTexts_eq_some htexts with ⟨pages, hpages, rfl⟩
          rcases bind_eq_ok.mp hturn with ⟨leaks, hleaks, hrest⟩
          cases leaks with
          | true =>
              cases hrest
              exact .inl hitem
          | false =>
              rcases bind_eq_ok.mp hrest with ⟨p, _, hrest⟩
              rcases bind_eq_ok.mp hrest with ⟨q, _, hrest⟩
              cases hrest
              rcases List.mem_append.mp hitem with hold | hnew
              · exact .inl hold
              · exact .inr ⟨_, p, q, List.mem_singleton.mp hnew, choice_mem rng _ _, pages,
                  hpages, absent_of_kept hleaks⟩

theorem mem_sortedDocs {company docName : String} :
    docName ∈ sortedDocs docInfo company <->
      exists info, docInfo.find docName = some info ∧ info.company = company := by
  rw [sortedDocs, List.mem_mergeSort, DocInfoTable.mem_byCompany]

theorem mem_buildN0 {records : List AnswerableRecord} {items : List N0Item}
    (h : buildN0 rng docInfo records = .ok items) {item : N0Item} (hitem : item ∈ items) :
    exists r, r ∈ records ∧ item.MadeOf docInfo r := by
  rcases bind_eq_ok.mp h with ⟨st, hst, hend⟩
  cases hend
  refine mem_of_foldlM N0State.items (fun r item => item.MadeOf docInfo r) rfl ?_ hst hitem
  intro st r st' _ hturn item hitem
  unfold n0Turn at hturn
  split at hturn
  · cases hturn
  · next hothers =>
      dsimp only at hturn
      split at hturn
      · cases hturn
      · next hdocs =>
          cases hturn
          rcases List.mem_append.mp hitem with hold | hnew
          · exact .inl hold
          · rcases mem_sortedDocs.mp (choice_mem rng (st.draws + 1) hdocs) with
              ⟨info, hfind, hcompany⟩
            have hother : rng.choice st.draws _ hothers ≠ r.company :=
              of_decide_eq_true (List.mem_filter.mp (choice_mem rng st.draws hothers)).2
            rw [← hcompany] at hother
            exact .inr ⟨_, List.mem_singleton.mp hnew, info, hfind, hother⟩

theorem find_restrict {p : String -> Bool} {name : String} {info : DocInfo}
    (h : (docInfo.restrict p).find name = some info) :
    docInfo.find name = some info ∧ p name = true := by
  rcases List.mem_filter.mp ((lookup_eq_some_iff_mem (docInfo.restrict p).distinct).mp h) with
    ⟨hin, hp⟩
  exact ⟨(lookup_eq_some_iff_mem docInfo.distinct).mpr hin, hp⟩

end Kept

/-!
# Reading the lines back
-/

section Loading

variable {u : PyUnicode} {split other : Split} {lines : List EvalRecord}

def Tagged (u : PyUnicode) (split : Split) (lines : List EvalRecord) : Prop :=
  forall n, n ∈ lines -> exists tier, n.tier = some tier ∧
    u.lower tier.toList = split.name.toList

def inSplit (u : PyUnicode) (split : Split) (n : EvalRecord) : Bool :=
  n.tier.any fun tier => u.lower tier.toList == split.name.toList

theorem tagged_map {item : Type} {line : item -> EvalRecord} {tier : item -> String}
    {items : List item} (hline : forall x, (line x).tier = some (tier x))
    {name : String} (hname : name.toList.map Char.toLower = split.name.toList)
    (hascii : (name.toList.all fun c => decide (c.toNat < 128)) = true)
    (htier : forall x, x ∈ items -> tier x = name) : Tagged u split (items.map line) := by
  intro n hn
  rcases List.mem_map.mp hn with ⟨x, hx, rfl⟩
  refine ⟨name, ?_, ?_⟩
  · rw [hline, htier x hx]
  · have hlow (c : Char) (hc : c ∈ name.toList) : c.toNat < 128 :=
      of_decide_eq_true (List.all_eq_true.mp hascii c hc)
    rw [u.lower_ascii _ hlow]
    exact hname

theorem filter_tagged (h : Tagged u split lines) : lines.filter (inSplit u split) = lines := by
  rw [List.filter_eq_self]
  intro n hn
  rcases h n hn with ⟨tier, htier, hlower⟩
  rw [inSplit, htier, Option.any_some, hlower]
  exact beq_self_eq_true _

theorem filter_tagged_other (h : Tagged u other lines)
    (hne : other.name.toList ≠ split.name.toList) : lines.filter (inSplit u split) = [] := by
  rw [List.filter_eq_nil_iff]
  intro n hn
  rcases h n hn with ⟨tier, htier, hlower⟩
  rw [inSplit, htier, Option.any_some, hlower, beq_iff_eq]
  exact hne

theorem loadSplit_built {built : Negatives} {d : Dataset} (hd : d.negatives = built.lines)
    (h1 : Tagged u .n1 (built.n1.map N1Item.line)) (h2 : Tagged u .n2 (built.n2.map N2Item.line))
    (h0 : Tagged u .n0 (built.n0.map N0Item.line)) (h3 : Tagged u .n3 built.n3)
    (hsplit : split ≠ .answerable) :
    loadSplit u.toPyText d split = .ok (built.tierLines split) := by
  have htagged {n : EvalRecord} (hn : n ∈ built.lines) :
      exists tier, n.tier = some tier := by
    unfold Negatives.lines at hn
    simp only [List.mem_append] at hn
    rcases hn with ((hn | hn) | hn) | hn
    · rcases h1 n hn with ⟨tier, htier, _⟩
      exact ⟨tier, htier⟩
    · rcases h2 n hn with ⟨tier, htier, _⟩
      exact ⟨tier, htier⟩
    · rcases h0 n hn with ⟨tier, htier, _⟩
      exact ⟨tier, htier⟩
    · rcases h3 n hn with ⟨tier, htier, _⟩
      exact ⟨tier, htier⟩
  have hload : loadSplit u.toPyText d split =
      .ok (built.lines.filter (inSplit u split)) := by
    cases split
    case answerable => exact absurd rfl hsplit
    all_goals
      unfold loadSplit
      rw [hd]
      apply filterM_eq_ok
      intro n hn
      rcases htagged hn with ⟨tier, htier⟩
      rw [inSplit, htier]
      rfl
  rw [hload]
  unfold Negatives.lines
  rw [List.filter_append, List.filter_append, List.filter_append]
  cases split with
  | answerable => exact absurd rfl hsplit
  | n0 =>
      rw [filter_tagged_other h1 (by decide), filter_tagged_other h2 (by decide),
        filter_tagged h0, filter_tagged_other h3 (by decide)]
      simp [Negatives.tierLines]
  | n1 =>
      rw [filter_tagged h1, filter_tagged_other h2 (by decide),
        filter_tagged_other h0 (by decide), filter_tagged_other h3 (by decide)]
      simp [Negatives.tierLines]
  | n2 =>
      rw [filter_tagged_other h1 (by decide), filter_tagged h2,
        filter_tagged_other h0 (by decide), filter_tagged_other h3 (by decide)]
      simp [Negatives.tierLines]
  | n3 =>
      rw [filter_tagged_other h1 (by decide), filter_tagged_other h2 (by decide),
        filter_tagged_other h0 (by decide), filter_tagged h3]
      simp [Negatives.tierLines]

end Loading

/-!
# What the runner serves
-/

/-- No chunk of an excluded page is ingested. -/
theorem pageNum_of_sequence {u : PyUnicode} {c : IngestCall} {pages : List Page}
    {chunk : Chunk} (h : chunk ∈ c.sequence (readPdf u pages)) :
    (chunk.pageNum : Int) ∉ c.excludedPages := by
  rcases mem_chunkPages.mp h with ⟨i, content, hcontent, hwalked, hchunk⟩
  rw [readPdf, List.getElem?_mapIdx, Option.map_eq_some_iff] at hcontent
  rcases hcontent with ⟨page, _, rfl⟩
  rw [pageNum_pageChunks hchunk]
  rw [Nat.zero_add] at hwalked
  exact of_decide_eq_false hwalked

structure Served (u : PyUnicode) (library : Library) (allDocInfo : DocInfoTable)
    (split : Split) (record : EvalRecord) (r : EvidencedRecord) : Prop where
  financebenchId : record.financebenchId = r.financebenchId
  question : record.question = r.question
  goldValue : record.goldValue = some (.finite r.goldValue)
  served : exists docName excludedPages pages,
    servedDocAndExclusions record split = .ok (docName, excludedPages) ∧
      library docName = some pages ∧
        match split with
        | .n1 => docName = r.docName ∧ Absent u.toPyText r.goldValue pages excludedPages ∧
            forall chunk,
              chunk ∈ IngestCall.sequence ⟨docName, excludedPages⟩ (readPdf u pages) ->
                (chunk.pageNum : Int) ∉ r.evidence
        | .n2 => docName ≠ r.docName ∧ Absent u.toPyText r.goldValue pages [] ∧
            excludedPages = [] ∧
              exists info, allDocInfo.find docName = some info ∧ info.company = r.company
        | .n0 => excludedPages = [] ∧
            exists info, allDocInfo.find docName = some info ∧ info.company ≠ r.company
        | _ => False

section Serving

variable {u : PyUnicode} {library : Library} {allDocInfo : DocInfoTable} {r : EvidencedRecord}

theorem served_n1 {item : N1Item} (h : item.MadeOf u.toPyText library r) :
    Served u library allDocInfo .n1 item.line r := by
  rcases h with ⟨rfl, pages, hpages, habsent⟩
  have hpage (p : Int) : p ∈ r.evidence.dedup.mergeSort <-> p ∈ r.evidence := by
    rw [List.mem_mergeSort, List.mem_dedup]
  refine ⟨rfl, rfl, rfl, r.docName, _, pages, rfl, hpages, rfl, ?_, ?_⟩
  · intro variants hvariants i page hi hleft
    exact habsent variants hvariants i page hi (mt (hpage _).mpr hleft)
  · intro chunk hchunk hin
    exact pageNum_of_sequence hchunk ((hpage _).mpr hin)

theorem served_n2 {item : N2Item} {p : String -> Bool}
    (h : item.MadeOf u.toPyText library (allDocInfo.restrict p) r.toAnswerableRecord) :
    Served u library allDocInfo .n2 item.line r := by
  rcases h with ⟨d, _, _, rfl, hd, pages, hpages, habsent⟩
  rcases mem_sortedCandidates.mp hd with ⟨⟨info, hfind, hcompany⟩, hne⟩
  exact ⟨rfl, rfl, rfl, d, [], pages, rfl, hpages, hne, habsent, rfl, info,
    (find_restrict hfind).left, hcompany⟩

theorem served_n0 {item : N0Item}
    (h : item.MadeOf (allDocInfo.restrict fun name => (library name).isSome)
      r.toAnswerableRecord) :
    Served u library allDocInfo .n0 item.line r := by
  rcases h with ⟨d, rfl, info, hfind, hcompany⟩
  rcases find_restrict hfind with ⟨hfind, hthere⟩
  rcases Option.isSome_iff_exists.mp hthere with ⟨pages, hpages⟩
  exact ⟨rfl, rfl, rfl, d, [], pages, rfl, hpages, rfl, info, hfind, hcompany⟩

end Serving

/-- The lines of the three generated tiers are read back for their splits, and each is
served as its tier says, from a file that is there. -/
theorem negatives_served {u : PyUnicode} {rng rng' : SeededChoices} {library : Library}
    {allDocInfo : DocInfoTable} {records : List EvidencedRecord} {n3 : List EvalRecord}
    {built : Negatives} {d : Dataset} (hn3 : Tagged u .n3 n3)
    (hbuilt : buildNegatives u.toPyText rng rng' library allDocInfo records n3 = .ok built)
    (hd : d.negatives = built.lines) :
    forall split, split ≠ .answerable ->
      loadSplit u.toPyText d split = .ok (built.tierLines split) ∧
        (built.tierLines split).length = built.manifest.counts split ∧
          (split ≠ .n3 -> forall record, record ∈ built.tierLines split ->
            exists r, r ∈ records ∧ Served u library allDocInfo split record r) := by
  unfold buildNegatives at hbuilt
  dsimp only at hbuilt
  split at hbuilt
  · cases hbuilt
  rcases bind_eq_ok.mp hbuilt with ⟨⟨n1, n1Dropped⟩, hn1, hbuilt⟩
  rcases bind_eq_ok.mp hbuilt with ⟨⟨n2, n2Dropped⟩, hn2, hbuilt⟩
  rcases bind_eq_ok.mp hbuilt with ⟨n0, hn0, hbuilt⟩
  cases hbuilt
  have hplain {r : AnswerableRecord}
      (hr : r ∈ records.map EvidencedRecord.toAnswerableRecord) :
      exists r', r' ∈ records ∧ r'.toAnswerableRecord = r := List.mem_map.mp hr
  have hserved1 {item : N1Item} (hitem : item ∈ n1) :
      item.tier = "N1" ∧
        exists r, r ∈ records ∧ Served u library allDocInfo .n1 item.line r := by
    rcases mem_buildN1 hn1 hitem with ⟨r, hr, hmade⟩
    have htier : item.tier = "N1" := by
      rw [hmade.left]
      rfl
    exact ⟨htier, r, hr, served_n1 hmade⟩
  have hserved2 {item : N2Item} (hitem : item ∈ n2) :
      item.tier = "N2" ∧
        exists r, r ∈ records ∧ Served u library allDocInfo .n2 item.line r := by
    rcases mem_buildN2 hn2 hitem with ⟨r, hr, hmade⟩
    rcases hplain hr with ⟨r', hr', rfl⟩
    have htier : item.tier = "N2" := by
      rcases hmade with ⟨_, _, _, rfl, _⟩
      rfl
    exact ⟨htier, r', hr', served_n2 hmade⟩
  have hserved0 {item : N0Item} (hitem : item ∈ n0) :
      item.tier = "N0" ∧
        exists r, r ∈ records ∧ Served u library allDocInfo .n0 item.line r := by
    rcases mem_buildN0 hn0 hitem with ⟨r, hr, hmade⟩
    rcases hplain hr with ⟨r', hr', rfl⟩
    have htier : item.tier = "N0" := by
      rcases hmade with ⟨_, rfl, _⟩
      rfl
    exact ⟨htier, r', hr', served_n0 hmade⟩
  intro split hsplit
  refine ⟨?_, ?_, ?_⟩
  · apply loadSplit_built hd _ _ _ hn3 hsplit
    · exact tagged_map (fun _ => rfl) (by decide) (by decide) fun _ h => (hserved1 h).left
    · exact tagged_map (fun _ => rfl) (by decide) (by decide) fun _ h => (hserved2 h).left
    · exact tagged_map (fun _ => rfl) (by decide) (by decide) fun _ h => (hserved0 h).left
  · cases split with
    | answerable => exact absurd rfl hsplit
    | n0 => exact List.length_map _
    | n1 => exact List.length_map _
    | n2 => exact List.length_map _
    | n3 => rfl
  · intro hnot record hrecord
    cases split with
    | answerable => exact absurd rfl hsplit
    | n0 =>
        rcases List.mem_map.mp hrecord with ⟨item, hitem, rfl⟩
        exact (hserved0 hitem).right
    | n1 =>
        rcases List.mem_map.mp hrecord with ⟨item, hitem, rfl⟩
        exact (hserved1 hitem).right
    | n2 =>
        rcases List.mem_map.mp hrecord with ⟨item, hitem, rfl⟩
        exact (hserved2 hitem).right
    | n3 => exact absurd rfl hnot

/-!
# Three filings
-/

def filings (docName : String) : Option (List Page) :=
  if docName = "PEPSICO_2022_10K" then
    some [⟨"Net income 1,577".toList, [], none⟩, ⟨"Risk factors".toList, [], none⟩]
  else if docName = "PEPSICO_2021_10K" then some [⟨"Net income 1,320".toList, [], none⟩]
  else if docName = "PFIZER_2021_10K" then some [⟨"Net income 5,727".toList, [], none⟩]
  else none

def filingsTable : DocInfoTable where
  entries :=
    [("PEPSICO_2022_10K", ⟨"PepsiCo", 2022⟩), ("PEPSICO_2021_10K", ⟨"PepsiCo", 2021⟩),
      ("PFIZER_2021_10K", ⟨"Pfizer", 2021⟩)]
  distinct := by decide

def filingsRecord : EvidencedRecord where
  financebenchId := "financebench_id_00882"
  question := "q"
  docName := "PEPSICO_2022_10K"
  company := "PepsiCo"
  goldValue := 1577
  goldIsPercent := false
  evidence := [0]

def falsePremise : EvalRecord where
  financebenchId := "n3_001"
  question := "q"
  docName := none
  servedDocName := some "PEPSICO_2022_10K"
  ablatedPages := none
  tier := some "N3"
  goldValue := none

def filingsBuilt : Negatives :=
  ⟨[n1Item filingsRecord], 0,
    [n2Item filingsRecord.toAnswerableRecord "PEPSICO_2021_10K" 2021 2022], 0,
    [n0Item filingsRecord.toAnswerableRecord "PFIZER_2021_10K"], [falsePremise]⟩

theorem buildN1_filings :
    buildN1 .ascii filings [filingsRecord] = .ok ([n1Item filingsRecord], 0) := by
  have hleaks : leaksElsewhere .ascii (.finite 1577) ["Net income 1,577", "Risk factors"] [0] =
      .ok false := by decide +kernel
  have hturn : n1Turn .ascii filings filingsRecord ⟨[], 0⟩ =
      .ok ⟨[n1Item filingsRecord], 0⟩ :=
    bind_eq_ok.mpr ⟨false, hleaks, rfl⟩
  exact bind_eq_ok.mpr ⟨_, bind_eq_ok.mpr ⟨_, hturn, rfl⟩, rfl⟩

theorem buildN2_filings :
    buildN2 .ascii (drawsAt 0) (pageTexts filings) filingsTable
        [filingsRecord.toAnswerableRecord] =
      .ok ([n2Item filingsRecord.toAnswerableRecord "PEPSICO_2021_10K" 2021 2022], 0) := by
  have hleaks : leaksElsewhere .ascii (.finite 1577) ["Net income 1,320"] [] = .ok false := by
    decide +kernel
  have hnone : n2Candidates filingsTable filingsRecord.toAnswerableRecord ≠ [] := by decide
  have hsorted : (sortedCandidates filingsTable filingsRecord.toAnswerableRecord)[0]? =
      some "PEPSICO_2021_10K" := by
    have hcandidates : n2Candidates filingsTable filingsRecord.toAnswerableRecord =
        ["PEPSICO_2021_10K"] := by decide
    rw [sortedCandidates, hcandidates, List.mergeSort_singleton]
    rfl
  have hturn : n2Turn .ascii (drawsAt 0) (pageTexts filings) filingsTable
      filingsRecord.toAnswerableRecord ⟨0, [], 0⟩ = .ok
        ⟨1, [n2Item filingsRecord.toAnswerableRecord "PEPSICO_2021_10K" 2021 2022], 0⟩ := by
    rw [n2Turn, dif_neg hnone, choice_drawsAt (sortedCandidates_ne_nil hnone) hsorted]
    exact bind_eq_ok.mpr ⟨false, hleaks, rfl⟩
  exact bind_eq_ok.mpr ⟨_, bind_eq_ok.mpr ⟨_, hturn, rfl⟩, rfl⟩

theorem buildN0_filings :
    buildN0 (drawsAt 0) filingsTable [filingsRecord.toAnswerableRecord] =
      .ok [n0Item filingsRecord.toAnswerableRecord "PFIZER_2021_10K"] := by
  have hcompanies : companies filingsTable = ["PepsiCo", "Pfizer"] := by
    have hdedup : (filingsTable.entries.map fun entry => entry.2.company).dedup =
        ["PepsiCo", "Pfizer"] := by decide
    rw [companies, hdedup]
    exact List.mergeSort_of_pairwise (by decide)
  have hothers : otherCompanies filingsTable filingsRecord.toAnswerableRecord = ["Pfizer"] := by
    rw [otherCompanies, hcompanies]
    decide
  have hsome : otherCompanies filingsTable filingsRecord.toAnswerableRecord ≠ [] := by
    rw [hothers]
    decide
  have hother : (otherCompanies filingsTable filingsRecord.toAnswerableRecord)[0]? =
      some "Pfizer" := by
    rw [hothers]
    rfl
  have hdocs : sortedDocs filingsTable "Pfizer" = ["PFIZER_2021_10K"] := by
    have hcompany : filingsTable.byCompany "Pfizer" = ["PFIZER_2021_10K"] := by decide
    rw [sortedDocs, hcompany, List.mergeSort_singleton]
  have hserved : sortedDocs filingsTable "Pfizer" ≠ [] := by
    rw [hdocs]
    decide
  have hfirst : (sortedDocs filingsTable "Pfizer")[0]? = some "PFIZER_2021_10K" := by
    rw [hdocs]
    rfl
  have hturn : n0Turn (drawsAt 0) filingsTable filingsRecord.toAnswerableRecord ⟨0, []⟩ =
      .ok ⟨2, [n0Item filingsRecord.toAnswerableRecord "PFIZER_2021_10K"]⟩ := by
    rw [n0Turn, dif_neg hsome]
    dsimp only
    rw [choice_drawsAt hsome hother, dif_neg hserved, choice_drawsAt hserved hfirst]
    rfl
  exact bind_eq_ok.mpr ⟨_, bind_eq_ok.mpr ⟨_, hturn, rfl⟩, rfl⟩

theorem negatives_served_filings :
    filingsBuilt.manifest.total = 4 ∧
      (forall split, split ≠ .answerable ->
        loadSplit .ascii ⟨[], filingsBuilt.lines⟩ split = .ok (filingsBuilt.tierLines split) ∧
          (filingsBuilt.tierLines split).length = 1) ∧
      forall split, split ≠ .answerable -> split ≠ .n3 ->
        forall record, record ∈ filingsBuilt.tierLines split ->
          Served .ascii filings filingsTable split record filingsRecord := by
  have hbuilt : buildNegatives .ascii (drawsAt 0) (drawsAt 0) filings filingsTable
      [filingsRecord] [falsePremise] = .ok filingsBuilt := by
    exact bind_eq_ok.mpr ⟨_, buildN1_filings, bind_eq_ok.mpr ⟨_, buildN2_filings,
      bind_eq_ok.mpr ⟨_, buildN0_filings, rfl⟩⟩⟩
  have htagged : Tagged .ascii .n3 [falsePremise] := by
    intro n hn
    rw [List.mem_singleton.mp hn]
    exact ⟨"N3", rfl, by decide⟩
  have hserved := negatives_served (d := ⟨[], filingsBuilt.lines⟩) htagged hbuilt rfl
  refine ⟨rfl, ?_, ?_⟩
  · intro split hsplit
    refine ⟨(hserved split hsplit).left, (hserved split hsplit).right.left.trans ?_⟩
    cases split with
    | answerable => exact absurd rfl hsplit
    | _ => rfl
  · intro split hsplit hnot record hrecord
    rcases (hserved split hsplit).right.right hnot record hrecord with ⟨r, hr, hserves⟩
    rw [List.mem_singleton.mp hr] at hserves
    exact hserves

end ChatDoc
