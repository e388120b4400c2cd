import ChatDoc.Eval.Leaks
import ChatDoc.Foundation.KeyedRows
import ChatDoc.Foundation.Raising

/-!
# Temporal mismatches

`build_n2` of `eval/build_negatives.py`: for each record a random other document of its
company, kept when the gold figure does not leak.  Nothing looks at the periods, and a
company can have several documents of one period.
-/

namespace ChatDoc

open Foundation

/-!
# The tables
-/

/-- A line of `answerable.jsonl`, with the keys that `build_n2` reads. -/
structure AnswerableRecord where
  financebenchId : String
  question : String
  docName : String
  company : String
  goldValue : Rat
  goldIsPercent : Bool
deriving DecidableEq

structure DocInfo where
  company : String
  docPeriod : Int
deriving DecidableEq

structure DocInfoTable where
  entries : List (String × DocInfo)
  distinct : (entries.map Prod.fst).Nodup

namespace DocInfoTable

variable (docInfo : DocInfoTable)

def find (docName : String) : Option DocInfo := docInfo.entries.lookup docName

/-- `by_company.get(company, [])`. -/
def byCompany (company : String) : List String :=
  (docInfo.entries.filter fun entry => entry.2.company = company).map Prod.fst

theorem mem_byCompany {company docName : String} :
    docName ∈ docInfo.byCompany company <->
      exists info, docInfo.find docName = some info ∧ info.company = company := by
  constructor
  · intro h
    rcases List.mem_map.mp h with ⟨entry, hentry, rfl⟩
    rcases List.mem_filter.mp hentry with ⟨hin, hcompany⟩
    exact ⟨entry.2, (lookup_eq_some_iff_mem docInfo.distinct).mpr hin, of_decide_eq_true hcompany⟩
  · rintro ⟨info, hfind, hcompany⟩
    have hin : (docName, info) ∈ docInfo.entries := (lookup_eq_some_iff_mem docInfo.distinct).mp hfind
    exact List.mem_map.mpr
      ⟨(docName, info), List.mem_filter.mpr ⟨hin, decide_eq_true hcompany⟩, rfl⟩

end DocInfoTable

/-- What `random.Random(SEED)` draws: the index of each call of `choice`, from the number of
the call and the length of the sequence. -/
structure SeededChoices where
  index : Nat -> Nat -> Nat
  index_lt : forall k n, 0 < n -> index k n < n

def SeededChoices.choice (rng : SeededChoices) (k : Nat) (seq : List String)
    (h : seq ≠ []) : String :=
  seq.get ⟨rng.index k seq.length, rng.index_lt k _ (List.length_pos_iff.mpr h)⟩

/-!
# The builder
-/

structure N2Item where
  tier : String
  financebenchId : String
  question : String
  goldValue : Rat
  goldIsPercent : Bool
  servedDocName : String
  correctDocName : String
  servedDocPeriod : Int
  correctDocPeriod : Int
  expected : String

structure N2State where
  draws : Nat
  kept : List N2Item
  dropped : Nat

section Build

variable (u : PyText) (rng : SeededChoices) (pdfs : String -> Option (List String))
  (docInfo : DocInfoTable) (r : AnswerableRecord)

def n2Candidates : List String :=
  (docInfo.byCompany r.company).filter fun d => d ≠ r.docName

/-- `sorted(candidates)`. -/
def sortedCandidates : List String :=
  (n2Candidates docInfo r).mergeSort fun a b => decide (a <= b)

theorem sortedCandidates_ne_nil {docInfo : DocInfoTable} {r : AnswerableRecord}
    (h : n2Candidates docInfo r ≠ []) : sortedCandidates docInfo r ≠ [] := by
  rw [← List.length_pos_iff, sortedCandidates, List.length_mergeSort, List.length_pos_iff]
  exact h

/-- `doc_info[name]["doc_period"]`. -/
def docPeriod (docName : String) : Except Exn Int :=
  match docInfo.find docName with
  | some info => .ok info.docPeriod
  | none => .error (.exception s!"KeyError: '{docName}'")

def n2Item (servedDoc : String) (servedPeriod correctPeriod : Int) : N2Item where
  tier := "N2"
  financebenchId := r.financebenchId
  question := r.question
  goldValue := r.goldValue
  goldIsPercent := r.goldIsPercent
  servedDocName := servedDoc
  correctDocName := r.docName
  servedDocPeriod := servedPeriod
  correctDocPeriod := correctPeriod
  expected := "unanswerable"

/-- The body of the loop.  `pdfs` gives the page texts of the files that exist. -/
def n2Turn (st : N2State) : Except Exn N2State :=
  if h : n2Candidates docInfo r = [] then .ok st
  else
    let servedDoc := rng.choice st.draws (sortedCandidates docInfo r)
      (sortedCandidates_ne_nil h)
    let st := { st with draws := st.draws + 1 }
    match pdfs servedDoc with
    | none => .ok st
    | some pages => do
        if ← leaksElsewhere u (.finite r.goldValue) pages [] then
          return { st with dropped := st.dropped + 1 }
        else
          let servedPeriod ← docPeriod docInfo servedDoc
          let correctPeriod ← docPeriod docInfo r.docName
          return { st with kept := st.kept ++ [n2Item r servedDoc servedPeriod correctPeriod] }

def buildN2 (records : List AnswerableRecord) : Except Exn (List N2Item × Nat) := do
  let st ← records.foldlM (fun st r => n2Turn u rng pdfs docInfo r st) ⟨0, [], 0⟩
  return (st.kept, st.dropped)

end Build

/-!
# What a turn keeps
-/

section Turns

variable {u : PyText} {rng : SeededChoices} {pdfs : String -> Option (List String)}
  {docInfo : DocInfoTable} {records : List AnswerableRecord} {r : AnswerableRecord}
  {st st' : N2State}

theorem choice_mem (rng : SeededChoices) (k : Nat) {seq : List String} (h : seq ≠ []) :
    rng.choice k seq h ∈ seq :=
  List.get_mem seq _

theorem mem_sortedCandidates {d : String} :
    d ∈ sortedCandidates docInfo r <->
      (exists info, docInfo.find d = some info ∧ info.company = r.company) ∧
        d ≠ r.docName := by
  rw [sortedCandidates, List.mem_mergeSort, n2Candidates, List.mem_filter,
    DocInfoTable.mem_byCompany, decide_eq_true_eq]

theorem docPeriod_eq_ok {docName : String} {period : Int} :
    docPeriod docInfo docName = .ok period <->
      exists info, docInfo.find docName = some info ∧ info.docPeriod = period := by
  unfold docPeriod
  cases docInfo.find docName with
  | none =>
      refine iff_of_false nofun ?_
      rintro ⟨info, hinfo, _⟩
      cases hinfo
  | some info =>
      constructor
      · intro h
        exact ⟨info, rfl, Except.ok.inj h⟩
      · rintro ⟨info', hinfo, hperiod⟩
        cases hinfo
        exact congrArg Except.ok hperiod

theorem n2Turn_cases (h : n2Turn u rng pdfs docInfo r st = .ok st') :
    st'.kept = st.kept ∨
      exists d servedPeriod correctPeriod, d ∈ sortedCandidates docInfo r ∧
        docPeriod docInfo d = .ok servedPeriod ∧
        docPeriod docInfo r.docName = .ok correctPeriod ∧
        st'.kept = st.kept ++ [n2Item r d servedPeriod correctPeriod] := by
  unfold n2Turn at h
  split at h
  next => exact .inl (congrArg N2State.kept (Except.ok.inj h)).symm
  next hsome =>
    dsimp only at h
    split at h
    next => exact .inl (congrArg N2State.kept (Except.ok.inj h)).symm
    next pages hpages =>
      rcases bind_eq_ok.mp h with ⟨leaks, _, hrest⟩
      cases leaks with
      | true => exact .inl (congrArg N2State.kept (Except.ok.inj hrest)).symm
      | false =>
          rcases bind_eq_ok.mp hrest with ⟨servedPeriod, hserved, hrest⟩
          rcases bind_eq_ok.mp hrest with ⟨correctPeriod, hcorrect, hrest⟩
          exact .inr ⟨_, servedPeriod, correctPeriod, choice_mem rng _ _, hserved, hcorrect,
            (congrArg N2State.kept (Except.ok.inj hrest)).symm⟩

/-!
# The periods
-/

def N2Item.Mismatched (docInfo : DocInfoTable) (item : N2Item) (r : AnswerableRecord) : Prop :=
  item.financebenchId = r.financebenchId ∧ item.correctDocName = r.docName ∧
    exists served correct, docInfo.find item.servedDocName = some served ∧
      docInfo.find r.docName = some correct ∧ served.company = r.company ∧
        served.docPeriod ≠ correct.docPeriod

def KeepsMismatches (docInfo : DocInfoTable) (records : List AnswerableRecord) : Prop :=
  forall u rng pdfs kept dropped, buildN2 u rng pdfs docInfo records = .ok (kept, dropped) ->
    forall item, item ∈ kept -> exists r, r ∈ records ∧ item.Mismatched docInfo r

def PeriodsApart (docInfo : DocInfoTable) (records : List AnswerableRecord) : Prop :=
  forall r d info own, r ∈ records -> docInfo.find d = some info ->
    info.company = r.company -> d ≠ r.docName -> docInfo.find r.docName = some own ->
      info.docPeriod ≠ own.docPeriod

theorem buildN2_eq_ok {kept : List N2Item} {dropped : Nat}
    (h : buildN2 u rng pdfs docInfo records = .ok (kept, dropped)) :
    exists st, records.foldlM (fun st r => n2Turn u rng pdfs docInfo r st) ⟨0, [], 0⟩ = .ok st ∧
      st.kept = kept := by
  rcases bind_eq_ok.mp h with ⟨st, hst, hend⟩
  exact ⟨st, hst, congrArg Prod.fst (Except.ok.inj hend)⟩

theorem keepsMismatches_of_apart (h : PeriodsApart docInfo records) :
    KeepsMismatches docInfo records := by
  intro u rng pdfs kept dropped hbuild
  rcases buildN2_eq_ok hbuild with ⟨st, hst, rfl⟩
  refine foldlM_invariant (fun st => forall item, item ∈ st.kept ->
    exists r, r ∈ records ∧ item.Mismatched docInfo r) ?_ ?_ hst
  · intro item hitem
    cases hitem
  · intro st r st' hr hgood hturn item hitem
    rcases n2Turn_cases hturn with hsame | ⟨d, p, q, hd, hp, hq, hkept⟩
    · rw [hsame] at hitem
      exact hgood item hitem
    · rw [hkept] at hitem
      rcases List.mem_append.mp hitem with hold | hnew
      · exact hgood item hold
      · rw [List.mem_singleton.mp hnew]
        rcases mem_sortedCandidates.mp hd with ⟨⟨served, hserved, hcompany⟩, hne⟩
        rcases docPeriod_eq_ok.mp hq with ⟨correct, hcorrect, _⟩
        exact ⟨r, hr, rfl, rfl, served, correct, hserved, hcorrect, hcompany,
          h r d served correct hr hserved hcompany hne hcorrect⟩

/-!
# Drawing a given candidate
-/

def drawsAt (i : Nat) : SeededChoices where
  index := fun _ n => if i < n then i else 0
  index_lt := by
    intro _ n hn
    split
    · assumption
    · exact hn

def emptyFiles (_ : String) : Option (List String) := some []

theorem leaksElsewhere_nil (u : PyText) (q : Rat) :
    leaksElsewhere u (.finite q) [] [] = .ok false := by
  unfold leaksElsewhere goldFigureVariants candidates
  dsimp only [bind, Except.bind, pure, Except.pure]
  split <;> rfl

theorem choice_drawsAt {i k : Nat} {seq : List String} {d : String} (h : seq ≠ [])
    (hd : seq[i]? = some d) : (drawsAt i).choice k seq h = d := by
  rcases List.getElem?_eq_some_iff.mp hd with ⟨hlt, hget⟩
  have hindex : (drawsAt i).index k seq.length = i := if_pos hlt
  simp only [SeededChoices.choice, hindex, List.get_eq_getElem, hget]

theorem n2Turn_drawsAt (u : PyText) (i : Nat) (st : N2State)
    (hlisted : exists own, docInfo.find r.docName = some own) :
    exists st', n2Turn u (drawsAt i) emptyFiles docInfo r st = .ok st' ∧
      (forall item, item ∈ st.kept -> item ∈ st'.kept) ∧
      forall d, (sortedCandidates docInfo r)[i]? = some d ->
        exists p q, n2Item r d p q ∈ st'.kept := by
  rcases hlisted with ⟨own, hown⟩
  by_cases hnone : n2Candidates docInfo r = []
  · refine ⟨st, dif_pos hnone, fun item hitem => hitem, ?_⟩
    intro d hd
    rw [sortedCandidates, hnone, List.mergeSort_nil, List.getElem?_nil] at hd
    cases hd
  · have hnil := sortedCandidates_ne_nil hnone
    rcases mem_sortedCandidates.mp (choice_mem (drawsAt i) st.draws hnil) with
      ⟨⟨served, hserved, _⟩, _⟩
    refine ⟨⟨st.draws + 1, st.kept ++ [n2Item r ((drawsAt i).choice st.draws _ hnil)
      served.docPeriod own.docPeriod], st.dropped⟩, ?_, ?_, ?_⟩
    · rw [n2Turn, dif_neg hnone]
      dsimp only [emptyFiles]
      rw [leaksElsewhere_nil, docPeriod_eq_ok.mpr ⟨served, hserved, rfl⟩,
        docPeriod_eq_ok.mpr ⟨own, hown, rfl⟩]
      rfl
    · intro item hitem
      exact List.mem_append_left _ hitem
    · intro d hd
      refine ⟨served.docPeriod, own.docPeriod, List.mem_append_right _ ?_⟩
      rw [choice_drawsAt hnil hd]
      exact List.mem_cons_self

theorem foldlM_drawsAt (u : PyText) (i : Nat) (st : N2State)
    (hlisted : forall r, r ∈ records -> exists own, docInfo.find r.docName = some own) :
    exists st', records.foldlM (fun st r => n2Turn u (drawsAt i) emptyFiles docInfo r st) st =
        .ok st' ∧
      (forall item, item ∈ st.kept -> item ∈ st'.kept) ∧
      forall r d, r ∈ records -> (sortedCandidates docInfo r)[i]? = some d ->
        exists p q, n2Item r d p q ∈ st'.kept := by
  induction records generalizing st with
  | nil => exact ⟨st, rfl, fun item hitem => hitem, fun r d hr => nomatch hr⟩
  | cons first rest ih =>
      rcases n2Turn_drawsAt u i st (hlisted first List.mem_cons_self) with
        ⟨st1, hturn, hold, hfirst⟩
      rcases ih st1 fun r hr => hlisted r (List.mem_cons_of_mem first hr) with
        ⟨st2, hrest, hold', hothers⟩
      refine ⟨st2, ?_, fun item hitem => hold' item (hold item hitem), ?_⟩
      · rw [List.foldlM_cons, hturn]
        exact hrest
      · intro r d hr hd
        rcases List.mem_cons.mp hr with rfl | hin
        · rcases hfirst d hd with ⟨p, q, hitem⟩
          exact ⟨p, q, hold' _ hitem⟩
        · exact hothers r d hin hd

theorem apart_of_keepsMismatches
    (hlisted : forall r, r ∈ records -> exists own, docInfo.find r.docName = some own)
    (h : KeepsMismatches docInfo records) : PeriodsApart docInfo records := by
  intro r d info own hr hinfo hcompany hne hown
  have hd : d ∈ sortedCandidates docInfo r :=
    mem_sortedCandidates.mpr ⟨⟨info, hinfo, hcompany⟩, hne⟩
  rcases List.mem_iff_getElem?.mp hd with ⟨i, hi⟩
  rcases foldlM_drawsAt PyText.ascii i ⟨0, [], 0⟩ hlisted with ⟨st, hst, _, hkept⟩
  rcases hkept r d hr hi with ⟨p, q, hitem⟩
  have hbuild : buildN2 PyText.ascii (drawsAt i) emptyFiles docInfo records =
      .ok (st.kept, st.dropped) := bind_eq_ok.mpr ⟨st, hst, rfl⟩
  rcases h _ _ _ _ _ hbuild _ hitem with
    ⟨r', _, _, hname, served, correct, hserved, hcorrect, _, hperiods⟩
  have hsame : r.docName = r'.docName := hname
  rw [← hsame, hown] at hcorrect
  have hserved' : docInfo.find d = some served := hserved
  rw [hinfo] at hserved'
  cases hcorrect
  cases hserved'
  exact hperiods

/-- What is kept are temporal mismatches exactly if no company has another document of the
period that a record asks about. -/
theorem keepsMismatches_iff (docInfo : DocInfoTable) (records : List AnswerableRecord)
    (hlisted : forall r, r ∈ records -> exists own, docInfo.find r.docName = some own) :
    KeepsMismatches docInfo records <-> PeriodsApart docInfo records :=
  ⟨apart_of_keepsMismatches hlisted, keepsMismatches_of_apart⟩

end Turns

def pepsicoTable : DocInfoTable where
  entries :=
    [("PEPSICO_2023_8K_dated-2023-05-05", ⟨"PepsiCo", 2023⟩),
      ("PEPSICO_2023_8K_dated-2023-05-30", ⟨"PepsiCo", 2023⟩)]
  distinct := by decide

def pepsicoRecord : AnswerableRecord where
  financebenchId := "financebench_id_00882"
  question := "q"
  docName := "PEPSICO_2023_8K_dated-2023-05-30"
  company := "PepsiCo"
  goldValue := 8400000000
  goldIsPercent := false

theorem find_pepsico :
    pepsicoTable.find "PEPSICO_2023_8K_dated-2023-05-05" = some ⟨"PepsiCo", 2023⟩ ∧
      pepsicoTable.find pepsicoRecord.docName = some ⟨"PepsiCo", 2023⟩ := by decide

/-- The other filing of the year can be served. -/
theorem same_period_served : ¬ KeepsMismatches pepsicoTable [pepsicoRecord] := by
  intro h
  have hlisted : forall r, r ∈ [pepsicoRecord] ->
      exists own, pepsicoTable.find r.docName = some own := by
    intro r hr
    rw [List.mem_singleton.mp hr]
    exact ⟨_, find_pepsico.right⟩
  exact apart_of_keepsMismatches hlisted h pepsicoRecord _ _ _ List.mem_cons_self
    find_pepsico.left rfl (by decide) find_pepsico.right rfl

theorem keepsMismatches_iff_pepsico :
    KeepsMismatches pepsicoTable [pepsicoRecord] <->
      PeriodsApart pepsicoTable [pepsicoRecord] := by
  apply keepsMismatches_iff pepsicoTable [pepsicoRecord]
  intro r hr
  rw [List.mem_singleton.mp hr]
  exact ⟨_, find_pepsico.right⟩

end ChatDoc
