import ChatDoc.Eval.Sweep

/-!
# Monotonicity of the sweep

More layers and higher thresholds answer less, generation by generation, and so
do the shares that the table and the sweep report.  The lowest swept threshold
switches the first layer off: a generation with scores passes it, and one without
scores has nothing to answer.
-/

namespace ChatDoc

open Foundation

variable {u : PyText} {rerank : Reranker}

/-!
# One generation
-/

def Answered (u : PyText) (rerank : Reranker) (layers : List Layer)
    (l1Threshold : PyFloat) (isGold : Bool) (item : CachedRecord) : Prop :=
  exists row, gradeCached u rerank layers l1Threshold isGold item = .ok row ∧
    row.answered = true

theorem passes_decide {raw : RawGeneration String} {layers : List Layer}
    {l3bThreshold l1Threshold : PyFloat} :
    Passes (raw.decide u rerank layers l3bThreshold l1Threshold) <->
      exists ctx, raw.gateContext = .ok ctx ∧
        LayersPass u rerank raw.parsed ctx layers l3bThreshold raw.l1Margin
          l1Threshold := by
  unfold RawGeneration.decide
  constructor
  · intro hall
    rcases hall with ⟨gate, hgate, hpassed⟩
    rcases bind_eq_ok.mp hgate with ⟨ctx, hctx, hverdict⟩
    exact ⟨ctx, hctx, passes_applyGate_iff.mp ⟨gate, hverdict, hpassed⟩⟩
  · intro hall
    rcases hall with ⟨ctx, hctx, hpass⟩
    rcases passes_applyGate_iff.mpr hpass with ⟨gate, hverdict, hpassed⟩
    exact ⟨gate, bind_eq_ok.mpr ⟨ctx, hctx, hverdict⟩, hpassed⟩

theorem answered_of_gradeOne {record : EvalRecord} {raw : RawGeneration String}
    {gate : GateResult} {isGold : Bool} {row : GradedRow}
    (h : gradeOne record raw gate isGold = .ok row) :
    row.answered = (gate.passed && raw.parsed.hasContent) := by
  unfold gradeOne at h
  dsimp only at h
  cases isGold with
  | false =>
      cases h
      rfl
  | true =>
      rw [if_pos rfl] at h
      split at h
      · split at h
        · cases h
          rfl
        · cases h
      · cases h
        rfl

theorem gradeOne_of_passed {record : EvalRecord} {raw : RawGeneration String}
    {gate gate' : GateResult} {isGold : Bool} {row : GradedRow}
    (hpassed : gate.passed = gate'.passed)
    (h : gradeOne record raw gate isGold = .ok row) :
    gradeOne record raw gate' isGold =
      .ok { row with refusalReason := gate'.reason } := by
  unfold gradeOne at h ⊢
  dsimp only at h ⊢
  rw [hpassed] at h
  cases isGold with
  | false =>
      cases h
      rfl
  | true =>
      rw [if_pos rfl] at h ⊢
      split at h
      next value hanswered hvalue =>
        split at h
        next gold hgold =>
          cases h
          rfl
        next => cases h
      next =>
        cases h
        rfl

theorem answered_mono {layers layers' : List Layer} {t t' : PyFloat} {isGold : Bool}
    {item : CachedRecord}
    (hpasses : Passes (item.2.decide u rerank layers' defaultL3bThreshold t') ->
      Passes (item.2.decide u rerank layers defaultL3bThreshold t))
    (h : Answered u rerank layers' t' isGold item) :
    Answered u rerank layers t isGold item := by
  rcases h with ⟨row, hrow, hanswered⟩
  rcases bind_eq_ok.mp hrow with ⟨gate', hgate', hgrade⟩
  have hcontent := answered_of_gradeOne hgrade
  rw [hanswered, eq_comm, Bool.and_eq_true] at hcontent
  rcases hpasses ⟨gate', hgate', hcontent.1⟩ with ⟨gate, hgate, hpassed⟩
  have hsame := gradeOne_of_passed (hcontent.1.trans hpassed.symm) hgrade
  exact ⟨_, bind_eq_ok.mpr ⟨gate, hgate, hsame⟩, hanswered⟩

theorem answered_of_subset {layers layers' : List Layer} (t : PyFloat) {isGold : Bool}
    {item : CachedRecord} (hlayers : layers ⊆ layers')
    (h : Answered u rerank layers' t isGold item) :
    Answered u rerank layers t isGold item := by
  refine answered_mono ?_ h
  intro hpasses
  rcases passes_decide.mp hpasses with ⟨ctx, hctx, hpass⟩
  exact passes_decide.mpr ⟨ctx, hctx, hpass.mono hlayers⟩

theorem answered_of_atMost {layers : List Layer} {t t' : PyFloat} {isGold : Bool}
    {item : CachedRecord} (hle : AtMost t t')
    (h : Answered u rerank layers t' isGold item) :
    Answered u rerank layers t isGold item := by
  refine answered_mono ?_ h
  intro hpasses
  rcases passes_decide.mp hpasses with ⟨ctx, hctx, hpass⟩
  exact passes_decide.mpr ⟨ctx, hctx, hpass.antitone hle⟩

/-!
# Rows
-/

theorem forall₂_gradeRows {layers layers' : List Layer} {t t' : PyFloat} {isGold : Bool}
    {cached : List CachedRecord} {rows rows' : List GradedRow}
    (hmono : forall item, Answered u rerank layers' t' isGold item ->
      Answered u rerank layers t isGold item)
    (h : gradeRows u rerank layers t isGold cached = .ok rows)
    (h' : gradeRows u rerank layers' t' isGold cached = .ok rows') :
    List.Forall₂ (fun row' row => row'.answered = true -> row.answered = true)
      rows' rows := by
  apply forall₂_of_mapM h' h
  intro item row' row _ hrow' hrow hanswered
  rcases hmono item ⟨row', hrow', hanswered⟩ with ⟨row'', hsame, hresult⟩
  rw [hrow] at hsame
  cases hsame
  exact hresult

theorem length_gradeRows {layers : List Layer} {t : PyFloat} {isGold : Bool}
    {cached : List CachedRecord} {rows : List GradedRow}
    (h : gradeRows u rerank layers t isGold cached = .ok rows) :
    rows.length = cached.length :=
  (mapM_eq_ok.mp h).length_eq.symm

theorem hallucinated_of_gradeCached {layers : List Layer} {t : PyFloat}
    {item : CachedRecord} {row : GradedRow}
    (h : gradeCached u rerank layers t false item = .ok row) :
    row.hallucinated = some row.answered := by
  rcases bind_eq_ok.mp h with ⟨gate, _, hgrade⟩
  cases hgrade
  rfl

theorem hallucinatedCount_gradeRows {layers : List Layer} {t : PyFloat}
    {cached : List CachedRecord} {rows : List GradedRow}
    (h : gradeRows u rerank layers t false cached = .ok rows) :
    hallucinatedCount rows = answeredCount rows := by
  apply List.countP_congr
  intro row hrow
  rcases exists_of_mem_forall₂ (mapM_eq_ok.mp h) hrow with ⟨item, _, hround⟩
  rw [hallucinated_of_gradeCached hround]
  simp

/-!
# The table
-/

def ConfigSummary.Below : ConfigSummary -> ConfigSummary -> Prop
  | .empty, .empty => True
  | .answerable n coverage _ _, .answerable n' coverage' _ _ =>
      n' = n ∧ coverage ≤ coverage'
  | .negative n rate count, .negative n' rate' count' =>
      n' = n ∧ rate ≤ rate' ∧ count ≤ count'
  | _, _ => False

theorem share_le {n n' k : Nat} (h : n ≤ n') : (n : Rat) / k ≤ (n' : Rat) / k :=
  div_le_div_of_nonneg_right (Nat.cast_le.mpr h) (Nat.cast_nonneg k)

section Summary

variable {layers layers' : List Layer} {t t' : PyFloat} {cached : List CachedRecord}
  {rows rows' : List GradedRow}

theorem below_summarizeConfig {isGold : Bool}
    (hmono : forall item, Answered u rerank layers' t' isGold item ->
      Answered u rerank layers t isGold item)
    (h : gradeRows u rerank layers t isGold cached = .ok rows)
    (h' : gradeRows u rerank layers' t' isGold cached = .ok rows') :
    (summarizeConfig rows' isGold).Below (summarizeConfig rows isGold) := by
  have hcount : answeredCount rows' ≤ answeredCount rows :=
    countP_le_of_forall₂ (forall₂_gradeRows hmono h h')
  unfold summarizeConfig
  dsimp only
  rw [length_gradeRows h, length_gradeRows h']
  split
  next => trivial
  next =>
    cases isGold with
    | false =>
        rw [hallucinatedCount_gradeRows h, hallucinatedCount_gradeRows h']
        exact ⟨rfl, share_le hcount, hcount⟩
    | true => exact ⟨rfl, share_le hcount⟩

theorem below_entry {s : LoadedSplits} (hlayers : layers ⊆ layers')
    {entry entry' : List (Split × ConfigSummary)}
    (h : s.entry u rerank layers = .ok entry)
    (h' : s.entry u rerank layers' = .ok entry') :
    List.Forall₂ (fun e' e => e'.1 = e.1 ∧ e'.2.Below e.2) entry' entry := by
  have hmono (isGold : Bool) (item : CachedRecord) :
      Answered u rerank layers' (.finite 0) isGold item ->
        Answered u rerank layers (.finite 0) isGold item :=
    answered_of_subset (.finite 0) hlayers
  rcases bind_eq_ok.mp h with ⟨goldRows, hgold, hnegatives⟩
  rcases bind_eq_ok.mp hnegatives with ⟨negatives, hrest, hpair⟩
  rcases bind_eq_ok.mp h' with ⟨goldRows', hgold', hnegatives'⟩
  rcases bind_eq_ok.mp hnegatives' with ⟨negatives', hrest', hpair'⟩
  cases hpair
  cases hpair'
  refine .cons ⟨rfl, below_summarizeConfig (hmono true) hgold hgold'⟩ ?_
  apply forall₂_of_mapM hrest' hrest
  intro tier e' e _ he' he
  rcases bind_eq_ok.mp he with ⟨rows, hrows, hsummary⟩
  rcases bind_eq_ok.mp he' with ⟨rows', hrows', hsummary'⟩
  cases hsummary
  cases hsummary'
  exact ⟨rfl, below_summarizeConfig (hmono false) hrows hrows'⟩

end Summary

theorem configs_pairwise : configs.Pairwise fun c c' => c.2 ⊆ c'.2 := by
  unfold configs
  simp

def AblationTable.NonIncreasing (table : AblationTable) : Prop :=
  table.Pairwise fun earlier later =>
    List.Forall₂ (fun e' e => e'.1 = e.1 ∧ e'.2.Below e.2) later.2 earlier.2

theorem nonIncreasing_runAblationTable {args : SweepArguments} {table : AblationTable}
    (h : runAblationTable u rerank args = .ok table) : table.NonIncreasing := by
  rcases bind_eq_ok.mp h with ⟨s, _, hconfigs⟩
  apply pairwise_of_mapM hconfigs configs_pairwise
  intro config config' entry entry' hsubset hentry hentry'
  rcases bind_eq_ok.mp hentry with ⟨splits, hsplits, hpair⟩
  rcases bind_eq_ok.mp hentry' with ⟨splits', hsplits', hpair'⟩
  cases hpair
  cases hpair'
  exact below_entry hsubset hsplits hsplits'

/-!
# The thresholds
-/

def RawGeneration.FiniteScores (raw : RawGeneration String) : Prop :=
  forall score, raw.top1Score = some score ∨ raw.top2Score = some score ->
    exists q, score = .finite q

theorem finite_margin {raw : RawGeneration String} (h : raw.FiniteScores) {m : PyFloat}
    (hm : raw.margin = some m) : exists q, m = .finite q := by
  rcases Option.map_eq_some_iff.mp hm with ⟨top1, htop1, rfl⟩
  rcases h top1 (.inl htop1) with ⟨q1, rfl⟩
  rcases htop2 : raw.top2Score with _ | top2
  · exact ⟨_, rfl⟩
  · rcases h top2 (.inr htop2) with ⟨q2, rfl⟩
    exact ⟨_, rfl⟩

theorem atMost_of_not_lt {a b : PyFloat} (ha : exists q, a = .finite q)
    (hb : exists q, b = .finite q) (h : b.lt a = false) : AtMost a b := by
  rcases ha with ⟨p, rfl⟩
  rcases hb with ⟨q, rfl⟩
  have hle : p ≤ q := by simpa [PyFloat.lt] using h
  rcases eq_or_lt_of_le hle with heq | hlt
  · exact .inl (congrArg PyFloat.finite heq)
  · exact .inr (decide_eq_true hlt)

theorem le_of_atMost {p q : Rat} (h : AtMost (.finite p) (.finite q)) : p ≤ q := by
  rcases h with heq | hlt
  · cases heq
    exact le_refl _
  · exact (of_decide_eq_true hlt).le

namespace LoadedSplits

variable {s : LoadedSplits}

def FiniteScores (s : LoadedSplits) : Prop :=
  forall raw, raw ∈ s.generations -> raw.FiniteScores

theorem mem_margins {m : PyFloat} :
    m ∈ s.margins <-> exists raw, raw ∈ s.generations ∧ raw.margin = some m := by
  unfold margins
  rw [List.mem_mergeSort, List.mem_dedup, List.mem_filterMap]

theorem finite_of_mem_margins (h : s.FiniteScores) {m : PyFloat} (hm : m ∈ s.margins) :
    exists q, m = .finite q := by
  rcases mem_margins.mp hm with ⟨raw, hraw, hmargin⟩
  exact finite_margin (h raw hraw) hmargin

theorem pairwise_margins (h : s.FiniteScores) : s.margins.Pairwise AtMost := by
  have hfinite : forall m, m ∈ (s.generations.filterMap RawGeneration.margin).dedup ->
      exists q, m = .finite q := by
    intro m hm
    apply finite_of_mem_margins h
    unfold margins
    exact List.mem_mergeSort.mpr hm
  have hsorted : s.margins.Pairwise fun a b => (!b.lt a) = true := by
    apply pairwise_mergeSort_of_mem hfinite
    · intro a b c _ hb _ hab hbc
      rw [Bool.not_eq_true'] at *
      rcases hb with ⟨q, rfl⟩
      exact PyFloat.not_lt_trans PyFloat.noConfusion hab hbc
    · intro a b _ _
      rw [Bool.or_eq_true, Bool.not_eq_true', Bool.not_eq_true']
      by_cases hlt : b.lt a = true
      · exact .inr (PyFloat.lt_asymm hlt)
      · exact .inl (Bool.eq_false_iff.mpr hlt)
  apply hsorted.imp_of_mem
  intro a b ha hb hle
  rw [Bool.not_eq_true'] at hle
  exact atMost_of_not_lt (finite_of_mem_margins h ha) (finite_of_mem_margins h hb) hle

theorem lt_first_threshold (h : s.FiniteScores) {t m : PyFloat}
    (ht : s.thresholds.head? = some t) (hm : m ∈ s.margins) : t.lt m = true := by
  unfold thresholds at ht
  rcases hmargins : s.margins with _ | ⟨first, rest⟩
  · rw [hmargins] at hm
    cases hm
  · rw [hmargins] at ht
    cases ht
    have hfirst : first ∈ s.margins := hmargins ▸ List.mem_cons_self
    rcases finite_of_mem_margins h hfirst with ⟨q, rfl⟩
    rcases finite_of_mem_margins h hm with ⟨q', rfl⟩
    have hhead : s.margins.head? = some (.finite q) := by
      rw [hmargins]
      rfl
    have hle : q ≤ q' := by
      rcases rel_of_head (pairwise_margins h) hhead hm with heq | hrel
      · cases heq
        exact le_refl _
      · exact le_of_atMost hrel
    exact decide_eq_true (lt_of_lt_of_le (sub_lt_self q (by norm_num)) hle)

theorem pairwise_thresholds (h : s.FiniteScores) : s.thresholds.Pairwise AtMost := by
  have hsorted := pairwise_margins h
  have hfirst {t m : PyFloat} (ht : s.thresholds.head? = some t) (hm : m ∈ s.margins) :
      AtMost t m := .inr (lt_first_threshold h ht hm)
  rcases hmargins : s.margins with _ | ⟨first, rest⟩
  · unfold thresholds
    rw [hmargins]
    exact List.pairwise_singleton _ _
  · have hthresholds : s.thresholds =
        first.sub (.finite (1 / 1000000)) :: first :: rest := by
      unfold thresholds
      rw [hmargins]
    rw [hmargins] at hsorted hfirst
    rw [hthresholds] at hfirst ⊢
    rw [List.pairwise_cons]
    exact ⟨fun m hm => hfirst rfl hm, hsorted⟩

end LoadedSplits

/-!
# The curves
-/

theorem share_antitone {layers : List Layer} {t t' : PyFloat} {isGold : Bool}
    {cached : List CachedRecord} {rows rows' : List GradedRow} (hle : AtMost t t')
    (h : gradeRows u rerank layers t isGold cached = .ok rows)
    (h' : gradeRows u rerank layers t' isGold cached = .ok rows') :
    share (answeredCount rows') rows'.length ≤ share (answeredCount rows) rows.length := by
  have hcount : answeredCount rows' ≤ answeredCount rows :=
    countP_le_of_forall₂ (forall₂_gradeRows (fun _ => answered_of_atMost hle) h h')
  unfold share
  rw [length_gradeRows h, length_gradeRows h']
  split
  next => exact share_le hcount
  next => exact le_refl 0

theorem pairwise_points {point : Type} {toPoint : PyFloat -> List GradedRow -> point}
    {value : point -> Rat} {isGold : Bool} {thresholds : List PyFloat}
    {cached : List CachedRecord} {points : List point}
    (hvalue : forall t rows,
      value (toPoint t rows) = share (answeredCount rows) rows.length)
    (hsorted : thresholds.Pairwise AtMost)
    (h : (thresholds.mapM fun t =>
      (gradeRows u rerank [.l1, .l2, .l3] t isGold cached).bind fun rows =>
        .ok (toPoint t rows)) = .ok points) :
    points.Pairwise fun p p' => value p' ≤ value p := by
  apply pairwise_of_mapM h hsorted
  intro t t' p p' hle hp hp'
  rcases bind_eq_ok.mp hp with ⟨rows, hrows, hpoint⟩
  rcases bind_eq_ok.mp hp' with ⟨rows', hrows', hpoint'⟩
  cases hpoint
  cases hpoint'
  rw [hvalue, hvalue]
  exact share_antitone hle hrows hrows'

structure SweepResult.NonIncreasing (result : SweepResult) : Prop where
  gold : result.goldPoints.Pairwise fun p p' => p'.coverage ≤ p.coverage
  negatives : forall tier, tier ∈ result.negatives ->
    tier.2.1.Pairwise fun p p' => p'.hallucinationRate ≤ p.hallucinationRate

theorem nonIncreasing_riskCoverageSweep {args : SweepArguments} {s : LoadedSplits}
    {result : SweepResult} (hload : args.load = .ok s) (hfinite : s.FiniteScores)
    (h : riskCoverageSweep u rerank args = .ok result) : result.NonIncreasing := by
  have hsorted := LoadedSplits.pairwise_thresholds hfinite
  rcases bind_eq_ok.mp h with ⟨s', hload', hrest⟩
  rw [hload] at hload'
  cases hload'
  rcases bind_eq_ok.mp hrest with ⟨goldPoints, hgold, hrest⟩
  rcases bind_eq_ok.mp hrest with ⟨negatives, hnegatives, hpair⟩
  cases hpair
  constructor
  · exact pairwise_points (fun _ _ => rfl) hsorted hgold
  · intro tier htier
    rcases exists_of_mem_forall₂ (mapM_eq_ok.mp hnegatives) htier with
      ⟨cached, _, hround⟩
    rcases bind_eq_ok.mp hround with ⟨pts, hpts, hpair⟩
    cases hpair
    exact pairwise_points (fun _ _ => rfl) hsorted hpts

/-!
# The lowest threshold
-/

/-- The generation is one that `generate_for_record` returned. -/
def RawGeneration.Produced (raw : RawGeneration String) : Prop :=
  exists docName ctx result, raw = (generateForRecord docName ctx result).reloaded

theorem not_answered_of_unscored {item : CachedRecord} {isGold : Bool} {t : PyFloat}
    (hproduced : item.2.Produced) (hscore : item.2.top1Score = none) :
    ¬ Answered u rerank [.l2, .l3] t isGold item := by
  intro hanswered
  rcases hanswered with ⟨row, hrow, hanswered⟩
  rcases bind_eq_ok.mp hrow with ⟨gate, hgate, hgrade⟩
  have hcontent := answered_of_gradeOne hgrade
  rw [hanswered, eq_comm, Bool.and_eq_true] at hcontent
  rcases passes_decide.mp ⟨gate, hgate, hcontent.1⟩ with ⟨stored, hstored, hpass⟩
  rcases hproduced with ⟨docName, ctx, result, hraw⟩
  rw [hraw] at hscore hstored hcontent hpass
  rw [gateContext_reloaded] at hstored
  cases hstored
  have hnone : (storedContext ctx result.parsed).retrievedChunkIds = [] := by
    change (ctx.scored.map Prod.snd)[0]? = none at hscore
    rw [List.getElem?_eq_none_iff, List.length_map, Nat.le_zero,
      List.length_eq_zero_iff] at hscore
    unfold storedContext RetrievalContext.chunkIds RetrievalContext.chunks
    rw [hscore]
    rfl
  rcases not_hasContent_of_nothing_retrieved hnone (hpass.l2 (by decide))
    (hpass.numeric (by decide)) (hpass.prose (by decide)) with ⟨hvalue, htext⟩
  replace hcontent : result.parsed.hasContent = true := hcontent.2
  change result.parsed.value = none at hvalue
  change orElse result.parsed.answerText none = none at htext
  unfold GateAnswer.hasContent at hcontent
  rw [hvalue, htext] at hcontent
  cases hcontent

theorem passes_l1_of_below {raw : RawGeneration String} {m t : PyFloat}
    {stored : GateContext} (hm : raw.margin = some m) (hlt : m.lt t = false)
    (h : LayersPass u rerank raw.parsed stored [.l2, .l3] defaultL3bThreshold
      raw.l1Margin (.finite 0)) :
    LayersPass u rerank raw.parsed stored [.l1, .l2, .l3] defaultL3bThreshold
      raw.l1Margin t where
  l1 := by
    intro _
    rcases Option.map_eq_some_iff.mp hm with ⟨top1, htop1, rfl⟩
    unfold RawGeneration.l1Margin
    rw [htop1]
    exact checkL1Margin_passed.mpr hlt
  l2 := fun _ => h.l2 (by decide)
  numeric := fun _ => h.numeric (by decide)
  prose := fun _ => h.prose (by decide)

theorem answered_first_threshold {s : LoadedSplits} (hfinite : s.FiniteScores)
    {t : PyFloat} (ht : s.thresholds.head? = some t) {item : CachedRecord}
    (hmem : item.2 ∈ s.generations) (hproduced : item.2.Produced) {isGold : Bool} :
    Answered u rerank [.l1, .l2, .l3] t isGold item <->
      Answered u rerank [.l2, .l3] (.finite 0) isGold item := by
  constructor
  · intro h
    have hsubset : [Layer.l2, .l3] ⊆ [.l1, .l2, .l3] := List.subset_cons_self _ _
    refine answered_mono ?_ (answered_of_subset t hsubset h)
    intro hpasses
    rcases passes_decide.mp hpasses with ⟨ctx, hctx, hpass⟩
    exact passes_decide.mpr ⟨ctx, hctx, fun hmem => absurd hmem (by decide),
      hpass.l2, hpass.numeric, hpass.prose⟩
  · intro h
    rcases hscore : item.2.top1Score with _ | top1
    · exact absurd h (not_answered_of_unscored hproduced hscore)
    · have hmargin : item.2.margin =
          some (top1.sub (item.2.top2Score.getD (.finite 0))) := by
        unfold RawGeneration.margin
        rw [hscore]
        rfl
      have hlt := s.lt_first_threshold hfinite ht
        (LoadedSplits.mem_margins.mpr ⟨item.2, hmem, hmargin⟩)
      refine answered_mono ?_ h
      intro hpasses
      rcases passes_decide.mp hpasses with ⟨ctx, hctx, hpass⟩
      exact passes_decide.mpr
        ⟨ctx, hctx, passes_l1_of_below hmargin (PyFloat.lt_asymm hlt) hpass⟩

/-!
# Every set of generations
-/

theorem mem_loadCached {cache : GenerationCache (RawGeneration String)}
    {runId : String} {records : List EvalRecord} {item : CachedRecord}
    (h : item ∈ loadCached cache runId records) :
    exists row, row ∈ cache.rows ∧ row.raw = item.2 := by
  rcases List.mem_filterMap.mp h with ⟨r, _, hitem⟩
  rcases Option.map_eq_some_iff.mp hitem with ⟨raw, hraw, rfl⟩
  rcases Option.map_eq_some_iff.mp hraw with ⟨row, hrow, rfl⟩
  exact ⟨row, List.mem_of_find?_eq_some hrow, rfl⟩

namespace SweepArguments

variable {args : SweepArguments}

theorem mem_loadSplit {split : Split} {records : List EvalRecord}
    {cached : List CachedRecord} (h : args.loadSplit split records = .ok cached)
    {item : CachedRecord} (hitem : item ∈ cached) :
    exists row, row ∈ args.cache.rows ∧ row.raw = item.2 := by
  unfold loadSplit at h
  split at h
  · cases h
    exact mem_loadCached hitem
  · cases h

theorem mem_load {s : LoadedSplits} (h : args.load = .ok s) {raw : RawGeneration String}
    (hraw : raw ∈ s.generations) : exists row, row ∈ args.cache.rows ∧ row.raw = raw := by
  rcases bind_eq_ok.mp h with ⟨gold, hgold, hrest⟩
  rcases bind_eq_ok.mp hrest with ⟨negatives, hnegatives, hpair⟩
  cases hpair
  rcases List.mem_append.mp hraw with hin | hin
  · rcases List.mem_map.mp hin with ⟨item, hitem, rfl⟩
    exact mem_loadSplit hgold hitem
  · rcases List.mem_flatMap.mp hin with ⟨tier, htier, hin⟩
    rcases List.mem_map.mp hin with ⟨item, hitem, rfl⟩
    rcases exists_of_mem_forall₂ (mapM_eq_ok.mp hnegatives) htier with
      ⟨entry, _, hround⟩
    rcases bind_eq_ok.mp hround with ⟨cached, hcached, hpair⟩
    cases hpair
    exact mem_loadSplit hcached hitem

/-- The cache holds what `generate_for_record` returned, with finite scores. -/
structure Generated (args : SweepArguments) : Prop where
  produced : forall row, row ∈ args.cache.rows -> row.raw.Produced
  finiteScores : forall row, row ∈ args.cache.rows -> row.raw.FiniteScores

theorem Generated.load (h : args.Generated) {s : LoadedSplits}
    (hload : args.load = .ok s) :
    s.FiniteScores ∧ forall raw, raw ∈ s.generations -> raw.Produced := by
  constructor
  · intro raw hraw
    rcases mem_load hload hraw with ⟨row, hrow, rfl⟩
    exact h.finiteScores row hrow
  · intro raw hraw
    rcases mem_load hload hraw with ⟨row, hrow, rfl⟩
    exact h.produced row hrow

end SweepArguments

/-- What layers and thresholds do to the verdicts, the table and the sweep. -/
structure SweepMonotone (u : PyText) (rerank : Reranker) (args : SweepArguments) :
    Prop where
  layers : forall answer ctx layers layers' l3bThreshold l1Margin l1Threshold,
    layers ⊆ layers' ->
      Passes (applyGate u rerank answer ctx layers' l3bThreshold l1Margin l1Threshold) ->
        Passes (applyGate u rerank answer ctx layers l3bThreshold l1Margin l1Threshold)
  table : forall table, runAblationTable u rerank args = .ok table ->
    table.NonIncreasing
  answered : forall isGold item t t', AtMost t t' ->
    Answered u rerank [.l1, .l2, .l3] t' isGold item ->
      Answered u rerank [.l1, .l2, .l3] t isGold item
  curves : forall result, riskCoverageSweep u rerank args = .ok result ->
    result.NonIncreasing
  first : forall s t, args.load = .ok s -> s.thresholds.head? = some t ->
    (forall item, item ∈ s.gold ->
      (Answered u rerank [.l1, .l2, .l3] t true item <->
        Answered u rerank [.l2, .l3] (.finite 0) true item)) ∧
    forall tier, tier ∈ s.negatives -> forall item, item ∈ tier.2 ->
      (Answered u rerank [.l1, .l2, .l3] t false item <->
        Answered u rerank [.l2, .l3] (.finite 0) false item)

theorem sweepMonotone (u : PyText) (rerank : Reranker) (args : SweepArguments)
    (h : args.Generated) : SweepMonotone u rerank args where
  layers := by
    intro answer ctx layers layers' l3bThreshold l1Margin l1Threshold hlayers hpasses
    exact passes_applyGate_iff.mpr ((passes_applyGate_iff.mp hpasses).mono hlayers)
  table := fun _ htable => nonIncreasing_runAblationTable htable
  answered := fun _ _ _ _ hle => answered_of_atMost hle
  curves := by
    intro result hresult
    rcases bind_eq_ok.mp hresult with ⟨s, hload, _⟩
    exact nonIncreasing_riskCoverageSweep hload (h.load hload).1 hresult
  first := by
    intro s t hload ht
    rcases h.load hload with ⟨hfinite, hproduced⟩
    constructor
    · intro item hitem
      have hmem : item.2 ∈ s.generations :=
        List.mem_append_left _ (List.mem_map_of_mem hitem)
      exact answered_first_threshold hfinite ht hmem (hproduced _ hmem)
    · intro tier htier item hitem
      have hmem : item.2 ∈ s.generations :=
        List.mem_append_right _
          (List.mem_flatMap.mpr ⟨tier, htier, List.mem_map_of_mem hitem⟩)
      exact answered_first_threshold hfinite ht hmem (hproduced _ hmem)

/-!
# A scored and an unscored generation
-/

def refusedResult : StructuredResult where
  text := ""
  parsed :=
    { sufficient := false
      value := none
      unit := none
      scale := none
      operands := []
      answerText := none
      citations := [] }
  promptTokens := none
  completionTokens := none
  latencyMs := .finite 0

def mixedArguments : SweepArguments where
  cache := (GenerationCache.empty.record "r" "q"
    (generateForRecord "doc" singleContext singleResult).reloaded).record "r" "p"
      (generateForRecord "doc" ⟨[]⟩ refusedResult).reloaded
  runIds := fun _ => some "r"
  goldRecords := [⟨"q", "?", some "doc", none, none, none, some (.finite 577)⟩]
  negRecords := [(.n0, [⟨"p", "?", none, some "doc", none, some "n0", none⟩])]

theorem generated_mixedArguments : mixedArguments.Generated where
  produced := by
    intro row hrow
    replace hrow : row ∈ [GenerationRow.mk "r" "q" _, .mk "r" "p" _] := hrow
    rcases List.mem_cons.mp hrow with rfl | hrow
    · exact ⟨_, _, _, rfl⟩
    · rcases List.mem_singleton.mp hrow with rfl
      exact ⟨_, _, _, rfl⟩
  finiteScores := by
    intro row hrow score hscore
    replace hrow : row ∈ [GenerationRow.mk "r" "q" _, .mk "r" "p" _] := hrow
    rcases List.mem_cons.mp hrow with rfl | hrow
    · rcases hscore with hscore | hscore
      · cases hscore
        exact ⟨_, rfl⟩
      · cases hscore
    · rcases List.mem_singleton.mp hrow with rfl
      rcases hscore with hscore | hscore <;> cases hscore

theorem sweepMonotone_mixed :
    SweepMonotone .ascii (fun _ _ => []) mixedArguments :=
  sweepMonotone .ascii (fun _ _ => []) mixedArguments generated_mixedArguments

end ChatDoc
