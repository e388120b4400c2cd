import ChatDoc.Gate.Checks

/-!
# What the checks say

A search for a figure succeeds exactly when one of the spellings of the figure
stands in the text between characters that are no digits.  From this follows,
check by check, when the gate passes an answer and when it raises.
-/

namespace ChatDoc

open Foundation

def Passes (verdict : Except Exn GateResult) : Prop :=
  exists result, verdict = .ok result ∧ result.passed = true

def Raises (verdict : Except Exn GateResult) : Prop :=
  exists exc, verdict = .error exc

@[simp] theorem passes_ok {result : GateResult} :
    Passes (.ok result) <-> result.passed = true := by
  constructor
  · intro hall
    rcases hall with ⟨_, hresult, hpassed⟩
    cases hresult
    exact hpassed
  · intro hpassed
    exact ⟨result, rfl, hpassed⟩

@[simp] theorem not_raises_ok {result : GateResult} :
    ¬ Raises (.ok result) := by
  intro hall
  rcases hall with ⟨_, herror⟩
  cases herror

@[simp] theorem raises_error {exc : Exn} : Raises (.error exc) := ⟨exc, rfl⟩

@[simp] theorem not_passes_error {exc : Exn} : ¬ Passes (.error exc) := by
  intro hall
  rcases hall with ⟨_, hok, _⟩
  cases hok

@[simp] theorem pass_passed : GateResult.pass.passed = true := rfl

@[simp] theorem fail_passed (reason : String) :
    (GateResult.fail reason).passed = false := rfl

variable {u : PyText} {rerank : Reranker} {answer : GateAnswer}
  {ctx : GateContext}

/-!
# The search
-/

/-- The value as it would stand on the page. -/
def unscaled (u : PyText) (q : Rat) (scale : Option String) : Rat :=
  u.arithmetic.quotient q (scaleMultiplier u scale)

/-- What the search looks for when the figure on the page is `raw`. -/
def searched (raw : Rat) : List (List Char) :=
  [raw, (halfEven raw : Rat), halfEven (raw * 100) / 100].flatMap variantsOf

structure Bounded (u : PyText) (v text pre post : List Char) : Prop where
  split : text = pre ++ (v ++ post)
  before : forall c, pre.getLast? = some c -> u.decimal c = false
  after : forall c, post.head? = some c -> u.decimal c = false

/-- The text answers a search for the value. -/
def Findable (u : PyText) (value : PyFloat) (scale : Option String)
    (text : String) : Prop :=
  exists q, value = .finite q ∧
    exists v, v ∈ searched (unscaled u q scale) ∧ 2 ≤ digitCount v ∧
      exists pre post, Bounded u v text.toList pre post

theorem match_figurePattern {v text pre post : List Char} :
    (figurePattern u v).Match none text pre post <-> Bounded u v text pre post := by
  have hnone (o : Option Char) :
      (!o.any u.decimal) = true <-> forall c, o = some c -> u.decimal c = false := by
    cases o <;> simp
  constructor
  · intro hall
    rcases hall with ⟨hsplit, hstart, hstop⟩
    rw [Option.or_none] at hstart
    exact ⟨hsplit, (hnone _).mp hstart, (hnone _).mp hstop⟩
  · intro hall
    rcases hall with ⟨hsplit, hbefore, hafter⟩
    refine ⟨hsplit, ?_, (hnone _).mpr hafter⟩
    rw [Option.or_none]
    exact (hnone _).mpr hbefore

theorem search_figure {v text : List Char} :
    (figurePattern u v).search text = true <->
      exists pre post, Bounded u v text pre post := by
  rw [Pattern.search_iff]
  simp only [match_figurePattern]

theorem valueFoundInText_finite (q : Rat) (scale : Option String)
    (text : String) :
    valueFoundInText u (.finite q) scale text =
      .ok ((searched (unscaled u q scale)).any fun v =>
        !decide (digitCount v < 2) && (figurePattern u v).search text.toList) := by
  have hpos := scaleMultiplier_pos u scale
  unfold valueFoundInText
  dsimp only
  rw [if_pos hpos.ne']
  rfl

theorem valueFoundInText_error {value : PyFloat} (h : value.toRat? = none)
    (scale : Option String) (text : String) :
    exists exc, valueFoundInText u value scale text = .error exc := by
  have hpos := scaleMultiplier_pos u scale
  unfold valueFoundInText
  dsimp only
  rw [if_pos hpos.ne']
  cases value with
  | finite q => cases h
  | inf negative => exact ⟨_, rfl⟩
  | nan => exact ⟨_, rfl⟩

theorem valueFoundInText_iff {value : PyFloat} {scale : Option String}
    {text : String} :
    valueFoundInText u value scale text = .ok true <->
      Findable u value scale text := by
  rcases hvalue : value.toRat? with _ | q
  · rcases valueFoundInText_error (u := u) hvalue scale text with ⟨exc, herror⟩
    rw [herror]
    constructor
    · intro hok
      cases hok
    · intro hall
      rcases hall with ⟨q, rfl, _⟩
      cases hvalue
  · rcases PyFloat.toRat?_eq_some.mp hvalue with rfl
    rw [valueFoundInText_finite, Except.ok.injEq, List.any_eq_true]
    constructor
    · intro hall
      rcases hall with ⟨v, hv, hfound⟩
      rw [Bool.and_eq_true, search_figure, Bool.not_eq_true',
        decide_eq_false_iff_not, not_lt] at hfound
      exact ⟨q, rfl, v, hv, hfound⟩
    · intro hall
      rcases hall with ⟨q', hq', v, hv, hcount, hbounded⟩
      cases hq'
      refine ⟨v, hv, ?_⟩
      rw [Bool.and_eq_true, search_figure, Bool.not_eq_true',
        decide_eq_false_iff_not, not_lt]
      exact ⟨hcount, hbounded⟩

/-- The quotient 1.015 is rounded down to a double, and a half is not rounded up then. -/
example :
    valueFoundInText .ascii (.finite 1015000) (some "millions") "1.01" = .ok true ∧
      valueFoundInText .ascii (.finite 1015000) (some "millions") "1.02" = .ok false := by
  decide +kernel

theorem valueFoundInText_cases (u : PyText) (value : PyFloat)
    (scale : Option String) (text : String) :
    (valueFoundInText u value scale text = .ok true ∧
        Findable u value scale text) ∨
      (valueFoundInText u value scale text = .ok false ∧
        ¬ Findable u value scale text ∧ value.toRat? ≠ none) ∨
      (exists exc, valueFoundInText u value scale text = .error exc ∧
        value.toRat? = none) := by
  rcases hvalue : value.toRat? with _ | q
  · rcases valueFoundInText_error (u := u) hvalue scale text with ⟨exc, herror⟩
    exact .inr (.inr ⟨exc, herror, rfl⟩)
  · rcases PyFloat.toRat?_eq_some.mp hvalue with rfl
    rcases hfound : valueFoundInText u (.finite q) scale text with exc | found
    · rw [valueFoundInText_finite] at hfound
      cases hfound
    · cases found with
      | true => exact .inl ⟨rfl, valueFoundInText_iff.mp hfound⟩
      | false =>
          refine .inr (.inl ⟨rfl, ?_, Option.some_ne_none q⟩)
          intro hfindable
          rw [valueFoundInText_iff.mpr hfindable] at hfound
          cases hfound

theorem toRat?_of_findable {value : PyFloat} {scale : Option String}
    {text : String} (h : Findable u value scale text) : value.toRat? ≠ none := by
  rcases h with ⟨q, rfl, _⟩
  exact Option.some_ne_none q

/-!
# The checks
-/

/-- Every figure that the numeric check looks at stands to its chunk as `P` says:
each operand to the chunk it cites, and without operands the value to some
cited chunk. -/
structure EachFigure (P : Int -> PyFloat -> Option String -> String -> Prop)
    (ctx : GateContext) (answer : GateAnswer) : Prop where
  operands : forall op, op ∈ answer.operands ->
    exists text, ctx.chunkTextById op.citationChunkId = some text ∧
      P op.citationChunkId op.value (ctx.chunkScaleById op.citationChunkId) text
  value : answer.operands = [] -> forall value, answer.value = some value ->
    exists c, c ∈ answer.citations ∧
      exists text, ctx.chunkTextById c.chunkId = some text ∧
        P c.chunkId value (orElse (ctx.chunkScaleById c.chunkId) answer.scale) text

theorem EachFigure.mono {P Q : Int -> PyFloat -> Option String -> String -> Prop}
    (h : EachFigure P ctx answer)
    (hPQ : forall id value scale text, id ∈ citedIds answer ->
      P id value scale text -> Q id value scale text) :
    EachFigure Q ctx answer := by
  unfold citedIds at hPQ
  constructor
  · intro op hop
    rcases h.operands op hop with ⟨text, htext, hP⟩
    exact ⟨text, htext, hPQ _ _ _ _
      (List.mem_append_right _ (List.mem_map_of_mem hop)) hP⟩
  · intro hnil value hvalue
    rcases h.value hnil value hvalue with ⟨c, hc, text, htext, hP⟩
    exact ⟨c, hc, text, htext, hPQ _ _ _ _
      (List.mem_append_left _ (List.mem_map_of_mem hc)) hP⟩

def OperandFindable (u : PyText) (ctx : GateContext) (op : Operand) : Prop :=
  exists text, ctx.chunkTextById op.citationChunkId = some text ∧
    Findable u op.value (ctx.chunkScaleById op.citationChunkId) text

def ValueFindable (u : PyText) (ctx : GateContext) (scale : Option String)
    (value : PyFloat) (c : Citation) : Prop :=
  exists text, ctx.chunkTextById c.chunkId = some text ∧
    Findable u value (orElse (ctx.chunkScaleById c.chunkId) scale) text

theorem passes_search {value : PyFloat} {scale : Option String} {text : String}
    {hit miss : Except Exn GateResult} :
    Passes (do
        let found ← valueFoundInText u value scale text
        if found then hit else miss) <->
      (Findable u value scale text ∧ Passes hit) ∨
        (¬ Findable u value scale text ∧ value.toRat? ≠ none ∧ Passes miss) := by
  rcases valueFoundInText_cases u value scale text with
    ⟨hok, hfound⟩ | ⟨hok, hfound, hvalue⟩ | ⟨exc, herror, hvalue⟩
  · rw [hok]
    simp [hfound, bind, Except.bind]
  · rw [hok]
    simp [hfound, hvalue, bind, Except.bind]
  · have hfound : ¬ Findable u value scale text :=
      fun hfindable => toRat?_of_findable hfindable hvalue
    rw [herror]
    simp [hfound, hvalue, bind, Except.bind]

theorem raises_search {value : PyFloat} {scale : Option String} {text : String}
    {hit miss : Except Exn GateResult} :
    Raises (do
        let found ← valueFoundInText u value scale text
        if found then hit else miss) <->
      value.toRat? = none ∨ (Findable u value scale text ∧ Raises hit) ∨
        (¬ Findable u value scale text ∧ value.toRat? ≠ none ∧ Raises miss) := by
  rcases valueFoundInText_cases u value scale text with
    ⟨hok, hfound⟩ | ⟨hok, hfound, hvalue⟩ | ⟨exc, herror, hvalue⟩
  · rw [hok]
    simp [hfound, toRat?_of_findable hfound, bind, Except.bind]
  · rw [hok]
    simp [hfound, hvalue, bind, Except.bind]
  · rw [herror]
    simp [hvalue, bind, Except.bind]

theorem passes_checkOperands {ops : List Operand} :
    Passes (checkOperands u ctx ops) <->
      forall op, op ∈ ops -> OperandFindable u ctx op := by
  induction ops with
  | nil => simp [checkOperands]
  | cons op rest ih =>
      rw [List.forall_mem_cons, ← ih, checkOperands]
      unfold OperandFindable
      rcases htext : ctx.chunkTextById op.citationChunkId with _ | text
      · simp
      · simp only [passes_search]
        simp

theorem passes_checkCitations {scale : Option String} {value : PyFloat}
    {cs : List Citation} :
    Passes (checkCitations u ctx scale value cs) <->
      exists c, c ∈ cs ∧ ValueFindable u ctx scale value c := by
  induction cs with
  | nil => simp [checkCitations]
  | cons c rest ih =>
      rw [List.exists_mem_cons_iff, ← ih, checkCitations]
      unfold ValueFindable
      rcases htext : ctx.chunkTextById c.chunkId with _ | text
      · simp
      · simp only [passes_search, passes_ok, pass_passed, and_true,
          Option.some.injEq, exists_eq_left']
        constructor
        · intro hcases
          rcases hcases with hfound | ⟨_, _, hrest⟩
          · exact .inl hfound
          · exact .inr hrest
        · intro hcases
          rcases hcases with hfound | hrest
          · exact .inl hfound
          · by_cases hfound : Findable u value
                (orElse (ctx.chunkScaleById c.chunkId) scale) text
            · exact .inl hfound
            · rcases ih.mp hrest with ⟨_, _, _, _, hother⟩
              exact .inr ⟨hfound, toRat?_of_findable hother, hrest⟩

theorem raises_checkOperands {ops : List Operand} :
    Raises (checkOperands u ctx ops) <->
      exists before op after, ops = before ++ op :: after ∧
        (forall earlier, earlier ∈ before -> OperandFindable u ctx earlier) ∧
          (ctx.chunkTextById op.citationChunkId).isSome ∧
            op.value.toRat? = none := by
  induction ops with
  | nil => simp [checkOperands]
  | cons op rest ih =>
      rw [checkOperands]
      rcases htext : ctx.chunkTextById op.citationChunkId with _ | text
      · simp only [not_raises_ok, false_iff]
        intro hall
        rcases hall with ⟨before, op', after, hsplit, hbefore, hsome, _⟩
        cases before with
        | nil =>
            cases hsplit
            rw [htext] at hsome
            cases hsome
        | cons first before =>
            cases hsplit
            rcases hbefore op List.mem_cons_self with ⟨text, hother, _⟩
            rw [htext] at hother
            cases hother
      · simp only [raises_search, not_raises_ok, and_false, or_false, ih]
        constructor
        · intro hcases
          rcases hcases with hvalue | ⟨hfound, before, op', after, rfl, hbefore, hlast⟩
          · exact ⟨[], op, rest, rfl, by simp, by rw [htext]; rfl, hvalue⟩
          · refine ⟨op :: before, op', after, rfl, ?_, hlast⟩
            rw [List.forall_mem_cons]
            exact ⟨⟨text, htext, hfound⟩, hbefore⟩
        · intro hall
          rcases hall with ⟨before, op', after, hsplit, hbefore, hlast⟩
          cases before with
          | nil =>
              cases hsplit
              exact .inl hlast.2
          | cons first before =>
              cases hsplit
              rw [List.forall_mem_cons] at hbefore
              rcases hbefore with ⟨⟨text', htext', hfound⟩, hbefore⟩
              rw [htext] at htext'
              cases htext'
              exact .inr ⟨hfound, before, op', after, rfl, hbefore, hlast⟩

theorem raises_checkCitations {scale : Option String} {value : PyFloat}
    {cs : List Citation} :
    Raises (checkCitations u ctx scale value cs) <->
      value.toRat? = none ∧
        exists c, c ∈ cs ∧ (ctx.chunkTextById c.chunkId).isSome := by
  induction cs with
  | nil => simp [checkCitations]
  | cons c rest ih =>
      rw [List.exists_mem_cons_iff, checkCitations]
      rcases htext : ctx.chunkTextById c.chunkId with _ | text
      · simpa using ih
      · simp only [raises_search, not_raises_ok, and_false, false_or, ih]
        constructor
        · intro hcases
          rcases hcases with hvalue | ⟨_, hvalue, hnone, _⟩
          · exact ⟨hvalue, .inl rfl⟩
          · exact absurd hnone hvalue
        · intro hall
          rcases hall with ⟨hvalue, _⟩
          exact .inl hvalue

theorem passes_checkL3aNumeric :
    Passes (checkL3aNumeric u answer ctx) <->
      EachFigure (fun _ => Findable u) ctx answer := by
  unfold checkL3aNumeric
  by_cases hops : answer.operands = []
  · rw [if_neg (not_not.mpr hops)]
    rcases hvalue : answer.value with _ | value
    · constructor
      · intro _
        refine ⟨by simp [hops], ?_⟩
        intro _ value hsome
        rw [hvalue] at hsome
        cases hsome
      · intro _
        simp
    · simp only [passes_checkCitations]
      constructor
      · intro hfound
        refine ⟨by simp [hops], ?_⟩
        intro _ value' hsome
        rw [hvalue] at hsome
        cases hsome
        exact hfound
      · intro hfound
        exact hfound.value hops value hvalue
  · rw [if_pos hops, passes_checkOperands]
    constructor
    · intro hfound
      exact ⟨hfound, fun hnil => absurd hnil hops⟩
    · intro hfound
      exact hfound.operands

theorem raises_checkL3aNumeric :
    Raises (checkL3aNumeric u answer ctx) <->
      (exists before op after, answer.operands = before ++ op :: after ∧
        (forall earlier, earlier ∈ before -> OperandFindable u ctx earlier) ∧
          (ctx.chunkTextById op.citationChunkId).isSome ∧
            op.value.toRat? = none) ∨
      (answer.operands = [] ∧ exists value, answer.value = some value ∧
        value.toRat? = none ∧
          exists c, c ∈ answer.citations ∧ (ctx.chunkTextById c.chunkId).isSome) := by
  unfold checkL3aNumeric
  by_cases hops : answer.operands = []
  · rw [if_neg (not_not.mpr hops)]
    rcases answer.value with _ | value
    · simp [hops]
    · simp [hops, raises_checkCitations]
  · rw [if_pos hops, raises_checkOperands]
    simp [hops]

/-!
# The gate
-/

theorem passes_runLayer {requested : Bool} {check next : Except Exn GateResult} :
    Passes (runLayer requested check next) <->
      (requested = true -> Passes check) ∧ Passes next := by
  unfold runLayer
  cases requested with
  | false => simp
  | true =>
      rcases check with exc | ⟨passed, reason⟩
      · simp [bind, Except.bind]
      · cases passed <;> simp [bind, Except.bind]

theorem raises_runLayer {requested : Bool} {check next : Except Exn GateResult} :
    Raises (runLayer requested check next) <->
      (requested = true ∧ Raises check) ∨
        ((requested = true -> Passes check) ∧ Raises next) := by
  unfold runLayer
  cases requested with
  | false => simp
  | true =>
      rcases check with exc | ⟨passed, reason⟩
      · simp [bind, Except.bind]
      · cases passed <;> simp [bind, Except.bind]

variable {l3bThreshold l1Threshold : PyFloat}
  {l1Margin : Option (PyFloat × Option PyFloat)}

theorem passes_applyGate :
    Passes (applyGate u rerank answer ctx liveGateLayers l3bThreshold l1Margin
        l1Threshold) <->
      (checkL2 answer ctx).passed = true ∧
        Passes (checkL3aNumeric u answer ctx) ∧
          (checkL3bProse u rerank answer ctx l3bThreshold).passed = true := by
  unfold applyGate liveGateLayers
  simp [passes_runLayer]

theorem raises_applyGate :
    Raises (applyGate u rerank answer ctx liveGateLayers l3bThreshold l1Margin
        l1Threshold) <->
      (checkL2 answer ctx).passed = true ∧
        Raises (checkL3aNumeric u answer ctx) := by
  unfold applyGate liveGateLayers
  simp [raises_runLayer]

theorem checkL2_passed :
    (checkL2 answer ctx).passed = true <->
      answer.sufficient = true ∧
        forall id, id ∈ citedIds answer -> id ∈ ctx.retrievedChunkIds := by
  unfold checkL2
  cases answer.sufficient with
  | false => simp
  | true =>
      dsimp only [Bool.not_true]
      rw [if_neg (by decide)]
      split
      next hunknown =>
        rw [ne_eq, List.filter_eq_nil_iff] at hunknown
        simpa using hunknown
      next hknown =>
        rw [ne_eq, not_not, List.filter_eq_nil_iff] at hknown
        simpa using hknown

end ChatDoc
