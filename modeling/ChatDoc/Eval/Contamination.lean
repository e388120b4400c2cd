import ChatDoc.Eval.Runner

/-!
# Whose generation is read

The cache tells generations apart by run id and question id only, and a negative
keeps the question id of the answerable question it was made from.  So what an
ablation reads belongs to the record it grades exactly when no generation was
recorded under a key that is graded as something else.
-/

namespace ChatDoc

open Foundation

/-!
# Properties
-/

/-- The generation was made for this record of this split. -/
def Ablation.Graded.Owns (g : Ablation.Graded) (generation : CachedGeneration) : Prop :=
  generation.record = g.record ∧ generation.split = g.split

instance (g : Ablation.Graded) (generation : CachedGeneration) :
    Decidable (g.Owns generation) :=
  inferInstanceAs (Decidable (_ ∧ _))

/-- Everything the ablation reads was made for what it grades. -/
def Ablation.Uncontaminated (a : Ablation) (u : PyText) (d : Dataset)
    (cache : GenerationCache CachedGeneration) : Prop :=
  forall cached, a.loadCached u d cache = .ok cached ->
    forall entry, entry ∈ cached -> entry.1.Owns entry.2

def RunLoop.recorded (loop : RunLoop) (cache : GenerationCache CachedGeneration) :
    GuardOutcome -> Option (String × CachedGeneration)
  | .returned ctx result =>
      match loop.remaining with
      | [] => none
      | record :: _ =>
          if cache.alreadyHasRunResult loop.runId record.financebenchId ||
              loop.dryRun then none
          else
            (generationOf loop.split record ctx result).map fun generation =>
              (loop.runId, generation)
  | _ => none

def EvalState.recorded (s : EvalState) : EvalAction -> Option (String × CachedGeneration)
  | .next outcome => s.running.bind fun loop => loop.recorded s.cache outcome
  | _ => none

/-- Whatever the ablation grades under the run id and the question id of a
generation that is recorded is the record and the split of this generation. -/
def Ablation.KeepsApart (a : Ablation) (u : PyText) (d : Dataset) (s : EvalState)
    (action : EvalAction) : Prop :=
  forall runId generation, s.recorded action = some (runId, generation) ->
    forall graded, a.graded u d = .ok graded ->
      forall g, g ∈ graded -> g.runId = runId ->
        g.record.financebenchId = generation.record.financebenchId ->
          g.Owns generation

/-!
# A step
-/

theorem generationOf_record {split : Split} {record : EvalRecord}
    {ctx : RetrievalContext} {result : StructuredResult}
    {generation : CachedGeneration}
    (h : generationOf split record ctx result = some generation) :
    generation.record = record := by
  unfold generationOf at h
  split at h
  · cases h
    rfl
  · cases h

def Recorded (cache cache' : GenerationCache CachedGeneration) :
    Option (String × CachedGeneration) -> Prop
  | none => cache' = cache
  | some (runId, generation) =>
      cache.find runId generation.record.financebenchId = none ∧
        cache' = cache.record runId generation.record.financebenchId generation

theorem round_recorded (loop : RunLoop) (cache : GenerationCache CachedGeneration)
    (outcome : GuardOutcome) :
    Recorded cache (loop.round cache outcome).cache (loop.recorded cache outcome) := by
  unfold RunLoop.round RunLoop.recorded
  cases hremaining : loop.remaining with
  | nil => cases outcome <;> exact rfl
  | cons record rest =>
      dsimp only
      cases hcached : cache.alreadyHasRunResult loop.runId record.financebenchId with
      | true => cases outcome <;> exact rfl
      | false =>
          rw [if_neg (by decide)]
          cases hdry : loop.dryRun with
          | true =>
              rw [if_pos rfl]
              cases servedDocAndExclusions record loop.split <;>
                cases outcome <;> exact rfl
          | false =>
              rw [if_neg (by decide)]
              cases outcome with
              | quotaExceeded => exact rfl
              | raised => exact rfl
              | returned ctx result =>
                  dsimp only
                  rw [if_neg (by decide)]
                  cases hgeneration : generationOf loop.split record ctx result with
                  | none => exact rfl
                  | some generation =>
                      have hrecord := generationOf_record hgeneration
                      have hfree := Option.not_isSome_iff_eq_none.mp
                        (Bool.eq_false_iff.mp hcached)
                      subst hrecord
                      exact ⟨hfree, rfl⟩

theorem evalAct_recorded {u : PyText} {d : Dataset} {s s' : EvalState}
    {action : EvalAction} (hact : evalAct u d s action = some s') :
    Recorded s.cache s'.cache (s.recorded action) := by
  cases action with
  | invoke i =>
      unfold evalAct at hact
      dsimp only at hact
      split at hact
      next => cases hact
      next =>
        split at hact
        next =>
          cases hact
          exact rfl
        next =>
          split at hact
          next =>
            cases hact
            exact rfl
          next =>
            cases hact
            exact rfl
  | next outcome =>
      rcases Option.map_eq_some_iff.mp hact with ⟨loop, hloop, rfl⟩
      unfold EvalState.recorded
      dsimp only
      rw [hloop, Option.bind_some]
      exact round_recorded loop s.cache outcome
  | killed =>
      cases hact
      exact rfl

/-!
# The ablation
-/

theorem uncontaminated_iff {a : Ablation} {u : PyText} {d : Dataset}
    {cache : GenerationCache CachedGeneration} :
    a.Uncontaminated u d cache <->
      forall graded, a.graded u d = .ok graded ->
        forall g, g ∈ graded -> forall generation,
          cache.getRunResult g.runId g.record.financebenchId = some generation ->
            g.Owns generation := by
  unfold Ablation.Uncontaminated Ablation.loadCached
  cases hgraded : a.graded u d with
  | error exc =>
      constructor
      · intro _ graded hok
        cases hok
      · intro _ cached hok
        cases hok
  | ok graded =>
      constructor
      · intro hall graded' hok g hg generation hread
        cases hok
        apply hall _ rfl (g, generation)
        rw [List.mem_filterMap]
        refine ⟨g, hg, ?_⟩
        rw [hread]
        rfl
      · intro hall cached hok entry hentry
        cases hok
        rcases List.mem_filterMap.mp hentry with ⟨g, hg, hread⟩
        rcases Option.map_eq_some_iff.mp hread with ⟨generation, hfound, rfl⟩
        exact hall graded rfl g hg generation hfound

theorem uncontaminated_step {a : Ablation} {u : PyText} {d : Dataset}
    {s s' : EvalState} {action : EvalAction}
    (hact : evalAct u d s action = some s') :
    a.Uncontaminated u d s'.cache <->
      a.Uncontaminated u d s.cache ∧ a.KeepsApart u d s action := by
  have hrecorded := evalAct_recorded hact
  unfold Ablation.KeepsApart
  rw [uncontaminated_iff, uncontaminated_iff]
  cases hwhat : s.recorded action with
  | none =>
      rw [hwhat] at hrecorded
      rw [show s'.cache = s.cache from hrecorded]
      constructor
      · intro hall
        refine ⟨hall, ?_⟩
        intro runId generation hnone
        cases hnone
      · intro hall
        exact hall.1
  | some entry =>
      rcases entry with ⟨runId, generation⟩
      rw [hwhat] at hrecorded
      rcases hrecorded with ⟨hfree, hcache⟩
      have hnew : s'.cache.getRunResult runId generation.record.financebenchId =
          some generation := by
        rw [hcache, GenerationCache.getRunResult_record_self]
      have hold {runId' questionId' : String}
          (hne : (runId', questionId') ≠
            (runId, generation.record.financebenchId)) :
          s'.cache.getRunResult runId' questionId' =
            s.cache.getRunResult runId' questionId' := by
        unfold GenerationCache.getRunResult
        rw [hcache, GenerationCache.find_record_of_ne _ _ hne]
      have hnone : s.cache.getRunResult runId generation.record.financebenchId =
          none := by
        unfold GenerationCache.getRunResult
        rw [hfree]
        rfl
      constructor
      · intro hall
        constructor
        · intro graded hgraded g hg generation' hread
          apply hall graded hgraded g hg
          rw [hold, hread]
          intro hkey
          rcases Prod.mk.inj hkey with ⟨hrun, hquestion⟩
          rw [hrun, hquestion, hnone] at hread
          cases hread
        · intro runId' generation' hsome graded hgraded g hg hrun hquestion
          cases hsome
          apply hall graded hgraded g hg
          rw [hrun, hquestion, hnew]
      · intro hall graded hgraded g hg generation' hread
        by_cases hkey : (g.runId, g.record.financebenchId) =
            (runId, generation.record.financebenchId)
        · rcases Prod.mk.inj hkey with ⟨hrun, hquestion⟩
          rw [hrun, hquestion, hnew] at hread
          cases hread
          exact hall.2 runId generation rfl graded hgraded g hg hrun hquestion
        · rw [hold hkey] at hread
          exact hall.1 graded hgraded g hg generation' hread

/-- What the ablation reads after any run belongs to the records that it grades
exactly when every generation was recorded under a key that is graded as nothing
else. -/
theorem uncontaminated_iff_keepsApart (a : Ablation) (u : PyText) (d : Dataset)
    {trace : List (EvalState × EvalAction)} {s : EvalState}
    (hrun : Run (evalAct u d) .init trace s) :
    a.Uncontaminated u d s.cache <-> EachStep (a.KeepsApart u d) trace := by
  refine hrun.final_iff ?_ fun _ _ _ hact => uncontaminated_step hact
  rw [uncontaminated_iff]
  intro graded _ g _ generation hread
  cases hread

/-!
# One run id for all splits

The negative was made from the answerable question, and its evidence page is
taken away.  Under the run id of the answerable split it is never run, and the
ablation grades it by the generation of the answerable question.
-/

def sharedDataset : Dataset where
  answerable := [⟨"q1", "What was revenue?", some "X", none, none, none,
    some (.finite 577)⟩]
  negatives := [⟨"q1", "What was revenue?", none, some "X", some [3], some "n1",
    some (.finite 577)⟩]

def sharedContext : RetrievalContext :=
  ⟨[(⟨7, 3, "revenue 577", none, none, none, none, none⟩, .finite 1)]⟩

def sharedResult : StructuredResult where
  text := ""
  parsed := ⟨true, some (.finite 577), none, none, [], none, [⟨7, "577"⟩]⟩
  promptTokens := none
  completionTokens := none
  latencyMs := .finite 0

def sharedSchedule : List EvalAction :=
  [.invoke ⟨.answerable, some "r", none, false, ""⟩,
   .next (.returned sharedContext sharedResult), .next .raised,
   .invoke ⟨.n1, some "r", none, false, ""⟩,
   .next (.returned sharedContext sharedResult), .next .raised]

def sharedAblation : Ablation where
  runId := some "r"
  overrides := []
  negSplits := [.n1]

theorem uncontaminated_shared :
    exists trace s, Run (evalAct .ascii sharedDataset) .init trace s ∧
      (sharedAblation.Uncontaminated .ascii sharedDataset s.cache <->
        EachStep (sharedAblation.KeepsApart .ascii sharedDataset) trace) := by
  have hfollow : (follow (evalAct .ascii sharedDataset) .init sharedSchedule).any
      (fun _ => true) = true := by
    decide +kernel
  rcases exists_run_of_follow (fun _ _ => true) hfollow with ⟨trace, s, hrun, _⟩
  exact ⟨trace, s, hrun, uncontaminated_iff_keepsApart sharedAblation .ascii
    sharedDataset hrun⟩

def loadsForeign (s : EvalState) : Bool :=
  match sharedAblation.loadCached .ascii sharedDataset s.cache with
  | .ok cached => cached.any fun entry => !decide (entry.1.Owns entry.2)
  | .error _ => false

theorem exists_contaminated :
    ¬ forall (a : Ablation) (u : PyText) (d : Dataset)
      (trace : List (EvalState × EvalAction)) (s : EvalState),
        Run (evalAct u d) .init trace s -> a.Uncontaminated u d s.cache := by
  intro hall
  have hfollow : (follow (evalAct .ascii sharedDataset) .init sharedSchedule).any
      (fun out => loadsForeign out.2) = true := by
    decide +kernel
  rcases exists_run_of_follow (fun _ s => loadsForeign s) hfollow with
    ⟨trace, s, hrun, hbad⟩
  unfold loadsForeign at hbad
  have hclean := hall sharedAblation .ascii sharedDataset trace s hrun
  cases hcached : sharedAblation.loadCached .ascii sharedDataset s.cache with
  | error exc =>
      rw [hcached] at hbad
      cases hbad
  | ok cached =>
      rw [hcached] at hbad
      rcases List.any_eq_true.mp hbad with ⟨entry, hentry, hforeign⟩
      rw [Bool.not_eq_true', decide_eq_false_iff_not] at hforeign
      exact hforeign (hclean cached hcached entry hentry)

end ChatDoc
