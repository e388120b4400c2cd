import Mathlib.Order.ConditionallyCompleteLattice.Basic
import Mathlib.Data.Int.ConditionallyCompleteOrder
import Mathlib.Data.List.Sort
import Mathlib.Order.WithBot

/-!
# The citations of an answer, page by page

`groupByPage` of `web/src/routes/ChatPage.tsx`: a stable sort with the citations without a
page at the end, and a pass that merges into the last group.
-/

namespace ChatDoc

/-!
# The function
-/

/-- `Citation` of `lib/queryStream.ts`. -/
structure WebCitation where
  chunkId : Int
  page : Option Int
  quote : String
  bbox : Option (Rat × Rat × Rat × Rat)

structure CitationGroup where
  page : Option Int
  citations : List WebCitation

def comparePages (a b : WebCitation) : Int :=
  match a.page, b.page with
  | none, none => 0
  | none, some _ => 1
  | some _, none => -1
  | some p, some q => p - q

/-- `[...citations].sort(...)`. -/
def sortByPage (citations : List WebCitation) : List WebCitation :=
  citations.mergeSort fun a b => comparePages a b <= 0

/-- The body of the loop. -/
def addCitation (groups : List CitationGroup) (c : WebCitation) : List CitationGroup :=
  match groups.getLast? with
  | some last =>
      if last.page ≠ none ∧ last.page = c.page then
        groups.dropLast ++ [{ last with citations := last.citations ++ [c] }]
      else groups ++ [⟨c.page, [c]⟩]
  | none => groups ++ [⟨c.page, [c]⟩]

def groupByPage (citations : List WebCitation) : List CitationGroup :=
  (sortByPage citations).foldl addCitation []

/-!
# The sort
-/

/-- The pages with the missing one at the end. -/
def WebCitation.rank (c : WebCitation) : WithTop Int := c.page

def CitationGroup.rank (g : CitationGroup) : WithTop Int := g.page

theorem comparePages_le (a b : WebCitation) : comparePages a b <= 0 <-> a.rank <= b.rank := by
  rcases a with ⟨_, _ | p, _, _⟩ <;> rcases b with ⟨_, _ | q, _, _⟩
  · exact iff_of_true (Int.le_refl 0) le_rfl
  · have hpos : ¬ (1 : Int) <= 0 := by decide
    exact iff_of_false hpos (not_le.mpr (WithTop.coe_lt_top q))
  · have hneg : (-1 : Int) <= 0 := by decide
    exact iff_of_true hneg le_top
  · have hsub : p - q <= 0 <-> p <= q := by omega
    exact hsub.trans WithTop.coe_le_coe.symm

theorem sortByPage_eq (citations : List WebCitation) :
    sortByPage citations = citations.mergeSort fun a b => decide (a.rank <= b.rank) := by
  unfold sortByPage
  congr 1
  funext a b
  exact decide_eq_decide.mpr (comparePages_le a b)

theorem perm_sortByPage (citations : List WebCitation) :
    (sortByPage citations).Perm citations :=
  List.mergeSort_perm _ _

theorem rank_trans (a b c : WebCitation) (hab : decide (a.rank <= b.rank) = true)
    (hbc : decide (b.rank <= c.rank) = true) : decide (a.rank <= c.rank) = true :=
  decide_eq_true (le_trans (of_decide_eq_true hab) (of_decide_eq_true hbc))

theorem rank_total (a b : WebCitation) :
    (decide (a.rank <= b.rank) || decide (b.rank <= a.rank)) = true := by
  rw [Bool.or_eq_true, decide_eq_true_eq, decide_eq_true_eq]
  exact le_total a.rank b.rank

theorem sorted_sortByPage (citations : List WebCitation) :
    (sortByPage citations).Pairwise fun a b => a.rank <= b.rank := by
  rw [sortByPage_eq]
  exact (List.pairwise_mergeSort rank_trans rank_total citations).imp of_decide_eq_true

theorem filter_sortByPage (citations : List WebCitation) (page : Option Int) :
    (sortByPage citations).filter (fun c => c.page = page) =
      citations.filter fun c => c.page = page := by
  have hpage : forall c, c ∈ (citations.filter fun c => c.page = page) -> c.page = page :=
    fun c hc => of_decide_eq_true (List.mem_filter.mp hc).right
  have htied : (citations.filter fun c => c.page = page).Pairwise
      fun a b => decide (a.rank <= b.rank) = true := by
    apply List.pairwise_of_forall_mem_list
    intro a ha b hb
    have hsame : a.rank = b.rank := (hpage a ha).trans (hpage b hb).symm
    exact decide_eq_true (le_of_eq hsame)
  have hkept : (citations.filter fun c => c.page = page).Sublist
      ((sortByPage citations).filter fun c => c.page = page) := by
    rw [sortByPage_eq]
    have hsub := (List.sublist_mergeSort rank_trans rank_total htied
      List.filter_sublist).filter fun c => decide (c.page = page)
    simpa only [List.filter_filter, Bool.and_self] using hsub
  exact (hkept.eq_of_length_le
    ((perm_sortByPage citations).filter _).length_eq.le).symm

/-!
# The groups
-/

structure Grouped (done : List WebCitation) (groups : List CitationGroup) : Prop where
  flat : groups.flatMap CitationGroup.citations = done
  nonempty : forall g, g ∈ groups -> g.citations ≠ []
  same : forall g, g ∈ groups -> forall c, c ∈ g.citations -> c.page = g.page
  alone : forall g, g ∈ groups -> g.page = none -> exists c, g.citations = [c]
  apart : groups.Pairwise fun g g' => g.rank <= g'.rank ∧ (g.page = g'.page -> g.page = none)

variable {done : List WebCitation} {groups : List CitationGroup} {c : WebCitation}

theorem addCitation_nil (c : WebCitation) : addCitation [] c = [⟨c.page, [c]⟩] := rfl

theorem addCitation_merge {last : CitationGroup} (hpage : last.page ≠ none)
    (hsame : last.page = c.page) :
    addCitation (groups ++ [last]) c =
      groups ++ [{ last with citations := last.citations ++ [c] }] := by
  rw [addCitation, List.getLast?_concat]
  dsimp only
  rw [if_pos ⟨hpage, hsame⟩, List.dropLast_concat]

theorem addCitation_push {last : CitationGroup}
    (h : ¬ (last.page ≠ none ∧ last.page = c.page)) :
    addCitation (groups ++ [last]) c = groups ++ [last] ++ [⟨c.page, [c]⟩] := by
  rw [addCitation, List.getLast?_concat]
  dsimp only
  rw [if_neg h]

theorem Grouped.rank_le (h : Grouped done groups) (hc : forall d, d ∈ done -> d.rank <= c.rank)
    {g : CitationGroup} (hg : g ∈ groups) : g.rank <= c.rank := by
  rcases List.exists_mem_of_ne_nil _ (h.nonempty g hg) with ⟨d, hd⟩
  have hseen : d ∈ done := by
    rw [← h.flat]
    exact List.mem_flatMap.mpr ⟨g, hg, hd⟩
  have hrank : d.rank = g.rank := h.same g hg d hd
  exact hrank ▸ hc d hseen

theorem Grouped.push (h : Grouped done groups)
    (happart : forall g, g ∈ groups -> g.rank <= c.rank ∧ (g.page = c.page -> g.page = none)) :
    Grouped (done ++ [c]) (groups ++ [⟨c.page, [c]⟩]) where
  flat := by
    rw [List.flatMap_append, h.flat]
    simp
  nonempty := List.forall_mem_append.mpr ⟨h.nonempty, by simp⟩
  same := List.forall_mem_append.mpr ⟨h.same, by simp⟩
  alone := List.forall_mem_append.mpr ⟨h.alone, by simp⟩
  apart := by
    refine List.pairwise_append.mpr ⟨h.apart, List.pairwise_singleton _ _, ?_⟩
    intro g hg g' hg'
    rw [List.mem_singleton.mp hg']
    exact happart g hg

theorem Grouped.merge {last : CitationGroup} (h : Grouped done (groups ++ [last]))
    (hpage : last.page ≠ none) (hsame : last.page = c.page) :
    Grouped (done ++ [c]) (groups ++ [{ last with citations := last.citations ++ [c] }]) where
  flat := by
    rw [← h.flat, List.flatMap_append, List.flatMap_append]
    simp
  nonempty := by
    rcases List.forall_mem_append.mp h.nonempty with ⟨hgroups, _⟩
    exact List.forall_mem_append.mpr ⟨hgroups, by simp⟩
  same := by
    rcases List.forall_mem_append.mp h.same with ⟨hgroups, hlast⟩
    refine List.forall_mem_append.mpr ⟨hgroups, ?_⟩
    intro g hg d hd
    rw [List.mem_singleton.mp hg] at hd ⊢
    rcases List.mem_append.mp hd with hin | hnew
    · exact hlast last List.mem_cons_self d hin
    · rw [List.mem_singleton.mp hnew]
      exact hsame.symm
  alone := by
    rcases List.forall_mem_append.mp h.alone with ⟨hgroups, _⟩
    refine List.forall_mem_append.mpr ⟨hgroups, ?_⟩
    intro g hg hnone
    rw [List.mem_singleton.mp hg] at hnone
    exact absurd hnone hpage
  apart := by
    rcases List.pairwise_append.mp h.apart with ⟨hgroups, _, hlast⟩
    refine List.pairwise_append.mpr ⟨hgroups, List.pairwise_singleton _ _, ?_⟩
    intro g hg g' hg'
    rw [List.mem_singleton.mp hg']
    exact hlast g hg last List.mem_cons_self

theorem Grouped.add (h : Grouped done groups) (hc : forall d, d ∈ done -> d.rank <= c.rank) :
    Grouped (done ++ [c]) (addCitation groups c) := by
  rcases List.eq_nil_or_concat groups with rfl | ⟨front, last, hconcat⟩
  · rw [addCitation_nil]
    exact h.push fun g hg => absurd hg List.not_mem_nil
  · rw [List.concat_eq_append] at hconcat
    subst hconcat
    by_cases hmerge : last.page ≠ none ∧ last.page = c.page
    · rw [addCitation_merge hmerge.left hmerge.right]
      exact h.merge hmerge.left hmerge.right
    · rw [addCitation_push hmerge]
      apply h.push
      intro g hg
      refine ⟨h.rank_le hc hg, ?_⟩
      intro hsame
      -- a group of the same page is the last one: the pages between are no larger
      by_contra hpage
      rcases List.mem_append.mp hg with hfront | hlast
      · have hbetween := (List.pairwise_append.mp h.apart).2.2 g hfront last List.mem_cons_self
        have hrank : last.rank <= g.rank := by
          have hle := h.rank_le hc (List.mem_append_right front List.mem_cons_self)
          exact le_of_le_of_eq hle hsame.symm
        have heq : g.rank = last.rank := le_antisymm hbetween.left hrank
        exact hpage (hbetween.right heq)
      · rw [List.mem_singleton.mp hlast] at hpage hsame
        exact hmerge ⟨hpage, hsame⟩

theorem Grouped.foldl {rest : List WebCitation} (h : Grouped done groups)
    (hsorted : (done ++ rest).Pairwise fun a b => a.rank <= b.rank) :
    Grouped (done ++ rest) (rest.foldl addCitation groups) := by
  induction rest generalizing done groups with
  | nil => rwa [List.append_nil]
  | cons c rest ih =>
      have hc : forall d, d ∈ done -> d.rank <= c.rank :=
        fun d hd => (List.pairwise_append.mp hsorted).2.2 d hd c List.mem_cons_self
      rw [List.append_cons] at hsorted ⊢
      exact ih (h.add hc) hsorted

theorem grouped_groupByPage (citations : List WebCitation) :
    Grouped (sortByPage citations) (groupByPage citations) := by
  have hstart : Grouped [] [] := ⟨rfl, nofun, nofun, nofun, .nil⟩
  exact hstart.foldl (sorted_sortByPage citations)

/-- The groups are a partition of the citations, sorted by their pages. -/
theorem groupByPage_partition (citations : List WebCitation) :
    ((groupByPage citations).flatMap CitationGroup.citations).Perm citations ∧
    (forall g, g ∈ groupByPage citations -> g.citations ≠ [] ∧
      forall c, c ∈ g.citations -> c.page = g.page) ∧
    ((groupByPage citations).Pairwise fun g g' => g.page = g'.page -> g.page = none) ∧
    ((groupByPage citations).Pairwise fun g g' =>
      forall p p', g.page = some p -> g'.page = some p' -> p < p') ∧
    (forall g, g ∈ groupByPage citations -> g.page = none -> exists c, g.citations = [c]) ∧
    ((groupByPage citations).Pairwise fun g g' => g.page = none -> g'.page = none) ∧
    forall page : Option Int,
      ((groupByPage citations).flatMap CitationGroup.citations).filter
        (fun c => c.page = page) = citations.filter fun c => c.page = page := by
  have h := grouped_groupByPage citations
  refine ⟨?_, fun g hg => ⟨h.nonempty g hg, h.same g hg⟩, h.apart.imp And.right, ?_,
    h.alone, ?_, ?_⟩
  · rw [h.flat]
    exact perm_sortByPage citations
  · apply h.apart.imp
    intro g g' ⟨hle, hsame⟩ p p' hp hp'
    have hle' : p <= p' := by
      rw [CitationGroup.rank, CitationGroup.rank, hp, hp'] at hle
      exact WithTop.coe_le_coe.mp hle
    apply lt_of_le_of_ne hle'
    intro heq
    rw [hp, hp', heq] at hsame
    cases hsame rfl
  · apply h.apart.imp
    intro g g' ⟨hle, _⟩ hnone
    rw [CitationGroup.rank, hnone] at hle
    exact top_le_iff.mp hle
  · intro page
    rw [h.flat]
    exact filter_sortByPage citations page

end ChatDoc
