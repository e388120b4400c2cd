import ChatDoc.Foundation.Whitespace

/-!
# Texts in pieces

A text comes in pieces, some of them with a gap before them. It is squeezed as a whole, or
piece by piece with a blank in each gap.
-/

namespace Foundation

variable {α : Type}

structure Piece (α : Type) where
  gap : Bool
  text : List α

namespace Spacing

section Definitions

variable (S : Spacing α)

def lead (f : Piece α) : List α :=
  if f.gap then [S.blank] else []

def raw (fs : List (Piece α)) : List α :=
  fs.flatMap fun f => S.lead f ++ f.text

def neat (fs : List (Piece α)) : List α :=
  fs.flatMap fun f => S.lead f ++ S.squeeze f.text

def Follows (f g : Piece α) : Prop :=
  S.ends f.text = true ∨ S.starts g.text = true -> g.gap = true

instance (f g : Piece α) : Decidable (S.Follows f g) := by
  unfold Follows
  infer_instance

/-- The pieces without a character come at the two ends, and the others follow each
other. -/
def Aligned (fs : List (Piece α)) : Prop :=
  exists front core back, fs = front ++ (core ++ back) ∧
    (forall f, f ∈ front -> S.Empty f.text) ∧ (forall f, f ∈ core -> ¬ S.Empty f.text) ∧
    (forall f, f ∈ back -> S.Empty f.text) ∧ core.IsChain S.Follows

end Definitions

variable {S : Spacing α} {fs gs : List (Piece α)} {f g : Piece α}

theorem raw_append (fs gs : List (Piece α)) : S.raw (fs ++ gs) = S.raw fs ++ S.raw gs :=
  List.flatMap_append

theorem neat_append (fs gs : List (Piece α)) : S.neat (fs ++ gs) = S.neat fs ++ S.neat gs :=
  List.flatMap_append

theorem raw_cons : S.raw (f :: fs) = S.lead f ++ (f.text ++ S.raw fs) := by
  rw [raw, List.flatMap_cons, List.append_assoc]
  rfl

theorem neat_cons : S.neat (f :: fs) = S.lead f ++ (S.squeeze f.text ++ S.neat fs) := by
  rw [neat, List.flatMap_cons, List.append_assoc]
  rfl

theorem neat_of_raw_nil (h : S.raw fs = []) : S.neat fs = [] := by
  induction fs with
  | nil => rfl
  | cons f fs ih =>
      rw [raw_cons, List.append_eq_nil_iff, List.append_eq_nil_iff] at h
      rcases h with ⟨hlead, htext, hraw⟩
      rw [neat_cons, hlead, htext, ih hraw]
      rfl

theorem raw_singleton : S.raw [f] = S.lead f ++ f.text := by
  rw [raw_cons]
  exact congrArg _ (List.append_nil _)

theorem neat_singleton : S.neat [f] = S.lead f ++ S.squeeze f.text := by
  rw [neat_cons]
  exact congrArg _ (List.append_nil _)

theorem eq_blank_of_mem_lead {c : α} (h : c ∈ S.lead f) : c = S.blank := by
  unfold lead at h
  split at h
  · exact List.mem_singleton.mp h
  · cases h

theorem length_lead_le (f : Piece α) : (S.lead f).length <= 1 := by
  unfold lead
  split
  · exact Nat.le_refl 1
  · exact Nat.zero_le 1

theorem empty_lead (f : Piece α) : S.Empty (S.lead f) := by
  intro c hc
  rw [eq_blank_of_mem_lead hc]
  exact S.space_blank

theorem empty_append {a b : List α} : S.Empty (a ++ b) <-> S.Empty a ∧ S.Empty b :=
  List.forall_mem_append

theorem empty_raw (h : forall f, f ∈ fs -> S.Empty f.text) : S.Empty (S.raw fs) := by
  intro c hc
  rcases List.mem_flatMap.mp hc with ⟨f, hf, hin⟩
  rcases List.mem_append.mp hin with hlead | htext
  · exact empty_lead f c hlead
  · exact h f hf c htext

theorem eq_blank_of_mem_neat (h : forall f, f ∈ fs -> S.Empty f.text) {c : α}
    (hc : c ∈ S.neat fs) : c = S.blank := by
  rcases List.mem_flatMap.mp hc with ⟨f, hf, hin⟩
  rw [squeeze_eq_nil_iff.mpr (h f hf), List.append_nil] at hin
  exact eq_blank_of_mem_lead hin

theorem squeeze_lead (f : Piece α) : S.squeeze (S.lead f ++ f.text) = S.squeeze f.text :=
  squeeze_append_of_empty_left (empty_lead f)

theorem ends_lead (h : ¬ S.Empty f.text) : S.ends (S.lead f ++ f.text) = S.ends f.text :=
  ends_append (ne_nil_of_not_empty h)

theorem not_empty_lead (h : ¬ S.Empty f.text) : ¬ S.Empty (S.lead f ++ f.text) :=
  fun hempty => h (empty_append.mp hempty).right

/-!
# Aligned pieces
-/

theorem glue_of_follows {a : List α} (ha : ¬ S.Empty a) (hends : S.ends a = S.ends f.text)
    (hg : ¬ S.Empty g.text) (h : S.Follows f g) :
    S.glue a (S.lead g ++ g.text) = S.lead g := by
  rw [glue_eq_of_not_empty ha (not_empty_lead hg), hends]
  unfold lead
  cases hgap : g.gap with
  | true =>
      rw [if_pos rfl, if_pos]
      exact .inr S.space_blank
  | false =>
      rw [if_neg Bool.false_ne_true, if_neg]
      intro hspace
      exact Bool.false_ne_true (hgap.symm.trans (h hspace))

theorem squeeze_append_raw {a : List α} (ha : ¬ S.Empty a)
    (hends : S.ends a = S.ends f.text) (hfs : forall g, g ∈ fs -> ¬ S.Empty g.text)
    (hchain : (f :: fs).IsChain S.Follows) :
    S.squeeze (a ++ S.raw fs) = S.squeeze a ++ S.neat fs := by
  induction fs generalizing a f with
  | nil =>
      show S.squeeze (a ++ []) = S.squeeze a ++ []
      rw [List.append_nil, List.append_nil]
  | cons g fs ih =>
      have hg : ¬ S.Empty g.text := hfs g List.mem_cons_self
      have hlead := not_empty_lead hg
      rcases List.isChain_cons_cons.mp hchain with ⟨hfollows, hrest⟩
      have hwhole := ih (a := a ++ (S.lead g ++ g.text)) (f := g)
        (fun h => hlead (empty_append.mp h).right)
        (by rw [ends_append (ne_nil_of_not_empty hlead), ends_lead hg])
        (fun k hk => hfs k (List.mem_cons_of_mem g hk)) hrest
      have hraw : a ++ S.raw (g :: fs) = a ++ (S.lead g ++ g.text) ++ S.raw fs := by
        rw [raw_cons, List.append_assoc, List.append_assoc]
      rw [hraw, hwhole, squeeze_append, glue_of_follows ha hends hg hfollows, squeeze_lead,
        neat_cons, List.append_assoc, List.append_assoc]

theorem neat_eq_lead (hfs : forall g, g ∈ f :: fs -> ¬ S.Empty g.text)
    (hchain : (f :: fs).IsChain S.Follows) :
    S.neat (f :: fs) = S.lead f ++ S.squeeze (S.raw (f :: fs)) := by
  have hf : ¬ S.Empty f.text := hfs f List.mem_cons_self
  have hwhole := squeeze_append_raw (not_empty_lead hf) (ends_lead hf)
    (fun k hk => hfs k (List.mem_cons_of_mem f hk)) hchain
  rw [squeeze_lead, List.append_assoc, ← raw_cons] at hwhole
  rw [hwhole, neat_cons]

/-!
# Places
-/

def place (S : Spacing α) (fs : List (Piece α)) (j : Nat) : Nat :=
  (S.neat (fs.take j)).length

theorem place_mono (S : Spacing α) (fs : List (Piece α)) {j k : Nat} (h : j <= k) :
    S.place fs j <= S.place fs k := by
  have htake : fs.take k = fs.take j ++ (fs.take k).drop j := by
    nth_rewrite 1 [← List.take_append_drop j (fs.take k)]
    rw [List.take_take, Nat.min_eq_left h]
  rw [place, place, htake, neat_append, List.length_append]
  exact Nat.le_add_right _ _

theorem place_length (fs gs : List (Piece α)) :
    S.place (fs ++ gs) fs.length = (S.neat fs).length := by
  rw [place, List.take_left]

theorem place_of_le {j : Nat} (h : j <= fs.length) : S.place (fs ++ gs) j = S.place fs j := by
  rw [place, place, List.take_append_of_le_length h]

theorem place_le (fs : List (Piece α)) (j : Nat) : S.place fs j <= (S.neat fs).length := by
  have hsplit := congrArg List.length
    ((congrArg S.neat (List.take_append_drop j fs)).symm.trans (neat_append _ _))
  rw [List.length_append] at hsplit
  rw [place, hsplit]
  exact Nat.le_add_right _ _

/-- The squeezed pieces have the squeezed text in them, with blanks around it, and every
piece without a character lies in the blanks. -/
theorem Aligned.exists_margins (h : S.Aligned fs) :
    exists before after, (forall c, c ∈ before -> c = S.blank) ∧
      (forall c, c ∈ after -> c = S.blank) ∧
      S.neat fs = before ++ (S.squeeze (S.raw fs) ++ after) ∧
      forall j f, fs[j]? = some f -> S.Empty f.text ->
        S.place fs (j + 1) <= before.length ∨
          before.length + (S.squeeze (S.raw fs)).length <= S.place fs j := by
  rcases h with ⟨front, core, back, rfl, hfront, hcore, hback, hchain⟩
  have hraw : S.squeeze (S.raw (front ++ (core ++ back))) = S.squeeze (S.raw core) := by
    rw [raw_append, raw_append, squeeze_append_of_empty_left (empty_raw hfront),
      squeeze_append_of_empty_right (empty_raw hback)]
  rw [hraw]
  cases core with
  | nil =>
      have hempty : forall f, f ∈ front ++ ([] ++ back) -> S.Empty f.text := by
        intro f hf
        rcases List.mem_append.mp hf with hin | hin
        · exact hfront f hin
        · exact hback f hin
      refine ⟨_, [], fun c hc => eq_blank_of_mem_neat hempty hc, List.forall_mem_nil _,
        (List.append_nil _).symm, ?_⟩
      intro j f _ _
      exact .inl (place_le _ _)
  | cons first core =>
      have hneat : S.neat (front ++ (first :: core ++ back)) =
          S.neat front ++ S.lead first ++ (S.squeeze (S.raw (first :: core)) ++ S.neat back) := by
        rw [neat_append, neat_append, neat_eq_lead hcore hchain, List.append_assoc,
          List.append_assoc]
      refine ⟨_, _, ?_, fun c hc => eq_blank_of_mem_neat hback hc, hneat, ?_⟩
      · intro c hc
        rcases List.mem_append.mp hc with hin | hin
        · exact eq_blank_of_mem_neat hfront hin
        · exact eq_blank_of_mem_lead hin
      · intro j f hf hempty
        rw [List.length_append]
        by_cases hin : j < front.length
        · apply Or.inl
          have hle : j + 1 <= front.length := hin
          have hplace := place_le (S := S) front (j + 1)
          rw [place_of_le hle]
          omega
        · apply Or.inr
          have hbehind : (front ++ (first :: core)).length <= j := by
            by_contra hlt
            rw [List.length_append] at hlt
            rw [List.getElem?_append_right (Nat.le_of_not_lt hin),
              List.getElem?_append_left (by omega)] at hf
            exact hcore f (List.mem_of_getElem? hf) hempty
          have hplace := S.place_mono (front ++ (first :: core ++ back)) hbehind
          rw [← List.append_assoc, place_length, neat_append, neat_eq_lead hcore hchain,
            List.length_append, List.length_append, List.append_assoc] at hplace
          omega

theorem place_cons (f : Piece α) (fs : List (Piece α)) (j : Nat) :
    S.place (f :: fs) (j + 1) = (S.lead f ++ S.squeeze f.text).length + S.place fs j := by
  rw [place, place, List.take_succ_cons, neat, List.flatMap_cons, List.length_append]
  rfl

theorem place_succ {j : Nat} (hf : fs[j]? = some f) :
    S.place fs (j + 1) = S.place fs j + (S.lead f ++ S.squeeze f.text).length := by
  rw [place, place, List.take_add_one, hf, Option.toList_some, neat_append, neat_singleton,
    List.length_append]

theorem getElem?_place {j k : Nat} (hf : fs[j]? = some f) (hle : S.place fs j <= k)
    (hlt : k < S.place fs (j + 1)) :
    (S.neat fs)[k]? = (S.lead f ++ S.squeeze f.text)[k - S.place fs j]? := by
  have hj := (List.getElem?_eq_some_iff.mp hf).choose
  have hsplit : fs = fs.take j ++ f :: fs.drop (j + 1) := by
    nth_rewrite 1 [← List.take_append_drop j fs]
    rw [List.drop_eq_getElem_cons hj, (List.getElem?_eq_some_iff.mp hf).choose_spec]
  have hneat : S.neat fs =
      S.neat (fs.take j) ++ (S.lead f ++ S.squeeze f.text ++ S.neat (fs.drop (j + 1))) := by
    nth_rewrite 1 [hsplit]
    rw [neat_append, neat_cons, List.append_assoc]
  have hnext := place_succ (S := S) hf
  have hin : k - S.place fs j < (S.lead f ++ S.squeeze f.text).length := by omega
  rw [hneat, List.getElem?_append_right hle]
  exact List.getElem?_append_left hin

theorem exists_place {k : Nat} (h : k < (S.neat fs).length) :
    exists j f, fs[j]? = some f ∧ S.place fs j <= k ∧ k < S.place fs (j + 1) := by
  induction fs generalizing k with
  | nil => exact absurd h (Nat.not_lt_zero k)
  | cons f fs ih =>
      by_cases hk : k < (S.lead f ++ S.squeeze f.text).length
      · refine ⟨0, f, rfl, Nat.zero_le k, ?_⟩
        rw [place_cons]
        omega
      · have hrest : k - (S.lead f ++ S.squeeze f.text).length < (S.neat fs).length := by
          rw [neat, List.flatMap_cons, List.length_append] at h
          rw [neat]
          omega
        rcases ih hrest with ⟨j, g, hg, hle, hlt⟩
        refine ⟨j + 1, g, hg, ?_, ?_⟩
        · rw [place_cons]
          omega
        · rw [place_cons]
          omega

/-!
# Owners
-/

/-- Every character that is kept names its piece, and blanks name none. -/
structure Owned (S : Spacing α) (own : α -> Option Nat) (fs : List (Piece α)) : Prop where
  blank : own S.blank = none
  kept : forall j f, fs[j]? = some f -> forall c, c ∈ f.text -> S.space c = false ->
    own c = some j

section Owners

variable {own : α -> Option Nat} {j k : Nat} {c : α}

theorem Owned.eq_of_mem (h : S.Owned own fs) (hf : fs[j]? = some f)
    (hc : c ∈ S.lead f ++ S.squeeze f.text) (hspace : S.space c = false) :
    own c = some j := by
  have hblank : c ≠ S.blank := by
    rintro rfl
    exact Bool.false_ne_true (hspace.symm.trans S.space_blank)
  rcases List.mem_append.mp hc with hlead | hsqueeze
  · exact absurd (eq_blank_of_mem_lead hlead) hblank
  · rcases mem_squeeze hsqueeze with heq | ⟨hin, _⟩
    · exact absurd heq hblank
    · exact h.kept j f hf c hin hspace

theorem Owned.of_place (h : S.Owned own fs) (hf : fs[j]? = some f) (hle : S.place fs j <= k)
    (hlt : k < S.place fs (j + 1)) (hc : (S.neat fs)[k]? = some c)
    (hspace : S.space c = false) : own c = some j := by
  rw [getElem?_place hf hle hlt] at hc
  exact h.eq_of_mem hf (List.mem_of_getElem? hc) hspace

theorem Owned.place_of (h : S.Owned own fs) (hc : (S.neat fs)[k]? = some c)
    (hown : own c = some j) : S.place fs j <= k ∧ k < S.place fs (j + 1) := by
  rcases exists_place (List.getElem?_eq_some_iff.mp hc).choose with ⟨i, f, hf, hle, hlt⟩
  have hmem := hc
  rw [getElem?_place hf hle hlt] at hmem
  have hspace : S.space c = false := by
    rcases List.mem_append.mp (List.mem_of_getElem? hmem) with hlead | hsqueeze
    · rw [eq_blank_of_mem_lead hlead, h.blank] at hown
      cases hown
    · rcases mem_squeeze hsqueeze with heq | ⟨_, hnot⟩
      · rw [heq, h.blank] at hown
        cases hown
      · exact hnot
  rw [h.of_place hf hle hlt hc hspace] at hown
  cases hown
  exact ⟨hle, hlt⟩

theorem Owned.not_empty (h : S.Owned own fs) (hf : fs[j]? = some f)
    (hc : c ∈ S.squeeze (S.raw fs)) (hown : own c = some j) : ¬ S.Empty f.text := by
  have hblank : c ≠ S.blank := by
    rintro rfl
    rw [h.blank] at hown
    cases hown
  rcases mem_squeeze hc with heq | ⟨hraw, hspace⟩
  · exact absurd heq hblank
  · rcases List.mem_flatMap.mp hraw with ⟨g, hg, hin⟩
    rcases List.mem_append.mp hin with hlead | htext
    · exact absurd (eq_blank_of_mem_lead hlead) hblank
    · rcases List.mem_iff_getElem?.mp hg with ⟨i, hi⟩
      rw [h.kept i g hi c htext hspace] at hown
      cases hown
      rw [hi] at hf
      cases hf
      intro hempty
      exact Bool.false_ne_true (hspace.symm.trans (hempty c htext))

theorem exists_last (hf : fs[j]? = some f) (hkept : ¬ S.Empty f.text) :
    exists c, (S.neat fs)[S.place fs (j + 1) - 1]? = some c ∧ S.space c = false ∧
      S.place fs j < S.place fs (j + 1) := by
  have hne : S.squeeze f.text ≠ [] := mt squeeze_eq_nil_iff.mp hkept
  have hpos : 0 < (S.squeeze f.text).length := List.length_pos_of_ne_nil hne
  have hnext := place_succ (S := S) hf
  have hlength : (S.lead f ++ S.squeeze f.text).length =
      (S.lead f).length + (S.squeeze f.text).length := List.length_append
  have hplace := getElem?_place (S := S) (k := S.place fs (j + 1) - 1) hf (by omega) (by omega)
  have hindex : S.place fs (j + 1) - 1 - S.place fs j =
      (S.lead f).length + ((S.squeeze f.text).length - 1) := by omega
  have hlast : (S.squeeze f.text)[(S.squeeze f.text).length - 1]? =
      some ((S.squeeze f.text).getLast hne) := by
    rw [← List.getLast?_eq_getElem?, List.getLast?_eq_some_getLast hne]
  have hends := ends_squeeze (S := S) f.text
  rw [ends, List.getLast?_eq_some_getLast hne] at hends
  refine ⟨(S.squeeze f.text).getLast hne, ?_, hends, by omega⟩
  rw [hplace, hindex, List.getElem?_append_right (Nat.le_add_right _ _),
    Nat.add_sub_cancel_left, hlast]

/-- A stretch of the squeezed pieces that begins and ends with a character touches a piece
exactly where it has a character of it. -/
theorem Owned.touches_iff (h : S.Owned own fs) {i n : Nat} {last : α}
    (hf : fs[j]? = some f)
    (hempty : S.Empty f.text -> S.place fs (j + 1) <= i ∨ i + n <= S.place fs j)
    (hn : 0 < n) (hlast : (S.neat fs)[i + n - 1]? = some last)
    (hlastSpace : S.space last = false) :
    (i < S.place fs (j + 1) ∧ S.place fs j < i + n) <->
      exists k c, i <= k ∧ k < i + n ∧ (S.neat fs)[k]? = some c ∧ own c = some j := by
  constructor
  · rintro ⟨hstop, hstart⟩
    by_cases hkept : S.Empty f.text
    · rcases hempty hkept with hle | hle
      · exact absurd hstop (Nat.not_lt_of_le hle)
      · exact absurd hstart (Nat.not_lt_of_le hle)
    · rcases exists_last hf hkept with ⟨c, hc, hspace, hlt⟩
      by_cases hshort : S.place fs (j + 1) <= i + n
      · exact ⟨_, c, by omega, by omega, hc,
          h.of_place hf (by omega) (by omega) hc hspace⟩
      · exact ⟨_, last, by omega, by omega, hlast,
          h.of_place hf (by omega) (by omega) hlast hlastSpace⟩
  · rintro ⟨k, c, hle, hlt, hc, hown⟩
    have hplace := h.place_of hc hown
    exact ⟨by omega, by omega⟩

end Owners

end Spacing

end Foundation
