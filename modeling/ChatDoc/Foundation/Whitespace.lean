import Mathlib.Data.List.Chain
import Mathlib.Data.List.DropRight

/-!
# White space

A text is squeezed when each run of white space in it becomes one blank and the runs at
its ends go away.
-/

namespace Foundation

variable {α : Type}

/-- Which characters are white space, and the one that stands for a run of them. -/
structure Spacing (α : Type) where
  space : α -> Bool
  blank : α
  space_blank : space blank = true

namespace Spacing

section Definitions

variable (S : Spacing α)

def collapseFrom : Bool -> List α -> List α
  | _, [] => []
  | inRun, c :: rest =>
      if S.space c then
        if inRun then collapseFrom true rest else S.blank :: collapseFrom true rest
      else c :: collapseFrom false rest

def collapse (l : List α) : List α :=
  S.collapseFrom false l

def trim (l : List α) : List α :=
  (l.dropWhile S.space).rdropWhile S.space

def squeeze (l : List α) : List α :=
  S.trim (S.collapse l)

def Empty (l : List α) : Prop :=
  forall c, c ∈ l -> S.space c = true

def starts (l : List α) : Bool :=
  l.head?.any S.space

def ends (l : List α) : Bool :=
  l.getLast?.any S.space

instance (l : List α) : Decidable (S.Empty l) :=
  inferInstanceAs (Decidable (forall c, c ∈ l -> S.space c = true))

end Definitions

variable {S : Spacing α} {l : List α} {c : α}

/-!
# Character by character
-/

theorem collapseFrom_space (hc : S.space c = true) (inRun : Bool) :
    S.collapseFrom inRun (c :: l) =
      if inRun then S.collapseFrom true l else S.blank :: S.collapseFrom true l :=
  if_pos hc

theorem collapseFrom_of_not (hc : S.space c = false) (inRun : Bool) :
    S.collapseFrom inRun (c :: l) = c :: S.collapseFrom false l :=
  if_neg (Bool.eq_false_iff.mp hc)

theorem dropWhile_collapseFrom (inRun : Bool) (l : List α) :
    (S.collapseFrom inRun l).dropWhile S.space = S.collapseFrom true l := by
  induction l generalizing inRun with
  | nil => rfl
  | cons c l ih =>
      cases hc : S.space c with
      | true =>
          rw [collapseFrom_space hc, collapseFrom_space hc, if_pos rfl]
          cases inRun with
          | true => exact ih true
          | false =>
              rw [if_neg Bool.false_ne_true, List.dropWhile_cons_of_pos S.space_blank]
              exact ih true
      | false =>
          rw [collapseFrom_of_not hc, collapseFrom_of_not hc,
            List.dropWhile_cons_of_neg (Bool.eq_false_iff.mp hc)]

theorem squeeze_eq (l : List α) :
    S.squeeze l = (S.collapseFrom true l).rdropWhile S.space := by
  rw [squeeze, trim, collapse, dropWhile_collapseFrom]

theorem rdropWhile_cons (p : α -> Bool) (c : α) (l : List α) :
    (c :: l).rdropWhile p =
      if l.rdropWhile p = [] then if p c then [] else [c] else c :: l.rdropWhile p := by
  unfold List.rdropWhile
  rw [List.reverse_cons, List.dropWhile_append]
  cases hdrop : l.reverse.dropWhile p with
  | nil =>
      cases hc : p c with
      | true => simp [hc]
      | false => simp [hc]
  | cons d rest => simp

def behind (S : Spacing α) (l : List α) : List α :=
  if S.starts l = true ∧ S.squeeze l ≠ [] then S.blank :: S.squeeze l else S.squeeze l

theorem squeeze_cons_space (hc : S.space c = true) (l : List α) :
    S.squeeze (c :: l) = S.squeeze l := by
  rw [squeeze_eq, squeeze_eq, collapseFrom_space hc, if_pos rfl]

theorem rdropWhile_collapseFrom_false (l : List α) :
    (S.collapseFrom false l).rdropWhile S.space = S.behind l := by
  cases l with
  | nil => rfl
  | cons d l =>
      cases hd : S.space d with
      | true =>
          have hstarts : S.starts (d :: l) = true := hd
          rw [collapseFrom_space hd, if_neg Bool.false_ne_true, rdropWhile_cons, ← squeeze_eq,
            if_pos S.space_blank, behind, squeeze_cons_space hd]
          by_cases hnil : S.squeeze l = []
          · rw [if_pos hnil, if_neg (fun h => h.right hnil), hnil]
          · rw [if_neg hnil, if_pos ⟨hstarts, hnil⟩]
      | false =>
          have hstarts : S.starts (d :: l) = false := hd
          rw [behind, hstarts, if_neg (fun h => Bool.false_ne_true h.left), squeeze_eq,
            collapseFrom_of_not hd, collapseFrom_of_not hd]

theorem squeeze_cons_of_not (hc : S.space c = false) (l : List α) :
    S.squeeze (c :: l) = c :: S.behind l := by
  rw [squeeze_eq, collapseFrom_of_not hc, rdropWhile_cons, rdropWhile_collapseFrom_false, hc]
  by_cases hnil : S.behind l = []
  · rw [if_pos hnil, hnil]
    rfl
  · rw [if_neg hnil]

theorem behind_eq_squeeze (h : S.starts l = false) : S.behind l = S.squeeze l := by
  rw [behind, h, if_neg (fun h => Bool.false_ne_true h.left)]

theorem behind_of_squeeze_nil (h : S.squeeze l = []) : S.behind l = [] := by
  rw [behind, if_neg fun hkept => hkept.right h, h]

theorem behind_of_starts (hstarts : S.starts l = true) (hne : S.squeeze l ≠ []) :
    S.behind l = S.blank :: S.squeeze l :=
  if_pos ⟨hstarts, hne⟩

theorem squeeze_eq_nil_iff : S.squeeze l = [] <-> S.Empty l := by
  induction l with
  | nil => exact iff_of_true rfl (fun c hc => nomatch hc)
  | cons c l ih =>
      cases hc : S.space c with
      | true =>
          rw [squeeze_cons_space hc, ih]
          exact ⟨fun h => List.forall_mem_cons.mpr ⟨hc, h⟩,
            fun h => (List.forall_mem_cons.mp h).right⟩
      | false =>
          rw [squeeze_cons_of_not hc]
          exact iff_of_false (List.cons_ne_nil _ _)
            (fun h => Bool.false_ne_true (hc.symm.trans (h c List.mem_cons_self)))

theorem mem_squeeze (hmem : c ∈ S.squeeze l) : c = S.blank ∨ (c ∈ l ∧ S.space c = false) := by
  induction l with
  | nil => cases hmem
  | cons d l ih =>
      have hrest : c ∈ S.squeeze l -> c = S.blank ∨ (c ∈ d :: l ∧ S.space c = false) := by
        intro h
        rcases ih h with hblank | ⟨hin, hspace⟩
        · exact .inl hblank
        · exact .inr ⟨List.mem_cons_of_mem d hin, hspace⟩
      cases hd : S.space d with
      | true =>
          rw [squeeze_cons_space hd] at hmem
          exact hrest hmem
      | false =>
          rw [squeeze_cons_of_not hd] at hmem
          rcases List.mem_cons.mp hmem with rfl | hin
          · exact .inr ⟨List.mem_cons_self, hd⟩
          · unfold behind at hin
            split at hin
            · rcases List.mem_cons.mp hin with hblank | hin
              · exact .inl hblank
              · exact hrest hin
            · exact hrest hin

/-!
# Texts one after another
-/

def glue (S : Spacing α) (a b : List α) : List α :=
  if ¬ S.Empty a ∧ ¬ S.Empty b ∧ (S.ends a = true ∨ S.starts b = true) then [S.blank] else []

section Glue

variable {a b : List α}

theorem empty_nil : S.Empty [] :=
  List.forall_mem_nil _

theorem empty_cons_space (hc : S.space c = true) : S.Empty (c :: l) <-> S.Empty l :=
  ⟨fun h => (List.forall_mem_cons.mp h).right, fun h => List.forall_mem_cons.mpr ⟨hc, h⟩⟩

theorem not_empty_cons (hc : S.space c = false) : ¬ S.Empty (c :: l) :=
  fun h => Bool.false_ne_true (hc.symm.trans (h c List.mem_cons_self))

theorem glue_of_empty_left (h : S.Empty a) : S.glue a b = [] :=
  if_neg fun hglue => hglue.left h

theorem glue_of_empty_right (h : S.Empty b) : S.glue a b = [] :=
  if_neg fun hglue => hglue.right.left h

theorem glue_eq_of_not_empty (ha : ¬ S.Empty a) (hb : ¬ S.Empty b) :
    S.glue a b = if S.ends a = true ∨ S.starts b = true then [S.blank] else [] := by
  unfold glue
  by_cases h : S.ends a = true ∨ S.starts b = true
  · rw [if_pos ⟨ha, hb, h⟩, if_pos h]
  · rw [if_neg fun hglue => h hglue.right.right, if_neg h]

theorem glue_congr {a' : List α} (hempty : S.Empty a <-> S.Empty a')
    (hends : S.ends a = S.ends a') : S.glue a b = S.glue a' b := by
  apply if_congr ?_ rfl rfl
  rw [hempty, hends]

theorem ends_cons (c : α) (h : a ≠ []) : S.ends (c :: a) = S.ends a := by
  unfold ends
  rw [List.getLast?_cons, List.getLast?_eq_some_getLast h]
  rfl

theorem ends_append (h : b ≠ []) : S.ends (a ++ b) = S.ends b := by
  unfold ends
  rw [List.getLast?_append, List.getLast?_eq_some_getLast h]
  rfl

theorem starts_append (h : a ≠ []) : S.starts (a ++ b) = S.starts a := by
  cases a with
  | nil => exact absurd rfl h
  | cons d a => rfl

theorem ends_of_empty (h : S.Empty a) (hne : a ≠ []) : S.ends a = true := by
  unfold ends
  rw [List.getLast?_eq_some_getLast hne]
  exact h _ (List.getLast_mem hne)

theorem starts_of_empty (h : S.Empty a) (hne : a ≠ []) : S.starts a = true := by
  cases a with
  | nil => exact absurd rfl hne
  | cons d a => exact h d List.mem_cons_self

theorem ne_nil_of_not_empty (h : ¬ S.Empty a) : a ≠ [] := by
  rintro rfl
  exact h empty_nil

theorem behind_eq_glue (hc : S.space c = false) (b : List α) :
    S.behind b = S.glue [c] b ++ S.squeeze b := by
  by_cases hb : S.Empty b
  · rw [glue_of_empty_right hb, behind_of_squeeze_nil (squeeze_eq_nil_iff.mpr hb),
      squeeze_eq_nil_iff.mpr hb]
    rfl
  · have hends : S.ends [c] = false := hc
    rw [glue_eq_of_not_empty (not_empty_cons hc) hb, hends]
    cases hstarts : S.starts b with
    | true =>
        rw [behind_of_starts hstarts (mt squeeze_eq_nil_iff.mp hb), if_pos (.inr rfl)]
        rfl
    | false =>
        rw [behind_eq_squeeze hstarts, if_neg (by simp)]
        rfl

theorem squeeze_append (a b : List α) :
    S.squeeze (a ++ b) = S.squeeze a ++ (S.glue a b ++ S.squeeze b) := by
  induction a with
  | nil =>
      rw [glue_of_empty_left empty_nil]
      rfl
  | cons c a ih =>
      rw [List.cons_append]
      cases hc : S.space c with
      | true =>
          rw [squeeze_cons_space hc, squeeze_cons_space hc, ih]
          by_cases ha : S.Empty a
          · rw [glue_of_empty_left ha, glue_of_empty_left ((empty_cons_space hc).mpr ha)]
          · rw [glue_congr (empty_cons_space hc) (ends_cons c (ne_nil_of_not_empty ha))]
      | false =>
          rw [squeeze_cons_of_not hc, squeeze_cons_of_not hc, List.cons_append]
          apply congrArg
          by_cases hnil : a = []
          · subst hnil
            exact behind_eq_glue hc b
          · have hends := ends_cons (S := S) c hnil
            by_cases ha : S.Empty a
            · have hglue : S.glue (c :: a) b = S.glue [c] (a ++ b) := by
                by_cases hb : S.Empty b
                · rw [glue_of_empty_right hb, glue_of_empty_right]
                  exact List.forall_mem_append.mpr ⟨ha, hb⟩
                · rw [glue_eq_of_not_empty (not_empty_cons hc) hb,
                    glue_eq_of_not_empty (not_empty_cons hc)
                      (fun h => hb (List.forall_mem_append.mp h).right),
                    hends, ends_of_empty ha hnil, starts_append hnil, starts_of_empty ha hnil,
                    if_pos (.inl rfl), if_pos (.inr rfl)]
              have hbehind : S.behind a = [] :=
                behind_of_squeeze_nil (squeeze_eq_nil_iff.mpr ha)
              rw [behind_eq_glue hc, hbehind, hglue, ih, glue_of_empty_left ha,
                squeeze_eq_nil_iff.mpr ha]
              rfl
            · have hglue : S.glue (c :: a) b = S.glue a b :=
                glue_congr (iff_of_false (not_empty_cons hc) ha) hends
              have hwhole : S.squeeze (a ++ b) ≠ [] := by
                rw [ih]
                exact List.append_ne_nil_of_left_ne_nil (mt squeeze_eq_nil_iff.mp ha) _
              have hpart : S.squeeze a ≠ [] := mt squeeze_eq_nil_iff.mp ha
              have hboth : S.starts (a ++ b) = S.starts a := starts_append hnil
              rw [hglue]
              cases hstarts : S.starts a with
              | true =>
                  rw [behind_of_starts (hboth.trans hstarts) hwhole,
                    behind_of_starts hstarts hpart, ih, List.cons_append]
              | false =>
                  rw [behind_eq_squeeze (hboth.trans hstarts), behind_eq_squeeze hstarts, ih]

theorem squeeze_append_of_empty_left (ha : S.Empty a) :
    S.squeeze (a ++ b) = S.squeeze b := by
  rw [squeeze_append, squeeze_eq_nil_iff.mpr ha, glue_of_empty_left ha]
  rfl

theorem squeeze_append_of_empty_right (hb : S.Empty b) :
    S.squeeze (a ++ b) = S.squeeze a := by
  rw [squeeze_append, squeeze_eq_nil_iff.mpr hb, glue_of_empty_right hb, List.append_nil,
    List.append_nil]

end Glue

/-!
# Squeezed texts
-/

/-- No white space at the ends, no two blanks in a row, and no other white space. -/
structure Tight (S : Spacing α) (l : List α) : Prop where
  starts : S.starts l = false
  ends : S.ends l = false
  apart : l.IsChain fun a b => ¬ (S.space a = true ∧ S.space b = true)
  blanks : forall c, c ∈ l -> S.space c = true -> c = S.blank

theorem starts_squeeze (l : List α) : S.starts (S.squeeze l) = false := by
  induction l with
  | nil => rfl
  | cons c l ih =>
      cases hc : S.space c with
      | true => rwa [squeeze_cons_space hc]
      | false =>
          rw [squeeze_cons_of_not hc]
          exact hc

theorem ends_squeeze (l : List α) : S.ends (S.squeeze l) = false := by
  induction l with
  | nil => rfl
  | cons c l ih =>
      cases hc : S.space c with
      | true => rwa [squeeze_cons_space hc]
      | false =>
          rw [squeeze_cons_of_not hc]
          by_cases hnil : S.squeeze l = []
          · rw [behind_of_squeeze_nil hnil]
            exact hc
          · unfold behind
            split
            · rw [ends_cons _ (List.cons_ne_nil _ _), ends_cons _ hnil]
              exact ih
            · rw [ends_cons _ hnil]
              exact ih

theorem head_squeeze {a : α} {rest : List α} (h : S.squeeze l = a :: rest) :
    S.space a = false := by
  have hstarts := starts_squeeze (S := S) l
  rwa [h] at hstarts

theorem apart_squeeze (l : List α) :
    (S.squeeze l).IsChain fun a b => ¬ (S.space a = true ∧ S.space b = true) := by
  induction l with
  | nil => exact .nil
  | cons c l ih =>
      cases hc : S.space c with
      | true => rwa [squeeze_cons_space hc]
      | false =>
          rw [squeeze_cons_of_not hc]
          have hkept : forall d, ¬ (S.space c = true ∧ S.space d = true) :=
            fun d h => Bool.false_ne_true (hc.symm.trans h.left)
          unfold behind
          split
          · refine .cons_cons (hkept _) ?_
            apply List.IsChain.cons ih
            intro d hd h
            cases hsqueeze : S.squeeze l with
            | nil => rw [hsqueeze] at hd; cases hd
            | cons a rest =>
                rw [hsqueeze] at hd
                cases hd
                exact Bool.false_ne_true ((head_squeeze hsqueeze).symm.trans h.right)
          · exact List.IsChain.cons ih fun d _ => hkept d

theorem tight_squeeze (l : List α) : S.Tight (S.squeeze l) where
  starts := starts_squeeze l
  ends := ends_squeeze l
  apart := apart_squeeze l
  blanks c hc hspace := by
    rcases mem_squeeze hc with hblank | ⟨_, hnot⟩
    · exact hblank
    · exact absurd (hnot.symm.trans hspace) Bool.false_ne_true

theorem squeeze_of_apart (hends : S.ends l = false)
    (hapart : l.IsChain fun a b => ¬ (S.space a = true ∧ S.space b = true))
    (hblanks : forall c, c ∈ l -> S.space c = true -> c = S.blank) :
    S.squeeze l = if S.starts l then l.tail else l := by
  induction l with
  | nil => rfl
  | cons c l ih =>
      by_cases hnil : l = []
      · have hc : S.space c = false := by
          rw [hnil] at hends
          exact hends
        have hstarts : S.starts (c :: l) = false := hc
        rw [hstarts, squeeze_cons_of_not hc, hnil]
        rfl
      · rw [ends_cons c hnil] at hends
        rcases List.isChain_cons.mp hapart with ⟨hnext, hrest⟩
        have hsqueeze := ih hends hrest
          (fun d hd => hblanks d (List.mem_cons_of_mem c hd))
        cases hc : S.space c with
        | true =>
            have hstarts : S.starts (c :: l) = true := hc
            have htail : S.starts l = false := by
              cases l with
              | nil => rfl
              | cons d rest => exact Bool.eq_false_iff.mpr fun hd => hnext d rfl ⟨hc, hd⟩
            rw [hstarts, squeeze_cons_space hc, hsqueeze, htail]
            rfl
        | false =>
            have hstarts : S.starts (c :: l) = false := hc
            rw [hstarts, squeeze_cons_of_not hc, if_neg Bool.false_ne_true]
            apply congrArg
            cases htail : S.starts l with
            | false =>
                rw [behind_eq_squeeze htail, hsqueeze, htail]
                rfl
            | true =>
                cases l with
                | nil => rfl
                | cons d rest =>
                    have hd : d = S.blank :=
                      hblanks d (List.mem_cons_of_mem c List.mem_cons_self) htail
                    have hne : rest ≠ [] := by
                      rintro rfl
                      exact Bool.false_ne_true (hends.symm.trans htail)
                    rw [htail, if_pos rfl, List.tail_cons] at hsqueeze
                    have hkept : S.squeeze (d :: rest) ≠ [] := by
                      rw [hsqueeze]
                      exact hne
                    rw [behind_of_starts htail hkept, hsqueeze, hd]

theorem squeeze_of_tight (h : S.Tight l) : S.squeeze l = l := by
  rw [squeeze_of_apart h.ends h.apart h.blanks, h.starts]
  rfl

/-- A part of a squeezed text that begins and ends with characters is squeezed. -/
theorem Tight.part {part : List α} (h : S.Tight l) (hpart : part <:+: l)
    (hstarts : S.starts part = false) (hends : S.ends part = false) : S.Tight part where
  starts := hstarts
  ends := hends
  apart := List.IsChain.infix h.apart hpart
  blanks c hc := h.blanks c (hpart.subset hc)

/-!
# Changing the characters
-/

section Map

variable {β : Type} {S' : Spacing β} {f : α -> β}

theorem collapseFrom_map (hspace : forall c, S'.space (f c) = S.space c)
    (hblank : f S.blank = S'.blank) (inRun : Bool) (l : List α) :
    S'.collapseFrom inRun (l.map f) = (S.collapseFrom inRun l).map f := by
  induction l generalizing inRun with
  | nil => rfl
  | cons c l ih =>
      rw [List.map_cons]
      cases hc : S.space c with
      | true =>
          rw [collapseFrom_space hc, collapseFrom_space ((hspace c).trans hc), ih]
          cases inRun with
          | true => rfl
          | false =>
              rw [if_neg Bool.false_ne_true, if_neg Bool.false_ne_true, List.map_cons, hblank]
      | false =>
          rw [collapseFrom_of_not hc, collapseFrom_of_not ((hspace c).trans hc), ih,
            List.map_cons]

theorem trim_map (hspace : forall c, S'.space (f c) = S.space c) (l : List α) :
    S'.trim (l.map f) = (S.trim l).map f := by
  have hfun : S'.space ∘ f = S.space := funext hspace
  unfold trim List.rdropWhile
  rw [List.dropWhile_map, hfun, ← List.map_reverse, List.dropWhile_map, hfun,
    ← List.map_reverse]

theorem squeeze_map (hspace : forall c, S'.space (f c) = S.space c)
    (hblank : f S.blank = S'.blank) (l : List α) :
    S'.squeeze (l.map f) = (S.squeeze l).map f := by
  unfold squeeze collapse
  rw [collapseFrom_map hspace hblank, trim_map hspace]

end Map

end Spacing

end Foundation
