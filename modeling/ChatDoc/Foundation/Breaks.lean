import ChatDoc.Foundation.Pieces

/-!
# Breaks between pieces

Pieces that are not aligned have a first place where the gaps do not tell what the white
space does.
-/

namespace Foundation

namespace Spacing

variable {α : Type} {S : Spacing α} {fs : List (Piece α)} {f : Piece α}

structure Broken (S : Spacing α) (fs front core : List (Piece α)) (f : Piece α)
    (mid : List (Piece α)) (g : Piece α) (back : List (Piece α)) : Prop where
  split : fs = front ++ (core ++ [f] ++ (mid ++ g :: back))
  empty_front : forall k, k ∈ front -> S.Empty k.text
  kept_core : forall k, k ∈ core ++ [f] -> ¬ S.Empty k.text
  chain : (core ++ [f]).IsChain S.Follows
  empty_mid : forall k, k ∈ mid -> S.Empty k.text
  kept_next : ¬ S.Empty g.text
  breaks : mid ≠ [] ∨ ¬ S.Follows f g

theorem exists_first_not {β : Type} {P : β -> Prop} [DecidablePred P] (l : List β) :
    (forall b, b ∈ l -> P b) ∨ exists front b back, l = front ++ b :: back ∧
      (forall a, a ∈ front -> P a) ∧ ¬ P b := by
  induction l with
  | nil => exact .inl (List.forall_mem_nil _)
  | cons b l ih =>
      by_cases hb : P b
      · rcases ih with hall | ⟨front, c, back, heq, hfront, hc⟩
        · exact .inl (List.forall_mem_cons.mpr ⟨hb, hall⟩)
        · exact .inr ⟨b :: front, c, back, by rw [heq, List.cons_append],
            List.forall_mem_cons.mpr ⟨hb, hfront⟩, hc⟩
      · exact .inr ⟨[], b, l, rfl, List.forall_mem_nil _, hb⟩

theorem aligned_or_broken_from {front core back : List (Piece α)}
    (hfront : forall k, k ∈ front -> S.Empty k.text)
    (hcore : forall k, k ∈ core ++ [f] -> ¬ S.Empty k.text)
    (hchain : (core ++ [f]).IsChain S.Follows) :
    S.Aligned (front ++ (core ++ [f] ++ back)) ∨
      exists core' f' mid g rest,
        S.Broken (front ++ (core ++ [f] ++ back)) front core' f' mid g rest := by
  induction back generalizing core f with
  | nil =>
      exact .inl ⟨front, core ++ [f], [], rfl, hfront, hcore, List.forall_mem_nil _, hchain⟩
  | cons g back ih =>
      by_cases hg : S.Empty g.text
      · rcases exists_first_not (P := fun k : Piece α => S.Empty k.text) back with
          hall | ⟨mid, k, rest, heq, hmid, hk⟩
        · exact .inl ⟨front, core ++ [f], g :: back, rfl, hfront, hcore,
            List.forall_mem_cons.mpr ⟨hg, hall⟩, hchain⟩
        · refine .inr ⟨core, f, g :: mid, k, rest, ?_, hfront, hcore, hchain,
            List.forall_mem_cons.mpr ⟨hg, hmid⟩, hk, .inl (List.cons_ne_nil g mid)⟩
          rw [heq, List.cons_append]
      · by_cases hfollows : S.Follows f g
        · have hlast : forall k, k ∈ (core ++ [f]).getLast? -> S.Follows k g := by
            intro k hk
            rw [List.getLast?_concat] at hk
            cases hk
            exact hfollows
          have hnext := ih (f := g)
            (fun k hk => by
              rcases List.mem_append.mp hk with hin | hin
              · exact hcore k hin
              · rw [List.mem_singleton.mp hin]
                exact hg)
            (hchain.append (.singleton g) (fun k hk c hc => by
              cases hc
              exact hlast k hk))
          rw [List.append_assoc (core ++ [f]) [g] back] at hnext
          exact hnext
        · exact .inr ⟨core, f, [], g, back, rfl, hfront, hcore, hchain,
            List.forall_mem_nil _, hg, .inr hfollows⟩

theorem aligned_or_broken (fs : List (Piece α)) :
    S.Aligned fs ∨ exists front core f mid g back, S.Broken fs front core f mid g back := by
  rcases exists_first_not (P := fun k : Piece α => S.Empty k.text) fs with
    hall | ⟨front, f, rest, rfl, hfront, hf⟩
  · refine .inl ⟨fs, [], [], (List.append_nil fs).symm, hall, List.forall_mem_nil _,
      List.forall_mem_nil _, .nil⟩
  · have hcore : forall k, k ∈ [] ++ [f] -> ¬ S.Empty k.text := by
      intro k hk
      rw [List.mem_singleton.mp hk]
      exact hf
    rcases aligned_or_broken_from hfront hcore (.singleton f) with
      haligned | ⟨core, f', mid, g, back, hbroken⟩
    · exact .inl haligned
    · exact .inr ⟨front, core, f', mid, g, back, hbroken⟩

/-!
# The texts around the break
-/

section Texts

variable {front core mid back : List (Piece α)} {g : Piece α}

def frontText (S : Spacing α) (core : List (Piece α)) (f : Piece α) : List α :=
  S.squeeze (S.raw (core ++ [f]))

def gapText (S : Spacing α) (mid : List (Piece α)) (g : Piece α) : List α :=
  S.neat mid ++ S.lead g

def breakText (S : Spacing α) (core : List (Piece α)) (f : Piece α) (mid : List (Piece α))
    (g : Piece α) (back : List (Piece α)) : List α :=
  S.glue (S.raw (core ++ [f])) (S.raw mid ++ (S.lead g ++ (g.text ++ S.raw back)))

theorem raw_snoc (core : List (Piece α)) (f : Piece α) :
    S.raw (core ++ [f]) = S.raw core ++ S.lead f ++ f.text := by
  rw [raw_append, raw_singleton, List.append_assoc]

theorem not_empty_raw_snoc (core : List (Piece α)) (hf : ¬ S.Empty f.text) :
    ¬ S.Empty (S.raw (core ++ [f])) := by
  rw [raw_snoc]
  exact fun hempty => hf (empty_append.mp hempty).right

namespace Broken

variable (h : S.Broken fs front core f mid g back)

include h

theorem kept_last : ¬ S.Empty f.text :=
  h.kept_core f (List.mem_append_right core List.mem_cons_self)

theorem exists_before : exists before, (forall c, c ∈ before -> c = S.blank) ∧
    S.neat (front ++ (core ++ [f])) = before ++ S.frontText core f := by
  have hkept := h.kept_core
  have hchain := h.chain
  cases hcore : core ++ [f] with
  | nil => exact absurd hcore (List.append_ne_nil_of_right_ne_nil core (List.cons_ne_nil f []))
  | cons first rest =>
      rw [hcore] at hkept hchain
      refine ⟨S.neat front ++ S.lead first, ?_, ?_⟩
      · intro c hc
        rcases List.mem_append.mp hc with hin | hin
        · exact eq_blank_of_mem_neat h.empty_front hin
        · exact eq_blank_of_mem_lead hin
      · rw [frontText, hcore, neat_append, neat_eq_lead hkept hchain, List.append_assoc]

theorem neat_split : S.neat fs = S.neat (front ++ (core ++ [f])) ++
    (S.gapText mid g ++ (S.squeeze g.text ++ S.neat back)) := by
  rw [h.split, ← List.append_assoc, neat_append, neat_append mid, neat_cons, gapText,
    List.append_assoc]

theorem squeeze_split : S.squeeze (S.raw fs) = S.frontText core f ++
    (S.breakText core f mid g back ++ S.squeeze (g.text ++ S.raw back)) := by
  rw [h.split, raw_append, squeeze_append_of_empty_left (empty_raw h.empty_front), raw_append,
    raw_append mid, raw_cons, squeeze_append,
    squeeze_append_of_empty_left (empty_raw h.empty_mid),
    squeeze_append_of_empty_left (empty_lead g)]
  rfl

theorem eq_blank_of_mem_gapText {c : α} (hc : c ∈ S.gapText mid g) : c = S.blank := by
  rcases List.mem_append.mp hc with hin | hin
  · exact eq_blank_of_mem_neat h.empty_mid hin
  · exact eq_blank_of_mem_lead hin

theorem breakText_eq : S.breakText core f mid g back =
    if S.ends f.text = true ∨
        S.starts (S.raw mid ++ (S.lead g ++ (g.text ++ S.raw back))) = true then [S.blank]
    else [] := by
  have hfront := not_empty_raw_snoc core h.kept_last
  have hback : ¬ S.Empty (S.raw mid ++ (S.lead g ++ (g.text ++ S.raw back))) := by
    intro hempty
    have hrest := (empty_append.mp (empty_append.mp hempty).right).right
    exact h.kept_next (empty_append.mp hrest).left
  have hends : S.ends (S.raw (core ++ [f])) = S.ends f.text := by
    rw [raw_snoc, ends_append (ne_nil_of_not_empty h.kept_last)]
  rw [breakText, glue_eq_of_not_empty hfront hback, hends]

theorem breakText_of_gapText (hgap : S.gapText mid g ≠ []) :
    S.breakText core f mid g back = [S.blank] := by
  rw [h.breakText_eq, if_pos]
  apply Or.inr
  by_cases hraw : S.raw mid = []
  · have hneat := neat_of_raw_nil hraw
    rw [gapText, hneat, List.nil_append] at hgap
    rw [hraw, List.nil_append]
    unfold lead at hgap
    unfold lead
    split at hgap
    · rename_i hg
      rw [if_pos hg]
      exact S.space_blank
    · exact absurd rfl hgap
  · rw [starts_append hraw]
    exact starts_of_empty (empty_raw h.empty_mid) hraw

theorem missing_of_mid (hmid : mid = []) :
    S.gapText mid g = [] ∧ S.breakText core f mid g back = [S.blank] := by
  rcases h.breaks with hne | hfollows
  · exact absurd hmid hne
  · have hgap : g.gap = false := by
      cases hg : g.gap with
      | true => exact absurd (fun _ => hg) hfollows
      | false => rfl
    have hspace : S.ends f.text = true ∨ S.starts g.text = true := by
      by_contra hnone
      exact hfollows fun hsome => absurd hsome hnone
    have hlead : S.lead g = [] := by
      rw [lead, hgap]
      rfl
    constructor
    · rw [gapText, hmid, hlead]
      rfl
    · rw [h.breakText_eq, hmid, hlead, if_pos]
      rcases hspace with hends | hstarts
      · exact .inl hends
      · apply Or.inr
        show S.starts (g.text ++ S.raw back) = true
        rwa [starts_append (ne_nil_of_not_empty h.kept_next)]

/-!
# The places around the break
-/

theorem split_behind_last : fs = front ++ (core ++ [f]) ++ (mid ++ g :: back) := by
  rw [h.split, List.append_assoc front]

theorem place_behind_last : S.place fs (front ++ (core ++ [f])).length =
    (S.neat (front ++ (core ++ [f]))).length := by
  rw [h.split_behind_last, place_length]

theorem place_next : S.place fs ((front ++ (core ++ [f])).length + mid.length) =
    (S.neat (front ++ (core ++ [f]))).length + (S.neat mid).length := by
  have hsplit : fs = front ++ (core ++ [f]) ++ mid ++ g :: back := by
    rw [h.split_behind_last, List.append_assoc _ mid]
  have hplace := place_length (S := S) (front ++ (core ++ [f]) ++ mid) (g :: back)
  have hlength : (front ++ (core ++ [f]) ++ mid).length =
      (front ++ (core ++ [f])).length + mid.length := List.length_append
  rw [← hsplit, hlength] at hplace
  rw [hplace, neat_append _ mid]
  exact List.length_append

theorem get_last : fs[(front ++ (core ++ [f])).length - 1]? = some f := by
  rw [h.split_behind_last, List.getElem?_append_left]
  · rw [← List.append_assoc, ← List.getLast?_eq_getElem?, List.getLast?_concat]
  · rw [List.length_append, List.length_append, List.length_singleton]
    omega

theorem get_next : fs[(front ++ (core ++ [f])).length + mid.length]? = some g := by
  rw [h.split_behind_last, List.getElem?_append_right (Nat.le_add_right _ _),
    Nat.add_sub_cancel_left, List.getElem?_append_right (Nat.le_refl _), Nat.sub_self]
  rfl

theorem get_mid (hmid : mid ≠ []) : exists k, fs[(front ++ (core ++ [f])).length]? = some k ∧
    S.Empty k.text := by
  cases mid with
  | nil => exact absurd rfl hmid
  | cons k mid =>
      refine ⟨k, ?_, h.empty_mid k List.mem_cons_self⟩
      rw [h.split_behind_last, List.getElem?_append_right (Nat.le_refl _), Nat.sub_self]
      rfl

theorem exists_last_owner {own : α -> Option Nat} (howned : S.Owned own fs) :
    exists c, (S.frontText core f).getLast? = some c ∧
      own c = some ((front ++ (core ++ [f])).length - 1) := by
  have hne : S.squeeze f.text ≠ [] := mt squeeze_eq_nil_iff.mp h.kept_last
  have hends := ends_squeeze (S := S) f.text
  rw [ends, List.getLast?_eq_some_getLast hne] at hends
  have hmem : (S.squeeze f.text).getLast hne ∈ S.lead f ++ S.squeeze f.text :=
    List.mem_append_right _ (List.getLast_mem hne)
  refine ⟨(S.squeeze f.text).getLast hne, ?_, howned.eq_of_mem h.get_last hmem hends⟩
  rw [frontText, raw_snoc, squeeze_append, List.getLast?_append, List.getLast?_append,
    List.getLast?_eq_some_getLast hne]
  rfl

theorem exists_next_owner {own : α -> Option Nat} (howned : S.Owned own fs) :
    exists d rest rest', S.squeeze g.text = d :: rest ∧
      S.squeeze (g.text ++ S.raw back) = d :: rest' ∧ S.space d = false ∧
        own d = some ((front ++ (core ++ [f])).length + mid.length) := by
  cases hsqueeze : S.squeeze g.text with
  | nil => exact absurd (squeeze_eq_nil_iff.mp hsqueeze) h.kept_next
  | cons d rest =>
      have hspace := head_squeeze hsqueeze
      have hmem : d ∈ S.lead g ++ S.squeeze g.text := by
        rw [hsqueeze]
        exact List.mem_append_right _ List.mem_cons_self
      refine ⟨d, rest, rest ++ (S.glue g.text (S.raw back) ++ S.squeeze (S.raw back)), rfl, ?_,
        hspace, howned.eq_of_mem h.get_next hmem hspace⟩
      rw [squeeze_append, hsqueeze]
      rfl

end Broken

end Texts

end Spacing

end Foundation
