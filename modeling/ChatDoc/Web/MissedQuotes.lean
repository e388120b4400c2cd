import ChatDoc.Web.Spotting

/-!
# Quotes that are missed

Where the spaces that the loop inserts are not the white space of the items, some quote of
the reference text is not located.
-/

namespace ChatDoc

open Foundation

/-!
# A blank too few and a blank too many
-/

section Marks

variable {before front rest : List CodeUnit} {d : CodeUnit}

theorem lost_blank_missed (hbefore : spacing.Empty before) (hne : front ≠ [])
    (hstarts : spacing.starts front = false) (hd : isSpace d = false) {i n : Nat}
    (hlocate : locate (before ++ (front ++ d :: rest)) (front ++ [32, d]) = some (i, n))
    (hlast : i < before.length + front.length)
    (hnext : before.length + front.length < i + n) :
    exists e, 0 < e ∧ e < front.length ∧ OccursAt (front ++ d :: rest) (front ++ [32]) e ∧
      forall i' n', locate (before ++ (front ++ d :: rest)) (around front 32 d e) =
        some (i', n') -> before.length + front.length <= i' := by
  have hmark : (32 : CodeUnit) ≠ d := by
    rintro rfl
    exact Bool.false_ne_true hd.symm
  rcases locate_cases (List.append_ne_nil_of_left_ne_nil hne _) hlocate with ⟨hindex, hhow⟩
  rcases indexOf_eq_some_iff.mp hindex with ⟨hoccurs, _, hleast⟩
  have hbeyond : front.length < n := by
    by_contra hshort
    have hcut := (occursAt_length before front (d :: rest)).take n
    rw [List.take_append_of_le_length (Nat.le_of_not_lt hshort)] at hleast
    have hfirst := hleast _ hcut
    omega
  have hmarked : OccursAt (before ++ (front ++ d :: rest)) (front ++ [32]) i := by
    have hcut := hoccurs.take (front.length + 1)
    have hmin : min (front.length + 1) n = front.length + 1 := Nat.min_eq_left hbeyond
    rw [List.take_take, hmin, List.take_length_add_append] at hcut
    exact hcut
  have hmargin := Spacing.le_of_occursAt_margin hbefore
    (List.append_ne_nil_of_left_ne_nil hne _) ((Spacing.starts_append hne).trans hstarts) hmarked
  have hinner : OccursAt (front ++ d :: rest) (front ++ [32]) (i - before.length) := by
    apply (occursAt_append_left before).mp
    rwa [Nat.add_sub_cancel' hmargin]
  have hpos := overlap_pos hinner hmark
  have hin : i - before.length < front.length := by omega
  refine ⟨i - before.length, hpos, hin, hinner, ?_⟩
  intro i' n' hlocate'
  have hlength := length_around 32 d (Nat.le_of_lt hin)
  have haround : around front 32 d (i - before.length) ≠ [] := by
    intro hnil
    rw [hnil] at hlength
    cases hlength
  rcases locate_cases haround hlocate' with ⟨hindex', hhow'⟩
  rcases indexOf_eq_some_iff.mp hindex' with ⟨hoccurs', _, _⟩
  rcases hhow' with hall | ⟨_, hlong, hnowhere⟩
  · rw [hall, List.take_length] at hoccurs'
    have hhead : spacing.starts (around front 32 d (i - before.length)) = false := by
      have hget := around_head hinner hpos hin
      rw [Spacing.starts, List.head?_eq_getElem?, hget]
      exact hd
    have hmargin' := Spacing.le_of_occursAt_margin hbefore haround hhead hoccurs'
    have hinner' : OccursAt (front ++ d :: rest) (around front 32 d (i - before.length))
        (i' - before.length) := by
      apply (occursAt_append_left before).mp
      rwa [Nat.add_sub_cancel' hmargin']
    have hlate := around_late hinner hpos hin hmark hinner'
    omega
  · rcases hhow with hwhole | ⟨hsixty, _, _⟩
    · rw [hwhole, List.take_length] at hoccurs
      have hsplit : front ++ [32, d] = front.take (front.length - (i - before.length)) ++
          around front 32 d (i - before.length) := by
        rw [around, ← List.append_assoc, List.take_append_drop]
      rw [hsplit] at hoccurs
      exact absurd hoccurs.right (hnowhere _)
    · omega

theorem doubled_blank_missed (hbefore : spacing.Empty before) (hne : front ≠ [])
    (htight : spacing.Tight front) (hd : isSpace d = false) {i n : Nat}
    (hlocate : locate (before ++ (front ++ 32 :: 32 :: rest)) (front ++ [32, d]) = some (i, n))
    (hlast : i < before.length + front.length) :
    i + n <= before.length + front.length + 1 := by
  have hmark : (32 : CodeUnit) ≠ d := by
    rintro rfl
    exact Bool.false_ne_true hd.symm
  rcases locate_cases (List.append_ne_nil_of_left_ne_nil hne _) hlocate with ⟨hindex, _⟩
  rcases indexOf_eq_some_iff.mp hindex with ⟨hoccurs, _, hleast⟩
  by_cases hshort : n <= front.length + 1
  · have hcut : OccursAt (before ++ (front ++ 32 :: 32 :: rest)) ((front ++ [32, d]).take n)
        before.length := by
      have hfront := (occursAt_length before (front ++ [32]) (32 :: rest)).take n
      have hlength : n <= (front ++ [32]).length := by
        rw [List.length_append]
        exact hshort
      have hleft : front ++ [32, d] = front ++ [32] ++ [d] := by
        rw [List.append_assoc]
        rfl
      rw [hleft, List.take_append_of_le_length hlength]
      rw [List.append_assoc front] at hfront
      exact hfront
    have hfirst := hleast _ hcut
    omega
  · have hall : (front ++ [32, d]).take n = front ++ [32, d] := by
      apply List.take_of_length_le
      rw [List.length_append]
      show front.length + 2 <= n
      omega
    rw [hall] at hoccurs
    have hmargin := Spacing.le_of_occursAt_margin hbefore
      (List.append_ne_nil_of_left_ne_nil hne _)
      ((Spacing.starts_append hne).trans htight.starts) hoccurs
    have hinner : OccursAt (front ++ 32 :: 32 :: rest) (front ++ [32, d])
        (i - before.length) := by
      apply (occursAt_append_left before).mp
      rwa [Nat.add_sub_cancel' hmargin]
    have hapart : forall j : Nat, ¬ (front[j]? = some 32 ∧ front[j + 1]? = some 32) := by
      rintro j ⟨hj, hj'⟩
      have hboth := List.isChain_iff_getElem.mp htight.apart j
        (List.getElem?_eq_some_iff.mp hj').choose
      rw [(List.getElem?_eq_some_iff.mp hj).choose_spec,
        (List.getElem?_eq_some_iff.mp hj').choose_spec] at hboth
      exact hboth ⟨rfl, rfl⟩
    have hend : front.getLast? ≠ some 32 := by
      intro heq
      have hends := htight.ends
      rw [Spacing.ends, heq] at hends
      cases hends
    have hlate := doubled_late hmark hapart hend hinner
    omega

end Marks

/-!
# Breaks of a page
-/

section Breaks

variable {L : CaseMap} {items : List TextItem} {target : List CodeUnit}
  {front core mid back : List (Piece Marked)} {f g : Piece Marked}

/-- A target that is spotted reaches the last item before the break and the next item behind
it, where its first occurrence has characters of them. -/
theorem reaches_of_spotted (h : markedSpacing.Broken (lowerPieces L items) front core f mid g back)
    (hlower : LowersAlone L items) (hspotted : Spotted L items target) {first : Nat}
    (hfirst : indexOf (textOf (normalizedReference L items)) target = some first) :
    exists i n,
      locate (textOf (markedSpacing.neat (lowerPieces L items))) target = some (i, n) ∧
      (first < (markedSpacing.frontText core f).length ->
        (markedSpacing.frontText core f).length <= first + target.length ->
        i < (markedSpacing.neat (front ++ (core ++ [f]))).length) ∧
      (first <= (markedSpacing.frontText core f).length +
          (markedSpacing.breakText core f mid g back).length ->
        (markedSpacing.frontText core f).length +
          (markedSpacing.breakText core f mid g back).length < first + target.length ->
        (markedSpacing.neat (front ++ (core ++ [f]))).length + (markedSpacing.neat mid).length <
          i + n) := by
  rcases hspotted with ⟨i, n, hlocate, hitems⟩
  have howned := owned_lowerPieces L items
  have hreference : normalizedReference L items = _ := hlower.trans h.squeeze_split
  refine ⟨i, n, hlocate, ?_, ?_⟩
  · intro hlt hle
    rcases h.exists_last_owner howned with ⟨c, hc, hown⟩
    have hplace := h.place_behind_last
    have hj := (List.getElem?_eq_some_iff.mp h.get_last).choose
    rw [length_lowerPieces] at hj
    have hlength : (front ++ (core ++ [f])).length - 1 + 1 = (front ++ (core ++ [f])).length := by
      rw [List.length_append, List.length_append, List.length_singleton]
      omega
    rw [← hplace, ← hlength]
    apply ((hitems first hfirst _ hj).mpr ?_).left
    refine ⟨(markedSpacing.frontText core f).length - 1, c, by omega, by omega, ?_, hown⟩
    rw [hreference, List.getElem?_append_left (by omega), ← List.getLast?_eq_getElem?]
    exact hc
  · intro hle hlt
    rcases h.exists_next_owner howned with ⟨d, rest, rest', _, hrest', _, hown⟩
    have hj := (List.getElem?_eq_some_iff.mp h.get_next).choose
    rw [length_lowerPieces] at hj
    rw [← h.place_next]
    apply ((hitems first hfirst _ hj).mpr ?_).right
    refine ⟨_, d, hle, hlt, ?_, hown⟩
    rw [hreference, hrest', getElem?_behind]
    have hget := getElem?_behind (markedSpacing.breakText core f mid g back) (d :: rest') 0
    rw [Nat.add_zero] at hget
    exact hget

theorem not_spotted_across (h : markedSpacing.Broken (lowerPieces L items) front core f mid g back)
    (hlower : LowersAlone L items) (hmid : mid ≠ []) {first i n : Nat}
    (hfirst : indexOf (textOf (normalizedReference L items)) target = some first)
    (hlocate : locate (textOf (markedSpacing.neat (lowerPieces L items))) target = some (i, n))
    (hle : i < (markedSpacing.neat (front ++ (core ++ [f]))).length)
    (hlt : (markedSpacing.neat (front ++ (core ++ [f]))).length < i + n) :
    ¬ Spotted L items target := by
  rintro ⟨i', n', heq, hitems⟩
  rw [hlocate] at heq
  cases heq
  rcases h.get_mid hmid with ⟨k, hk, hempty⟩
  have hj := (List.getElem?_eq_some_iff.mp hk).choose
  rw [length_lowerPieces] at hj
  have hplace := h.place_behind_last
  have hmono := markedSpacing.place_mono (lowerPieces L items)
    (Nat.le_succ (front ++ (core ++ [f])).length)
  rw [Nat.succ_eq_add_one] at hmono
  rcases (hitems first hfirst _ hj).mp ⟨by omega, by omega⟩ with ⟨place, c, _, _, hc, hown⟩
  rw [hlower] at hc
  exact (owned_lowerPieces L items).not_empty hk (List.mem_of_getElem? hc) hown hempty

/-- Every part of the reference text that begins and ends with a character is spotted. -/
def SpotsAll (L : CaseMap) (items : List TextItem) : Prop :=
  forall part, part <:+: textOf (normalizedReference L items) -> part ≠ [] ->
    spacing.starts part = false -> spacing.ends part = false -> Spotted L items part

section Cut

variable (h : markedSpacing.Broken (lowerPieces L items) front core f mid g back)
  (hlower : LowersAlone L items) {before : List Marked} {d : CodeUnit}
  {rest rest' : List CodeUnit} (hbefore : spacing.Empty (textOf before))
  (hfront : markedSpacing.neat (front ++ (core ++ [f])) =
    before ++ markedSpacing.frontText core f) (hd : isSpace d = false)
  (hneat : textOf (markedSpacing.neat (lowerPieces L items)) =
    textOf before ++ (textOf (markedSpacing.frontText core f) ++
      (textOf (markedSpacing.gapText mid g) ++ d :: rest)))
  (hreference : textOf (normalizedReference L items) =
    textOf (markedSpacing.frontText core f) ++
      (textOf (markedSpacing.breakText core f mid g back) ++ d :: rest'))

include h in
theorem frontText_ne_nil : textOf (markedSpacing.frontText core f) ≠ [] := by
  have hkept := mt empty_textOf.mp (Spacing.not_empty_raw_snoc core h.kept_last)
  rw [Spacing.frontText, textOf_squeeze]
  exact mt Spacing.squeeze_eq_nil_iff.mp hkept

theorem tight_frontText (core : List (Piece Marked)) (f : Piece Marked) :
    spacing.Tight (textOf (markedSpacing.frontText core f)) := by
  rw [Spacing.frontText, textOf_squeeze]
  exact Spacing.tight_squeeze _

include h in
theorem starts_frontText_append (text : List CodeUnit) :
    spacing.starts (textOf (markedSpacing.frontText core f) ++ text) = false :=
  (Spacing.starts_append (frontText_ne_nil h)).trans (tight_frontText core f).starts

include hfront in
theorem length_neat_front : (markedSpacing.neat (front ++ (core ++ [f]))).length =
    (textOf before).length + (textOf (markedSpacing.frontText core f)).length := by
  rw [hfront, length_textOf, length_textOf]
  exact List.length_append

include h hreference in
theorem indexOf_across : indexOf (textOf (normalizedReference L items))
    (textOf (markedSpacing.frontText core f) ++
      (textOf (markedSpacing.breakText core f mid g back) ++ [d])) = some 0 := by
  have hne := List.append_ne_nil_of_left_ne_nil (frontText_ne_nil h)
    (textOf (markedSpacing.breakText core f mid g back) ++ [d])
  have hindex := Spacing.indexOf_behind (List.forall_mem_nil _) hne
    (starts_frontText_append h _) rest'
  rw [hreference]
  rw [List.nil_append, List.append_assoc, List.append_assoc] at hindex
  exact hindex

include h hd hreference in
theorem spotted_across (hall : SpotsAll L items) :
    Spotted L items (textOf (markedSpacing.frontText core f) ++
      (textOf (markedSpacing.breakText core f mid g back) ++ [d])) := by
  have hindex := indexOf_across h hreference
  apply hall
  · exact infix_iff_exists_occursAt.mpr ⟨0, (indexOf_eq_some_iff.mp hindex).left⟩
  · exact List.append_ne_nil_of_left_ne_nil (frontText_ne_nil h) _
  · exact starts_frontText_append h _
  · rw [Spacing.ends_append (List.append_ne_nil_of_right_ne_nil _ (List.cons_ne_nil d [])),
      Spacing.ends_append (List.cons_ne_nil d [])]
    exact hd

include h hlower hbefore hfront hd hneat hreference in
theorem not_spotsAll_of_idle (hmid : mid ≠ [])
    (hsame : textOf (markedSpacing.gapText mid g) =
      textOf (markedSpacing.breakText core f mid g back)) : ¬ SpotsAll L items := by
  intro hall
  have hne := List.append_ne_nil_of_left_ne_nil (frontText_ne_nil h)
    (textOf (markedSpacing.breakText core f mid g back) ++ [d])
  have hindex := Spacing.indexOf_behind hbefore hne (starts_frontText_append h _) rest
  have hlength := length_neat_front hfront
  have hpos := List.length_pos_of_ne_nil (frontText_ne_nil h)
  rw [List.append_assoc, List.append_assoc, List.singleton_append, ← hsame, ← hneat] at hindex
  refine not_spotted_across h hlower hmid (indexOf_across h hreference)
    (locate_of_indexOf (hsame ▸ hindex)) ?_ ?_ (spotted_across h hd hreference hall)
  · omega
  · rw [List.length_append, List.length_append, List.length_singleton]
    omega

include h hlower hbefore hfront hd hneat hreference in
theorem not_spotsAll_of_lost (hgap : textOf (markedSpacing.gapText mid g) = [])
    (hbreak : textOf (markedSpacing.breakText core f mid g back) = [32]) :
    ¬ SpotsAll L items := by
  intro hall
  have hlength := length_neat_front hfront
  have hne := frontText_ne_nil h
  have htight := tight_frontText core f
  have hmark : (32 : CodeUnit) ≠ d := by
    rintro rfl
    exact Bool.false_ne_true hd.symm
  have hpos := List.length_pos_of_ne_nil hne
  rcases reaches_of_spotted h hlower (spotted_across h hd hreference hall)
    (indexOf_across h hreference) with ⟨i, n, hlocate, hlast, hnext⟩
  rw [← length_textOf, ← length_textOf, hbreak, List.length_append, List.length_append,
    List.length_singleton, List.length_singleton] at hnext
  rw [← length_textOf, List.length_append] at hlast
  rw [hneat, hgap, hbreak] at hlocate
  rw [hbreak, List.singleton_append] at hreference
  have hfound := hlast (by omega) (by omega)
  have hmet := hnext (by omega) (by omega)
  rcases lost_blank_missed hbefore hne htight.starts hd hlocate (by omega) (by omega) with
    ⟨e, he, hlt, hoverlap, hmissed⟩
  have hsize := length_around 32 d (Nat.le_of_lt hlt)
  have hoccurs : OccursAt (textOf (markedSpacing.frontText core f) ++ 32 :: d :: rest')
      (around (textOf (markedSpacing.frontText core f)) 32 d e)
      ((textOf (markedSpacing.frontText core f)).length - e) :=
    around_occursAt rest' (Nat.le_of_lt hlt)
  have hbound := hoccurs.le_length (List.ne_nil_of_length_pos (by omega))
  have hfirst : indexOf (textOf (normalizedReference L items))
      (around (textOf (markedSpacing.frontText core f)) 32 d e) =
        some ((textOf (markedSpacing.frontText core f)).length - e) := by
    rw [hreference]
    apply indexOf_eq_some_iff.mpr
    exact ⟨hoccurs, by omega, fun j hj => around_first hoverlap he hlt hmark hj⟩
  have hspotted : Spotted L items (around (textOf (markedSpacing.frontText core f)) 32 d e) := by
    apply hall
    · exact infix_iff_exists_occursAt.mpr ⟨_, (indexOf_eq_some_iff.mp hfirst).left⟩
    · exact List.ne_nil_of_length_pos (by omega)
    · rw [Spacing.starts, List.head?_eq_getElem?, around_head hoverlap he hlt]
      exact hd
    · rw [around, Spacing.ends_append (List.cons_ne_nil _ _)]
      exact hd
  rcases reaches_of_spotted h hlower hspotted hfirst with ⟨i', n', hlocate', hlast', _⟩
  rw [← length_textOf] at hlast'
  rw [hneat, hgap] at hlocate'
  have hlate := hmissed i' n' hlocate'
  have hreached := hlast' (by omega) (by omega)
  omega

include h hlower hbefore hfront hd hneat hreference in
theorem not_spotsAll_of_doubled {more : List CodeUnit}
    (hgap : textOf (markedSpacing.gapText mid g) = 32 :: 32 :: more)
    (hbreak : textOf (markedSpacing.breakText core f mid g back) = [32]) :
    ¬ SpotsAll L items := by
  intro hall
  have hlength := length_neat_front hfront
  have hne := frontText_ne_nil h
  have hpos := List.length_pos_of_ne_nil hne
  have hmid : 1 <= (markedSpacing.neat mid).length := by
    have hcount := congrArg List.length hgap
    have hlead := Spacing.length_lead_le (S := markedSpacing) g
    rw [length_textOf, Spacing.gapText, List.length_append, List.length_cons,
      List.length_cons] at hcount
    omega
  rcases reaches_of_spotted h hlower (spotted_across h hd hreference hall)
    (indexOf_across h hreference) with ⟨i, n, hlocate, hlast, hnext⟩
  rw [← length_textOf, ← length_textOf, hbreak, List.length_append, List.length_append,
    List.length_singleton, List.length_singleton] at hnext
  rw [← length_textOf, List.length_append] at hlast
  rw [hneat, hgap, hbreak] at hlocate
  have hfound := hlast (by omega) (by omega)
  have hmet := hnext (by omega) (by omega)
  have hmissed := doubled_blank_missed hbefore hne (tight_frontText core f) hd hlocate (by omega)
  omega

end Cut

theorem not_spotsAll_of_broken
    (h : markedSpacing.Broken (lowerPieces L items) front core f mid g back)
    (hlower : LowersAlone L items) : ¬ SpotsAll L items := by
  rcases h.exists_before with ⟨before, hblanks, hfront⟩
  rcases h.exists_next_owner (owned_lowerPieces L items) with
    ⟨d, rest, rest', hrest, hrest', hd, _⟩
  have hbefore : spacing.Empty (textOf before) := by
    apply empty_textOf.mpr
    intro c hc
    rw [hblanks c hc]
    rfl
  have hreference : textOf (normalizedReference L items) =
      textOf (markedSpacing.frontText core f) ++
        (textOf (markedSpacing.breakText core f mid g back) ++ d.1 :: textOf rest') := by
    rw [hlower, h.squeeze_split, textOf_append, textOf_append, hrest']
    rfl
  have hneat : textOf (markedSpacing.neat (lowerPieces L items)) =
      textOf before ++ (textOf (markedSpacing.frontText core f) ++
        (textOf (markedSpacing.gapText mid g) ++
          d.1 :: textOf (rest ++ markedSpacing.neat back))) := by
    rw [h.neat_split, hfront, textOf_append, textOf_append, textOf_append, hrest,
      List.append_assoc]
    rfl
  by_cases hgap : markedSpacing.gapText mid g = []
  · by_cases hbreak : markedSpacing.breakText core f mid g back = []
    · have hmid : mid ≠ [] := by
        intro hnil
        rw [(h.missing_of_mid hnil).right] at hbreak
        cases hbreak
      exact not_spotsAll_of_idle h hlower hbefore hfront hd hneat hreference hmid
        (by rw [hgap, hbreak])
    · have hblank : markedSpacing.breakText core f mid g back = [markedSpacing.blank] := by
        rw [h.breakText_eq] at hbreak ⊢
        split at hbreak
        · rename_i hspace
          rw [if_pos hspace]
        · exact absurd rfl hbreak
      exact not_spotsAll_of_lost h hlower hbefore hfront hd hneat hreference
        (by rw [hgap]; rfl) (by rw [hblank]; rfl)
  · have hblank := h.breakText_of_gapText hgap
    have hblankGap := fun c => h.eq_blank_of_mem_gapText (c := c)
    cases hcases : markedSpacing.gapText mid g with
    | nil => exact absurd hcases hgap
    | cons c more =>
        rw [hcases] at hblankGap
        have hc := hblankGap c List.mem_cons_self
        cases more with
        | nil =>
            have hmid : mid ≠ [] := fun hnil => hgap (h.missing_of_mid hnil).left
            exact not_spotsAll_of_idle h hlower hbefore hfront hd hneat hreference hmid
              (by rw [hcases, hblank, hc])
        | cons c' more =>
            have hc' := hblankGap c' (List.mem_cons_of_mem c List.mem_cons_self)
            have hdoubled : textOf (markedSpacing.gapText mid g) = 32 :: 32 :: textOf more := by
              rw [hcases, hc, hc']
              rfl
            exact not_spotsAll_of_doubled h hlower hbefore hfront hd hneat hreference hdoubled
              (by rw [hblank]; rfl)

end Breaks

end ChatDoc
