import Mathlib.Data.List.Infix
import Mathlib.Data.List.Range

/-!
# Overlapping windows

Windows of one size are laid over a list at starts one step apart, up to the
first one that reaches the end of the list.  Only some of them are kept.
-/

namespace Foundation

variable {α : Type}

theorem infix_extract (l : List α) (start stop : Nat) :
    l.extract start stop <:+: l := by
  rw [List.extract_eq_take_drop]
  exact (List.take_prefix _ _).isInfix.trans (List.drop_suffix _ _).isInfix

theorem extract_infix_extract (l : List α) {start stop start' stop' : Nat}
    (hstart : start' ≤ start) (hstop : stop ≤ stop') :
    l.extract start stop <:+: l.extract start' stop' := by
  have hinner : l.extract start stop =
      (l.extract start' stop').extract (start - start') (stop - start') := by
    rw [List.extract_eq_take_drop, List.extract_eq_take_drop,
      List.extract_eq_take_drop, List.drop_take, List.take_take, List.drop_drop,
      Nat.add_sub_cancel' hstart]
    congr 1
    omega
  rw [hinner]
  exact infix_extract _ _ _

structure Window (l : List α) (size : Nat) where
  start : Nat
  stop : Nat
  start_le : start ≤ stop
  stop_le : stop ≤ l.length
  short : stop - start ≤ size

namespace Window

variable {l : List α} {size : Nat}

def piece (w : Window l size) : List α := l.extract w.start w.stop

theorem infix_piece (w : Window l size) : w.piece <:+: l :=
  infix_extract l w.start w.stop

theorem length_piece (w : Window l size) : w.piece.length ≤ size := by
  have hshort := w.short
  rw [piece, List.extract_eq_take_drop, List.length_take]
  omega

/-- The other window starts later and stops later, so neither range holds the other. -/
def Before (w w' : Window l size) : Prop := w.start < w'.start ∧ w.stop < w'.stop

def Holds (w : Window l size) (start stop : Nat) : Prop :=
  w.start ≤ start ∧ stop ≤ w.stop

theorem Holds.within {w : Window l size} {start stop : Nat} (h : w.Holds start stop) :
    l.extract start stop <:+: w.piece :=
  extract_infix_extract l h.left h.right

def whole (h : l.length ≤ size) : Window l size where
  start := 0
  stop := l.length
  start_le := Nat.zero_le _
  stop_le := le_refl _
  short := h

def cut (size start : Nat) (h : start ≤ l.length) : Window l size where
  start := start
  stop := min (start + size) l.length
  start_le := le_min (Nat.le_add_right _ _) h
  stop_le := min_le_right _ _
  short := Nat.sub_le_of_le_add
    ((min_le_left _ _).trans_eq (Nat.add_comm _ _))

theorem piece_cut {start : Nat} (h : start ≤ l.length) :
    (cut size start h).piece = (l.drop start).take size := by
  rw [piece, List.extract_eq_take_drop]
  change (l.drop start).take (min (start + size) l.length - start) = _
  have hlength : (l.drop start).length = l.length - start := List.length_drop
  rcases Nat.le_total (start + size) l.length with hin | hout
  · rw [min_eq_left hin, Nat.add_sub_cancel_left]
  · rw [min_eq_right hout, ← hlength, List.take_length, List.take_of_length_le]
    omega

theorem piece_whole (h : l.length ≤ size) : (whole h).piece = l := by
  rw [piece, whole, List.extract_eq_take_drop]
  exact List.take_length

end Window

/-!
# The loop
-/

section Loop

variable (size step : Nat) (keep : List α -> Bool) (l : List α)

def keptStarts : List Nat -> List Nat
  | [] => []
  | start :: starts =>
      let later := if l.length ≤ start + size then [] else keptStarts starts
      if keep ((l.drop start).take size) then start :: later else later

def windowsOver : List (List α) :=
  (keptStarts size keep l (List.range' 0 ((l.length + step - 1) / step) step)).map
    fun start => (l.drop start).take size

variable {size step keep l}

theorem mem_keptStarts {starts : List Nat} {start : Nat}
    (h : start ∈ keptStarts size keep l starts) : start ∈ starts := by
  induction starts with
  | nil => exact h
  | cons first starts ih =>
      have hlater (hin : start ∈ if l.length ≤ first + size then []
          else keptStarts size keep l starts) : start ∈ first :: starts := by
        split at hin
        · cases hin
        · exact List.mem_cons_of_mem _ (ih hin)
      rw [keptStarts] at h
      split at h
      · rcases List.mem_cons.mp h with rfl | hin
        · exact List.mem_cons_self
        · exact hlater hin
      · exact hlater h

theorem keptStarts_pairwise (size : Nat) (keep : List α -> Bool) (l : List α)
    {starts : List Nat}
    (h : starts.Pairwise (fun start start' => start < start')) :
    (keptStarts size keep l starts).Pairwise
      (fun start start' => start < start' ∧ start + size < l.length) := by
  induction starts with
  | nil => exact List.Pairwise.nil
  | cons first starts ih =>
      rw [List.pairwise_cons] at h
      rw [keptStarts]
      split
      · split
        · exact List.pairwise_singleton _ _
        · rename_i hend
          rw [List.pairwise_cons]
          constructor
          · intro start hin
            exact ⟨h.left start (mem_keptStarts hin), Nat.lt_of_not_le hend⟩
          · exact ih h.right
      · split
        · exact List.Pairwise.nil
        · exact ih h.right

/-- The loop keeps a window over every range that is no longer than what two
windows share, provided that nothing with such a piece is dropped. -/
theorem exists_keptStart {first count start stop : Nat} (hstart : start < l.length)
    (hstop : stop ≤ l.length) (hfirst : first ≤ start)
    (hshort : stop + step ≤ start + size) (hend : l.length ≤ first + step * count)
    (hkeep : forall window, l.extract start stop <:+: window -> keep window = true) :
    exists kept, kept ∈ keptStarts size keep l (List.range' first count step) ∧
      kept ≤ start ∧ stop ≤ kept + size := by
  induction count generalizing first with
  | zero => omega
  | succ count ih =>
      rw [List.range'_succ, keptStarts]
      by_cases hhere : stop ≤ first + size
      · have hwindow : keep ((l.drop first).take size) = true := by
          apply hkeep
          have hinner := extract_infix_extract l hfirst hhere
          rw [List.extract_eq_take_drop, List.extract_eq_take_drop,
            Nat.add_sub_cancel_left] at hinner
          rw [List.extract_eq_take_drop]
          exact hinner
        rw [if_pos hwindow]
        exact ⟨first, List.mem_cons_self, hfirst, hhere⟩
      · have hmore : ¬ l.length ≤ first + size := by omega
        rw [if_neg hmore]
        rw [Nat.mul_succ] at hend
        have hnext : first + step ≤ start := by omega
        have hreach : l.length ≤ first + step + step * count := by omega
        rcases ih hnext hreach with ⟨kept, hin, hbounds⟩
        split
        · exact ⟨kept, List.mem_cons_of_mem _ hin, hbounds⟩
        · exact ⟨kept, hin, hbounds⟩

/-- The kept windows are ranges in increasing order, none within another, that
together hold every range no longer than what two windows share. -/
theorem windowsOver_spec (size : Nat) (keep : List α -> Bool) (l : List α) (hstep : 0 < step) :
    exists windows : List (Window l size),
      windowsOver size step keep l = windows.map Window.piece ∧
        windows.Pairwise Window.Before ∧
          forall start stop, start < l.length -> stop ≤ l.length ->
            stop + step ≤ start + size ->
              (forall window, l.extract start stop <:+: window -> keep window = true) ->
                exists w, w ∈ windows ∧ w.Holds start stop := by
  have hbounds : forall start, start ∈ keptStarts size keep l
      (List.range' 0 ((l.length + step - 1) / step) step) -> start ≤ l.length := by
    intro start hin
    rcases List.mem_range'.mp (mem_keptStarts hin) with ⟨i, hi, rfl⟩
    have hdiv := Nat.div_mul_le_self (l.length + step - 1) step
    have hmul : (i + 1) * step ≤ (l.length + step - 1) / step * step :=
      Nat.mul_le_mul_right step hi
    rw [Nat.succ_mul] at hmul
    rw [Nat.mul_comm step i]
    omega
  have hordered := keptStarts_pairwise size keep l
    (List.pairwise_lt_range' (s := 0) (n := (l.length + step - 1) / step) step hstep)
  refine ⟨(keptStarts size keep l _).pmap (Window.cut size) hbounds, ?_, ?_, ?_⟩
  · rw [List.map_pmap, windowsOver, ← List.pmap_eq_map (H := hbounds)]
    apply List.pmap_congr_left
    intro start _ hstart _
    exact (Window.piece_cut hstart).symm
  · apply List.Pairwise.pmap hordered
    intro start hstart start' hstart' hlt
    constructor
    · exact hlt.left
    · change min (start + size) l.length < min (start' + size) l.length
      omega
  · intro start stop hstart hstop hshort hkeep
    have hend : l.length ≤ 0 + step * ((l.length + step - 1) / step) := by
      have hlt := Nat.lt_mul_div_succ (l.length + step - 1) hstep
      rw [Nat.mul_succ] at hlt
      omega
    rcases exists_keptStart hstart hstop (Nat.zero_le _) hshort hend hkeep with
      ⟨kept, hin, hlow, hhigh⟩
    refine ⟨Window.cut size kept (hbounds kept hin), ?_, hlow, ?_⟩
    · exact List.mem_pmap.mpr ⟨kept, hin, rfl⟩
    · exact le_min hhigh hstop

end Loop
end Foundation
