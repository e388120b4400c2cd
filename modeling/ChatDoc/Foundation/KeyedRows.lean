import Mathlib.Data.List.Basic

/-!
# Rows with a primary key

A table as the list of its rows, and `INSERT OR REPLACE`: the rows with the key
of the new one go out.
-/

namespace Foundation

variable {row key : Type} [DecidableEq key] (keyOf : row -> key)

def findByKey (k : key) (rows : List row) : Option row :=
  rows.find? fun r => keyOf r = k

def insertOrReplace (r : row) (rows : List row) : List row :=
  rows.filter (fun r' => keyOf r' ≠ keyOf r) ++ [r]

theorem findByKey_insertOrReplace_self (r : row) (rows : List row) :
    findByKey keyOf (keyOf r) (insertOrReplace keyOf r rows) = some r := by
  have hrest : (rows.filter fun r' => keyOf r' ≠ keyOf r).find?
      (fun r' => keyOf r' = keyOf r) = none := by
    rw [List.find?_eq_none]
    intro r' hr' hkey
    have hne := List.of_mem_filter hr'
    rw [decide_eq_true_eq] at hne hkey
    exact hne hkey
  unfold findByKey insertOrReplace
  rw [List.find?_append, hrest, Option.none_or, List.find?_cons_of_pos]
  exact decide_eq_true rfl

theorem findByKey_insertOrReplace_of_ne {k : key} {r : row} (h : k ≠ keyOf r)
    (rows : List row) :
    findByKey keyOf k (insertOrReplace keyOf r rows) = findByKey keyOf k rows := by
  have hnew : [r].find? (fun r' => keyOf r' = k) = none := by
    rw [List.find?_cons_of_neg, List.find?_nil]
    rw [decide_eq_true_eq]
    exact fun hkey => h hkey.symm
  unfold findByKey insertOrReplace
  rw [List.find?_append, hnew, Option.or_none, List.find?_filter]
  congr 1
  funext r'
  by_cases hkey : keyOf r' = k
  · rw [hkey]
    simp [h]
  · simp [hkey]

/-!
# Lookup
-/

theorem lookup_eq_some_iff_mem {value : Type} {rows : List (key × value)}
    (hdistinct : (rows.map Prod.fst).Nodup) {k : key} {v : value} :
    rows.lookup k = some v <-> (k, v) ∈ rows := by
  induction rows with
  | nil => simp
  | cons entry rows ih =>
      rcases entry with ⟨k', v'⟩
      rw [List.map_cons, List.nodup_cons] at hdistinct
      rw [List.lookup_cons]
      by_cases hkey : k = k'
      · subst hkey
        constructor
        · intro h
          simp at h
          simp [h]
        · intro h
          rcases List.mem_cons.mp h with heq | hmem
          · cases heq
            simp
          · exact absurd (List.mem_map_of_mem (f := Prod.fst) hmem) hdistinct.left
      · rw [beq_false_of_ne hkey]
        apply Iff.trans (ih hdistinct.right)
        simp [hkey]

/-!
# The last element with a property
-/

section Last

variable {α β : Type}

theorem findRev?_map (f : α -> β) (p : β -> Bool) (xs : List α) :
    (xs.map f).findRev? p = (xs.findRev? fun x => p (f x)).map f := by
  rw [List.findRev?_eq_find?_reverse, List.findRev?_eq_find?_reverse, ← List.map_reverse,
    List.find?_map]
  rfl

theorem findRev?_filter (p q : α -> Bool) (xs : List α) :
    (xs.filter p).findRev? q = xs.findRev? fun x => p x && q x := by
  simp only [List.findRev?_eq_find?_reverse, ← List.filter_reverse, List.find?_filter,
    Bool.decide_and, Bool.decide_eq_true]

theorem mem_of_findRev? {p : α -> Bool} {xs : List α} {x : α}
    (h : xs.findRev? p = some x) : x ∈ xs := by
  rw [List.findRev?_eq_find?_reverse] at h
  exact List.mem_reverse.mp (List.mem_of_find?_eq_some h)

theorem findRev?_congr {p q : α -> Bool} {xs : List α}
    (h : forall x, x ∈ xs -> p x = q x) : xs.findRev? p = xs.findRev? q := by
  induction xs with
  | nil => rfl
  | cons x xs ih =>
      rw [List.findRev?, List.findRev?, ih fun y hy => h y (List.mem_cons_of_mem x hy),
        h x List.mem_cons_self]

theorem findRev?_remove {p : α -> Bool} {x : α} (hx : p x = false) (before after : List α) :
    (before ++ x :: after).findRev? p = (before ++ after).findRev? p := by
  simp [List.findRev?_eq_find?_reverse, List.find?_append, hx]

end Last

/-!
# Many writes
-/

def insertAll (written rows : List row) : List row :=
  written.foldl (fun rows r => insertOrReplace keyOf r rows) rows

theorem findByKey_insertAll (k : key) (written rows : List row) :
    findByKey keyOf k (insertAll keyOf written rows) =
      (written.findRev? fun r => keyOf r = k).or (findByKey keyOf k rows) := by
  induction written generalizing rows with
  | nil => rfl
  | cons r rest ih =>
      have hstep : insertAll keyOf (r :: rest) rows =
          insertAll keyOf rest (insertOrReplace keyOf r rows) := rfl
      rw [hstep, ih, List.findRev?]
      cases rest.findRev? fun r' => keyOf r' = k with
      | some last => rfl
      | none =>
          rw [Option.none_or]
          by_cases hkey : keyOf r = k
          · rw [← hkey, findByKey_insertOrReplace_self, decide_eq_true rfl]
            rfl
          · rw [findByKey_insertOrReplace_of_ne keyOf (Ne.symm hkey), decide_eq_false hkey]
            rfl

/-!
# Collecting by key
-/

section Collecting

variable {item value : Type} (keyOf : item -> key) (one : item -> value)
  (more : value -> value -> value)

def collect (rows : List (key × value)) (x : item) : List (key × value) :=
  match rows.lookup (keyOf x) with
  | none => rows ++ [(keyOf x, one x)]
  | some v =>
      rows.map fun r => if r.1 = keyOf x then (keyOf x, more v (one x)) else r

variable {keyOf one more}

structure Collected (keyOf : item -> key) (made : List item -> value -> Prop)
    (items : List item) (rows : List (key × value)) : Prop where
  nodup : (rows.map Prod.fst).Nodup
  keys : forall k, k ∈ rows.map Prod.fst <-> exists x, x ∈ items ∧ keyOf x = k
  values : forall r, r ∈ rows -> made (items.filter fun x => keyOf x = r.1) r.2

theorem lookup_eq_none_iff_keys {rows : List (key × value)} {k : key} :
    rows.lookup k = none <-> k ∉ rows.map Prod.fst := by
  rw [List.lookup_eq_none_iff, List.mem_map]
  constructor
  · rintro h ⟨r, hr, hk⟩
    exact bne_iff_ne.mp (h r hr) hk.symm
  · intro h r hr
    rw [bne_iff_ne]
    intro hk
    exact h ⟨r, hr, hk.symm⟩

theorem Collected.step {made : List item -> value -> Prop} {items : List item}
    {rows : List (key × value)} {x : item} (h : Collected keyOf made items rows)
    (hone : made [x] (one x))
    (hmore : forall items v, made items v -> made (items ++ [x]) (more v (one x))) :
    Collected keyOf made (items ++ [x]) (collect keyOf one more rows x) := by
  have hother {k : key} (hk : keyOf x ≠ k) :
      (items ++ [x]).filter (fun y => keyOf y = k) = items.filter fun y => keyOf y = k := by
    rw [List.filter_append, List.filter_singleton, decide_eq_false hk]
    exact List.append_nil _
  have hown : (items ++ [x]).filter (fun y => keyOf y = keyOf x) =
      (items.filter fun y => keyOf y = keyOf x) ++ [x] := by
    rw [List.filter_append, List.filter_singleton, decide_eq_true rfl]
    rfl
  unfold collect
  split
  · next hnone =>
      have hfree := lookup_eq_none_iff_keys.mp hnone
      have hnew : items.filter (fun y => keyOf y = keyOf x) = [] := by
        rw [List.filter_eq_nil_iff]
        intro y hy hkey
        exact hfree ((h.keys _).mpr ⟨y, hy, of_decide_eq_true hkey⟩)
      constructor
      · rw [List.map_append, List.map_singleton, List.nodup_append]
        refine ⟨h.nodup, List.pairwise_singleton _ _, ?_⟩
        intro k hk k' hk'
        rw [List.mem_singleton.mp hk']
        rintro rfl
        exact hfree hk
      · intro k
        rw [List.map_append, List.mem_append, h.keys k, List.map_singleton,
          List.mem_singleton]
        constructor
        · rintro (⟨y, hy, hk⟩ | hk)
          · exact ⟨y, List.mem_append_left _ hy, hk⟩
          · exact ⟨x, List.mem_append_right _ List.mem_cons_self, hk.symm⟩
        · rintro ⟨y, hy, hk⟩
          rcases List.mem_append.mp hy with hold | hlast
          · exact .inl ⟨y, hold, hk⟩
          · rw [List.mem_singleton.mp hlast] at hk
            exact .inr hk.symm
      · intro r hr
        rcases List.mem_append.mp hr with hold | hlast
        · rw [hother]
          · exact h.values r hold
          · rintro hk
            exact hfree (List.mem_map.mpr ⟨r, hold, hk.symm⟩)
        · rw [List.mem_singleton.mp hlast, hown, hnew]
          exact hone
  · next v hsome =>
      have hin : (keyOf x, v) ∈ rows := (lookup_eq_some_iff_mem h.nodup).mp hsome
      have hkeys : (rows.map fun r => if r.1 = keyOf x then (keyOf x, more v (one x))
          else r).map Prod.fst = rows.map Prod.fst := by
        rw [List.map_map]
        apply List.map_congr_left
        intro r _
        by_cases hk : r.1 = keyOf x
        · simp [hk]
        · simp [hk]
      constructor
      · rw [hkeys]
        exact h.nodup
      · intro k
        rw [hkeys, h.keys k]
        constructor
        · rintro ⟨y, hy, hk⟩
          exact ⟨y, List.mem_append_left _ hy, hk⟩
        · rintro ⟨y, hy, hk⟩
          rcases List.mem_append.mp hy with hold | hlast
          · exact ⟨y, hold, hk⟩
          · rw [List.mem_singleton.mp hlast] at hk
            apply (h.keys k).mp
            exact List.mem_map.mpr ⟨_, hin, hk⟩
      · intro r hr
        rcases List.mem_map.mp hr with ⟨old, hold, hr⟩
        by_cases hk : old.1 = keyOf x
        · rw [if_pos hk] at hr
          rw [← hr, hown]
          exact hmore _ v (h.values _ hin)
        · rw [if_neg hk] at hr
          rw [← hr, hother (Ne.symm hk)]
          exact h.values old hold

theorem collected_foldl {made : List item -> value -> Prop}
    (hone : forall x, made [x] (one x))
    (hmore : forall items v x, made items v -> made (items ++ [x]) (more v (one x)))
    {front : List item} {rows : List (key × value)} (h : Collected keyOf made front rows)
    (items : List item) :
    Collected keyOf made (front ++ items) (items.foldl (collect keyOf one more) rows) := by
  induction items generalizing front rows with
  | nil =>
      rw [List.append_nil]
      exact h
  | cons x rest ih =>
      have hnext := ih (h.step (hone x) fun items v => hmore items v x)
      rw [List.append_assoc] at hnext
      exact hnext

theorem collected_nil (made : List item -> value -> Prop) :
    Collected keyOf made [] [] := by
  constructor
  · exact List.Pairwise.nil
  · intro k
    constructor
    · intro hk
      cases hk
    · rintro ⟨x, hx, _⟩
      cases hx
  · intro r hr
    cases hr

end Collecting

end Foundation
