import ChatDoc.Foundation.KeyedRows
/-!
# Tables with a serial primary key

A table is a list of rows in the order of their insertion.  Its keys are
assigned by a counter, are pairwise distinct, and are never handed out twice:
deleting a row does not move the counter back.  The two facts are fields, so
the operations keep them by construction.
-/

namespace Foundation

structure SerialTable (row : Type) where
  rows : List (Nat × row)
  next : Nat
  nodup : (rows.map Prod.fst).Nodup
  fresh : forall id, id ∈ rows.map Prod.fst -> id < next

namespace SerialTable

variable {row : Type}

/-!
# Operations
-/

def empty : SerialTable row where
  rows := []
  next := 1
  nodup := List.nodup_nil
  fresh := by
    intro id hid
    cases hid

def lookup (t : SerialTable row) (id : Nat) : Option row :=
  t.rows.lookup id

/-- Insert a row under the next key of the counter. -/
def insert (t : SerialTable row) (r : row) : SerialTable row where
  rows := t.rows ++ [(t.next, r)]
  next := t.next + 1
  nodup := by
    rw [List.map_append, List.nodup_append]
    refine ⟨t.nodup, by simp, ?_⟩
    intro id hid id' hid' heq
    have hlt := t.fresh id hid
    simp at hid'
    omega
  fresh := by
    intro id hid
    rw [List.map_append] at hid
    rcases List.mem_append.mp hid with hold | hnew
    · exact Nat.lt_succ_of_lt (t.fresh id hold)
    · simp at hnew
      omega

def update (t : SerialTable row) (f : Nat -> row -> row) : SerialTable row where
  rows := t.rows.map fun entry => (entry.1, f entry.1 entry.2)
  next := t.next
  nodup := by
    rw [List.map_map]
    exact t.nodup
  fresh := by
    intro id hid
    rw [List.map_map] at hid
    exact t.fresh id hid

def updateAt (t : SerialTable row) (id : Nat) (f : row -> row) :
    SerialTable row :=
  t.update fun id' r => if id' = id then f r else r

def delete (t : SerialTable row) (drop : Nat -> row -> Bool) :
    SerialTable row where
  rows := t.rows.filter fun entry => !drop entry.1 entry.2
  next := t.next
  nodup := t.nodup.sublist (List.filter_sublist.map Prod.fst)
  fresh := by
    intro id hid
    exact t.fresh id ((List.filter_sublist.map Prod.fst).mem hid)

def find? (t : SerialTable row) (test : row -> Bool) : Option (Nat × row) :=
  t.rows.find? fun entry => test entry.2

def select (t : SerialTable row) (test : row -> Bool) : List row :=
  (t.rows.map Prod.snd).filter test

/-!
# Lookup
-/

theorem lookup_eq_some_iff {t : SerialTable row} {id : Nat} {r : row} :
    t.lookup id = some r <-> (id, r) ∈ t.rows :=
  lookup_eq_some_iff_mem t.nodup

theorem lookup_eq_none_iff {t : SerialTable row} {id : Nat} :
    t.lookup id = none <-> forall r, (id, r) ∉ t.rows := by
  constructor
  · intro h r hmem
    rw [← lookup_eq_some_iff, h] at hmem
    cases hmem
  · intro h
    cases hlookup : t.lookup id with
    | none => rfl
    | some r => exact absurd (lookup_eq_some_iff.mp hlookup) (h r)

theorem lt_next_of_lookup {t : SerialTable row} {id : Nat} {r : row}
    (h : t.lookup id = some r) : id < t.next :=
  t.fresh id (List.mem_map_of_mem (f := Prod.fst) (lookup_eq_some_iff.mp h))

@[simp] theorem lookup_empty (id : Nat) :
    (empty : SerialTable row).lookup id = none := rfl

@[simp] theorem lookup_next (t : SerialTable row) : t.lookup t.next = none := by
  rw [lookup_eq_none_iff]
  intro r hmem
  exact Nat.lt_irrefl _ (lt_next_of_lookup (lookup_eq_some_iff.mpr hmem))

theorem lookup_insert (t : SerialTable row) (r : row) (id : Nat) :
    (t.insert r).lookup id = if id = t.next then some r else t.lookup id := by
  unfold lookup insert
  rw [List.lookup_append]
  by_cases hid : id = t.next
  · subst hid
    have hnone : t.rows.lookup t.next = none := t.lookup_next
    simp [hnone]
  · rw [if_neg hid, List.lookup_cons, beq_false_of_ne hid]
    simp

theorem lookup_insert_of_some {t : SerialTable row} {id : Nat} {r old : row}
    (h : t.lookup id = some old) : (t.insert r).lookup id = some old := by
  rw [lookup_insert, if_neg (Nat.ne_of_lt (lt_next_of_lookup h)), h]

@[simp] theorem lookup_update (t : SerialTable row) (f : Nat -> row -> row)
    (id : Nat) : (t.update f).lookup id = (t.lookup id).map (f id) := by
  unfold lookup update
  simp only
  induction t.rows with
  | nil => rfl
  | cons entry rows ih =>
      rw [List.map_cons, List.lookup_cons, List.lookup_cons]
      by_cases hid : id = entry.1
      · subst hid
        simp
      · rw [beq_false_of_ne hid]
        exact ih

theorem lookup_delete (t : SerialTable row) (drop : Nat -> row -> Bool)
    (id : Nat) :
    (t.delete drop).lookup id =
      (t.lookup id).filter fun r => !drop id r := by
  apply Option.ext
  intro r
  rw [lookup_eq_some_iff, Option.filter_eq_some_iff, lookup_eq_some_iff]
  unfold delete
  rw [List.mem_filter]

/-!
# Searching rows
-/

theorem lookup_of_find? {t : SerialTable row} {test : row -> Bool} {id : Nat}
    {r : row} (h : t.find? test = some (id, r)) :
    t.lookup id = some r ∧ test r = true := by
  constructor
  · exact lookup_eq_some_iff.mpr (List.mem_of_find?_eq_some h)
  · have hsome := List.find?_some (show t.rows.find? _ = some (id, r) from h)
    exact hsome

theorem find?_eq_none_iff {t : SerialTable row} {test : row -> Bool} :
    t.find? test = none <->
      forall id r, t.lookup id = some r -> test r = false := by
  unfold find?
  rw [List.find?_eq_none]
  constructor
  · intro h id r hlookup
    have := h (id, r) (lookup_eq_some_iff.mp hlookup)
    simpa using this
  · intro h entry hmem
    rcases entry with ⟨id, r⟩
    simp [h id r (lookup_eq_some_iff.mpr hmem)]

theorem find?_eq_some {t : SerialTable row} {test : row -> Bool} {id : Nat}
    {r : row} (hlookup : t.lookup id = some r) (htest : test r = true)
    (honly : forall id' r', t.lookup id' = some r' -> test r' = true -> id' = id) :
    t.find? test = some (id, r) := by
  cases hfind : t.find? test with
  | none =>
      have := find?_eq_none_iff.mp hfind id r hlookup
      rw [htest] at this
      cases this
  | some entry =>
      rcases entry with ⟨id', r'⟩
      rcases lookup_of_find? hfind with ⟨hlookup', htest'⟩
      have hid := honly id' r' hlookup' htest'
      subst hid
      rw [hlookup] at hlookup'
      cases hlookup'
      rfl

theorem mem_select {t : SerialTable row} {test : row -> Bool} {r : row} :
    r ∈ t.select test <-> exists id, t.lookup id = some r ∧ test r = true := by
  unfold select
  rw [List.mem_filter, List.mem_map]
  constructor
  · intro hall
    rcases hall with ⟨⟨⟨id, r'⟩, hmem, heq⟩, htest⟩
    cases heq
    exact ⟨id, lookup_eq_some_iff.mpr hmem, htest⟩
  · intro hall
    rcases hall with ⟨id, hlookup, htest⟩
    exact ⟨⟨(id, r), lookup_eq_some_iff.mp hlookup, rfl⟩, htest⟩

@[simp] theorem select_insert (t : SerialTable row) (r : row)
    (test : row -> Bool) :
    (t.insert r).select test =
      t.select test ++ if test r then [r] else [] := by
  unfold select insert
  rw [List.map_append, List.filter_append]
  cases h : test r <;> simp [h]

theorem select_delete (t : SerialTable row) (drop test : row -> Bool) :
    (t.delete fun _ r => drop r).select test =
      (t.select test).filter fun r => !drop r := by
  show ((t.rows.filter fun entry => !drop entry.2).map Prod.snd).filter test = _
  unfold select
  rw [List.filter_filter, List.filter_map, List.filter_map, List.filter_filter]
  apply congrArg (List.map Prod.snd)
  apply List.filter_congr
  intro entry _
  exact Bool.and_comm _ _

end SerialTable
end Foundation
