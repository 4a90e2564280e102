/-!
# Bindings

A finite map in which a later binding replaces an earlier one with the same key. It is kept as the
list of its bindings, newest first; that no key occurs twice is part of the type.

**Main results.** `get?_insert` says what an insertion does to every key. `get?_insertAll` says
that after a sequence of insertions a key is bound by the last of them that names it, and
`mem_entries_iff` that the entries are exactly the bindings.
-/

namespace Cvere

/-- A finite map from keys to values. -/
structure Bindings (κ ν : Type) where
  /-- The bindings, newest first. -/
  entries : List (κ × ν)
  /-- No key is bound twice. -/
  distinct : (entries.map Prod.fst).Nodup

namespace Bindings

variable {κ ν : Type}

/-- No bindings. -/
def empty : Bindings κ ν where
  entries := []
  distinct := List.nodup_nil

/-- The keys, newest first. -/
def keys (m : Bindings κ ν) : List κ :=
  m.entries.map Prod.fst

/-- The number of bound keys. -/
def size (m : Bindings κ ν) : Nat :=
  m.entries.length

variable [DecidableEq κ]

/-- The value bound to a key. -/
def get? (m : Bindings κ ν) (k : κ) : Option ν :=
  m.entries.lookup k

/-- Bind `k` to `v`, in place of what it was bound to before. -/
def insert (m : Bindings κ ν) (k : κ) (v : ν) : Bindings κ ν where
  entries := (k, v) :: m.entries.filter fun e => e.1 ≠ k
  distinct := by
    rw [List.map_cons, List.nodup_cons]
    refine ⟨?_, m.distinct.sublist (List.filter_sublist.map _)⟩
    simp

/-- Insert pairs from left to right. -/
def insertAll (m : Bindings κ ν) (pairs : List (κ × ν)) : Bindings κ ν :=
  pairs.foldl (fun m p => m.insert p.1 p.2) m

/-! ## Laws -/

@[simp] theorem get?_empty (k : κ) : (empty : Bindings κ ν).get? k = none := rfl

theorem lookup_filter_ne {k k' : κ} (h : k' ≠ k) (entries : List (κ × ν)) :
    (entries.filter fun e => e.1 ≠ k).lookup k' = entries.lookup k' := by
  induction entries with
  | nil => rfl
  | cons e entries ih =>
    obtain ⟨a, b⟩ := e
    by_cases ha : a = k
    · have hne : (k' == a) = false := by simp [ha, h]
      rw [List.filter_cons_of_neg (by simp [ha]), ih, List.lookup_cons, hne]
    · rw [List.filter_cons_of_pos (by simp [ha]), List.lookup_cons, List.lookup_cons, ih]

/-- An insertion binds its key and leaves every other key alone. -/
theorem get?_insert (m : Bindings κ ν) (k : κ) (v : ν) (k' : κ) :
    (m.insert k v).get? k' = if k' = k then some v else m.get? k' := by
  by_cases h : k' = k
  · simp [get?, insert, h]
  · have hne : (k' == k) = false := by simp [h]
    simp only [get?, insert, List.lookup_cons, hne, h, if_false]
    exact lookup_filter_ne h m.entries

@[simp] theorem insertAll_nil (m : Bindings κ ν) : m.insertAll [] = m := rfl

@[simp] theorem insertAll_cons (m : Bindings κ ν) (p : κ × ν) (ps : List (κ × ν)) :
    m.insertAll (p :: ps) = (m.insert p.1 p.2).insertAll ps := rfl

theorem insertAll_append (m : Bindings κ ν) (ps qs : List (κ × ν)) :
    m.insertAll (ps ++ qs) = (m.insertAll ps).insertAll qs :=
  List.foldl_append

/-- After a sequence of insertions, the last one that names a key binds it. -/
theorem get?_insertAll (m : Bindings κ ν) (ps : List (κ × ν)) (k : κ) :
    (m.insertAll ps).get? k = (ps.reverse.lookup k).or (m.get? k) := by
  induction ps generalizing m with
  | nil => simp
  | cons p ps ih =>
    obtain ⟨a, b⟩ := p
    rw [insertAll_cons, ih, get?_insert, List.reverse_cons, List.lookup_append, Option.or_assoc]
    by_cases h : k = a
    · simp [h]
    · have hne : (k == a) = false := by simp [h]
      simp [h, List.lookup_cons, hne]

/-- The entries are exactly the bindings. -/
theorem mem_entries_iff (m : Bindings κ ν) (k : κ) (v : ν) :
    (k, v) ∈ m.entries ↔ m.get? k = some v := by
  obtain ⟨entries, distinct⟩ := m
  simp only [get?]
  induction entries with
  | nil => simp
  | cons e entries ih =>
    obtain ⟨a, b⟩ := e
    rw [List.map_cons, List.nodup_cons] at distinct
    rw [List.mem_cons, List.lookup_cons, Prod.mk.injEq]
    by_cases h : k = a
    · have hnot : (k, v) ∉ entries := fun hv =>
        distinct.1 (List.mem_map.mpr ⟨(k, v), hv, h⟩)
      simp [h, h ▸ hnot, eq_comm]
    · have hne : (k == a) = false := by simp [h]
      simp [h, hne, ih distinct.2]

end Bindings

end Cvere
