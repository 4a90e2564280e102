import Cvere.Disassembly.Disassembler
import Mathlib.Algebra.Ring.Nat
import Mathlib.Logic.Function.Iterate

/-!
# Records tile the words

A disassembler makes one record for each word, or folds the word after an extended instruction into
its record. Which words begin a record is then decided from the front: a word is reserved or not
depending on every word before it.

**Boundaries.** `boundary words k` is the index of the word that the `k`-th folded record begins
with, found by stepping over one or two words at a time (`nextBoundary`). A step looks at no word
before the index it starts from, so that the boundaries of a text of words behind others are its
own boundaries, moved (`boundary_succ`). That is the whole induction: the disassembler drops the
words of a record and goes on with the rest.

**Main result.** `records_tile`: with one record for each word, the `i`-th record is that of the
`i`-th word; the folded records are those at the boundaries, with their reserved words; and in both
modes the records tile the words, for every decoder.
-/

namespace Cvere

namespace Disassembly

/-- The records hold the words in order, and each begins where the one before it ends. -/
structure Tiles (start : Address) (words : List Word) (recs : List Record) : Prop where
  width : (recs.map Record.width).sum = 2 * words.length
  words : recs.flatMap Record.words = words
  first : ∀ r, recs[0]? = some r → r.address = start
  next : ∀ k r s, recs[k]? = some r → recs[k + 1]? = some s →
    s.address = r.address + BitVec.ofNat 32 r.width

namespace Disassembler

variable (d : Disassembler)

/-! ## Boundaries -/

/-- The word belongs to an extended instruction. -/
def isExtended (raw : Word) : Bool :=
  (d.decoder raw).any (·.family = .extended)

/-- The index behind the record that begins at index `i`. -/
def nextBoundary (words : List Word) (i : Nat) : Nat :=
  if words[i]?.any d.isExtended ∧ i + 1 < words.length then i + 2 else i + 1

/-- The index at which the `k`-th record begins. -/
def boundary (words : List Word) (k : Nat) : Nat :=
  (d.nextBoundary words)^[k] 0

/-- The word that is reserved for the word at index `i`. -/
def reservedAt (words : List Word) (i : Nat) : Option Word :=
  if words[i]?.any d.isExtended then words[i + 1]? else none

section Append

variable (front rest : List Word)

theorem nextBoundary_append (i : Nat) :
    d.nextBoundary (front ++ rest) (front.length + i) = front.length + d.nextBoundary rest i := by
  have hget : (front ++ rest)[front.length + i]? = rest[i]? := by
    rw [List.getElem?_append_right (by omega), Nat.add_sub_cancel_left]
  have hlen : front.length + i + 1 < (front ++ rest).length ↔ i + 1 < rest.length := by
    rw [List.length_append]
    omega
  unfold nextBoundary
  simp only [hget, hlen]
  by_cases h : rest[i]?.any d.isExtended ∧ i + 1 < rest.length
  · rw [if_pos h, if_pos h, Nat.add_assoc]
  · rw [if_neg h, if_neg h, Nat.add_assoc]

theorem reservedAt_append (i : Nat) :
    d.reservedAt (front ++ rest) (front.length + i) = d.reservedAt rest i := by
  unfold reservedAt
  rw [List.getElem?_append_right (by omega), List.getElem?_append_right (by omega), Nat.add_assoc,
    Nat.add_sub_cancel_left, Nat.add_sub_cancel_left]

/-- Behind the first record the boundaries are those of the rest. -/
theorem boundary_succ (h : d.nextBoundary (front ++ rest) 0 = front.length) (k : Nat) :
    d.boundary (front ++ rest) (k + 1) = front.length + d.boundary rest k := by
  have hmove : Function.Semiconj (front.length + ·) (d.nextBoundary rest)
      (d.nextBoundary (front ++ rest)) := by
    intro i
    exact (d.nextBoundary_append front rest i).symm
  unfold boundary
  rw [Function.iterate_succ_apply, h]
  exact (hmove.iterate_right k 0).symm

end Append

/-! ## Records at boundaries -/

/-- The record that begins at index `i`, with its reserved word. -/
def recordAt (start : Address) (words : List Word) (i : Nat) : Option Record :=
  words[i]?.map fun raw =>
    { d.record (start + BitVec.ofNat 32 (2 * i)) raw with reserved := d.reservedAt words i }

theorem add_words (a : Address) (m n : Nat) :
    a + BitVec.ofNat 32 (2 * m) + BitVec.ofNat 32 (2 * n) = a + BitVec.ofNat 32 (2 * (m + n)) := by
  rw [BitVec.add_assoc, ← BitVec.ofNat_add, Nat.mul_add]

theorem recordAt_append (start : Address) (front rest : List Word) (i : Nat) :
    d.recordAt start (front ++ rest) (front.length + i) =
      d.recordAt (start + BitVec.ofNat 32 (2 * front.length)) rest i := by
  have hget : (front ++ rest)[front.length + i]? = rest[i]? := by
    rw [List.getElem?_append_right (by omega), Nat.add_sub_cancel_left]
  unfold recordAt
  rw [hget, reservedAt_append, add_words]

/-- Behind the first record the records at boundaries are those of the rest. -/
theorem recordAt_boundary_succ (start : Address) {front rest : List Word}
    (h : d.nextBoundary (front ++ rest) 0 = front.length) (k : Nat) :
    d.recordAt start (front ++ rest) (d.boundary (front ++ rest) (k + 1)) =
      d.recordAt (start + BitVec.ofNat 32 (2 * front.length)) rest (d.boundary rest k) := by
  rw [d.boundary_succ front rest h, recordAt_append]

theorem recordAt_zero (start : Address) (raw : Word) (rest : List Word) :
    d.recordAt start (raw :: rest) 0 =
      some { d.record start raw with reserved := if d.isExtended raw then rest[0]? else none } := by
  simp [recordAt, reservedAt]

/-- The folded records are those at the boundaries. -/
theorem getElem?_records_of_folded (h : d.config.wordStride = false) (start : Address)
    (words : List Word) (k : Nat) :
    (d.records start words)[k]? = d.recordAt start words (d.boundary words k) := by
  have hextended : ∀ raw, d.takesReserved raw = d.isExtended raw := by
    intro raw
    simp [takesReserved, isExtended, h]
  fun_induction records d start words generalizing k with
  | case1 => rfl
  | case2 address raw =>
    cases k with
    | zero =>
      show some (d.record address raw) = d.recordAt address [raw] 0
      rw [recordAt_zero, List.getElem?_nil, ite_self, record_without_reserved]
    | succ k =>
      have hnext : d.nextBoundary ([raw] ++ []) 0 = [raw].length := by simp [nextBoundary]
      exact (d.recordAt_boundary_succ address hnext k).symm
  | case3 address raw next rest htakes ih =>
    rw [hextended] at htakes
    cases k with
    | zero =>
      show some _ = d.recordAt address (raw :: next :: rest) 0
      rw [recordAt_zero, if_pos htakes]
      rfl
    | succ k =>
      have hnext : d.nextBoundary ([raw, next] ++ rest) 0 = [raw, next].length := by
        simp [nextBoundary, htakes]
      exact (ih k).trans (d.recordAt_boundary_succ address hnext k).symm
  | case4 address raw next rest htakes ih =>
    rw [hextended] at htakes
    cases k with
    | zero =>
      show some _ = d.recordAt address (raw :: next :: rest) 0
      rw [recordAt_zero, if_neg htakes, record_without_reserved]
    | succ k =>
      have hnext : d.nextBoundary ([raw] ++ next :: rest) 0 = [raw].length := by
        simp [nextBoundary, htakes]
      exact (ih k).trans (d.recordAt_boundary_succ address hnext k).symm

/-! ## One record for each word -/

theorem getElem?_records_of_wordStride (h : d.config.wordStride = true) (start : Address)
    (words : List Word) (i : Nat) :
    (d.records start words)[i]? = words[i]?.map (d.record (start + BitVec.ofNat 32 (2 * i))) := by
  fun_induction records d start words generalizing i with
  | case1 => rfl
  | case2 address raw =>
    cases i with
    | zero => simp
    | succ i => rfl
  | case3 address raw next rest htakes ih => simp [takesReserved, h] at htakes
  | case4 address raw next rest htakes ih =>
    cases i with
    | zero => simp
    | succ i =>
      rw [List.getElem?_cons_succ, List.getElem?_cons_succ, ih, Nat.add_comm i, ← add_words]
      rfl

/-! ## Both modes -/

theorem address_of_next {start : Address} {words : List Word} {k : Nat} {r s : Record}
    (hr : (d.records start words)[k]? = some r) (hs : (d.records start words)[k + 1]? = some s) :
    s.address = r.address + BitVec.ofNat 32 r.width := by
  fun_induction records d start words generalizing k with
  | case1 => cases hr
  | case2 address raw => cases hs
  | case3 address raw next rest htakes ih =>
    rw [List.getElem?_cons_succ] at hs
    cases k with
    | zero =>
      cases hr
      rw [d.address_of_head hs]
      exact congrArg (· + 4) (d.address_record address raw).symm
    | succ k => exact ih hr hs
  | case4 address raw next rest htakes ih =>
    rw [List.getElem?_cons_succ] at hs
    cases k with
    | zero =>
      cases hr
      rw [d.address_of_head hs, Record.width, reserved_record, address_record]
      rfl
    | succ k => exact ih hr hs

theorem sum_width (recs : List Record) :
    (recs.map Record.width).sum = 2 * (recs.flatMap Record.words).length := by
  induction recs with
  | nil => rfl
  | cons r recs ih =>
    rw [List.map_cons, List.sum_cons, ih, List.flatMap_cons, List.length_append, Nat.mul_add,
      r.width_eq_length_words]

theorem tiles_records (start : Address) (words : List Word) :
    Tiles start words (d.records start words) where
  width := by
    rw [sum_width, d.flatMap_words_records]
  words := d.flatMap_words_records start words
  first r h := d.address_of_head h
  next k r s hr hs := d.address_of_next hr hs

/-- **Records tile the words.** With one record for each word, the records are those of the single
words, two bytes apart. The folded records are the ones of these at the boundaries, each with its
reserved word. In both modes the records hold the words in order and follow one another. -/
theorem records_tile (start : Address) (words : List Word) :
    let strided := (d.setWordStride true).records start words
    let folded := (d.setWordStride false).records start words
    (∀ i, strided[i]? = words[i]?.map fun raw => d.record (start + BitVec.ofNat 32 (2 * i)) raw) ∧
    (∀ r ∈ strided, r.reserved = none) ∧
    (∀ k, folded[k]? = strided[d.boundary words k]?.map fun r =>
      { r with reserved := d.reservedAt words (d.boundary words k) }) ∧
    ∀ stride, Tiles start words ((d.setWordStride stride).records start words) := by
  intro strided folded
  have hstrided : ∀ i, strided[i]? =
      words[i]?.map fun raw => d.record (start + BitVec.ofNat 32 (2 * i)) raw :=
    (d.setWordStride true).getElem?_records_of_wordStride rfl start words
  refine ⟨hstrided, ?_, ?_, ?_⟩
  · intro r hr
    obtain ⟨i, hi⟩ := List.getElem?_of_mem hr
    rw [hstrided i] at hi
    obtain ⟨raw, -, hraw⟩ := Option.map_eq_some_iff.mp hi
    rw [← hraw, reserved_record]
  · intro k
    rw [hstrided, Option.map_map]
    exact (d.setWordStride false).getElem?_records_of_folded rfl start words k
  · intro stride
    exact (d.setWordStride stride).tiles_records start words

end Disassembler

end Disassembly

end Cvere
