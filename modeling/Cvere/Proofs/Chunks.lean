import Cvere.Proofs.Tiling

/-!
# Disassembling in chunks

A long text of words can be disassembled piece by piece, each piece from the address behind the
piece before it. This gives the records of the whole text unless a piece is cut between an extended
instruction and its reserved word.

Whether a piece ends there cannot be told from its last word: a word that looks extended may itself
be reserved for the word before it, and so on to the front. The last record of the piece has the
answer. It waits for a word (`Awaits`) when it belongs to an extended instruction and has no
reserved word, and the induction over the piece carries this condition from the front to the end
(`awaits_cons_iff`).

**Main result.** `records_append_iff`: the exact condition under which two pieces can be
disassembled apart.
-/

namespace Cvere

namespace Disassembly.Disassembler

variable (d : Disassembler)

/-- The record belongs to an extended instruction whose reserved word is not there. -/
def Incomplete (r : Record) : Prop :=
  d.isExtended r.raw = true ∧ r.reserved = none

/-- The next word, if there is one, is reserved for the last of the records. -/
def Awaits (recs : List Record) : Prop :=
  ∃ r, recs.getLast? = some r ∧ d.takesReserved r.raw = true ∧ r.reserved = none

theorem takesReserved_iff {raw : Word} :
    d.takesReserved raw = true ↔ d.config.wordStride = false ∧ d.isExtended raw = true := by
  simp [takesReserved, isExtended]

theorem not_awaits_nil : ¬ d.Awaits [] := by
  rintro ⟨r, hr, -⟩
  cases hr

theorem awaits_singleton_iff {r : Record} :
    d.Awaits [r] ↔ d.takesReserved r.raw = true ∧ r.reserved = none := by
  simp [Awaits]

/-- A record that has all its words does not matter in front of others. -/
theorem awaits_cons_iff {r : Record} {recs : List Record}
    (h : ¬ (d.takesReserved r.raw = true ∧ r.reserved = none)) :
    d.Awaits (r :: recs) ↔ d.Awaits recs := by
  cases recs with
  | nil =>
    rw [awaits_singleton_iff]
    exact iff_of_false h d.not_awaits_nil
  | cons s recs => simp only [Awaits, List.getLast?_cons_cons]

theorem add_words_succ (address : Address) (words : List Word) (raw : Word) :
    address + 2 + BitVec.ofNat 32 (2 * words.length) =
      address + BitVec.ofNat 32 (2 * (raw :: words).length) := by
  rw [List.length_cons, Nat.add_comm words.length]
  exact add_words address 1 words.length

/-- The two sides differ only in the word after the first piece, which is reserved on the left and
begins a record on the right. -/
theorem records_append_eq_iff (start : Address) (front rest : List Word) :
    d.records start (front ++ rest) =
        d.records start front ++ d.records (start + BitVec.ofNat 32 (2 * front.length)) rest ↔
      rest = [] ∨ ¬ d.Awaits (d.records start front) := by
  fun_induction records d start front with
  | case1 start => simp [not_awaits_nil]
  | case2 start raw =>
    rw [awaits_singleton_iff, raw_record, reserved_record]
    cases rest with
    | nil => simp [records]
    | cons next rest =>
      show d.records start (raw :: next :: rest) =
        d.record start raw :: d.records (start + 2) (next :: rest) ↔ _
      rw [records]
      by_cases htakes : d.takesReserved raw = true
      · have hfirst : { d.record start raw with reserved := some next } ≠ d.record start raw := by
          intro h
          have hreserved := congrArg Record.reserved h
          rw [reserved_record] at hreserved
          cases hreserved
        rw [if_pos htakes, List.cons.injEq]
        exact iff_of_false (fun h => hfirst h.1) (by simp [htakes])
      · simp [htakes]
  | case3 start raw next words htakes ih =>
    have hwidth : start + 4 + BitVec.ofNat 32 (2 * words.length) =
        start + BitVec.ofNat 32 (2 * (raw :: next :: words).length) := by
      rw [← add_words_succ, ← add_words_succ, BitVec.add_assoc start 2 2]
      rfl
    rw [awaits_cons_iff d (by simp), ← ih, ← hwidth, List.cons_append, List.cons_append, records,
      if_pos htakes, List.cons_append, List.cons.injEq]
    exact and_iff_right rfl
  | case4 start raw next words htakes ih =>
    rw [awaits_cons_iff d (by simp [htakes]), ← ih, add_words_succ, List.cons_append,
      List.cons_append, records, if_neg htakes, List.cons_append, List.cons.injEq]
    exact and_iff_right rfl

theorem records_eq_nil_iff {start : Address} {words : List Word} :
    d.records start words = [] ↔ words = [] := by
  constructor
  · intro h
    rw [← d.flatMap_words_records start words, h, List.flatMap_nil]
  · rintro rfl
    rfl

/-- Whether the first piece waits for a word, in terms of its last record. -/
theorem not_awaits_records_iff (start : Address) (words : List Word) :
    ¬ d.Awaits (d.records start words) ↔
      d.config.wordStride = true ∨ words = [] ∨
        ∃ r, (d.records start words).getLast? = some r ∧ ¬ d.Incomplete r := by
  cases hlast : (d.records start words).getLast? with
  | none =>
    obtain rfl : words = [] := d.records_eq_nil_iff.mp (List.getLast?_eq_none_iff.mp hlast)
    exact iff_of_true d.not_awaits_nil (.inr (.inl rfl))
  | some r =>
    have hne : words ≠ [] := by
      rintro rfl
      cases hlast
    have hawaits : d.Awaits (d.records start words) ↔
        d.config.wordStride = false ∧ d.Incomplete r := by
      simp only [Awaits, hlast, Option.some.injEq, exists_eq_left', takesReserved_iff, Incomplete,
        and_assoc]
    rw [hawaits, not_and_or, Bool.not_eq_false]
    simp [hne]

/-- **Chunks.** Two pieces of a text of words can be disassembled apart, the second from the address
behind the first, exactly when each word has a record of its own, or one of the pieces is empty, or
the last record of the first piece is not that of an extended instruction without its reserved
word. -/
theorem records_append_iff (start : Address) (front rest : List Word) :
    d.records start (front ++ rest) =
        d.records start front ++ d.records (start + BitVec.ofNat 32 (2 * front.length)) rest ↔
      d.config.wordStride = true ∨ rest = [] ∨ front = [] ∨
        ∃ r, (d.records start front).getLast? = some r ∧ ¬ d.Incomplete r := by
  rw [records_append_eq_iff, not_awaits_records_iff]
  exact or_left_comm

/-- The last word of both pieces is a call. In the first piece it is reserved for the call before
it; in the second it waits for its own reserved word. -/
example :
    standard.records 0 ([0xFA00, 0xFA00] ++ [0x1123]) =
        standard.records 0 [0xFA00, 0xFA00] ++ standard.records 4 [0x1123] ∧
      standard.records 0 ([0xFA00, 0xFA00, 0xFA00] ++ [0x1123]) ≠
        standard.records 0 [0xFA00, 0xFA00, 0xFA00] ++ standard.records 6 [0x1123] := by
  decide

end Disassembly.Disassembler

end Cvere
