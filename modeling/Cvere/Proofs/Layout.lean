import Cvere.Assembly.Session

/-!
# The layout of a program

The layout of a source text and its encoding are computed apart: the layout adds up the widths that
the mnemonics are looked up to have, and the encoding appends as many words as the operands of each
instruction give. This module shows that the two agree, instruction by instruction.

**The invariant** (`Program.LaidOut`). Instructions stand one after another from address zero,
labels stand at even addresses up to the end, and if the program encodes, then each instruction's
own words stand at its address.

Everything follows from two facts about positions. `address_getElem?`: the address of an
instruction is the size of the instructions before it. `assemble_eq_extract`: so is, in words, the
place of its encoding.

**Main result.** `laidOut_run`: the invariant holds after every sequence of requests, failures
included, as long as no source text has more code than there are addresses.
-/

namespace Cvere

/-- After insertions into nothing, a binding is one of the insertions. -/
theorem Bindings.mem_of_get?_insertAll {κ ν : Type} [DecidableEq κ] {ps : List (κ × ν)} {k : κ}
    {v : ν} (h : (empty.insertAll ps).get? k = some v) : (k, v) ∈ ps := by
  rw [get?_insertAll, get?_empty, Option.or_none] at h
  obtain ⟨l₁, l₂, hl, -⟩ := List.lookup_eq_some_iff.mp h
  rw [← List.mem_reverse, hl]
  simp

theorem Op.width_eq (op : Op) : op.width = if op.family = .extended then 4 else 2 := by
  cases op <;> rfl

theorem Command.width_cases (c : Command) : c.width = 4 ∨ c.width = 2 := by
  unfold width
  cases Op.ofMnemonic? c.mnemonic with
  | none => exact .inr rfl
  | some op =>
    change op.width = 4 ∨ op.width = 2
    rw [op.width_eq]
    split
    · exact .inl rfl
    · exact .inr rfl

theorem Statement.width_even (s : Statement) : s.width % 2 = 0 := by
  unfold width
  cases s.command with
  | none => rfl
  | some c =>
    have := c.width_cases
    change c.width % 2 = 0
    omega

namespace Assembly

/-- The size of an instruction in bytes: four for a known extended mnemonic, two for every other
one, known or not. -/
def Instruction.size (ins : Instruction) : Nat :=
  if (Op.ofMnemonic? ins.mnemonic).any (·.family = .extended) then 4 else 2

theorem Instruction.size_eq_width (ins : Instruction) : ins.size = ins.toCommand.width := by
  unfold size Command.width
  cases Op.ofMnemonic? ins.mnemonic with
  | none => rfl
  | some op => simp [op.width_eq]

theorem Instruction.size_pos (ins : Instruction) : 0 < ins.size := by
  unfold size
  split <;> decide

/-- What an instruction needs in order to be assembled: a known mnemonic that encodes. -/
theorem Instruction.assemble_eq_ok_iff {ins : Instruction} {symbols : Symbols} {words : List Word} :
    ins.assemble symbols = .ok words ↔
      ∃ op, Op.ofMnemonic? ins.mnemonic = some op ∧ ins.encode op symbols = .ok words := by
  unfold assemble
  cases Op.ofMnemonic? ins.mnemonic with
  | none => simp
  | some op =>
    simp only [Option.some.injEq, exists_eq_left']
    cases ins.encode op symbols with
    | error cause => exact iff_of_false (fun h => by cases h) (fun h => by cases h)
    | ok ws =>
      change Except.ok ws = .ok words ↔ _
      simp

/-- An instruction that assembles is known and emits its words. -/
theorem Instruction.emit_of_assemble {ins : Instruction} {symbols : Symbols} {words : List Word}
    (h : ins.assemble symbols = .ok words) :
    ∃ op, Op.ofMnemonic? ins.mnemonic = some op ∧ ins.emit op symbols [] = (none, words) := by
  obtain ⟨op, hop, hwords⟩ := assemble_eq_ok_iff.mp h
  refine ⟨op, hop, ?_⟩
  unfold emit
  rw [hwords]
  rfl

namespace Program

/-- Instructions stand one after another, labels among them, and words at their addresses. -/
structure LaidOut (p : Program) : Prop where
  /-- The first instruction stands at address zero. -/
  first : ∀ ins, p.instructions[0]? = some ins → ins.address.toNat = 0
  /-- Every other instruction stands where the one before it ends. -/
  next : ∀ i a b, p.instructions[i]? = some a → p.instructions[i + 1]? = some b →
    b.address.toNat = a.address.toNat + a.size
  even : ∀ ins ∈ p.instructions, ins.address.toNat % 2 = 0
  ascending : p.instructions.Pairwise fun a b => a.address.toNat < b.address.toNat
  /-- The program ends where its last instruction ends. -/
  stop : p.stop.toNat = match p.instructions.getLast? with
    | none => 0
    | some ins => ins.address.toNat + ins.size
  label : ∀ name a, p.symbols.get? name = some a → a.toNat % 2 = 0 ∧ a.toNat ≤ p.stop.toNat
  length : ∀ words, p.encode = .ok words → 2 * words.length = p.stop.toNat
  /-- The words at the address of an instruction are its own. -/
  words : ∀ words, p.encode = .ok words → ∀ ins ∈ p.instructions,
    ∃ op, Op.ofMnemonic? ins.mnemonic = some op ∧
      ins.emit op p.symbols [] =
        (none, words.extract (ins.address.toNat / 2) ((ins.address.toNat + ins.size) / 2))

/-! ## Positions of instructions -/

theorem instructionsSize_append (is js : List Instruction) :
    instructionsSize (is ++ js) = instructionsSize is + instructionsSize js := by
  induction is with
  | nil => simp [instructionsSize]
  | cons ins is ih => simp [instructionsSize, ih, Nat.add_assoc]

theorem instructionsSize_take_le (is : List Instruction) (i : Nat) :
    instructionsSize (is.take i) ≤ instructionsSize is := by
  conv => rhs; rw [← List.take_append_drop i is, instructionsSize_append]
  exact Nat.le_add_right _ _

theorem instructionsSize_take_succ {is : List Instruction} {i : Nat} {ins : Instruction}
    (h : is[i]? = some ins) :
    instructionsSize (is.take (i + 1)) = instructionsSize (is.take i) + ins.size := by
  rw [List.take_add_one, h, instructionsSize_append, ins.size_eq_width]
  rfl

theorem instructionsSize_even (is : List Instruction) : instructionsSize is % 2 = 0 := by
  induction is with
  | nil => rfl
  | cons ins is ih =>
    have := ins.toCommand.width_cases
    rw [instructionsSize]
    omega

/-- The address of an instruction is the size of the instructions before it. -/
theorem address_getElem? {ss : List Statement} {line offset i : Nat} {ins : Instruction}
    (h : (instructionsFrom line offset ss)[i]? = some ins) :
    ins.address =
      BitVec.ofNat 32 (offset + instructionsSize ((instructionsFrom line offset ss).take i)) := by
  induction ss generalizing line offset i with
  | nil => simp [instructionsFrom] at h
  | cons s rest ih =>
    rw [instructionsFrom] at h ⊢
    cases hs : s.command with
    | none =>
      rw [hs] at h
      exact ih h
    | some c =>
      rw [hs] at h
      cases i with
      | zero =>
        simp only [List.getElem?_cons_zero, Option.some.injEq] at h
        simp [← h, instructionsSize]
      | succ i =>
        rw [List.getElem?_cons_succ] at h
        rw [ih h, List.take_succ_cons, instructionsSize, Nat.add_assoc]

/-- An instruction has the line of the statement that it was made from. -/
theorem exists_line_of_mem {ss : List Statement} {line offset : Nat} {ins : Instruction}
    (h : ins ∈ instructionsFrom line offset ss) :
    ∃ i s, ins.line = line + i ∧ ss[i]? = some s ∧ s.command = some ins.toCommand := by
  induction ss generalizing line offset with
  | nil => cases h
  | cons s rest ih =>
    have hrest : ∀ {offset : Nat}, ins ∈ instructionsFrom (line + 1) offset rest →
        ∃ i t, ins.line = line + i ∧ (s :: rest)[i]? = some t ∧
          t.command = some ins.toCommand := by
      intro offset h
      obtain ⟨i, t, hline, ht, hc⟩ := ih h
      exact ⟨i + 1, t, by omega, ht, hc⟩
    rw [instructionsFrom] at h
    cases hs : s.command with
    | none =>
      rw [hs] at h
      exact hrest h
    | some c =>
      rw [hs] at h
      rcases List.mem_cons.mp h with rfl | h
      · exact ⟨0, s, rfl, rfl, hs⟩
      · exact hrest h

theorem pairwise_line (ss : List Statement) (line offset : Nat) :
    (instructionsFrom line offset ss).Pairwise (·.line < ·.line) := by
  induction ss generalizing line offset with
  | nil => exact .nil
  | cons s rest ih =>
    rw [instructionsFrom]
    cases hs : s.command with
    | none => exact ih _ _
    | some c =>
      refine .cons ?_ (ih _ _)
      intro ins hins
      obtain ⟨i, -, hline, -⟩ := exists_line_of_mem hins
      show line < ins.line
      omega

/-- The labels of statements stand at even addresses between the first and the last. -/
theorem address_of_mem_definitionsFrom {ss : List Statement} {offset : Nat} {d : Text × Address}
    (h : d ∈ definitionsFrom offset ss) :
    ∃ k, k % 2 = offset % 2 ∧ k ≤ offset + codeSize ss ∧ d.2 = BitVec.ofNat 32 k := by
  induction ss generalizing offset with
  | nil => simp [definitionsFrom] at h
  | cons s rest ih =>
    rw [definitionsFrom, List.mem_append] at h
    rcases h with h | h
    · obtain ⟨name, -, rfl⟩ := List.mem_map.mp h
      exact ⟨offset, rfl, Nat.le_add_right _ _, rfl⟩
    · obtain ⟨k, heven, hle, hd⟩ := ih h
      have hw := s.width_even
      exact ⟨k, by omega, by rw [codeSize]; omega, hd⟩

/-! ## Positions of words -/

theorem mapM_cons_eq_ok_iff {ε α β : Type} {f : α → Except ε β} {x : α} {xs : List α}
    {ys : List β} : (x :: xs).mapM f = .ok ys ↔
      ∃ y ys', f x = .ok y ∧ xs.mapM f = .ok ys' ∧ ys = y :: ys' := by
  rw [List.mapM_cons]
  cases f x with
  | error e => simp [bind, Except.bind]
  | ok y =>
    cases xs.mapM f with
    | error e => simp [bind, Except.bind]
    | ok ys' => simp [bind, Except.bind, pure, Except.pure, eq_comm]

theorem encode_eq_ok_iff {p : Program} {words : List Word} :
    p.encode = .ok words ↔
      ∃ blocks, p.instructions.mapM (·.assemble p.symbols) = .ok blocks ∧
        words = blocks.flatten := by
  unfold encode
  cases p.instructions.mapM (·.assemble p.symbols) with
  | error e => simp [bind, Except.bind]
  | ok blocks => simp [bind, Except.bind, pure, Except.pure, eq_comm]

/-- The words of an instruction stand behind the words of the instructions before it. -/
theorem assemble_eq_extract {symbols : Symbols} {is : List Instruction} {blocks : List (List Word)}
    (h : is.mapM (·.assemble symbols) = .ok blocks) {i : Nat} {ins : Instruction}
    (hi : is[i]? = some ins) :
    ins.assemble symbols = .ok (blocks.flatten.extract (instructionsSize (is.take i) / 2)
      ((instructionsSize (is.take i) + ins.size) / 2)) := by
  induction is generalizing blocks i with
  | nil => simp at hi
  | cons a is ih =>
    obtain ⟨block, rest, ha, hrest, rfl⟩ := mapM_cons_eq_ok_iff.mp h
    have hlen := Instruction.length_assemble ha
    rw [← a.size_eq_width] at hlen
    cases i with
    | zero =>
      -- The block of the first instruction is as long as its size in words.
      obtain rfl : a = ins := by simpa using hi
      rw [ha]
      simp [instructionsSize, ← hlen]
    | succ i =>
      rw [List.getElem?_cons_succ] at hi
      rw [ih hrest hi, List.take_succ_cons, instructionsSize, ← a.size_eq_width, ← hlen]
      have hstart : ∀ k, (2 * block.length + k) / 2 = block.length + k / 2 := by omega
      have hstop : ∀ k m, (2 * block.length + k + m) / 2 = block.length + (k + m) / 2 := by omega
      simp only [hstart, hstop, List.extract_eq_take_drop, List.flatten_cons,
        List.drop_length_add_append, Nat.add_sub_add_left]

/-! ## Every program is laid out -/

/-- The program of a source text whose code fits the address space. -/
def Bounded (p : Program) : Prop :=
  ∃ ss, codeSize ss < Address.count ∧ p = ofStatements ss

section Bounded

variable {ss : List Statement} (hsize : codeSize ss < Address.count)

include hsize

theorem toNat_stop : (ofStatements ss).stop.toNat = codeSize ss := by
  simp only [ofStatements, BitVec.toNat_ofNat]
  exact Nat.mod_eq_of_lt hsize

theorem toNat_address {i : Nat} {ins : Instruction}
    (h : (ofStatements ss).instructions[i]? = some ins) :
    ins.address.toNat = instructionsSize ((ofStatements ss).instructions.take i) := by
  have hle := instructionsSize_take_le (ofStatements ss).instructions i
  have htotal : instructionsSize (ofStatements ss).instructions = codeSize ss :=
    instructionsSize_instructionsFrom 1 0 ss
  rw [address_getElem? h, BitVec.toNat_ofNat, Nat.zero_add]
  exact Nat.mod_eq_of_lt (Nat.lt_of_le_of_lt (Nat.le_trans hle (Nat.le_of_eq htotal)) hsize)

theorem laidOut_ofStatements : (ofStatements ss).LaidOut where
  first ins h := by
    rw [toNat_address hsize h]
    rfl
  next i a b ha hb := by
    rw [toNat_address hsize ha, toNat_address hsize hb, instructionsSize_take_succ ha]
  even ins h := by
    obtain ⟨i, hi⟩ := List.getElem?_of_mem h
    rw [toNat_address hsize hi]
    exact instructionsSize_even _
  ascending := by
    rw [List.pairwise_iff_getElem]
    intro i j hi hj hij
    have ha := List.getElem?_eq_getElem hi
    have hle : instructionsSize ((ofStatements ss).instructions.take (i + 1)) ≤
        instructionsSize ((ofStatements ss).instructions.take j) := by
      rw [← Nat.min_eq_left (show i + 1 ≤ j by omega), ← List.take_take]
      exact instructionsSize_take_le _ _
    rw [instructionsSize_take_succ ha] at hle
    have hpos := (ofStatements ss).instructions[i].size_pos
    rw [toNat_address hsize ha, toNat_address hsize (List.getElem?_eq_getElem hj)]
    omega
  stop := by
    rw [toNat_stop hsize, ← instructionsSize_instructionsFrom 1 0 ss]
    change instructionsSize (ofStatements ss).instructions = _
    rw [List.getLast?_eq_getElem?]
    cases hlast : (ofStatements ss).instructions[(ofStatements ss).instructions.length - 1]? with
    | none =>
      rw [List.getElem?_eq_none_iff] at hlast
      have hnil : (ofStatements ss).instructions = [] :=
        List.eq_nil_of_length_eq_zero (by omega)
      rw [hnil]
      rfl
    | some ins =>
      have hlt := (List.getElem?_eq_some_iff.mp hlast).1
      change _ = ins.address.toNat + ins.size
      rw [toNat_address hsize hlast, ← instructionsSize_take_succ hlast, List.take_of_length_le]
      omega
  label name a h := by
    obtain ⟨k, heven, hle, rfl⟩ :=
      address_of_mem_definitionsFrom (Bindings.mem_of_get?_insertAll h)
    rw [Nat.zero_add] at hle
    rw [toNat_stop hsize, BitVec.toNat_ofNat,
      Nat.mod_eq_of_lt (Nat.lt_of_le_of_lt hle hsize)]
    exact ⟨heven, hle⟩
  length words h := by
    rw [toNat_stop hsize]
    exact length_encode h
  words words h ins hins := by
    obtain ⟨i, hi⟩ := List.getElem?_of_mem hins
    obtain ⟨blocks, hblocks, rfl⟩ := encode_eq_ok_iff.mp h
    rw [toNat_address hsize hi]
    exact Instruction.emit_of_assemble (assemble_eq_extract hblocks hi)

end Bounded

/-! ## Sessions -/

end Program

/-- The size in bytes of the code that a request brings with it. -/
def Request.codeSize : Request → Nat
  | .layOut source | .assemble source | .assembleToListing source | .assembleToBytes source =>
    Program.codeSize (Program.statements source)
  | .encode | .label _ => 0

namespace Program

/-- A request replaces the program by that of its source text, or keeps it. -/
theorem bounded_after {p : Program} (hp : p.Bounded) {r : Request}
    (hr : r.codeSize < Address.count) : (p.after r).Bounded := by
  cases r with
  | layOut source => exact ⟨statements source, hr, rfl⟩
  | assemble source => exact ⟨statements source, hr, rfl⟩
  | assembleToListing source => exact ⟨statements source, hr, rfl⟩
  | assembleToBytes source => exact ⟨statements source, hr, rfl⟩
  | encode => exact hp
  | label name => exact hp

theorem bounded_run {p : Program} (hp : p.Bounded) {rs : List Request}
    (hrs : ∀ r ∈ rs, r.codeSize < Address.count) : (p.run rs).Bounded := by
  induction rs generalizing p with
  | nil => exact hp
  | cons r rs ih =>
    have hr := hrs r List.mem_cons_self
    exact ih (bounded_after hp hr) fun r' hr' => hrs r' (List.mem_cons_of_mem _ hr')

theorem bounded_empty : Program.empty.Bounded :=
  ⟨[], by decide, rfl⟩

/-- **The two passes agree on the layout.** Whatever an assembler was asked before, and whether or
not it could answer, its program is laid out. -/
theorem laidOut_run (rs : List Request) (hrs : ∀ r ∈ rs, r.codeSize < Address.count) :
    (Program.empty.run rs).LaidOut := by
  obtain ⟨ss, hsize, hp⟩ := bounded_run bounded_empty hrs
  rw [hp]
  exact laidOut_ofStatements hsize

/-- A session with two failures and a success: an unknown mnemonic, an encoding of what was laid
out then, and a program with an extended instruction between a label and its use. -/
theorem laidOut_run_after_failures :
    let rs : List Request :=
      [.assemble "start: ADD R1, R2, R3\nFOO\nend:".toList, .encode,
        .layOut "BEQ R1, out\nCALL\nout: JMP out".toList]
    (∀ r ∈ rs, r.codeSize < Address.count) ∧ (Program.empty.run rs).LaidOut ∧
      (Program.empty.run rs).encode = .ok [0xE102, 0xFA00, 0x0000, 0xD006] :=
  ⟨by decide, laidOut_run _ (by decide), by rfl⟩

end Program

end Assembly

end Cvere
