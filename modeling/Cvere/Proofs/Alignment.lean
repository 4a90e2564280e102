import Cvere.Disassembly.Disassembler
import Cvere.Proofs.Coding
import Cvere.Proofs.Layout
import Mathlib.Data.List.Forall2

/-!
# Disassembling what was assembled

The disassembler finds instruction boundaries by itself: a word is a record of its own, or it is
reserved because the word before it is extended. On assembled words it finds the boundaries of the
source program, one record for each instruction, unless a branch reads as a fixed form.

The proof walks the instructions and the words side by side. At each boundary the first word of the
instruction decodes to its operation (`decode_word`), so that the disassembler takes exactly the
words of this instruction and goes on at the next boundary.

**Main results.** `forall₂_records` gives the records of a program exactly, whatever names the
disassembler has. `records_assemble` reads off the listing: each record shows its instruction.
-/

namespace Cvere

open Disassembly

/-- The event is the warning that a branch reads as a fixed form. -/
def Event.isCollision : Event → Bool
  | .branchCollision .. => true
  | _ => false

namespace Disassembly.Disassembler

/-- The disassembler of the instruction set with the given names. -/
def named (names : Names) : Disassembler :=
  { standard with names }

theorem record_named {names : Names} {raw : Word} {d : Decoded} (h : decode raw = some d)
    (address : Address) :
    (named names).record address raw =
      { address, raw, reserved := none, mnemonic := d.op.mnemonic,
        operands := d.operandText address names, note := d.note address } := by
  rw [← mnemonic_of_decode h]
  exact record_of_decoder h address

theorem takesReserved_named (names : Names) {raw : Word} {d : Decoded}
    (h : decode raw = some d) :
    (named names).takesReserved raw = decide (d.op.family = .extended) := by
  change (decode raw).any (·.family = .extended) = _
  rw [h, ← family_of_decode h]
  rfl

theorem records_cons_of_not_takesReserved {d : Disassembler} {raw : Word}
    (h : d.takesReserved raw = false) (address : Address) (more : List Word) :
    d.records address (raw :: more) = d.record address raw :: d.records (address + 2) more := by
  cases more with
  | nil => rfl
  | cons next rest => rw [records, if_neg (by simp [h])]

theorem records_cons_cons_of_takesReserved {d : Disassembler} {raw : Word}
    (h : d.takesReserved raw = true) (address : Address) (next : Word) (rest : List Word) :
    d.records address (raw :: next :: rest) =
      { d.record address raw with reserved := some next } :: d.records (address + 4) rest := by
  rw [records, if_pos h]

end Disassembly.Disassembler

namespace Assembly

/-! ## Programs that encode -/

namespace Instruction

/-- An assembled instruction has operands that can be read, and these are packed. -/
theorem assemble_eq_ok_iff_read {ins : Instruction} {symbols : Symbols} {words : List Word} :
    ins.assemble symbols = .ok words ↔
      ∃ op o, Op.ofMnemonic? ins.mnemonic = some op ∧ ins.read op symbols = .ok o ∧
        words = o.words op := by
  rw [assemble_eq_ok_iff]
  refine exists_congr fun op => ?_
  rw [encode_eq_map_read]
  cases ins.read op symbols with
  | error cause => simp [Except.map]
  | ok o => simp [Except.map, eq_comm]

/-- A branch that reads as a fixed form is reported. -/
theorem collides_eq_false_of_events {ins : Instruction} {symbols : Symbols} {op : Op} {o : Operands}
    (hop : Op.ofMnemonic? ins.mnemonic = some op) (ho : ins.read op symbols = .ok o)
    (hquiet : ∀ e ∈ ins.events symbols, e.isCollision = false) (hb : op.family = .branch) :
    collides (o.word op) = false := by
  rw [Bool.eq_false_iff]
  intro hc
  have hwords : o.words op = [o.word op] := by simp [Operands.words, hb]
  have hmem : .branchCollision op ins.line (o.word op) ∈ ins.events symbols := by
    unfold events
    rw [hop, assemble_eq_ok_iff_read.mpr ⟨op, o, hop, ho, rfl⟩]
    simp [collisions, hb, hwords, hc]
  exact absurd (hquiet _ hmem) (by simp [Event.isCollision])

end Instruction

namespace Program

/-- All instructions of a program that encodes are reported on. -/
theorem mem_instructionEvents {symbols : Symbols} {is : List Instruction}
    {blocks : List (List Word)} (h : is.mapM (·.assemble symbols) = .ok blocks)
    {ins : Instruction} (hins : ins ∈ is) {e : Event} (he : e ∈ ins.events symbols) :
    e ∈ instructionEvents symbols is := by
  induction is generalizing blocks with
  | nil => cases hins
  | cons a is ih =>
    obtain ⟨block, rest, ha, hrest, rfl⟩ := mapM_cons_eq_ok_iff.mp h
    rw [instructionEvents, ha]
    rcases List.mem_cons.mp hins with rfl | hins
    · exact List.mem_append_left _ he
    · exact List.mem_append_right _ (ih hrest hins)

end Program

/-! ## Records of encoded instructions -/

namespace Operands

/-- The record of an instruction at an address, under the given names. -/
def record (names : Names) (address : Address) (op : Op) (o : Operands) : Record where
  address := address
  raw := o.word op
  reserved := if op.family = .extended then some 0 else none
  mnemonic := op.mnemonic
  operands := (o.decoded op).operandText address names
  note := (o.decoded op).note address

end Operands

/-- The record is that of the instruction's own word. -/
def Recorded (symbols : Symbols) (names : Names) (ins : Instruction) (r : Record) : Prop :=
  ∃ op o, Op.ofMnemonic? ins.mnemonic = some op ∧ ins.read op symbols = .ok o ∧
    decode (o.word op) = some (o.decoded op) ∧ r = o.record names ins.address op

namespace Operands

variable {names : Names} {op : Op} {o : Operands}

/-- The words of an instruction make one record, and the disassembler goes on behind them. -/
theorem records_words_append (hdecode : decode (o.word op) = some (o.decoded op))
    (address : Address) (more : List Word) :
    (Disassembler.named names).records address (o.words op ++ more) =
      o.record names address op ::
        (Disassembler.named names).records (address + BitVec.ofNat 32 op.width) more := by
  have htakes : (Disassembler.named names).takesReserved (o.word op) =
      decide (op.family = .extended) := Disassembler.takesReserved_named names hdecode
  by_cases hx : op.family = .extended
  · have hwords : o.words op ++ more = o.word op :: 0 :: more := by simp [words, hx]
    rw [decide_eq_true hx] at htakes
    rw [hwords, Disassembler.records_cons_cons_of_takesReserved htakes,
      Disassembler.record_named hdecode, op.width_eq, if_pos hx]
    simp [record, hx, decoded]
  · have hwords : o.words op ++ more = o.word op :: more := by simp [words, hx]
    rw [decide_eq_false hx] at htakes
    rw [hwords, Disassembler.records_cons_of_not_takesReserved htakes,
      Disassembler.record_named hdecode, op.width_eq, if_neg hx]
    simp [record, hx, decoded]

end Operands

namespace Program

/-- The records of the words of instructions, one for each. The induction is on the statements,
so that the address of each boundary is known. -/
theorem forall₂_records_from {symbols : Symbols} (names : Names) {ss : List Statement}
    {line offset : Nat} {blocks : List (List Word)}
    (h : (instructionsFrom line offset ss).mapM (·.assemble symbols) = .ok blocks)
    (hquiet : ∀ ins ∈ instructionsFrom line offset ss, ∀ e ∈ ins.events symbols,
      e.isCollision = false) :
    List.Forall₂ (Recorded symbols names) (instructionsFrom line offset ss)
      ((Disassembler.named names).records (BitVec.ofNat 32 offset) blocks.flatten) := by
  induction ss generalizing line offset blocks with
  | nil =>
    cases h
    exact .nil
  | cons s rest ih =>
    rw [instructionsFrom] at h hquiet ⊢
    cases hs : s.command with
    | none =>
      rw [hs] at h hquiet
      exact ih h hquiet
    | some c =>
      rw [hs] at h hquiet
      obtain ⟨block, blocks, hblock, hblocks, rfl⟩ := mapM_cons_eq_ok_iff.mp h
      obtain ⟨op, o, hop, ho, rfl⟩ := Instruction.assemble_eq_ok_iff_read.mp hblock
      -- The instruction at this boundary decodes to itself, so the next boundary is found too.
      have hc := Instruction.collides_eq_false_of_events hop ho (hquiet _ List.mem_cons_self)
      have hdecode := Operands.decode_word (Instruction.fits_of_read ho) hc
      have hwidth : c.width = op.width := by
        change Op.ofMnemonic? c.mnemonic = some op at hop
        rw [Command.width, hop]
      rw [List.flatten_cons, Operands.records_words_append hdecode, ← BitVec.ofNat_add, ← hwidth]
      refine .cons ⟨op, o, hop, ho, hdecode, rfl⟩ (ih hblocks ?_)
      exact fun ins hins => hquiet ins (List.mem_cons_of_mem _ hins)

/-- **The records of an assembled source text**, whatever names the disassembler has. -/
theorem forall₂_records {source : Text} {words : List Word} (names : Names)
    (h : assemble source = .ok words)
    (hquiet : ∀ e ∈ Program.empty.events (.assemble source), e.isCollision = false) :
    List.Forall₂ (Recorded (ofSource source).symbols names) (ofSource source).instructions
      ((Disassembler.named names).records 0 words) := by
  obtain ⟨blocks, hblocks, rfl⟩ := encode_eq_ok_iff.mp h
  refine forall₂_records_from names hblocks fun ins hins e he => hquiet e ?_
  have hmem := mem_instructionEvents hblocks hins he
  exact List.mem_append_right _ (List.mem_append_left _ hmem)

end Program

/-! ## What a record shows -/

namespace Operands

/-- How a listing without names shows the operands of an instruction at an address: registers by
name, and numbers in hexadecimal after reduction to their fields. A branch shows the address that
its displacement leads to. -/
def text (op : Op) (address : Address) (o : Operands) : Text :=
  let register (r : Nibble) := Register.name (r.setWidth 8)
  match op.family with
  | .register =>
    if op.isUnary then commaList [register o.rd, register o.rs]
    else commaList [register o.rd, register o.rs, register o.rt]
  | .immediate => commaList [register o.rd, "0x".toList ++ Numeral.hex 2 (o.number % 0x100).toNat]
  | .memory =>
    commaList [register o.rd, register o.rs, "0x".toList ++ Numeral.hex 1 (o.number % 0x10).toNat]
  | .jump => "0x".toList ++ Numeral.hex 3 (o.number % 0x1000).toNat
  | .branch =>
    let target := ((address.toNat : Int) + 2 + 2 * o.number.bmod 0x100) % 0x10000
    commaList [register o.rd, "0x".toList ++ Numeral.hex 4 target.toNat]
  | .extended | .special => []

theorem operandText_decoded (op : Op) (address : Address) (o : Operands) :
    (o.decoded op).operandText address Bindings.empty = o.text op address := by
  have himm := o.toNat_imm op
  unfold Decoded.operandText text
  rw [show (o.decoded op).op = op from rfl, show (o.decoded op).family = op.family from rfl]
  cases hf : op.family with
  | register => rfl
  | immediate =>
    rw [hf] at himm
    simp only [himm]
    rfl
  | memory =>
    rw [hf] at himm
    simp only [himm]
    rfl
  | jump =>
    rw [hf] at himm
    have hwide : ((o.decoded op).imm.setWidth 32).toNat = (o.decoded op).imm.toNat :=
      BitVec.toNat_setWidth_of_le (by decide)
    simp only [targetText, Bindings.get?_empty, Option.getD_none, hwide, himm]
    rfl
  | branch =>
    simp only [targetText, Bindings.get?_empty, Option.getD_none, toNat_branchTarget,
      toInt_displacement hf]
    rfl
  | extended => rfl
  | special => rfl

end Operands

/-- The record shows the instruction: its place, its mnemonic, its size and its operands. -/
structure Shows (symbols : Symbols) (ins : Instruction) (r : Record) : Prop where
  address : r.address = ins.address
  mnemonic : r.mnemonic = ins.mnemonic
  width : r.width = ins.size
  operation : ∃ op, Op.ofMnemonic? ins.mnemonic = some op ∧
    r.reserved = (if op.family = .extended then some 0 else none) ∧
    ∃ o, ins.read op symbols = .ok o ∧ r.operands = o.text op ins.address

theorem shows_record {symbols : Symbols} {ins : Instruction} {op : Op} {o : Operands}
    (hop : Op.ofMnemonic? ins.mnemonic = some op) (ho : ins.read op symbols = .ok o) :
    Shows symbols ins (o.record Bindings.empty ins.address op) where
  address := rfl
  mnemonic := Op.mnemonic_of_ofMnemonic? hop
  width := by
    simp only [Record.width, Operands.record, Instruction.size, hop]
    by_cases hx : op.family = .extended <;> simp [hx]
  operation := ⟨op, hop, rfl, o, ho, o.operandText_decoded op ins.address⟩

/-- **Disassembly is aligned with the source.** The words of a source text make one record for each
of its instructions, in order, and each record shows its instruction, if no branch was reported to
read as a fixed form. -/
theorem records_assemble {source : Text} {words : List Word} (h : assemble source = .ok words)
    (hquiet : ∀ e ∈ Program.empty.events (.assemble source), e.isCollision = false) :
    List.Forall₂ (Shows (Program.ofSource source).symbols) (Program.ofSource source).instructions
      (Disassembler.standard.records 0 words) := by
  refine (Program.forall₂_records Bindings.empty h hquiet).imp ?_
  rintro ins r ⟨op, o, hop, ho, -, rfl⟩
  exact shows_record hop ho

/-- A program with an extended instruction between a label and two uses of it. -/
theorem records_assemble_mixed :
    let source := "x: bne r2, x\nCall\n LOADI RA, -1\nJMP x".toList
    let words : List Word := [0xF2FF, 0xFA00, 0, 0xCAFF, 0xD000]
    assemble source = .ok words ∧
      (∀ e ∈ Program.empty.events (.assemble source), e.isCollision = false) ∧
      List.Forall₂ (Shows (Program.ofSource source).symbols) (Program.ofSource source).instructions
        (Disassembler.standard.records 0 words) :=
  ⟨by decide, by decide, records_assemble (by decide) (by decide)⟩

end Assembly

end Cvere
