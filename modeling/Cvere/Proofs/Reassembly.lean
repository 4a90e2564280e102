import Cvere.Proofs.Alignment
import Cvere.Proofs.Spelling

/-!
# Assembling what was disassembled

The records of any words, written one instruction to a line, are source text. It assembles if every
word in the place of an instruction belongs to one, and then every instruction gives its own word
back, with three exceptions: `NOT` does not show its last nibble, an extended instruction shows
neither its low byte nor its reserved word, and a branch shows the address it leads to, which is
read back as a displacement.

**Layers.** `encode_tokens` is about one word: the operands that it shows encode to
`Word.restored`. `Record.Reads` says what a record shows, `parse_sourceLine` reads its line back,
and `assemble_of_known` and `assemble_of_unknown` are about that line alone. From there
`assemble_sourceText_eq_ok_iff` follows the lines of a text.

**Blocks.** A record comes back as a block of words, and the blocks of a text can only make up the
words of its records if they agree one by one: no block is shorter than the words of its record
(`flatMap_eq_flatMap_iff`).

**Main result.** `reassemble_records` gives the exact condition under which the records of words
assemble, the line of the error where they do not, and the exact condition under which they
assemble to the same words.
-/

namespace Cvere

open Disassembly

/-! ## Operands one by one -/

/-- The operands that a word with the given operation shows at an address, one by one, where no
address has a name. -/
def Word.tokens (op : Op) (address : Address) (w : Word) : List Text :=
  let register (n : Nibble) := Register.name (n.setWidth 8)
  let number (width n : Nat) := "0x".toList ++ Numeral.hex width n
  match op.family with
  | .register =>
    if op.isUnary then [register w.second, register w.third]
    else [register w.second, register w.third, register w.fourth]
  | .immediate => [register w.second, number 2 w.lowByte.toNat]
  | .memory => [register w.second, register w.third, number 1 w.fourth.toNat]
  | .jump => [number 3 w.tail.toNat]
  | .branch => [register w.second, number 4 (branchTarget address (w.lowByte.signExtend 16)).toNat]
  | .extended | .special => []

theorem Word.isToken_tokens (op : Op) (address : Address) (w : Word) :
    ∀ o ∈ w.tokens op address, Text.IsToken o := by
  unfold tokens
  cases op.family with
  | register => cases op.isUnary <;> simp [Register.isToken_name]
  | immediate | memory | jump | branch =>
    simp only [List.forall_mem_cons, Register.isToken_name, Numeral.isToken_hex, true_and]
    exact List.forall_mem_nil _
  | extended | special => exact List.forall_mem_nil _

theorem operandText_of_decodeFields {op : Op} {w : Word} {d : Decoded}
    (hd : decodeFields op w = some d) (address : Address) :
    d.operandText address Bindings.empty = commaList (w.tokens op address) := by
  unfold decodeFields at hd
  unfold Decoded.operandText Word.tokens
  cases hf : op.family with
  | register =>
    rw [hf] at hd
    cases hd
    cases hu : op.isUnary <;> simp [Decoded.bare, hf, hu]
  | immediate =>
    rw [hf] at hd
    cases hd
    simp only [Decoded.bare, hf, BitVec.toNat_setWidth_of_le (by decide : 8 ≤ 16)]
  | memory =>
    rw [hf] at hd
    cases hd
    simp only [Decoded.bare, hf, BitVec.toNat_setWidth_of_le (by decide : 4 ≤ 16)]
  | jump =>
    rw [hf] at hd
    cases hd
    simp only [Decoded.bare, hf, commaList_singleton, targetText, Bindings.get?_empty,
      Option.getD_none, BitVec.toNat_setWidth_of_le (by decide : 16 ≤ 32),
      BitVec.toNat_setWidth_of_le (by decide : 12 ≤ 16)]
  | branch =>
    rw [hf] at hd
    cases hd
    have hdisp : (w.lowByte.setWidth 16).setWidth 8 = w.lowByte := by
      rw [BitVec.setWidth_setWidth_of_le _ (by decide), BitVec.setWidth_eq]
    simp only [Decoded.bare, hf, Decoded.displacement, hdisp, targetText, Bindings.get?_empty,
      Option.getD_none]
  | extended => rw [hf] at hd; cases hd
  | special => rw [hf] at hd; cases hd

/-- What a word shows follows from its operation and the word itself. -/
theorem operandText_of_decode {w : Word} {d : Decoded} (h : decode w = some d) (address : Address) :
    d.operandText address Bindings.empty = commaList (w.tokens d.op address) := by
  rcases decode_cases h with ⟨-, rfl⟩ | ⟨-, rfl⟩ | ⟨hf, -, -⟩ | ⟨-, -, hd⟩
  · rfl
  · rfl
  · simp only [Decoded.operandText, Word.tokens, family_of_decode h, hf]
    rfl
  · exact operandText_of_decodeFields hd address

namespace Assembly.Instruction

variable {ins : Instruction} {i : Nat}

theorem register_of_name {n : Nibble}
    (h : ins.operands[i]? = some (Register.name (n.setWidth 8))) : ins.register i = .ok n := by
  have hn := n.isLt
  have hwide : (n.setWidth 8).toNat = n.toNat := BitVec.toNat_setWidth_of_le (by decide)
  have hparse : Register.parse? (Register.name (n.setWidth 8)) = some n.toNat := by
    rw [Register.parse?_name (by omega), hwide]
  simp only [register, operand, h, bind, Except.bind, hparse]
  rw [if_pos (by omega), BitVec.ofNat_toNat, BitVec.setWidth_eq]

theorem immediate_of_hex {width n : Nat}
    (h : ins.operands[i]? = some ("0x".toList ++ Numeral.hex width n)) :
    ins.immediate i = .ok (BitVec.ofNat 64 n) := by
  simp only [immediate, operand, h, bind, Except.bind, Literal.parse?_hex]

theorem target_of_hex {width n : Nat}
    (h : ins.operands[i]? = some ("0x".toList ++ Numeral.hex width n)) :
    ins.target Bindings.empty i = .ok (.literal (BitVec.ofNat 64 n)) := by
  simp only [target, operand, h, bind, Except.bind, Bindings.get?_empty, Literal.parse?_hex]

end Assembly.Instruction

/-! ## One word -/

/-- The words that come back for a word with the given operation at an address. -/
def Word.restored (op : Op) (address : Address) (w : Word) : List Word :=
  match op.family with
  | .register => if op.isUnary then [ofNibbles w.top w.second w.third 0] else [w]
  | .branch => [ofNibblesByte w.top w.second (address.setWidth 8 + 2 + 2 * w.lowByte)]
  | .extended => [ofBytes w.highByte 0, 0]
  | .immediate | .memory | .jump | .special => [w]

/-- A field that is written as a number is read back as it was. -/
theorem setWidth_ofNat_toNat {n : Nat} (x : BitVec n) (hn : n ≤ 64) :
    (BitVec.ofNat 64 x.toNat).setWidth n = x := by
  rw [BitVec.ofNat_toNat, BitVec.setWidth_setWidth_of_le _ hn, BitVec.setWidth_eq]

/-- The low byte of the address that a branch shows. -/
theorem setWidth_branchTarget (address : Address) (b : BitVec 8) :
    (branchTarget address (b.signExtend 16)).setWidth 8 = address.setWidth 8 + 2 + 2 * b := by
  apply BitVec.eq_of_toNat_eq
  rw [BitVec.toNat_setWidth, toNat_branchTarget, BitVec.toInt_signExtend_of_le (by decide)]
  have htwo : (2 : BitVec 8).toNat = 2 := rfl
  have hb := b.toInt_eq_toNat_cond
  simp only [BitVec.toNat_add, BitVec.toNat_mul, BitVec.toNat_setWidth, htwo]
  split at hb <;> omega

namespace Assembly.Instruction

variable {ins : Instruction} {op : Op} {w : Word} {address : Address}

/-- A word with fields, encoded from the operands that it shows. -/
theorem encode_tokens_of_top (hf : op.family.HasFields) (htop : w.top = op.nibble)
    (hops : ins.operands = w.tokens op address) :
    ins.encode op Bindings.empty = .ok (w.restored op address) := by
  unfold Word.tokens at hops
  unfold encode Word.restored
  rw [← htop]
  cases hfam : op.family with
  | register =>
    rw [hfam] at hops
    cases hu : op.isUnary with
    | true =>
      have hrd : ins.register 0 = .ok w.second := register_of_name (by rw [hops, hu]; rfl)
      have hrs : ins.register 1 = .ok w.third := register_of_name (by rw [hops, hu]; rfl)
      simp only [hrd, hrs, bind, Except.bind, pure, Except.pure, if_true]
    | false =>
      have hrd : ins.register 0 = .ok w.second := register_of_name (by rw [hops, hu]; rfl)
      have hrs : ins.register 1 = .ok w.third := register_of_name (by rw [hops, hu]; rfl)
      have hrt : ins.register 2 = .ok w.fourth := register_of_name (by rw [hops, hu]; rfl)
      simp only [hrd, hrs, hrt, bind, Except.bind, pure, Except.pure, Bool.false_eq_true, if_false,
        Word.ofNibbles_fields]
  | immediate =>
    rw [hfam] at hops
    have hrd : ins.register 0 = .ok w.second := register_of_name (by rw [hops]; rfl)
    have himm : ins.immediate 1 = .ok (BitVec.ofNat 64 w.lowByte.toNat) :=
      immediate_of_hex (by rw [hops]; rfl)
    simp only [hrd, himm, bind, Except.bind, pure, Except.pure,
      setWidth_ofNat_toNat w.lowByte (by decide), Word.ofNibblesByte_fields]
  | memory =>
    rw [hfam] at hops
    have hrd : ins.register 0 = .ok w.second := register_of_name (by rw [hops]; rfl)
    have hrs : ins.register 1 = .ok w.third := register_of_name (by rw [hops]; rfl)
    have himm : ins.immediate 2 = .ok (BitVec.ofNat 64 w.fourth.toNat) :=
      immediate_of_hex (by rw [hops]; rfl)
    simp only [hrd, hrs, himm, bind, Except.bind, pure, Except.pure,
      setWidth_ofNat_toNat w.fourth (by decide), Word.ofNibbles_fields]
  | jump =>
    rw [hfam] at hops
    have ht : ins.target Bindings.empty 0 = .ok (.literal (BitVec.ofNat 64 w.tail.toNat)) :=
      target_of_hex (by rw [hops]; rfl)
    simp only [ht, bind, Except.bind, pure, Except.pure, Target.absolute,
      setWidth_ofNat_toNat w.tail (by decide), Word.ofNibbleTail_fields]
  | branch =>
    rw [hfam] at hops
    have hrd : ins.register 0 = .ok w.second := register_of_name (by rw [hops]; rfl)
    have ht : ins.target Bindings.empty 1 =
        .ok (.literal (BitVec.ofNat 64 (branchTarget address (w.lowByte.signExtend 16)).toNat)) :=
      target_of_hex (by rw [hops]; rfl)
    -- The address is no label but a number now, and the displacement takes its low byte.
    simp only [hrd, ht, bind, Except.bind, pure, Except.pure, Target.displacement,
      BitVec.ofNat_toNat]
    rw [BitVec.setWidth_setWidth_of_le _ (by decide), setWidth_branchTarget]
  | extended => exact absurd hfam hf.1
  | special => exact absurd hfam hf.2

/-- A word, encoded from the operands that it shows. -/
theorem encode_tokens {d : Decoded} (hd : decode w = some d)
    (hops : ins.operands = w.tokens d.op address) :
    ins.encode d.op Bindings.empty = .ok (w.restored d.op address) := by
  rcases decode_cases hd with ⟨rfl, rfl⟩ | ⟨rfl, rfl⟩ | ⟨hf, hhigh, -⟩ | ⟨hf, htop, -⟩
  · rfl
  · rfl
  · simp only [encode, Word.restored, hf, hhigh]
    rfl
  · exact encode_tokens_of_top hf htop hops

end Assembly.Instruction

/-! ## One record -/

namespace Disassembly.Record

/-- The record of a word that belongs to no instruction, as its mnemonic tells. -/
def IsUnknown (r : Record) : Prop :=
  "UNKNOWN_".toList <+: r.mnemonic

instance (r : Record) : Decidable r.IsUnknown :=
  inferInstanceAs (Decidable (_ <+: _))

/-- The record shows its word as the instruction set reads it, where no address has a name. Only an
extended instruction has a reserved word. -/
inductive Reads (r : Record) : Prop
  | known (d : Decoded) (decoded : decode r.raw = some d) (mnemonic : r.mnemonic = d.op.mnemonic)
    (operands : r.operands = commaList (r.raw.tokens d.op r.address))
    (reserved : d.op.family ≠ .extended → r.reserved = none)
  | unknown (decoded : decode r.raw = none) (mnemonic : r.mnemonic = "UNKNOWN_0".toList)
    (operands : r.operands = []) (reserved : r.reserved = none)

/-- The record as the command that its line reads as. -/
def command (r : Record) : Command where
  mnemonic := r.mnemonic
  operands :=
    match Op.ofMnemonic? r.mnemonic with
    | some op => r.raw.tokens op r.address
    | none => []

/-- The words that come back for a record. -/
def restored (r : Record) : List Word :=
  match Op.ofMnemonic? r.mnemonic with
  | some op => r.raw.restored op r.address
  | none => []

theorem isToken_command (r : Record) : ∀ o ∈ r.command.operands, Text.IsToken o := by
  unfold command
  cases Op.ofMnemonic? r.mnemonic with
  | some op => exact Word.isToken_tokens op r.address r.raw
  | none => exact List.forall_mem_nil _

end Disassembly.Record

theorem Op.not_isPrefix_mnemonic (op : Op) : ¬ "UNKNOWN_".toList <+: op.mnemonic := by
  cases op <;> decide

namespace Disassembly.Disassembler

variable {d : Disassembler} (hdecoder : d.decoder = decode) (hnames : d.names = Bindings.empty)
include hdecoder hnames

theorem reads_record (address : Address) (raw : Word) {reserved : Option Word}
    (h : reserved ≠ none → d.takesReserved raw = true) :
    Record.Reads { d.record address raw with reserved } := by
  unfold takesReserved at h
  unfold record
  rw [hdecoder] at h ⊢
  cases hraw : decode raw with
  | none =>
    have hnone : reserved = none := by simpa [hraw] using h
    have htop := (decode_eq_none_iff.mp hraw).2
    refine .unknown hraw ?_ rfl hnone
    -- Zero is the only top nibble without an operation, so there is only one such mnemonic.
    simp only [htop]
    rfl
  | some decoded =>
    rw [hraw] at h
    refine .known decoded hraw (mnemonic_of_decode hraw) ?_ fun hx => ?_
    · change decoded.operandText address d.names = _
      rw [hnames, operandText_of_decode hraw]
    · by_cases hnone : reserved = none
      · exact hnone
      · simp [family_of_decode hraw, hx] at h
        exact absurd h hnone

/-- Every record shows its word, whether reserved words are folded or not. -/
theorem reads_of_mem_records {start : Address} {words : List Word} {r : Record}
    (h : r ∈ d.records start words) : r.Reads := by
  obtain ⟨address, raw, reserved, rfl, htakes⟩ := exists_record_of_mem h
  exact reads_record hdecoder hnames address raw htakes

end Disassembly.Disassembler

namespace Disassembly.Record.Reads

variable {r : Record} (h : r.Reads)
include h

/-- What a record shows that is not unknown. -/
theorem decoded_of_known (hknown : ¬ r.IsUnknown) :
    ∃ d, decode r.raw = some d ∧ r.mnemonic = d.op.mnemonic ∧
      (d.op.family ≠ .extended → r.reserved = none) := by
  cases h with
  | known d hd hm _ hreserved => exact ⟨d, hd, hm, hreserved⟩
  | unknown hd hm =>
    refine absurd ?_ hknown
    rw [IsUnknown, hm]
    decide

/-- The unknown records are those of the words under the top nibble zero, zero aside. -/
theorem isUnknown_iff : r.IsUnknown ↔ r.raw ≠ 0 ∧ r.raw.top = 0 := by
  rw [← decode_eq_none_iff]
  cases h with
  | known d hd hm =>
    rw [IsUnknown, hm, hd]
    exact iff_of_false d.op.not_isPrefix_mnemonic (by simp)
  | unknown hd hm =>
    rw [IsUnknown, hm, hd]
    decide

theorem isToken_mnemonic : Text.IsToken r.mnemonic ∧ Text.upper r.mnemonic = r.mnemonic := by
  cases h with
  | known d hd hm =>
    rw [hm]
    exact ⟨d.op.isToken_mnemonic, d.op.upper_mnemonic⟩
  | unknown hd hm =>
    rw [hm]
    decide

theorem sourceLine_eq : r.sourceLine = r.mnemonic ++ ' ' :: commaList r.command.operands := by
  unfold sourceLine command
  cases h with
  | known d hd hm hops => rw [hm, hops, Op.ofMnemonic?_mnemonic]
  | unknown hd hm hops => rw [hm, hops]; rfl

/-- The line of a record reads as its command. -/
theorem parse_sourceLine : Statement.parse r.sourceLine = ⟨none, some r.command⟩ := by
  obtain ⟨hm, hupper⟩ := h.isToken_mnemonic
  rw [h.sourceLine_eq, Statement.parse_tokens hm r.isToken_command, hupper]
  rfl

/-- The line of a record is one line. -/
theorem isLine_sourceLine :
    r.sourceLine ≠ [] ∧ '\n' ∉ r.sourceLine ∧ r.sourceLine.getLast? ≠ some '\r' := by
  have hm := h.isToken_mnemonic.1
  have hops := r.isToken_command
  rw [h.sourceLine_eq]
  refine ⟨by simp, Text.not_mem_tokens hm hops (by decide) (by decide), fun hlast => ?_⟩
  exact Text.not_mem_tokens hm hops (by decide) (by decide) (List.mem_of_getLast? hlast)

open Assembly

theorem assemble_of_known (hknown : ¬ r.IsUnknown) {ins : Instruction}
    (hins : ins.toCommand = r.command) : ins.assemble Bindings.empty = .ok r.restored := by
  obtain ⟨d, hd, hm, -⟩ := h.decoded_of_known hknown
  have hop : Op.ofMnemonic? r.mnemonic = some d.op := by rw [hm, Op.ofMnemonic?_mnemonic]
  have hmnemonic : ins.mnemonic = r.mnemonic := congrArg Command.mnemonic hins
  have hops : ins.operands = r.raw.tokens d.op r.address := by
    rw [show ins.operands = r.command.operands from congrArg Command.operands hins, command, hop]
  rw [Instruction.assemble, hmnemonic, hop, restored, hop]
  simp only [Instruction.encode_tokens hd hops]
  rfl

theorem assemble_of_unknown (hunknown : r.IsUnknown) {ins : Instruction}
    (hins : ins.toCommand = r.command) :
    ins.assemble Bindings.empty = .error ⟨ins.line, .unknownMnemonic r.mnemonic⟩ := by
  have hmnemonic : ins.mnemonic = r.mnemonic := congrArg Command.mnemonic hins
  cases h with
  | known d hd hm =>
    rw [IsUnknown, hm] at hunknown
    exact absurd hunknown d.op.not_isPrefix_mnemonic
  | unknown hd hm =>
    have hop : Op.ofMnemonic? r.mnemonic = none := by
      rw [hm]
      decide
    rw [Instruction.assemble, hmnemonic, hop]

end Disassembly.Record.Reads

/-! ## Lines and blocks -/

namespace Assembly.Program

variable {recs : List Record} (h : ∀ r ∈ recs, r.Reads)
include h

/-- The lines of records read as their commands, one for each. -/
theorem statements_sourceText :
    statements (sourceText recs) = recs.map fun r => ⟨none, some r.command⟩ := by
  have hlines : Text.lines (sourceText recs) = recs.map Record.sourceLine := by
    refine Text.lines_unlines fun l hl => ?_
    obtain ⟨r, hr, rfl⟩ := List.mem_map.mp hl
    exact (h r hr).isLine_sourceLine
  rw [statements, hlines, List.map_map]
  exact List.map_congr_left fun r hr => (h r hr).parse_sourceLine

omit h in
theorem definitionsFrom_commands (offset : Nat) (recs : List Record) :
    definitionsFrom offset (recs.map fun r => ⟨none, some r.command⟩) = [] := by
  induction recs generalizing offset with
  | nil => rfl
  | cons r recs ih => exact ih _

/-- Records of instructions come back one by one. -/
theorem mapM_assemble_of_known (hknown : ∀ r ∈ recs, ¬ r.IsUnknown) (line offset : Nat) :
    (instructionsFrom line offset (recs.map fun r => ⟨none, some r.command⟩)).mapM
      (·.assemble Bindings.empty) = .ok (recs.map Record.restored) := by
  induction recs generalizing line offset with
  | nil => rfl
  | cons r recs ih =>
    rw [List.forall_mem_cons] at h hknown
    refine mapM_cons_eq_ok_iff.mpr ⟨r.restored, recs.map Record.restored, ?_, ?_, rfl⟩
    · exact h.1.assemble_of_known hknown.1 rfl
    · exact ih h.2 hknown.2 _ _

omit h in
/-- The first record that is unknown stops the assembly on its line. -/
theorem mapM_assemble_of_unknown {before after : List Record} {r : Record}
    (hbefore : ∀ q ∈ before, q.Reads ∧ ¬ q.IsUnknown) (hr : r.Reads) (hunknown : r.IsUnknown)
    (line offset : Nat) :
    (instructionsFrom line offset
      ((before ++ r :: after).map fun r => ⟨none, some r.command⟩)).mapM
        (·.assemble Bindings.empty) =
      .error ⟨line + before.length, .unknownMnemonic r.mnemonic⟩ := by
  induction before generalizing line offset with
  | nil =>
    rw [List.nil_append, List.map_cons, instructionsFrom, List.mapM_cons,
      hr.assemble_of_unknown hunknown rfl]
    rfl
  | cons q before ih =>
    rw [List.forall_mem_cons] at hbefore
    obtain ⟨⟨hq, hknown⟩, hbefore⟩ := hbefore
    rw [List.cons_append, List.map_cons, instructionsFrom, List.mapM_cons,
      hq.assemble_of_known hknown rfl, ih hbefore, List.length_cons]
    simp [bind, Except.bind, Nat.add_comm, Nat.add_left_comm]

theorem assemble_sourceText_of_known (hknown : ∀ r ∈ recs, ¬ r.IsUnknown) :
    assemble (sourceText recs) = .ok (recs.flatMap Record.restored) := by
  rw [assemble, ofSource, statements_sourceText h, encode_eq_ok_iff]
  refine ⟨recs.map Record.restored, ?_, List.flatMap_def⟩
  rw [ofStatements, definitionsFrom_commands]
  exact mapM_assemble_of_known h hknown 1 0

theorem assemble_sourceText_of_unknown {before after : List Record} {r : Record}
    (hrecs : recs = before ++ r :: after) (hbefore : ∀ q ∈ before, ¬ q.IsUnknown)
    (hunknown : r.IsUnknown) :
    assemble (sourceText recs) = .error ⟨before.length + 1, .unknownMnemonic r.mnemonic⟩ := by
  rw [assemble, ofSource, statements_sourceText h, encode, ofStatements, definitionsFrom_commands]
  subst hrecs
  have hreads : ∀ q ∈ before, q.Reads ∧ ¬ q.IsUnknown := fun q hq =>
    ⟨h q (List.mem_append_left _ hq), hbefore q hq⟩
  have hr := h r (by simp)
  simp only [Bindings.insertAll_nil]
  rw [mapM_assemble_of_unknown hreads hr hunknown 1 0, Nat.add_comm]
  rfl

/-- Records assemble if none is unknown, and then to what comes back for each. -/
theorem assemble_sourceText_eq_ok_iff {words : List Word} :
    assemble (sourceText recs) = .ok words ↔
      (∀ r ∈ recs, ¬ r.IsUnknown) ∧ words = recs.flatMap Record.restored := by
  cases hfind : recs.find? (·.IsUnknown) with
  | none =>
    have hknown : ∀ r ∈ recs, ¬ r.IsUnknown := by simpa using List.find?_eq_none.mp hfind
    rw [assemble_sourceText_of_known h hknown, Except.ok.injEq, eq_comm]
    exact (and_iff_right hknown).symm
  | some r =>
    obtain ⟨hr, before, after, hrecs, hbefore⟩ := List.find?_eq_some_iff_append.mp hfind
    have hr : r.IsUnknown := by simpa using hr
    rw [assemble_sourceText_of_unknown h hrecs (by simpa using hbefore) hr]
    have hmem : r ∈ recs := by simp [hrecs]
    exact iff_of_false (by simp) fun hall => hall.1 r hmem hr

end Assembly.Program

/-! ## What comes back -/

namespace Word

variable {w : Word}

theorem eq_ofNibbles_iff {n : Nibble} :
    w = ofNibbles w.top w.second w.third n ↔ w.fourth = n := by
  refine ⟨fun h => ?_, ?_⟩
  · exact (congrArg fourth h).trans (fourth_ofNibbles ..)
  · rintro rfl
    exact (ofNibbles_fields w).symm

theorem eq_ofNibblesByte_iff {b : BitVec 8} :
    w = ofNibblesByte w.top w.second b ↔ w.lowByte = b := by
  refine ⟨fun h => ?_, ?_⟩
  · exact (congrArg lowByte h).trans (lowByte_ofNibblesByte ..)
  · rintro rfl
    exact (ofNibblesByte_fields w).symm

theorem eq_ofBytes_iff {b : BitVec 8} : w = ofBytes w.highByte b ↔ w.lowByte = b := by
  refine ⟨fun h => ?_, ?_⟩
  · exact (congrArg lowByte h).trans (lowByte_ofBytes ..)
  · rintro rfl
    exact (ofBytes_fields w).symm

end Word

/-- A displacement that is read back from the address it leads to is the same for one byte only. -/
theorem eq_displacement_iff (address : Address) (b : BitVec 8) :
    b = address.setWidth 8 + 2 + 2 * b ↔
      (b.toNat : Int) = (-((address.toNat : Int) + 2)) % 0x100 := by
  have htwo : (2 : BitVec 8).toNat = 2 := rfl
  have hb := b.isLt
  rw [← BitVec.toNat_inj]
  simp only [BitVec.toNat_add, BitVec.toNat_mul, BitVec.toNat_setWidth, htwo]
  omega

namespace Op

/-- The operations whose words come back whatever they are. -/
def plain : List Op :=
  [add, addi, sub, and, or, xor, shl, shr, load, store, loadi, jmp, nop, halt]

theorem mnemonic_inj {op op' : Op} : op.mnemonic = op'.mnemonic ↔ op = op' := by
  refine ⟨fun h => ?_, fun h => h ▸ rfl⟩
  have hop := ofMnemonic?_mnemonic op
  rw [h, ofMnemonic?_mnemonic] at hop
  exact (Option.some.inj hop).symm

end Op

namespace Word

theorem restored_of_plain {op : Op} (hop : op ∈ Op.plain) (address : Address) (w : Word) :
    w.restored op address = [w] := by
  cases op <;> first | rfl | exact absurd hop (by decide)

theorem length_restored (op : Op) (address : Address) (w : Word) :
    (w.restored op address).length = op.family.words := by
  unfold restored
  cases op.family with
  | register => cases op.isUnary <;> rfl
  | immediate | memory | jump | branch | extended | special => rfl

/-- The words of an instruction come back, family by family. -/
theorem eq_restored_iff {op : Op} {address : Address} {w : Word} {reserved : Option Word}
    (hreserved : op.family ≠ .extended → reserved = none) :
    w :: reserved.toList = w.restored op address ↔
      (op = .not → w.fourth = 0) ∧
      (op.family = .extended → w.lowByte = 0 ∧ reserved = some 0) ∧
      (op.family = .branch →
        (w.lowByte.toNat : Int) = (-((address.toNat : Int) + 2)) % 0x100) := by
  have hnot : op.family ≠ .register → op ≠ .not := by
    rintro hf rfl
    exact hf rfl
  unfold restored
  cases hf : op.family with
  | register =>
    obtain rfl := hreserved (by simp [hf])
    by_cases hop : op = .not
    · subst hop
      simp [Op.isUnary, eq_ofNibbles_iff]
    · have hu : op.isUnary = false := by simpa [Op.isUnary] using hop
      simp [hop, hu]
  | branch =>
    obtain rfl := hreserved (by simp [hf])
    rw [← eq_displacement_iff]
    simp [hnot, hf, eq_ofNibblesByte_iff]
  | extended =>
    cases reserved with
    | none => simp
    | some second => simp [hnot, hf, eq_ofBytes_iff]
  | immediate | memory | jump | special =>
    obtain rfl := hreserved (by simp [hf])
    simp [hnot, hf]

end Word

namespace Disassembly.Record

/-- The exact condition under which a record gives its words back. -/
structure ComesBack (r : Record) : Prop where
  known : ¬ r.IsUnknown
  /-- `NOT` does not show its last nibble. -/
  unary : r.mnemonic = Op.mnemonic .not → r.raw.fourth = 0
  /-- An extended instruction shows its selector only. -/
  extended : ∀ op : Op, op.family = .extended → r.mnemonic = op.mnemonic →
    r.raw.lowByte = 0 ∧ r.reserved = some 0
  /-- The address that a branch shows is read back as its displacement. -/
  branch : ∀ op : Op, op.family = .branch → r.mnemonic = op.mnemonic →
    (r.raw.lowByte.toNat : Int) = (-((r.address.toNat : Int) + 2)) % 0x100

theorem restored_of_plain {r : Record} {op : Op} (hop : op ∈ Op.plain)
    (hm : r.mnemonic = op.mnemonic) : r.restored = [r.raw] := by
  rw [restored, hm, Op.ofMnemonic?_mnemonic]
  exact Word.restored_of_plain hop r.address r.raw

namespace Reads

variable {r : Record} (h : r.Reads) (hknown : ¬ r.IsUnknown)
include h hknown

theorem length_words_le : r.words.length ≤ r.restored.length := by
  obtain ⟨d, -, hm, hreserved⟩ := h.decoded_of_known hknown
  rw [restored, hm, Op.ofMnemonic?_mnemonic, words]
  simp only [Word.length_restored]
  by_cases hx : d.op.family = .extended
  · rw [hx]
    cases r.reserved <;> simp [Family.words]
  · rw [hreserved hx]
    cases d.op.family <;> simp [Family.words]

theorem words_eq_restored_iff : r.words = r.restored ↔ r.ComesBack := by
  obtain ⟨d, -, hm, hreserved⟩ := h.decoded_of_known hknown
  rw [restored, hm, Op.ofMnemonic?_mnemonic]
  refine (Word.eq_restored_iff hreserved).trans ⟨fun ⟨hu, hx, hb⟩ => ?_, fun hr => ?_⟩
  · exact {
      known := hknown
      unary := fun hmn => hu (Op.mnemonic_inj.mp (hm.symm.trans hmn))
      extended := fun op hf hmn => hx (Op.mnemonic_inj.mp (hm.symm.trans hmn) ▸ hf)
      branch := fun op hf hmn => hb (Op.mnemonic_inj.mp (hm.symm.trans hmn) ▸ hf) }
  · exact ⟨fun hu => hr.unary (hu ▸ hm), fun hx => hr.extended d.op hx hm,
      fun hb => hr.branch d.op hb hm⟩

end Reads

end Disassembly.Record

/-! ## The whole text -/

namespace Assembly

section Blocks

variable {α β : Type} {f g : α → List β} {l : List α}

theorem length_flatMap_le (h : ∀ a ∈ l, (f a).length ≤ (g a).length) :
    (l.flatMap f).length ≤ (l.flatMap g).length := by
  induction l with
  | nil => exact Nat.le_refl _
  | cons a l ih =>
    rw [List.forall_mem_cons] at h
    rw [List.flatMap_cons, List.flatMap_cons, List.length_append, List.length_append]
    exact Nat.add_le_add h.1 (ih h.2)

/-- Blocks of which none is longer than its partner: if they are the same in a row, they are the
same one by one, because no later block can make up for a shorter one. -/
theorem flatMap_eq_flatMap_iff (h : ∀ a ∈ l, (f a).length ≤ (g a).length) :
    l.flatMap f = l.flatMap g ↔ ∀ a ∈ l, f a = g a := by
  induction l with
  | nil => simp
  | cons a l ih =>
    rw [List.forall_mem_cons] at h
    rw [List.flatMap_cons, List.flatMap_cons, List.forall_mem_cons, ← ih h.2]
    refine ⟨fun heq => ?_, fun ⟨ha, hl⟩ => by rw [ha, hl]⟩
    have hlen := congrArg List.length heq
    rw [List.length_append, List.length_append] at hlen
    have hrest := length_flatMap_le h.2
    -- Both parts are at most as long as their partners, and together they are as long.
    exact List.append_inj heq (by omega)

end Blocks

/-- Records give the words they hold back if and only if each of them does. -/
theorem forall_comesBack_iff {recs : List Record} (h : ∀ r ∈ recs, r.Reads) :
    (∀ r ∈ recs, ¬ r.IsUnknown) ∧ recs.flatMap Record.words = recs.flatMap Record.restored ↔
      ∀ r ∈ recs, r.ComesBack := by
  have hiff : (∀ r ∈ recs, ¬ r.IsUnknown) →
      (recs.flatMap Record.words = recs.flatMap Record.restored ↔ ∀ r ∈ recs, r.ComesBack) := by
    intro hknown
    rw [flatMap_eq_flatMap_iff fun r hr => (h r hr).length_words_le (hknown r hr)]
    exact forall₂_congr fun r hr => (h r hr).words_eq_restored_iff (hknown r hr)
  refine ⟨fun ⟨hknown, hwords⟩ => (hiff hknown).mp hwords, fun hback => ?_⟩
  have hknown : ∀ r ∈ recs, ¬ r.IsUnknown := fun r hr => (hback r hr).known
  exact ⟨hknown, (hiff hknown).mpr hback⟩

/-- **Reassembly of a disassembly.** The unknown records are those of the words under the top nibble
zero, zero aside. The records assemble if there is none, and else the first one is the error. They
assemble to the words they were made from if each of them gives its own words back. -/
theorem reassemble_records (start : Address) (words : List Word) :
    let recs := Disassembler.standard.records start words
    let result := assemble (sourceText recs)
    (∀ r ∈ recs, r.IsUnknown ↔ r.raw ≠ 0 ∧ r.raw.top = 0) ∧
    ((∃ ws, result = .ok ws) ↔ ∀ r ∈ recs, ¬ r.IsUnknown) ∧
    (∀ before r after, recs = before ++ r :: after → (∀ q ∈ before, ¬ q.IsUnknown) →
      r.IsUnknown → result = .error ⟨before.length + 1, .unknownMnemonic r.mnemonic⟩) ∧
    (result = .ok words ↔ ∀ r ∈ recs, r.ComesBack) ∧
    (∀ ws, result = .ok ws → ws = recs.flatMap Record.restored) ∧
    (∀ r ∈ recs, ∀ op ∈ Op.plain, r.mnemonic = op.mnemonic → r.restored = [r.raw]) := by
  intro recs result
  have hreads : ∀ r ∈ recs, r.Reads := fun r hr => Disassembler.reads_of_mem_records rfl rfl hr
  have hok : ∀ {ws}, result = .ok ws ↔ _ := Program.assemble_sourceText_eq_ok_iff hreads
  refine ⟨fun r hr => (hreads r hr).isUnknown_iff, ⟨?_, ?_⟩, ?_, ?_, ?_, ?_⟩
  · rintro ⟨ws, hws⟩
    exact (hok.mp hws).1
  · exact fun hknown => ⟨_, hok.mpr ⟨hknown, rfl⟩⟩
  · exact fun before r after => Program.assemble_sourceText_of_unknown hreads
  · -- The words that were disassembled are the words of the records in a row.
    rw [hok, ← forall_comesBack_iff hreads, Disassembler.flatMap_words_records]
  · exact fun ws hws => (hok.mp hws).2
  · exact fun r _ op hop hm => Record.restored_of_plain hop hm

/-- A word comes back or not by its own record: of these, only the branch does not. -/
example : assemble (sourceText (Disassembler.standard.records 0 [0x1312, 0, 0xFA00, 0, 0xE0FE])) =
    .ok [0x1312, 0, 0xFA00, 0, 0xE006] := by
  decide

end Assembly

end Cvere
