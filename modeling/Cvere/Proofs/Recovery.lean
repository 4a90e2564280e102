import Cvere.Proofs.Coding

/-!
# What a word says about the instruction it was made from

An instruction can be encoded as any operation, whatever its own mnemonic is. Its word then decodes
to the operation, with the registers that its operands name and with its number reduced to the field
of the family. Only the word of a branch may decode to something else, and this is when a warning is
given.

**The operands.** `HasOperands` says what the operands of an instruction are, in terms of the texts
between its commas, the symbols and its address. `read_eq_ok_iff` says that these are the operands
that the encoder reads. The mnemonic does not occur in `HasOperands`, so it does not matter to the
words.

**The warning.** The encoder compares a word with the fixed forms, and the decoder looks for the
fixed forms first. `decode_of_collides` is the half of this that no branch survives: a word that
reads as a fixed form decodes to an operation that is no branch.

**Main result.** `decode_emit`: what the first word of an encoded instruction decodes to, and when
the warning is given.
-/

namespace Cvere

/-- A word that reads as a fixed form decodes to one. -/
theorem decode_of_collides {w : Word} (h : Assembly.Instruction.collides w = true) :
    ∃ d, decode w = some d ∧ d.op.family ≠ .branch := by
  have htop := top_of_collides h
  have hnop : w ≠ nopWord := by
    rintro rfl
    exact absurd htop (by decide)
  unfold decode
  rw [if_neg hnop]
  by_cases hhalt : w = haltWord
  · rw [if_pos hhalt]
    refine ⟨_, rfl, ?_⟩
    show Op.halt.family ≠ .branch
    decide
  · rw [if_neg hhalt]
    simp only [Assembly.Instruction.collides, beq_eq_false_iff_ne.mpr hhalt, Bool.false_or,
      Option.isSome_iff_exists] at h
    obtain ⟨op, hop⟩ := h
    have hfamily := (Op.opcode_of_ofSelector? hop).1
    rw [hop]
    refine ⟨_, rfl, ?_⟩
    show op.family ≠ .branch
    rw [hfamily]
    decide

namespace Assembly

namespace Instruction

/-! ## Operands -/

/-- The operand at a position names a register that fits four bits. -/
def RegisterAt (ins : Instruction) (i : Nat) (r : Nibble) : Prop :=
  ∃ token, ins.operands[i]? = some token ∧ Register.parse? token = some r.toNat

/-- The operand at a position is an integer. -/
def NumberAt (ins : Instruction) (i : Nat) (n : Int) : Prop :=
  ∃ token v, ins.operands[i]? = some token ∧ Literal.parse? token = some v ∧ v.toInt = n

/-- The operand at a position is a label, or an integer where no label has its text. -/
def TargetAt (symbols : Symbols) (ins : Instruction) (i : Nat) (t : Target) : Prop :=
  ∃ token, ins.operands[i]? = some token ∧
    ((∃ a, symbols.get? token = some a ∧ t = .label a) ∨
      symbols.get? token = none ∧ ∃ v, Literal.parse? token = some v ∧ t = .literal v)

/-- The operands of an instruction, taken as those of the given operation. What the operation does
not take is zero. -/
def HasOperands (op : Op) (ins : Instruction) (symbols : Symbols) (o : Operands) : Prop :=
  match op.family with
  | .register =>
    ins.RegisterAt 0 o.rd ∧ ins.RegisterAt 1 o.rs ∧
      (if op.isUnary then o.rt = 0 else ins.RegisterAt 2 o.rt) ∧ o.number = 0
  | .immediate => ins.RegisterAt 0 o.rd ∧ ins.NumberAt 1 o.number ∧ o.rs = 0 ∧ o.rt = 0
  | .memory => ins.RegisterAt 0 o.rd ∧ ins.RegisterAt 1 o.rs ∧ ins.NumberAt 2 o.number ∧ o.rt = 0
  | .jump =>
    (∃ t, ins.TargetAt symbols 0 t ∧ o.number = t.number) ∧ o.rd = 0 ∧ o.rs = 0 ∧ o.rt = 0
  | .branch =>
    ins.RegisterAt 0 o.rd ∧
      (∃ t, ins.TargetAt symbols 1 t ∧ o.number = t.distance ins.address) ∧ o.rs = 0 ∧ o.rt = 0
  | .extended | .special => o = ⟨0, 0, 0, 0⟩

variable {op : Op} {ins : Instruction} {symbols : Symbols} {i : Nat}

theorem register_eq_ok_iff {r : Nibble} : ins.register i = .ok r ↔ ins.RegisterAt i r := by
  unfold register operand RegisterAt
  cases ins.operands[i]? with
  | none => simp [bind, Except.bind]
  | some token =>
    simp only [bind, Except.bind, Option.some.injEq, exists_eq_left']
    cases Register.parse? token with
    | none => simp
    | some n =>
      by_cases hn : n ≤ 15
      · have hfit : (BitVec.ofNat 4 n).toNat = n := by
          rw [BitVec.toNat_ofNat]
          exact Nat.mod_eq_of_lt (by omega)
        simp only [hn, if_true, Except.ok.injEq, Option.some.injEq]
        constructor
        · rintro rfl
          exact hfit.symm
        · intro h
          exact BitVec.eq_of_toNat_eq (hfit.trans h)
      · have hlarge : n ≠ r.toNat := by
          have := r.isLt
          omega
        simp [hn, hlarge]

theorem immediate_eq_ok_iff {v : Literal} : ins.immediate i = .ok v ↔
    ∃ token, ins.operands[i]? = some token ∧ Literal.parse? token = some v := by
  unfold immediate operand
  cases ins.operands[i]? with
  | none => simp [bind, Except.bind]
  | some token =>
    simp only [bind, Except.bind, Option.some.injEq, exists_eq_left']
    cases Literal.parse? token with
    | none => simp
    | some v => simp

theorem numberAt_iff {n : Int} : ins.NumberAt i n ↔ ∃ v, ins.immediate i = .ok v ∧ v.toInt = n := by
  simp only [immediate_eq_ok_iff]
  constructor
  · rintro ⟨token, v, htoken, hv, hn⟩
    exact ⟨v, ⟨token, htoken, hv⟩, hn⟩
  · rintro ⟨v, ⟨token, htoken, hv⟩, hn⟩
    exact ⟨token, v, htoken, hv, hn⟩

theorem target_eq_ok_iff {t : Target} :
    ins.target symbols i = .ok t ↔ ins.TargetAt symbols i t := by
  unfold target operand TargetAt
  cases ins.operands[i]? with
  | none => simp [bind, Except.bind]
  | some token =>
    simp only [bind, Except.bind, Option.some.injEq, exists_eq_left']
    cases symbols.get? token with
    | some a => simp [eq_comm]
    | none =>
      cases Literal.parse? token with
      | some v => simp [eq_comm]
      | none => by_cases hname : looksLikeLabel token <;> simp [hname]

theorem bind_eq_ok_iff {ε α β : Type} {x : Except ε α} {f : α → Except ε β} {b : β} :
    (x >>= f) = .ok b ↔ ∃ a, x = .ok a ∧ f a = .ok b := by
  cases x <;> simp [bind, Except.bind]

/-- The operands that the encoder reads are those that the instruction has. -/
theorem read_eq_ok_iff {o : Operands} :
    ins.read op symbols = .ok o ↔ ins.HasOperands op symbols o := by
  obtain ⟨rd, rs, rt, number⟩ := o
  unfold read HasOperands
  cases op.family with
  | register =>
    cases op.isUnary with
    | true =>
      simp only [if_true, bind_eq_ok_iff, register_eq_ok_iff, pure, Except.pure, Except.ok.injEq,
        Operands.mk.injEq]
      grind
    | false =>
      simp only [Bool.false_eq_true, if_false, bind_eq_ok_iff, register_eq_ok_iff, pure,
        Except.pure, Except.ok.injEq, Operands.mk.injEq]
      grind
  | immediate =>
    simp only [bind_eq_ok_iff, register_eq_ok_iff, numberAt_iff, pure, Except.pure,
      Except.ok.injEq, Operands.mk.injEq]
    grind
  | memory =>
    simp only [bind_eq_ok_iff, register_eq_ok_iff, numberAt_iff, pure, Except.pure,
      Except.ok.injEq, Operands.mk.injEq]
    grind
  | jump =>
    simp only [bind_eq_ok_iff, target_eq_ok_iff, pure, Except.pure, Except.ok.injEq,
      Operands.mk.injEq]
    grind
  | branch =>
    simp only [bind_eq_ok_iff, register_eq_ok_iff, target_eq_ok_iff, pure, Except.pure,
      Except.ok.injEq, Operands.mk.injEq]
    grind
  | extended | special =>
    simp only [pure, Except.pure, Except.ok.injEq]
    exact eq_comm

/-! ## Emitted words -/

theorem emit_eq_none_iff {out words : List Word} : ins.emit op symbols out = (none, words) ↔
    ∃ o, ins.HasOperands op symbols o ∧ words = out ++ o.words op := by
  unfold emit
  rw [encode_eq_map_read]
  simp only [← read_eq_ok_iff]
  cases ins.read op symbols with
  | error cause => simp [Except.map]
  | ok o => simp [Except.map, eq_comm]

/-- A warning is given exactly for the word of a branch that reads as a fixed form. -/
theorem collisions_singleton (hb : op.family = .branch) (w : Word) :
    collisions op ins [w] = if collides w then [.branchCollision op ins.line w] else [] := by
  unfold collisions
  rw [if_pos hb]
  by_cases hc : collides w <;> simp [hc]

end Instruction

namespace Operands

variable {op : Op} {o : Operands}

/-- A branch decodes to itself exactly when its word does not read as a fixed form. -/
theorem any_decode_word (hb : op.family = .branch) (ho : o.Fits op) :
    (decode (o.word op)).any (·.op = op) = !Instruction.collides (o.word op) := by
  cases hc : Instruction.collides (o.word op) with
  | false =>
    rw [decode_word ho fun _ => hc]
    simp [decoded]
  | true =>
    obtain ⟨d, hd, hfamily⟩ := decode_of_collides hc
    have hne : d.op ≠ op := by
      rintro rfl
      exact hfamily hb
    simp [hd, hne]

end Operands

open Instruction (collisions)

/-- **Fields come back.** Let an instruction be encoded as some operation, and let `word` be the
first word that is emitted. Unless the operation is a branch, the word decodes to the operation, the
registers of the operands and their number, reduced to its field. A branch either decodes in this
way or to another operation, and a warning is given in the second case and only then. The mnemonic
of the instruction does not matter. -/
theorem decode_emit {op : Op} {ins : Instruction} {symbols : Symbols} {out words : List Word}
    (h : ins.emit op symbols out = (none, words)) :
    ∃ word rest o, words = out ++ word :: rest ∧ ins.HasOperands op symbols o ∧
      (∀ mnemonic, Instruction.emit op { ins with mnemonic } symbols out = (none, words)) ∧
      (op.family ≠ .branch → decode word = some { o.decoded op with raw := word } ∧
        collisions op ins (word :: rest) = []) ∧
      (op.family = .branch →
        collisions op ins (word :: rest) =
          (if (decode word).any (·.op = op) then [] else [.branchCollision op ins.line word]) ∧
        (collisions op ins (word :: rest) = [] →
          decode word = some { o.decoded op with raw := word } ∧
            (o.decoded op).displacement.toInt = o.number.bmod 0x100)) := by
  obtain ⟨o, ho, hwords⟩ := Instruction.emit_eq_none_iff.mp h
  have hfits := Instruction.fits_of_read (Instruction.read_eq_ok_iff.mpr ho)
  refine ⟨o.word op, if op.family = .extended then [0] else [], o, hwords, ho, ?_, ?_, ?_⟩
  · intro mnemonic
    exact Instruction.emit_eq_none_iff.mpr ⟨o, ho, hwords⟩
  · intro hb
    refine ⟨Operands.decode_word hfits fun hbranch => absurd hbranch hb, ?_⟩
    rw [collisions, if_neg hb]
  · intro hb
    have hone : (if op.family = .extended then [0] else [] : List Word) = [] := by simp [hb]
    rw [hone, Instruction.collisions_singleton hb, Operands.any_decode_word hb hfits]
    cases hc : Instruction.collides (o.word op) with
    | false =>
      refine ⟨rfl, fun _ => ⟨Operands.decode_word hfits fun _ => hc, ?_⟩⟩
      exact o.toInt_displacement hb
    | true =>
      refine ⟨rfl, ?_⟩
      intro hquiet
      cases hquiet

/-- A branch back to a label, encoded from an instruction with another mnemonic behind a word that
is there already, and the same branch with a register under which its word reads as a call. -/
theorem decode_emit_branches :
    let symbols : Symbols := Bindings.empty.insert "x".toList 0x10
    let branch (register : Text) : Instruction :=
      { mnemonic := "?".toList, operands := [register, "x".toList], label := none, line := 3,
        address := 0x20 }
    (branch "r3".toList).emit .bne symbols [7] = (none, [7, 0xF3F7]) ∧
      (branch "RA".toList).emit .bne symbols [7] = (none, [7, 0xFAF7]) ∧
      (∃ o, (branch "r3".toList).HasOperands .bne symbols o ∧
        decode 0xF3F7 = some { o.decoded .bne with raw := 0xF3F7 }) ∧
      collisions .bne (branch "RA".toList) [0xFAF7] = [.branchCollision .bne 3 0xFAF7] := by
  intro symbols branch
  have hquiet : (branch "r3".toList).emit .bne symbols [7] = (none, [7, 0xF3F7]) := by decide
  have hloud : (branch "RA".toList).emit .bne symbols [7] = (none, [7, 0xFAF7]) := by decide
  refine ⟨hquiet, hloud, ?_, ?_⟩
  · obtain ⟨word, rest, o, hwords, ho, -, -, hbranch⟩ := decode_emit hquiet
    cases hwords
    exact ⟨o, ho, ((hbranch rfl).2 (by decide)).1⟩
  · obtain ⟨word, rest, o, hwords, -, -, -, hbranch⟩ := decode_emit hloud
    cases hwords
    exact (hbranch rfl).1

end Assembly

end Cvere
