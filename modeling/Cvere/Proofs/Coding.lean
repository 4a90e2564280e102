import Cvere.Assembly.Instruction
import Cvere.Disassembly.Operands

/-!
# Encoding and decoding undo each other

An instruction is encoded in two steps: its operands are read, and what was read is packed into
words. The reading (`Operands`) keeps registers as they are and numbers as exact integers, so that
the packing alone decides which bits survive.

**Main results.** `encode_eq_map_read` splits encoding into the two steps. `decode_word` says that
the first word of an instruction decodes to its operation and to what was read, reduced to the
fields of the operation's family, unless it is a branch whose word reads as a fixed form.
`decode_cases` and `decode_eq_none_iff` say which words decode, and to what.
-/

namespace Cvere

/-! ## Looking operations up -/

namespace Op

theorem opcode_of_ofSelector? {s : BitVec 8} {op : Op} (h : ofSelector? s = some op) :
    op.family = .extended ∧ op.opcode = s := by
  simpa using List.find?_some h

theorem opcode_of_ofOpcode? {c : BitVec 8} {op : Op} (h : ofOpcode? c = some op) :
    op.family ≠ .extended ∧ op.opcode = c := by
  simpa using List.find?_some h

/-- The selector bytes lie under the shared top nibble. -/
theorem opcode_extended_div {op : Op} (h : op.family = .extended) :
    op.opcode.toNat / 0x10 = 0xF := by
  cases op <;> first | decide | cases h

/-- Every top nibble but zero belongs to an operation with fields. -/
theorem exists_ofOpcode? : ∀ n : Nibble, n ≠ 0 →
    ∃ op, ofOpcode? (n.setWidth 8) = some op ∧ op.family ≠ .special := by
  decide

end Op

/-- The families whose words are told by their top nibble. -/
def Family.HasFields (f : Family) : Prop :=
  f ≠ .extended ∧ f ≠ .special

instance (f : Family) : Decidable f.HasFields :=
  inferInstanceAs (Decidable (_ ∧ _))

namespace Op

theorem setWidth_nibble {op : Op} (h : op.family.HasFields) : op.nibble.setWidth 8 = op.opcode := by
  cases op <;> first | decide | exact absurd h (by decide)

theorem nibble_ne_zero {op : Op} (h : op.family.HasFields) : op.nibble ≠ 0 := by
  cases op <;> first | decide | exact absurd h (by decide)

/-- Only `BNE` shares its top nibble with the fixed forms. -/
theorem nibble_ne_shared {op : Op} (h : op.family.HasFields) (hb : op.family ≠ .branch) :
    op.nibble ≠ 0xF := by
  cases op <;> first | decide | exact absurd h (by decide) | exact absurd rfl hb

end Op

/-! ## Decoding -/

open Assembly.Instruction (collides)

theorem top_of_collides {w : Word} (h : collides w = true) : w.top = 0xF := by
  apply BitVec.eq_of_toNat_eq
  rw [Word.toNat_top]
  simp only [collides, Bool.or_eq_true, beq_iff_eq, Option.isSome_iff_exists] at h
  rcases h with rfl | ⟨op, hop⟩
  · rfl
  · obtain ⟨hf, hc⟩ := Op.opcode_of_ofSelector? hop
    have hdiv := Op.opcode_extended_div hf
    rw [hc, Word.toNat_highByte] at hdiv
    have hF : (0xF : Nibble).toNat = 0xF := rfl
    omega

/-- A word whose top nibble belongs to an operation with fields decodes to the fields, unless it
reads as a fixed form. -/
theorem decode_of_top {w : Word} {op : Op} (hf : op.family.HasFields) (ht : w.top = op.nibble)
    (hc : collides w = false) : decode w = decodeFields op w := by
  simp only [collides, Bool.or_eq_false_iff, beq_eq_false_iff_ne, ne_eq,
    Option.isSome_eq_false_iff, Option.isNone_iff_eq_none] at hc
  have hnop : w ≠ nopWord := by
    rintro rfl
    exact Op.nibble_ne_zero hf (ht ▸ rfl)
  rw [decode, if_neg hnop, if_neg hc.1, hc.2, ht, Op.setWidth_nibble hf,
    Op.ofOpcode?_opcode hf.1]
  rfl

/-- An extended operation is told by its selector byte; the low byte does not matter. -/
theorem decode_ofBytes {op : Op} (hf : op.family = .extended) (low : BitVec 8) :
    decode (Word.ofBytes op.opcode low) = some (.bare op (Word.ofBytes op.opcode low)) := by
  have hdiv := Op.opcode_extended_div hf
  have hnat := Word.toNat_ofBytes op.opcode low
  have hnop : Word.ofBytes op.opcode low ≠ nopWord := by
    intro h
    rw [h] at hnat
    have : (nopWord : Word).toNat = 0 := rfl
    omega
  have hhalt : Word.ofBytes op.opcode low ≠ haltWord := by
    intro h
    have hb : op.opcode = 0xFF := by
      rw [← Word.highByte_ofBytes op.opcode low, h]
      rfl
    cases op <;> first | exact absurd hb (by decide) | cases hf
  rw [decode, if_neg hnop, if_neg hhalt, Word.highByte_ofBytes, Op.ofSelector?_opcode hf]

/-- The ways in which a word decodes. -/
theorem decode_cases {w : Word} {d : Decoded} (h : decode w = some d) :
    (w = nopWord ∧ d = .bare .nop w) ∨ (w = haltWord ∧ d = .bare .halt w) ∨
    (d.op.family = .extended ∧ w.highByte = d.op.opcode ∧ d = .bare d.op w) ∨
    (d.op.family.HasFields ∧ w.top = d.op.nibble ∧ decodeFields d.op w = some d) := by
  unfold decode at h
  split at h
  · next hw =>
    cases h
    exact .inl ⟨hw, rfl⟩
  split at h
  · next hw =>
    cases h
    exact .inr (.inl ⟨hw, rfl⟩)
  split at h
  · next op hop =>
    cases h
    obtain ⟨hf, hc⟩ := Op.opcode_of_ofSelector? hop
    exact .inr (.inr (.inl ⟨hf, hc.symm, rfl⟩))
  · obtain ⟨op, hop, hd⟩ := Option.bind_eq_some_iff.mp h
    obtain ⟨hf, hc⟩ := Op.opcode_of_ofOpcode? hop
    have hspecial : op.family ≠ .special := by
      intro hs
      simp [decodeFields, hs] at hd
    have hdop : d.op = op := by
      unfold decodeFields at hd
      split at hd <;> cases hd <;> rfl
    refine .inr (.inr (.inr ?_))
    rw [hdop]
    refine ⟨⟨hf, hspecial⟩, ?_, hd⟩
    rw [Op.nibble, hc]
    exact (BitVec.setWidth_setWidth_of_le w.top (by decide)).symm

/-- The words that belong to no instruction: those under the top nibble zero, zero aside. -/
theorem decode_eq_none_iff {w : Word} : decode w = none ↔ w ≠ 0 ∧ w.top = 0 := by
  constructor
  · intro h
    have hnop : w ≠ nopWord := by
      rintro rfl
      cases h
    refine ⟨hnop, ?_⟩
    by_cases htop : w.top = 0
    · exact htop
    obtain ⟨op, hop, hs⟩ := Op.exists_ofOpcode? w.top htop
    obtain ⟨hf, hc⟩ := Op.opcode_of_ofOpcode? hop
    unfold decode at h
    rw [if_neg hnop, hop] at h
    split at h
    · cases h
    split at h
    · cases h
    · unfold decodeFields at h
      cases hfam : op.family <;> simp_all
  · rintro ⟨hzero, htop⟩
    have hnop : w ≠ nopWord := hzero
    have hhalt : w ≠ haltWord := by
      rintro rfl
      exact absurd htop (by decide)
    have hsel : Op.ofSelector? w.highByte = none := by
      cases hs : Op.ofSelector? w.highByte with
      | none => rfl
      | some op =>
        have := top_of_collides (w := w) (by simp [collides, hs])
        rw [htop] at this
        exact absurd this (by decide)
    rw [decode, if_neg hnop, if_neg hhalt, hsel, htop]
    rfl

namespace Assembly

/-! ## Reading operands -/

/-- The operands of an instruction as they were read: registers, and a number before it is cut to
its field. What the operation does not take is zero. -/
structure Operands where
  rd : Nibble
  rs : Nibble
  rt : Nibble
  number : Int
  deriving DecidableEq, Repr

/-- The number that a jump to the target is made from. -/
def Target.number : Target → Int
  | .label a => a.toNat
  | .literal v => v.toInt

/-- The number that a branch at `origin` to the target is made from: the words between a label and
the word after the branch, or a literal as it stands. -/
def Target.distance (origin : Address) : Target → Int
  | .label a => ((a.toNat : Int) - ((origin.toNat : Int) + 2)) / 2
  | .literal v => v.toInt

/-- The operands of an instruction, read as those of the given operation. -/
def Instruction.read (op : Op) (ins : Instruction) (symbols : Symbols) : Except Cause Operands :=
  match op.family with
  | .register => do
    let rd ← ins.register 0
    let rs ← ins.register 1
    let rt ← if op.isUnary then .ok 0 else ins.register 2
    return { rd, rs, rt, number := 0 }
  | .immediate => do
    let rd ← ins.register 0
    let v ← ins.immediate 1
    return { rd, rs := 0, rt := 0, number := v.toInt }
  | .memory => do
    let rd ← ins.register 0
    let rs ← ins.register 1
    let v ← ins.immediate 2
    return { rd, rs, rt := 0, number := v.toInt }
  | .jump => do
    let t ← ins.target symbols 0
    return { rd := 0, rs := 0, rt := 0, number := t.number }
  | .branch => do
    let rc ← ins.register 0
    let t ← ins.target symbols 1
    return { rd := rc, rs := 0, rt := 0, number := t.distance ins.address }
  | .extended | .special => return { rd := 0, rs := 0, rt := 0, number := 0 }

namespace Operands

/-- The first word that an operation and its operands are packed into. -/
def word (op : Op) (o : Operands) : Word :=
  match op.family with
  | .register => Word.ofNibbles op.nibble o.rd o.rs o.rt
  | .immediate | .branch => Word.ofNibblesByte op.nibble o.rd (BitVec.ofInt 8 o.number)
  | .memory => Word.ofNibbles op.nibble o.rd o.rs (BitVec.ofInt 4 o.number)
  | .jump => Word.ofNibbleTail op.nibble (BitVec.ofInt 12 o.number)
  | .extended => Word.ofBytes op.opcode 0
  | .special => if op = .halt then haltWord else nopWord

/-- The words that an operation and its operands are packed into. -/
def words (op : Op) (o : Operands) : List Word :=
  o.word op :: if op.family = .extended then [0] else []

end Operands

theorem setWidth_eq_ofInt_toInt {n : Nat} (hn : n ≤ 64) (v : Literal) :
    v.setWidth n = BitVec.ofInt n v.toInt :=
  (BitVec.signExtend_eq_setWidth_of_le v hn).symm

theorem Target.absolute_eq (t : Target) : t.absolute = BitVec.ofInt 12 t.number := by
  cases t with
  | label a =>
    change a.setWidth 12 = BitVec.ofInt 12 (a.toNat : Int)
    rw [BitVec.ofInt_natCast, BitVec.ofNat_toNat]
  | literal v => exact setWidth_eq_ofInt_toInt (by decide) v

theorem Target.displacement_eq (origin : Address) (t : Target) :
    t.displacement origin = BitVec.ofInt 8 (t.distance origin) := by
  cases t with
  | label a => rfl
  | literal v => exact setWidth_eq_ofInt_toInt (by decide) v

/-- Encoding reads the operands and packs what was read. -/
theorem Instruction.encode_eq_map_read (op : Op) (ins : Instruction) (symbols : Symbols) :
    ins.encode op symbols = (ins.read op symbols).map (Operands.words op) := by
  unfold encode read
  cases hf : op.family with
  | register =>
    rcases ins.register 0 with c | rd
    · rfl
    rcases ins.register 1 with c | rs
    · rfl
    cases hu : op.isUnary with
    | true =>
      simp [Except.map, Operands.words, Operands.word, hf, bind, Except.bind, pure, Except.pure]
    | false =>
      rcases ins.register 2 with c | rt
      · rfl
      simp [Except.map, Operands.words, Operands.word, hf, bind, Except.bind, pure, Except.pure]
  | immediate =>
    rcases ins.register 0 with c | rd
    · rfl
    rcases ins.immediate 1 with c | v
    · rfl
    simp [Except.map, Operands.words, Operands.word, hf, bind, Except.bind, pure, Except.pure,
      setWidth_eq_ofInt_toInt]
  | memory =>
    rcases ins.register 0 with c | rd
    · rfl
    rcases ins.register 1 with c | rs
    · rfl
    rcases ins.immediate 2 with c | v
    · rfl
    simp [Except.map, Operands.words, Operands.word, hf, bind, Except.bind, pure, Except.pure,
      setWidth_eq_ofInt_toInt]
  | jump =>
    rcases ins.target symbols 0 with c | t
    · rfl
    simp [Except.map, Operands.words, Operands.word, hf, bind, Except.bind, pure, Except.pure,
      Target.absolute_eq]
  | branch =>
    rcases ins.register 0 with c | rc
    · rfl
    rcases ins.target symbols 1 with c | t
    · rfl
    simp [Except.map, Operands.words, Operands.word, hf, bind, Except.bind, pure, Except.pure,
      Target.displacement_eq]
  | extended => simp [Except.map, Operands.words, Operands.word, hf, pure, Except.pure]
  | special => simp [Except.map, Operands.words, Operands.word, hf, pure, Except.pure]

/-! ## Decoding what was packed -/

end Assembly

/-- The number of values of the number field of a family; without such a field, one. -/
def Family.span : Family → Nat
  | .immediate | .branch => 0x100
  | .memory => 0x10
  | .jump => 0x1000
  | .register | .extended | .special => 1

namespace Assembly

namespace Operands

/-- What the operation does not take is zero. -/
def Fits (op : Op) (o : Operands) : Prop :=
  match op.family with
  | .register => o.number = 0 ∧ (op.isUnary = true → o.rt = 0)
  | .immediate | .branch => o.rs = 0 ∧ o.rt = 0
  | .memory => o.rt = 0
  | .jump => o.rd = 0 ∧ o.rs = 0 ∧ o.rt = 0
  | .extended | .special => o = ⟨0, 0, 0, 0⟩

/-- The fields that the operands are packed into, each reduced to its width. -/
def decoded (op : Op) (o : Operands) : Decoded where
  op := op
  raw := o.word op
  rd := o.rd.setWidth 8
  rs := o.rs.setWidth 8
  rt := o.rt.setWidth 8
  imm := BitVec.ofNat 16 (o.number % op.family.span).toNat

theorem top_word {op : Op} (hf : op.family.HasFields) (o : Operands) :
    (o.word op).top = op.nibble := by
  unfold word
  cases hfam : op.family <;> simp_all [Family.HasFields]

/-- Of the words with fields, only those of branches can read as a fixed form. -/
theorem collides_word_eq_false {op : Op} (hf : op.family.HasFields) (hb : op.family ≠ .branch)
    (o : Operands) : collides (o.word op) = false := by
  rw [Bool.eq_false_iff]
  intro h
  exact Op.nibble_ne_shared hf hb ((top_word hf o).symm.trans (top_of_collides h))

/-- A field keeps a number up to the number of its values. -/
theorem setWidth_ofInt (w : Nat) (n : Int) :
    (BitVec.ofInt w n).setWidth 16 = BitVec.ofNat 16 (n % (1 <<< w : Nat)).toNat := by
  apply BitVec.eq_of_toNat_eq
  rw [BitVec.toNat_setWidth, BitVec.toNat_ofInt, BitVec.toNat_ofNat, Nat.one_shiftLeft]

/-- The fields of a packed word are the operands, reduced to their fields. -/
theorem decodeFields_word {op : Op} {o : Operands} (hf : op.family.HasFields) (ho : o.Fits op) :
    decodeFields op (o.word op) = some (o.decoded op) := by
  obtain ⟨rd, rs, rt, number⟩ := o
  unfold decodeFields word decoded
  cases hfam : op.family with
  | register =>
    obtain ⟨rfl, -⟩ : number = 0 ∧ _ := by simpa [Fits, hfam] using ho
    simp [Decoded.bare, Family.span, word, hfam]
  | immediate | branch =>
    obtain ⟨rfl, rfl⟩ : rs = 0 ∧ rt = 0 := by simpa [Fits, hfam] using ho
    simp [Decoded.bare, Family.span, setWidth_ofInt, word, hfam]
  | memory =>
    obtain rfl : rt = 0 := by simpa [Fits, hfam] using ho
    simp [Decoded.bare, Family.span, setWidth_ofInt, word, hfam]
  | jump =>
    obtain ⟨rfl, rfl, rfl⟩ : rd = 0 ∧ rs = 0 ∧ rt = 0 := by simpa [Fits, hfam] using ho
    simp [Decoded.bare, Family.span, setWidth_ofInt, word, hfam]
  | extended => exact absurd hfam hf.1
  | special => exact absurd hfam hf.2

/-- The first word of an instruction decodes to its operation and operands, unless it is a branch
that reads as a fixed form. -/
theorem decode_word {op : Op} {o : Operands} (ho : o.Fits op)
    (hc : op.family = .branch → collides (o.word op) = false) :
    decode (o.word op) = some (o.decoded op) := by
  by_cases hf : op.family.HasFields
  · rw [decode_of_top hf (top_word hf o), decodeFields_word hf ho]
    by_cases hb : op.family = .branch
    · exact hc hb
    · exact collides_word_eq_false hf hb o
  · obtain hx | hs : op.family = .extended ∨ op.family = .special := by
      unfold Family.HasFields at hf
      cases hfam : op.family <;> simp_all
    · obtain rfl : o = ⟨0, 0, 0, 0⟩ := by simpa [Fits, hx] using ho
      simp only [decoded, word, hx]
      rw [decode_ofBytes hx, Decoded.bare, hx]
      rfl
    · obtain rfl : o = ⟨0, 0, 0, 0⟩ := by simpa [Fits, hs] using ho
      cases op <;> rfl

end Operands

theorem Instruction.fits_of_read {op : Op} {ins : Instruction} {symbols : Symbols} {o : Operands}
    (h : ins.read op symbols = .ok o) : o.Fits op := by
  unfold read at h
  unfold Operands.Fits
  cases hf : op.family <;> simp only [hf, bind, Except.bind, pure, Except.pure] at h ⊢ <;>
    (repeat' split at h) <;> cases h <;> simp_all

/-! ## Targets of packed words -/

end Assembly

open Disassembly in
/-- A branch leads `displacement` words on from the word after it, around in the lowest 64 KiB. -/
theorem toNat_branchTarget (address : Address) (displacement : BitVec 16) :
    (branchTarget address displacement).toNat =
      (((address.toNat : Int) + 2 + 2 * displacement.toInt) % 0x10000).toNat := by
  have hsext : (displacement.signExtend 32).toNat = (displacement.toInt % 0x100000000).toNat :=
    BitVec.toNat_ofInt _
  have hmask : ∀ n : Nat, n &&& 0xFFFF = n % 0x10000 := fun n =>
    Nat.and_two_pow_sub_one_eq_mod n 16
  have htwo : (2 : BitVec 32).toNat = 2 := rfl
  have hones : (0xFFFF : BitVec 32).toNat = 0xFFFF := rfl
  unfold branchTarget
  simp only [BitVec.toNat_and, BitVec.toNat_add, BitVec.toNat_mul, hsext, htwo, hones, hmask]
  omega

namespace Assembly.Operands

theorem toNat_imm (op : Op) (o : Operands) :
    (o.decoded op).imm.toNat = (o.number % op.family.span).toNat := by
  simp only [decoded, BitVec.toNat_ofNat]
  cases op.family <;> simp only [Family.span] <;> omega

/-- The displacement of a branch is its number, wrapped into a signed byte. -/
theorem toInt_displacement {op : Op} (hb : op.family = .branch) (o : Operands) :
    (o.decoded op).displacement.toInt = o.number.bmod 0x100 := by
  have himm : (o.decoded op).imm.setWidth 8 = BitVec.ofInt 8 o.number := by
    apply BitVec.eq_of_toNat_eq
    rw [BitVec.toNat_setWidth, toNat_imm, BitVec.toNat_ofInt, hb]
    simp only [Family.span]
    omega
  rw [Decoded.displacement, himm, BitVec.toInt_signExtend_of_le (by decide), BitVec.toInt_ofInt]

end Assembly.Operands

end Cvere
