import Cvere.Operation

/-!
# Decoding

A word is first compared with the two fixed words, then its high byte with the extended selectors,
and at last its top nibble is looked up. A word other than zero under the top nibble zero belongs
to no family.
-/

namespace Cvere

/-- The fields of one machine word. Which of them mean something depends on the family; the others
are zero. A decoder may show an operation under a mnemonic and a family of its own. -/
structure Decoded where
  op : Op
  mnemonic : Text := op.mnemonic
  family : Family := op.family
  /-- The word itself. -/
  raw : Word
  /-- The destination register, and the tested register of a branch. -/
  rd : BitVec 8
  rs : BitVec 8
  rt : BitVec 8
  /-- The immediate, offset, target or displacement field, not sign-extended. -/
  imm : BitVec 16
  deriving DecidableEq, Repr

namespace Decoded

/-- A word without fields. -/
def bare (op : Op) (raw : Word) : Decoded where
  op := op
  raw := raw
  rd := 0
  rs := 0
  rt := 0
  imm := 0

/-- The displacement of a branch in words, sign-extended from its eight-bit field. -/
def displacement (d : Decoded) : BitVec 16 :=
  (d.imm.setWidth 8).signExtend 16

end Decoded

/-- A reading of words as instructions. A word may belong to no instruction. -/
abbrev Decoder := Word → Option Decoded

/-- The fields of a word of a family that is told by its top nibble. -/
def decodeFields (op : Op) (raw : Word) : Option Decoded :=
  let rd := raw.second.setWidth 8
  let rs := raw.third.setWidth 8
  let rt := raw.fourth.setWidth 8
  match op.family with
  | .register => some { Decoded.bare op raw with rd, rs, rt }
  | .immediate | .branch => some { Decoded.bare op raw with rd, imm := raw.lowByte.setWidth 16 }
  | .memory => some { Decoded.bare op raw with rd, rs, imm := raw.fourth.setWidth 16 }
  | .jump => some { Decoded.bare op raw with imm := raw.tail.setWidth 16 }
  | .special | .extended => none

/-- The decoder of the instruction set. -/
def decode : Decoder := fun raw =>
  if raw = nopWord then some (.bare .nop raw)
  else if raw = haltWord then some (.bare .halt raw)
  else match Op.ofSelector? raw.highByte with
    | some op => some (.bare op raw)
    | none => (Op.ofOpcode? (raw.top.setWidth 8)).bind (decodeFields · raw)

/-- Decoding an instruction sets its fields and nothing else. -/
theorem eq_bare_of_decode {raw : Word} {d : Decoded} (h : decode raw = some d) :
    d = { Decoded.bare d.op raw with rd := d.rd, rs := d.rs, rt := d.rt, imm := d.imm } := by
  unfold decode at h
  split at h
  · cases h; rfl
  split at h
  · cases h; rfl
  split at h
  · cases h; rfl
  · obtain ⟨op, -, hop⟩ := Option.bind_eq_some_iff.mp h
    unfold decodeFields at hop
    split at hop <;> cases hop <;> rfl

theorem mnemonic_of_decode {raw : Word} {d : Decoded} (h : decode raw = some d) :
    d.mnemonic = d.op.mnemonic :=
  congrArg Decoded.mnemonic (eq_bare_of_decode h)

theorem family_of_decode {raw : Word} {d : Decoded} (h : decode raw = some d) :
    d.family = d.op.family :=
  congrArg Decoded.family (eq_bare_of_decode h)

end Cvere
