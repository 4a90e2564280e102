import Cvere.Text.Basic
import Cvere.Word

/-!
# Operations

The twenty-one operations of the instruction set. An operation has a mnemonic, an opcode and a
family, and the family decides how its operands are packed into a word.

The top nibble `F` is shared: `BNE` has it as its opcode, the four extended operations have
selector bytes under it, and `HALT` is the word with all bits set.

**Main results.** `ofMnemonic?_mnemonic`, `ofOpcode?_opcode` and `ofSelector?_opcode`: each way of
looking an operation up finds the operation it was taken from.
-/

namespace Cvere

/-- How the operands of an operation are laid out in its word. -/
inductive Family where
  /-- Three registers; `NOT` has two. -/
  | register
  /-- A register and an eight-bit immediate. -/
  | immediate
  /-- Two registers and a four-bit offset. -/
  | memory
  /-- A twelve-bit target address. -/
  | jump
  /-- A register and an eight-bit displacement in words from the following word. -/
  | branch
  /-- A selector byte in the high half of the word; a reserved word follows. -/
  | extended
  /-- One fixed word. -/
  | special
  deriving DecidableEq, Repr

/-- The number of words of an instruction of this family. -/
def Family.words : Family → Nat
  | .extended => 2
  | _ => 1

/-- The size in bytes of an instruction of this family. -/
def Family.width (f : Family) : Nat :=
  2 * f.words

/-- The operations. -/
inductive Op where
  | nop | add | addi | sub | and | or | xor | not | shl | shr | load | store | loadi | jmp | beq
  | bne | call | ret | push | pop | halt
  deriving DecidableEq, Repr

namespace Op

/-- The operations in the order of their opcodes. -/
def all : List Op :=
  [nop, add, addi, sub, and, or, xor, not, shl, shr, load, store, loadi, jmp, beq, bne, call, ret,
    push, pop, halt]

/-- The name of the operation in source text and listings. -/
def mnemonic : Op → Text
  | nop => "NOP".toList
  | add => "ADD".toList
  | addi => "ADDI".toList
  | sub => "SUB".toList
  | and => "AND".toList
  | or => "OR".toList
  | xor => "XOR".toList
  | not => "NOT".toList
  | shl => "SHL".toList
  | shr => "SHR".toList
  | load => "LOAD".toList
  | store => "STORE".toList
  | loadi => "LOADI".toList
  | jmp => "JMP".toList
  | beq => "BEQ".toList
  | bne => "BNE".toList
  | call => "CALL".toList
  | ret => "RET".toList
  | push => "PUSH".toList
  | pop => "POP".toList
  | halt => "HALT".toList

/-- The top nibble of a one-word operation; the whole high byte of an extended operation and of
`HALT`. -/
def opcode : Op → BitVec 8
  | nop => 0x0
  | add => 0x1
  | addi => 0x2
  | sub => 0x3
  | and => 0x4
  | or => 0x5
  | xor => 0x6
  | not => 0x7
  | shl => 0x8
  | shr => 0x9
  | load => 0xA
  | store => 0xB
  | loadi => 0xC
  | jmp => 0xD
  | beq => 0xE
  | bne => 0xF
  | call => 0xFA
  | ret => 0xFB
  | push => 0xFC
  | pop => 0xFD
  | halt => 0xFF

/-- The family of the operation. -/
def family : Op → Family
  | nop | halt => .special
  | addi | loadi => .immediate
  | load | store => .memory
  | jmp => .jump
  | beq | bne => .branch
  | call | ret | push | pop => .extended
  | add | sub | and | or | xor | not | shl | shr => .register

/-- The size in bytes of an instruction with this operation. -/
def width (op : Op) : Nat :=
  op.family.width

/-- `NOT` takes two registers where its family takes three. -/
def isUnary (op : Op) : Bool :=
  op == .not

/-- The top nibble of the words of a one-word operation. -/
def nibble (op : Op) : Nibble :=
  op.opcode.setWidth 4

/-- The operation with an upper-case mnemonic. -/
def ofMnemonic? (m : Text) : Option Op :=
  all.find? (·.mnemonic == m)

/-- The operation with the given opcode, extended operations aside. -/
def ofOpcode? (code : BitVec 8) : Option Op :=
  all.find? fun op => op.family != .extended && op.opcode == code

/-- The extended operation with the given selector byte. -/
def ofSelector? (selector : BitVec 8) : Option Op :=
  all.find? fun op => op.family == .extended && op.opcode == selector

/-! ## Lookups -/

theorem mem_all (op : Op) : op ∈ all := by
  cases op <;> decide

@[simp] theorem ofMnemonic?_mnemonic (op : Op) : ofMnemonic? op.mnemonic = some op := by
  cases op <;> decide

theorem mnemonic_of_ofMnemonic? {m : Text} {op : Op} (h : ofMnemonic? m = some op) :
    op.mnemonic = m := by
  simpa using List.find?_some h

theorem ofOpcode?_opcode {op : Op} (h : op.family ≠ .extended) :
    ofOpcode? op.opcode = some op := by
  cases op <;> first | decide | exact absurd rfl h

theorem ofSelector?_opcode {op : Op} (h : op.family = .extended) :
    ofSelector? op.opcode = some op := by
  cases op <;> first | decide | cases h

end Op

/-- The word of `NOP`. -/
def nopWord : Word := 0x0000

/-- The word of `HALT`. -/
def haltWord : Word := 0xFFFF

end Cvere
