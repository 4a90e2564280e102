import Cvere.Assembly.Error
import Cvere.Event
import Cvere.Label
import Cvere.Literal
import Cvere.Operation
import Cvere.Register
import Cvere.Statement

/-!
# Encoding instructions

An instruction is a command with a place: the line it stands on and the address it will have. To
encode it, the operands that the operation's family asks for are read from left to right, and the
fields are put together into a word. Operands beyond those are not looked at.

**Main results.** `length_encode`: an instruction takes as many words as its family has.
-/

namespace Cvere

namespace Assembly

/-- A command with its place in the program. -/
structure Instruction extends Command where
  /-- The label on the same line. -/
  label : Option Text
  /-- The source line, counted from one. -/
  line : Nat
  address : Address
  deriving DecidableEq, Repr

/-- What a jump or a branch leads to: the address of a label, or a number as it stands. -/
inductive Target where
  | label (address : Address)
  | literal (value : Literal)
  deriving DecidableEq, Repr

/-- The field of a jump: the low twelve bits of the target. -/
def Target.absolute : Target → BitVec 12
  | .label a => a.setWidth 12
  | .literal v => v.setWidth 12

/-- The field of a branch at `origin`: the distance to a label in words from the following word,
rounded down, or the low bits of a number. -/
def Target.displacement (origin : Address) : Target → BitVec 8
  | .label a => BitVec.ofInt 8 (((a.toNat : Int) - ((origin.toNat : Int) + 2)) / 2)
  | .literal v => v.setWidth 8

namespace Instruction

/-! ## Reading operands -/

/-- The operand at a position, counted from zero. -/
def operand (ins : Instruction) (i : Nat) : Except Cause Text :=
  match ins.operands[i]? with
  | some token => .ok token
  | none => .error (.missingOperand ins.mnemonic (i + 1))

/-- A register that fits a four-bit field. -/
def register (ins : Instruction) (i : Nat) : Except Cause Nibble := do
  let token ← ins.operand i
  match Register.parse? token with
  | none => .error (.invalidRegister token)
  | some n => if n ≤ 15 then .ok (BitVec.ofNat 4 n) else .error (.registerOutOfRange token)

/-- An integer. -/
def immediate (ins : Instruction) (i : Nat) : Except Cause Literal := do
  let token ← ins.operand i
  match Literal.parse? token with
  | none => .error (.invalidImmediate token)
  | some v => .ok v

/-- A label, or an integer where no label has the operand's text. -/
def target (ins : Instruction) (symbols : Symbols) (i : Nat) : Except Cause Target := do
  let token ← ins.operand i
  match symbols.get? token, Literal.parse? token with
  | some a, _ => .ok (.label a)
  | none, some v => .ok (.literal v)
  | none, none =>
    if looksLikeLabel token then .error (.undefinedLabel token)
    else .error (.invalidImmediate token)

/-! ## Encoding -/

/-- The words of an instruction, encoded as the given operation. -/
def encode (op : Op) (ins : Instruction) (symbols : Symbols) : Except Cause (List Word) :=
  match op.family with
  | .register => do
    let rd ← ins.register 0
    let rs ← ins.register 1
    let rt ← if op.isUnary then .ok 0 else ins.register 2
    return [Word.ofNibbles op.nibble rd rs rt]
  | .immediate => do
    let rd ← ins.register 0
    let imm ← ins.immediate 1
    return [Word.ofNibblesByte op.nibble rd (imm.setWidth 8)]
  | .memory => do
    let rd ← ins.register 0
    let rs ← ins.register 1
    let off ← ins.immediate 2
    return [Word.ofNibbles op.nibble rd rs (off.setWidth 4)]
  | .jump => do
    let t ← ins.target symbols 0
    return [Word.ofNibbleTail op.nibble t.absolute]
  | .branch => do
    let rc ← ins.register 0
    let t ← ins.target symbols 1
    return [Word.ofNibblesByte op.nibble rc (t.displacement ins.address)]
  | .extended => return [Word.ofBytes op.opcode 0, 0]
  | .special => return [if op = .halt then haltWord else nopWord]

/-- The words of an instruction after the words in `out`. A failure leaves `out` as it was. -/
def emit (op : Op) (ins : Instruction) (symbols : Symbols) (out : List Word) :
    Option Error × List Word :=
  match ins.encode op symbols with
  | .error cause => (some { line := ins.line, cause }, out)
  | .ok words => (none, out ++ words)

/-- The words of an instruction, encoded as the operation that its mnemonic names. -/
def assemble (ins : Instruction) (symbols : Symbols) : Except Error (List Word) :=
  match Op.ofMnemonic? ins.mnemonic with
  | none => .error { line := ins.line, cause := .unknownMnemonic ins.mnemonic }
  | some op => (ins.encode op symbols).mapError fun cause => { line := ins.line, cause }

/-! ## Collisions -/

/-- The word reads as `HALT` or as an extended operation, whatever it was encoded as. -/
def collides (w : Word) : Bool :=
  w == haltWord || (Op.ofSelector? w.highByte).isSome

/-- A warning for each word of a branch that reads as something else. -/
def collisions (op : Op) (ins : Instruction) (words : List Word) : List Event :=
  if op.family = .branch then
    (words.filter collides).map fun w => .branchCollision op ins.line w
  else []

/-- What is reported about an instruction: a collision and then the words, or nothing when it
cannot be encoded. -/
def events (ins : Instruction) (symbols : Symbols) : List Event :=
  match Op.ofMnemonic? ins.mnemonic, ins.assemble symbols with
  | some op, .ok words => collisions op ins words ++ [.encoded ins.mnemonic ins.address words]
  | _, _ => []

/-! ## Sizes -/

/-- An instruction takes as many words as its family has. -/
theorem length_encode {op : Op} {ins : Instruction} {symbols : Symbols} {words : List Word}
    (h : ins.encode op symbols = .ok words) : words.length = op.family.words := by
  cases hf : op.family <;> simp only [encode, hf, bind, Except.bind, pure, Except.pure] at h <;>
    (repeat' split at h) <;> first | (cases h; rfl) | cases h

end Instruction

end Assembly

end Cvere
