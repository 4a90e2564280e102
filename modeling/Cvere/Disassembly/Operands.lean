import Cvere.Decoding
import Cvere.Label
import Cvere.Register

/-!
# Operands of decoded words

How the fields of a decoded word are shown: as operands, in which a target with a name appears
under its name, and as a note, which names nothing and shows the fields as they are.
-/

namespace Cvere

namespace Disassembly

/-- The address that a branch leads to, within the lowest 64 KiB: `displacement` words from the
word after the branch. -/
def branchTarget (address : Address) (displacement : BitVec 16) : Address :=
  (address + 2 + 2 * displacement.signExtend 32) &&& 0xFFFF

/-- The name of an address, or the address in hexadecimal with at least so many digits. -/
def targetText (names : Names) (digits : Nat) (target : Address) : Text :=
  (names.get? target).getD ("0x".toList ++ Numeral.hex digits target.toNat)

/-- Operands with commas between them. -/
def commaList (operands : List Text) : Text :=
  Text.join ", ".toList operands

/-- A field of a note: its name and its value. -/
def field (name : String) (value : Text) : Text :=
  name.toList ++ '=' :: value

end Disassembly

namespace Decoded

open Disassembly

/-- The address that a jump or a branch at `address` leads to; other words lead nowhere. -/
def target? (d : Decoded) (address : Address) : Option Address :=
  match d.family with
  | .jump => some (d.imm.setWidth 32)
  | .branch => some (branchTarget address d.displacement)
  | _ => none

/-- The operands of a word at `address`. -/
def operandText (d : Decoded) (address : Address) (names : Names) : Text :=
  match d.family with
  | .register =>
    if d.op.isUnary then commaList [Register.name d.rd, Register.name d.rs]
    else commaList [Register.name d.rd, Register.name d.rs, Register.name d.rt]
  | .immediate => commaList [Register.name d.rd, "0x".toList ++ Numeral.hex 2 d.imm.toNat]
  | .memory =>
    commaList [Register.name d.rd, Register.name d.rs, "0x".toList ++ Numeral.hex 1 d.imm.toNat]
  | .jump => targetText names 3 (d.imm.setWidth 32)
  | .branch =>
    commaList [Register.name d.rd, targetText names 4 (branchTarget address d.displacement)]
  | .extended | .special => []

/-- The note of a word at `address`. -/
def note (d : Decoded) (address : Address) : Text :=
  let digit (n : BitVec 8) := Numeral.hex 1 n.toNat
  match d.family with
  | .register =>
    if d.op.isUnary then commaList [field "Rd" (digit d.rd), field "Rs" (digit d.rs)]
    else commaList [field "Rd" (digit d.rd), field "Rs" (digit d.rs), field "Rt" (digit d.rt)]
  | .immediate => commaList [field "Rd" (digit d.rd), field "Imm" (Numeral.hex 2 d.imm.toNat)]
  | .memory =>
    commaList [field "Rd" (digit d.rd), field "Rs" (digit d.rs),
      field "Off" (Numeral.hex 1 d.imm.toNat)]
  | .jump => field "Target" ("0x".toList ++ Numeral.hex 3 d.imm.toNat)
  | .branch =>
    commaList [field "Rc" (digit d.rd),
      field "Target" ("0x".toList ++ Numeral.hex 4 (branchTarget address d.displacement).toNat)]
  | .extended => "Extended instruction".toList
  | .special => if d.op = .halt then "Stop execution".toList else "No operation".toList

end Decoded

end Cvere
