import Cvere.Numeral

/-!
# Assembly errors

An error is a cause and the line it was found on. The first error ends the assembly.
-/

namespace Cvere

namespace Assembly

/-- Why an instruction cannot be encoded. -/
inductive Cause where
  /-- No operation has the mnemonic. -/
  | unknownMnemonic (mnemonic : Text)
  /-- A register operand cannot be read. -/
  | invalidRegister (token : Text)
  /-- A register operand names a register that no instruction can hold. -/
  | registerOutOfRange (token : Text)
  /-- An integer operand cannot be read. -/
  | invalidImmediate (token : Text)
  /-- The operand at a position, counted from one, is not there. -/
  | missingOperand (mnemonic : Text) (position : Nat)
  /-- A target names no label. -/
  | undefinedLabel (name : Text)
  deriving DecidableEq, Repr

/-- What part of an instruction a cause is about. -/
inductive Category where
  | mnemonic
  | operand
  | reference
  deriving DecidableEq, Repr

/-- The part of an instruction a cause is about. -/
def Cause.category : Cause → Category
  | unknownMnemonic .. => .mnemonic
  | undefinedLabel .. => .reference
  | invalidRegister .. | registerOutOfRange .. | invalidImmediate .. | missingOperand .. => .operand

/-- The wording of a cause. -/
def Cause.message : Cause → Text
  | unknownMnemonic m => "unknown mnemonic `".toList ++ m ++ "`".toList
  | invalidRegister t => "invalid register `".toList ++ t ++ "`".toList
  | registerOutOfRange t => "register `".toList ++ t ++ "` does not fit a 4-bit field".toList
  | invalidImmediate t => "invalid immediate `".toList ++ t ++ "`".toList
  | missingOperand m p => m ++ " is missing operand #".toList ++ Numeral.decimal p
  | undefinedLabel n => "undefined label `".toList ++ n ++ "`".toList

/-- An error: the line it was found on, counted from one, and its cause. -/
structure Error where
  line : Nat
  cause : Cause
  deriving DecidableEq, Repr

/-- The wording of an error. -/
def Error.message (e : Error) : Text :=
  "line ".toList ++ Numeral.decimal e.line ++ ": ".toList ++ e.cause.message

end Assembly

end Cvere
