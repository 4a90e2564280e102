import Cvere.Numeral
import Cvere.Operation

/-!
# Events

What the assembler and the disassembler report while they work, beside their results. An event has
a level, a message and named fields, all of them text.
-/

namespace Cvere

/-- How much an event matters. -/
inductive Level where
  | trace
  | debug
  | warn
  deriving DecidableEq, Repr

/-- A report. -/
inductive Event where
  /-- A name that was bound to `previous` is bound to `current` from here on. -/
  | labelRedefined (name : Text) (previous current : Address)
  /-- The word of a branch is also a fixed word or an extended word. -/
  | branchCollision (op : Op) (line : Nat) (word : Word)
  /-- All addresses are known. -/
  | layoutDone (instructions labels : Nat) (stop : Address)
  /-- One instruction has been encoded. -/
  | encoded (mnemonic : Text) (address : Address) (words : List Word)
  /-- The whole program has been encoded. -/
  | encodingDone (words : Nat)
  /-- A word list has been turned into records. -/
  | disassembled (words records : Nat) (start : Address)
  /-- A file of words has an odd number of bytes. -/
  | oddLength (length : Nat)
  deriving DecidableEq, Repr

namespace Event

/-- The level of an event. -/
def level : Event → Level
  | labelRedefined .. | branchCollision .. | oddLength .. => .warn
  | layoutDone .. | encodingDone .. | disassembled .. => .debug
  | encoded .. => .trace

/-- The message of an event. -/
def message : Event → Text
  | labelRedefined .. => "label redefined".toList
  | branchCollision op .. =>
    "branch encoding collides with a fixed form and will not decode back as ".toList ++ op.mnemonic
  | layoutDone .. => "first pass complete".toList
  | encoded mnemonic .. => mnemonic
  | encodingDone .. => "second pass complete".toList
  | disassembled .. => "disassembled".toList
  | oddLength .. => "odd byte count, dropping trailing byte".toList

/-- Words in decimal, between square brackets. -/
def wordList (ws : List Word) : Text :=
  '[' :: Text.join ", ".toList (ws.map fun w => Numeral.decimal w.toNat) ++ [']']

/-- The named fields of an event. -/
def fields : Event → List (String × Text)
  | labelRedefined name previous current =>
    [("label", name), ("prev", Numeral.decimal previous.toNat),
      ("addr", Numeral.decimal current.toNat)]
  | branchCollision _ line word =>
    [("line", Numeral.decimal line), ("word", Numeral.decimal word.toNat)]
  | layoutDone instructions labels stop =>
    [("instructions", Numeral.decimal instructions), ("labels", Numeral.decimal labels),
      ("end", Numeral.decimal stop.toNat)]
  | encoded _ address words =>
    [("addr", Numeral.decimal address.toNat), ("words", wordList words)]
  | encodingDone words => [("words", Numeral.decimal words)]
  | disassembled words records start =>
    [("words", Numeral.decimal words), ("records", Numeral.decimal records),
      ("start", Numeral.decimal start.toNat)]
  | oddLength length => [("len", Numeral.decimal length)]

end Event

end Cvere
