import Cvere.Disassembly.Columns
import Cvere.Text.Line
import Cvere.Word

/-!
# Records

A disassembled instruction is a record, and a listing shows one record to a line:

`AAAA:  WWWW  MNEMON operands  ; note`
-/

namespace Cvere

namespace Disassembly

/-- One disassembled instruction. -/
structure Record where
  address : Address
  raw : Word
  /-- The reserved second word of an extended instruction, when there was one. -/
  reserved : Option Word
  mnemonic : Text
  operands : Text
  note : Text
  deriving DecidableEq, Repr

namespace Record

/-- The words of a record. -/
def words (r : Record) : List Word :=
  r.raw :: r.reserved.toList

/-- The size of a record in bytes. -/
def width (r : Record) : Nat :=
  match r.reserved with
  | some _ => 4
  | none => 2

/-- The words of a record in hexadecimal. -/
def rawText (r : Record) : Text :=
  match r.reserved with
  | some second => Numeral.hex 4 r.raw.toNat ++ ' ' :: Numeral.hex 4 second.toNat
  | none => Numeral.hex 4 r.raw.toNat

/-- The mnemonic, filled up to six characters, and the operands. -/
def assemblyText (r : Record) : Text :=
  if r.operands.isEmpty then Text.padRight 6 r.mnemonic
  else Text.padRight 6 r.mnemonic ++ ' ' :: r.operands

/-- The columns of a record. An empty note takes no column. -/
def cells (r : Record) (columns : Columns) : List Text :=
  [Numeral.hex 4 r.address.toNat ++ [':']] ++
    (if columns.showsRaw then [r.rawText] else []) ++
    [r.assemblyText] ++
    (if columns.showsNote && !r.note.isEmpty then
      ["; ".toList ++ r.note] else [])

/-- The line of a record. The padding of a bare mnemonic is not kept at the end of a line. -/
def render (r : Record) (columns : Columns) : Text :=
  Text.trimEnd (Text.join "  ".toList (r.cells columns))

/-- The record as an instruction in source text. -/
def sourceLine (r : Record) : Text :=
  r.mnemonic ++ ' ' :: r.operands

theorem width_eq_length_words (r : Record) : r.width = 2 * r.words.length := by
  unfold width words
  cases r.reserved <;> rfl

end Record

/-- One record to a line. -/
def listing (columns : Columns) (records : List Record) : Text :=
  Text.unlines (records.map (·.render columns))

/-- Records as source text, one instruction to a line. -/
def sourceText (records : List Record) : Text :=
  Text.unlines (records.map Record.sourceLine)

end Disassembly

end Cvere
