import Cvere.Text.Blank
import Cvere.Text.Upper

/-!
# Statements

One source line is a statement: an optional label before a colon, an optional command, and a
comment from the first semicolon on. A command is a mnemonic and operands separated by commas.

The four splits are made in a fixed order (comment, label, mnemonic, operands), with blanks trimmed
after each.
-/

namespace Cvere

/-- What an instruction says, before its mnemonic has been looked up. -/
structure Command where
  /-- The mnemonic in upper case. -/
  mnemonic : Text
  operands : List Text
  deriving DecidableEq, Repr

/-- A source line. -/
structure Statement where
  label : Option Text
  command : Option Command
  deriving DecidableEq, Repr

/-- The operands in what follows the mnemonic. Operands may be empty. -/
def Command.splitOperands (t : Text) : List Text :=
  (t.splitOn ',').map Text.trim

/-- The command in a trimmed text; an empty text holds none. The mnemonic ends at the first
blank, and without a blank there are no operands. -/
def Command.parse? (t : Text) : Option Command :=
  if t.isEmpty then none
  else match Text.cut? Text.isBlank t with
    | none => some { mnemonic := Text.upper t, operands := [] }
    | some (m, rest) =>
      some { mnemonic := Text.upper m, operands := Command.splitOperands (Text.trim rest) }

namespace Statement

/-- The code of a line: what stands before the comment, trimmed. -/
def code (line : Text) : Text :=
  Text.trim (Text.before ';' line)

/-- A label with nothing in it is no label. -/
def labelOf (t : Text) : Option Text :=
  if t.isEmpty then none else some t

/-- The statement on a line. Only the first colon ends a label. -/
def parse (line : Text) : Statement :=
  match Text.cut? (· == ':') (code line) with
  | none => { label := none, command := Command.parse? (code line) }
  | some (name, rest) =>
    { label := labelOf (Text.trim name), command := Command.parse? (Text.trim rest) }

/-- A line without code is an empty statement. -/
theorem parse_of_code_eq_nil {line : Text} (h : code line = []) : parse line = ⟨none, none⟩ := by
  simp [parse, h, Command.parse?]

end Statement

end Cvere
