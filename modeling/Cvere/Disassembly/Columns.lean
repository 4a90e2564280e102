import Cvere.Numeral
import Cvere.Text.Blank

/-!
# Listing columns

A listing always shows the address and the assembly text of a record. The raw words and the note
are columns that can be switched off. The choice is a set of eight bits, of which two have names;
the others are kept and mean nothing.

In text, a set is written as its names with bars between them, and left-over bits as one
hexadecimal number: `RAW | ANNOTATION | 0x40`.
-/

namespace Cvere

namespace Disassembly

/-- A set of optional columns. -/
structure Columns where
  bits : BitVec 8
  deriving DecidableEq, Repr

namespace Columns

/-- The raw words. -/
def raw : Columns := ⟨0x01⟩

/-- The note. -/
def note : Columns := ⟨0x02⟩

/-- No columns. -/
def empty : Columns := ⟨0x00⟩

/-- All named columns. -/
def all : Columns := ⟨0x03⟩

/-- The columns of either set. -/
def union (a b : Columns) : Columns := ⟨a.bits ||| b.bits⟩

/-- Whether the raw words are shown. -/
def showsRaw (c : Columns) : Bool := c.bits.getLsbD 0

/-- Whether the note is shown. -/
def showsNote (c : Columns) : Bool := c.bits.getLsbD 1

/-- The named columns that are wanted. -/
def ofFlags (raw note : Bool) : Columns :=
  (if raw then Columns.raw else empty).union (if note then Columns.note else empty)

/-- The bits without a name. -/
def unnamed (c : Columns) : BitVec 8 := c.bits &&& 0xFC

/-- A set of columns in text. -/
def text (c : Columns) : Text :=
  let raw := if c.showsRaw then ["RAW".toList] else []
  let note := if c.showsNote then ["ANNOTATION".toList] else []
  let rest := if c.unnamed = 0 then [] else ["0x".toList ++ Numeral.lowerHex c.unnamed.toNat]
  Text.join " | ".toList (raw ++ note ++ rest)

/-- The columns that one item of a text names: a name, or bits as a hexadecimal number. -/
def parseItem? (item : Text) : Option Columns :=
  match item with
  | '0' :: 'x' :: digits =>
    (Numeral.read 16 0x100 digits).toOption.map fun n => ⟨BitVec.ofNat 8 n⟩
  | _ =>
    if item = "RAW".toList then some raw
    else if item = "ANNOTATION".toList then some note
    else none

/-- The set of columns that a text names. A blank text names none. -/
def parse? (t : Text) : Option Columns :=
  let t := Text.trim t
  if t.isEmpty then some empty
  else do
    let items ← ((t.splitOn '|').map Text.trim).mapM parseItem?
    return items.foldl union empty

@[simp] theorem showsRaw_ofFlags (r a : Bool) : (ofFlags r a).showsRaw = r := by
  cases r <;> cases a <;> rfl

@[simp] theorem showsNote_ofFlags (r a : Bool) : (ofFlags r a).showsNote = a := by
  cases r <;> cases a <;> rfl

end Columns

end Disassembly

end Cvere
