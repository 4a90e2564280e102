import Cvere.Numeral
import Cvere.Text.Blank
import Cvere.Text.Upper

/-!
# Registers

A register operand is a special name, or the letter `R` and a number. One digit after the `R` is
read as hexadecimal, a number marked `0x` too, and a longer one as decimal, so that `RA` and `R10`
are the same register. The sixteen general registers fit a four-bit field; the four special ones
are numbered after them.

**Main results.** `parse?_name`: the name of a general or special register reads back as its
number.
-/

namespace Cvere

namespace Register

/-- The special registers and their numbers. -/
def special : List (Text × Nat) :=
  [("PC".toList, 16), ("SP".toList, 17), ("LR".toList, 18), ("SR".toList, 19)]

/-- Register numbers are read below this bound. -/
abbrev bound : Nat := 0x100000000

/-- The number after the `R`. -/
def number? : Text → Option Nat
  | '0' :: 'X' :: digits => (Numeral.read 16 bound digits).toOption
  | digits =>
    if digits.length ≤ 1 then (Numeral.read 16 bound digits).toOption
    else (Numeral.read 10 bound digits).toOption

/-- The number of a register in upper-case spelling. -/
def ofUpper? (t : Text) : Option Nat :=
  match special.lookup t, t with
  | some n, _ => some n
  | none, 'R' :: digits => number? digits
  | none, _ => none

/-- The number of the register that an operand names, in either case and with blanks around it. -/
def parse? (token : Text) : Option Nat :=
  ofUpper? (Text.upper (Text.trim token))

/-- How listings show a register number. -/
def name (n : BitVec 8) : Text :=
  if n.toNat ≤ 15 then 'R' :: Numeral.hex 1 n.toNat
  else if n = 16 then "PC".toList
  else if n = 17 then "SP".toList
  else if n = 18 then "LR".toList
  else if n = 19 then "SR".toList
  else "R?".toList ++ Numeral.decimal n.toNat

/-- The name of a general or special register reads back as its number. -/
theorem parse?_name {n : BitVec 8} (h : n.toNat < 20) : parse? (name n) = some n.toNat := by
  have hall : ∀ k < 20, parse? (name (BitVec.ofNat 8 k)) = some k := by decide
  simpa using hall n.toNat h

end Register

end Cvere
