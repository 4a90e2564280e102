import Cvere.Label
import Cvere.Numeral
import Cvere.Text.Blank

/-!
# Labels on the command line

A label can be given as `ADDR=NAME`, with the address in decimal or marked as hexadecimal. A
missing equals sign is noticed first, then a missing name, and the address last.
-/

namespace Cvere

/-- Read an address in decimal or, after `0x`, in hexadecimal, with blanks around it allowed. -/
def readAddress (t : Text) : Except Numeral.Error Address :=
  let t := Text.trim t
  let number := match Numeral.hexMarked? t with
    | some digits => Numeral.read 16 Address.count digits
    | none => Numeral.read 10 Address.count t
  number.map (BitVec.ofNat 32)

namespace Label

/-- Why a label argument is refused. -/
inductive ArgumentError where
  /-- There is no equals sign. -/
  | missingEquals
  /-- There is no name after the equals sign of the argument. -/
  | emptyName (argument : Text)
  /-- What stands before the equals sign is no address. -/
  | badAddress (cause : Numeral.Error)
  deriving DecidableEq, Repr

/-- The wording of a refusal. -/
def ArgumentError.message : ArgumentError → Text
  | .missingEquals => "expected ADDR=NAME".toList
  | .emptyName argument => "empty label name in `".toList ++ argument ++ "`".toList
  | .badAddress cause => cause.message

/-- The label that an argument gives. The first equals sign divides it, so a name may hold more. -/
def ofArgument (argument : Text) : Except ArgumentError Label :=
  match Text.cut? (· == '=') argument with
  | none => .error .missingEquals
  | some (address, name) =>
    if (Text.trim name).isEmpty then .error (.emptyName argument)
    else match readAddress address with
      | .error cause => .error (.badAddress cause)
      | .ok a => .ok { address := a, name := Text.trim name }

end Label

end Cvere
