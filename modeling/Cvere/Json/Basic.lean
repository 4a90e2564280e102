import Cvere.Numeral

/-!
# JSON values

A value keeps what its reader may want to judge: numbers are kept as they are written, and objects
keep their members in order, repeated keys included.

A string may hold an escaped surrogate that has no partner. No text can hold such a thing, so a
string is the text it stands for, or nothing.

**Main results.** Readers of values of one kind: `text?`, `bool?`, `unsigned?`, and `fields?` for
records with known fields.
-/

namespace Cvere

/-- A JSON value. -/
inductive Json where
  | null
  | bool (value : Bool)
  /-- A number as it is written. -/
  | number (literal : Text)
  /-- A string, or `none` for one with a surrogate that has no partner. -/
  | string (value : Option Text)
  | array (items : List Json)
  /-- Members in order; a key may occur more than once. -/
  | object (members : List (Option Text × Json))
  deriving Inhabited

namespace Json

/-! ## Building values -/

/-- A text as a value. -/
def ofText (t : Text) : Json :=
  string (some t)

/-- A natural number as a value. -/
def ofNat (n : Nat) : Json :=
  number (Numeral.decimal n)

/-- An object with the given members. -/
def ofFields (fields : List (Text × Json)) : Json :=
  object (fields.map fun f => (some f.1, f.2))

/-! ## Reading values -/

/-- The text of a string. -/
def text? : Json → Option Text
  | string value => value
  | _ => none

/-- A truth value. -/
def bool? : Json → Option Bool
  | bool value => some value
  | _ => none

/-- The items of an array. -/
def items? : Json → Option (List Json)
  | array items => some items
  | _ => none

/-- A natural number below `bound`, written with digits alone. -/
def unsigned? (bound : Nat) : Json → Option Nat
  | number literal => (Numeral.natural? 10 literal).filter (· < bound)
  | _ => none

/-- The values under a key. -/
def valuesOf (members : List (Option Text × Json)) (key : Text) : List Json :=
  (members.filter fun m => m.1 = some key).map Prod.snd

/-- The values of named fields, in the order of the names. An object may lack fields and may have
others, but each field has one value at most, and every key is a text. An array gives the values
in order and has as many items as there are names. -/
def fields? (names : List Text) : Json → Option (List (Option Json))
  | object members =>
    if members.all (·.1.isSome) && names.all fun n => (valuesOf members n).length ≤ 1 then
      some (names.map fun n => (valuesOf members n).head?)
    else none
  | array items => if items.length = names.length then some (items.map some) else none
  | _ => none

end Json

end Cvere
