import Cvere.Disassembly.Disassembler
import Cvere.Json.Parser
import Cvere.Json.Printer

/-!
# Labels, records and configurations in JSON

The form in which the assembler hands its labels to the disassembler, in which the disassembler
hands out its records, and in which a configuration is stored. Fields may come in any order, or as
an array in the order in which they are listed here.
-/

namespace Cvere

namespace Label

/-- A label as an object. -/
def toJson (l : Label) : Json :=
  .ofFields [("addr".toList, .ofNat l.address.toNat), ("name".toList, .ofText l.name)]

/-- The label in a value. -/
def ofJson? (j : Json) : Option Label := do
  match ← j.fields? ["addr".toList, "name".toList] with
  | [some address, some name] =>
    return { address := BitVec.ofNat 32 (← address.unsigned? Address.count), name := ← name.text? }
  | _ => none

/-- Labels as a text. -/
def listToText (labels : List Label) : Text :=
  (Json.array (labels.map toJson)).pretty

/-- The labels in a text. -/
def listOfText? (t : Text) : Option (List Label) := do
  (← (← Json.parse? t).items?).mapM ofJson?

end Label

namespace Disassembly

namespace Record

/-- A record as an object. The reserved word is left out when there is none. -/
def toJson (r : Record) : Json :=
  let reserved := r.reserved.toList.map fun w => ("reserved".toList, Json.ofNat w.toNat)
  .ofFields ([("address".toList, .ofNat r.address.toNat), ("raw".toList, .ofNat r.raw.toNat)] ++
    reserved ++
    [("mnemonic".toList, .ofText r.mnemonic), ("operands".toList, .ofText r.operands),
      ("annotation".toList, .ofText r.note)])

/-- The reserved word in a field, which may be missing or null. -/
def reservedOfJson? : Option Json → Option (Option Word)
  | none | some .null => some none
  | some j => (j.unsigned? Word.count).map fun n => some (BitVec.ofNat 16 n)

/-- The record in a value. -/
def ofJson? (j : Json) : Option Record := do
  let names :=
    ["address".toList, "raw".toList, "reserved".toList, "mnemonic".toList, "operands".toList,
      "annotation".toList]
  match ← j.fields? names with
  | [some address, some raw, reserved, some mnemonic, some operands, some note] =>
    return {
      address := BitVec.ofNat 32 (← address.unsigned? Address.count)
      raw := BitVec.ofNat 16 (← raw.unsigned? Word.count)
      reserved := ← reservedOfJson? reserved
      mnemonic := ← mnemonic.text?
      operands := ← operands.text?
      note := ← note.text? }
  | _ => none

/-- Records as a text. -/
def listToText (records : List Record) : Text :=
  (Json.array (records.map toJson)).pretty

end Record

namespace Config

/-- The configuration in a value. -/
def ofJson? (j : Json) : Option Config := do
  match ← j.fields? ["columns".toList, "word_stride".toList] with
  | [some columns, some wordStride] =>
    return { columns := ← Columns.parse? (← columns.text?), wordStride := ← wordStride.bool? }
  | _ => none

/-- The configuration in a text. -/
def ofText? (t : Text) : Option Config :=
  (Json.parse? t).bind ofJson?

end Config

end Disassembly

end Cvere
