import Cvere.Disassembly.Operands
import Cvere.Disassembly.Record
import Cvere.Event
import Cvere.Image

/-!
# The disassembler

A disassembler reads words with a decoder of its choice and never fails: a word that belongs to no
instruction becomes an unknown record. The word after an extended instruction is reserved and
belongs to its record, unless one record for each word is asked for.

**Main results.** `exists_record_of_mem`: a record shows one word, and the word behind it only where
that is reserved. `flatMap_words_records`: the records hold the words they were made from, in order,
each exactly once.
-/

namespace Cvere

namespace Disassembly

/-- How a disassembler works and what its listings show. -/
structure Config where
  columns : Columns
  /-- One record for each word, reserved or not. -/
  wordStride : Bool
  deriving DecidableEq, Repr

/-- All columns, and reserved words folded into their records. -/
def Config.default : Config where
  columns := .all
  wordStride := false

/-- A decoder, the names of addresses, and a configuration. -/
structure Disassembler where
  decoder : Decoder
  names : Names
  config : Config

namespace Disassembler

/-! ## Setting up -/

/-- A disassembler without names in the default configuration. -/
def ofDecoder (decoder : Decoder) : Disassembler where
  decoder := decoder
  names := Bindings.empty
  config := .default

/-- The disassembler of the instruction set. -/
def standard : Disassembler :=
  ofDecoder decode

/-- Name an address. A later name replaces an earlier one. -/
def addLabel (d : Disassembler) (address : Address) (name : Text) : Disassembler :=
  { d with names := d.names.insert address name }

/-- Name addresses from left to right. -/
def extendLabels (d : Disassembler) (labels : List Label) : Disassembler :=
  { d with names := d.names.extend labels }

/-- Choose the columns of listings. -/
def setColumns (d : Disassembler) (columns : Columns) : Disassembler :=
  { d with config := { d.config with columns } }

/-- Choose one record for each word, or folded reserved words. -/
def setWordStride (d : Disassembler) (wordStride : Bool) : Disassembler :=
  { d with config := { d.config with wordStride } }

/-! ## Records -/

/-- The record of a single word at an address. -/
def record (d : Disassembler) (address : Address) (raw : Word) : Record :=
  match d.decoder raw with
  | some decoded =>
    { address, raw, reserved := none, mnemonic := decoded.mnemonic,
      operands := decoded.operandText address d.names,
      note := decoded.note address }
  | none =>
    let nibble := Numeral.hex 1 raw.top.toNat
    { address, raw, reserved := none, mnemonic := "UNKNOWN_".toList ++ nibble, operands := [],
      note := "Unknown opcode: 0x".toList ++ nibble }

/-- Whether the word after this one is reserved for it. -/
def takesReserved (d : Disassembler) (raw : Word) : Bool :=
  !d.config.wordStride && (d.decoder raw).any (·.family = .extended)

/-- The records of words from an address on. -/
def records (d : Disassembler) (address : Address) : List Word → List Record
  | [] => []
  | [raw] => [d.record address raw]
  | raw :: next :: rest =>
    if d.takesReserved raw then
      { d.record address raw with reserved := some next } :: d.records (address + 4) rest
    else d.record address raw :: d.records (address + 2) (next :: rest)

/-- The records of bytes from an address on. -/
def recordsOfBytes (d : Disassembler) (address : Address) (bytes : List UInt8) : List Record :=
  d.records address (Image.ofBytes bytes)

/-- The listing of words from an address on. -/
def listing (d : Disassembler) (address : Address) (words : List Word) : Text :=
  Disassembly.listing d.config.columns (d.records address words)

/-- A listing in which a line with the name stands before each record whose address has one. -/
def labelledListing (d : Disassembler) (address : Address) (words : List Word) : Text :=
  Text.unlines ((d.records address words).flatMap fun r =>
    ((d.names.get? r.address).toList.map (· ++ [':'])) ++ [r.render d.config.columns])

/-- What is reported about a disassembly. -/
def events (d : Disassembler) (address : Address) (words : List Word) : List Event :=
  [.disassembled words.length (d.records address words).length address]

/-! ## One word -/

theorem record_of_decoder {d : Disassembler} {raw : Word} {decoded : Decoded}
    (h : d.decoder raw = some decoded) (address : Address) :
    d.record address raw =
      { address, raw, reserved := none, mnemonic := decoded.mnemonic,
        operands := decoded.operandText address d.names, note := decoded.note address } := by
  unfold record
  rw [h]

@[simp] theorem raw_record (d : Disassembler) (address : Address) (raw : Word) :
    (d.record address raw).raw = raw := by
  unfold record
  split <;> rfl

@[simp] theorem reserved_record (d : Disassembler) (address : Address) (raw : Word) :
    (d.record address raw).reserved = none := by
  unfold record
  split <;> rfl

theorem address_record (d : Disassembler) (address : Address) (raw : Word) :
    (d.record address raw).address = address := by
  unfold record
  split <;> rfl

theorem record_without_reserved (d : Disassembler) (address : Address) (raw : Word) :
    { d.record address raw with reserved := none } = d.record address raw := by
  rw [← d.reserved_record address raw]

/-! ## Nothing is lost -/

/-- A record is that of a single word, with a second word only where one is reserved. -/
theorem exists_record_of_mem {d : Disassembler} {start : Address} {words : List Word} {r : Record}
    (h : r ∈ d.records start words) :
    ∃ address raw reserved, r = { d.record address raw with reserved } ∧
      (reserved ≠ none → d.takesReserved raw = true) := by
  have halone : ∀ address raw, ∃ address' raw' reserved,
      d.record address raw = { d.record address' raw' with reserved } ∧
        (reserved ≠ none → d.takesReserved raw' = true) :=
    fun address raw => ⟨address, raw, none, (d.record_without_reserved address raw).symm,
      fun hne => absurd rfl hne⟩
  fun_induction records d start words with
  | case1 => cases h
  | case2 address raw =>
    rw [List.mem_singleton.mp h]
    exact halone address raw
  | case3 address raw next rest htakes ih =>
    rcases List.mem_cons.mp h with rfl | h
    · exact ⟨address, raw, some next, rfl, fun _ => htakes⟩
    · exact ih h
  | case4 address raw next rest _ ih =>
    rcases List.mem_cons.mp h with rfl | h
    · exact halone address raw
    · exact ih h

/-- The first record is at the start. -/
theorem address_of_head (d : Disassembler) {start : Address} {words : List Word} {r : Record}
    (h : (d.records start words)[0]? = some r) : r.address = start := by
  fun_induction records d start words with
  | case1 => cases h
  | case2 address raw | case3 address raw | case4 address raw =>
    cases h
    exact d.address_record address raw

/-- The records hold the words they were made from. -/
theorem flatMap_words_records (d : Disassembler) (address : Address) (words : List Word) :
    (d.records address words).flatMap Record.words = words := by
  fun_induction records d address words with
  | case1 => rfl
  | case2 => simp [Record.words]
  | case3 address raw next rest h ih => simpa [Record.words] using ih
  | case4 address raw next rest h ih => simpa [Record.words] using ih

end Disassembler

end Disassembly

end Cvere
