import Cvere.Proofs.Diagnosis
import Cvere.Proofs.Relisting

/-!
# Plain listings are source text

A listing without names and without its raw column can be assembled. Each of its lines is the
source line of a record with more around it: the address and a colon in front, blanks up to the
column of the operands, and the note behind a semicolon. The address is then read as a label, the
note as a comment, and the blanks are dropped.

**The labels.** The symbols of a listing are hexadecimal numbers of at least four digits, and an
operand that can be a label is a number with the mark `0x`. Neither is ever the other
(`get?_listing_number`), so the labels change nothing (`assemble_congr`).

**Main result.** `assemble_listing`: a listing assembles like the source lines of its records, with
the same words or the same error on the same line.
-/

namespace Cvere

open Disassembly

/-- A target is shown as a number. -/
theorem Word.exists_number_of_target {op : Op} {address : Address} {w : Word} {i : Nat}
    {token : Text} (hkind : op.operandKinds[i]? = some .target)
    (htoken : (w.tokens op address)[i]? = some token) :
    ∃ digits, token = "0x".toList ++ digits := by
  cases hf : op.family with
  | jump =>
    simp only [tokens, hf] at htoken
    cases i with
    | zero => exact ⟨_, (Option.some.inj htoken).symm⟩
    | succ i => cases htoken
  | branch =>
    simp only [Op.operandKinds, hf] at hkind
    simp only [tokens, hf] at htoken
    rcases i with _ | _ | i
    · cases hkind
    · exact ⟨_, (Option.some.inj htoken).symm⟩
    · cases htoken
  | _ =>
    have hnot : .target ∉ op.operandKinds :=
      Op.target_not_mem_operandKinds (by simp [hf]) (by simp [hf])
    exact absurd (List.mem_of_getElem? hkind) hnot

namespace Disassembly

/-! ## One record -/

theorem Disassembler.newline_not_mem_note {d : Disassembler} {start : Address} {words : List Word}
    {r : Record} (h : r ∈ d.records start words) : '\n' ∉ r.note := by
  obtain ⟨address, raw, reserved, rfl, -⟩ := exists_record_of_mem h
  unfold record
  cases d.decoder raw with
  | some decoded => exact decoded.newline_not_mem_note address
  | none => simp [Numeral.newline_not_mem_hex]

namespace Record.Reads

variable {r : Record} {columns : Columns} (h : r.Reads) (hraw : columns.showsRaw = false)
include h

theorem operands_eq : r.operands = commaList r.command.operands := by
  unfold command
  cases h with
  | known d hd hm hops => rw [hm, hops, Op.ofMnemonic?_mnemonic]
  | unknown hd hm hops =>
    rw [hm, hops]
    rfl

theorem isLine_render (hnote : '\n' ∉ r.note) : (r.render columns).IsLine := by
  refine Record.isLine_render ?_ hnote
  exact Record.not_mem_assemblyText_of_ends h.isToken_mnemonic.1
    (fun o ho => (r.isToken_command o ho).isOperand) h.operands_eq (.inr rfl)

include hraw

/-- The line of a record in a listing reads as its command, with its address as the label. -/
theorem parse_render : Statement.parse (r.render columns) =
    ⟨some (Numeral.hex 4 r.address.toNat), some r.command⟩ := by
  obtain ⟨htoken, hupper⟩ := h.isToken_mnemonic
  have hops : ∀ o ∈ r.command.operands, Text.IsOperand o :=
    fun o ho => (r.isToken_command o ho).isOperand
  have hshown := h.operands_eq
  cases h with
  | known d hd hm =>
    have hwidth : r.mnemonic.length < 6 := hm ▸ d.op.length_mnemonic
    rw [Record.parse_render htoken hwidth hops hshown hraw, hupper]
    rfl
  | unknown hd hm hnone =>
    -- This mnemonic is longer than its column, and no blank follows it.
    have htext : r.assemblyText = "UNKNOWN_0".toList := by
      unfold assemblyText
      rw [hm, hnone]
      rfl
    have hbody : ';' ∉ [' ', ' '] ++ r.assemblyText := by
      rw [htext]
      decide
    rw [Statement.parse_congr (code_render hraw),
      Statement.parse_labelled (Numeral.isToken_hexDigits 4 _).isLabel hbody, htext, command, hm]
    rfl

end Record.Reads

end Disassembly

/-! ## The program of a listing -/

namespace Assembly

namespace Program

theorem instructionsFrom_unlabelled (ss : List Statement) (line offset : Nat) :
    instructionsFrom line offset (ss.map fun s => { s with label := none }) =
      (instructionsFrom line offset ss).map fun ins => { ins with label := none } := by
  induction ss generalizing line offset with
  | nil => rfl
  | cons s ss ih =>
    rw [List.map_cons, instructionsFrom, instructionsFrom]
    cases s.command with
    | none => exact ih _ _
    | some c => exact congrArg _ (ih _ _)

/-- The statements of a listing. -/
def listed (recs : List Record) : List Statement :=
  recs.map fun r => ⟨some (Numeral.hex 4 r.address.toNat), some r.command⟩

theorem statements_listing {recs : List Record} {columns : Columns}
    (hraw : columns.showsRaw = false) (hreads : ∀ r ∈ recs, r.Reads)
    (hnotes : ∀ r ∈ recs, '\n' ∉ r.note) :
    statements (listing columns recs) = listed recs := by
  have hlines : Text.lines (listing columns recs) = recs.map (·.render columns) := by
    apply Text.lines_unlines
    intro l hl
    obtain ⟨r, hr, rfl⟩ := List.mem_map.mp hl
    exact (hreads r hr).isLine_render (hnotes r hr)
  rw [statements, hlines, List.map_map, listed]
  apply List.map_congr_left
  intro r hr
  rw [Function.comp_apply, (hreads r hr).parse_render hraw]

theorem exists_hex_of_mem_definitions {recs : List Record} {offset : Nat} {d : Text × Address}
    (h : d ∈ definitionsFrom offset (listed recs)) : ∃ n, d.1 = Numeral.hex 4 n := by
  induction recs generalizing offset with
  | nil => cases h
  | cons r recs ih =>
    rcases List.mem_cons.mp h with rfl | h
    · exact ⟨_, rfl⟩
    · exact ih h

/-- No number is the label of a listing. -/
theorem get?_listing_number (recs : List Record) (digits : Text) :
    (ofStatements (listed recs)).symbols.get? ("0x".toList ++ digits) = none := by
  rw [Option.eq_none_iff_forall_ne_some]
  intro a ha
  obtain ⟨n, hn⟩ := exists_hex_of_mem_definitions (Bindings.mem_of_get?_insertAll ha)
  exact Numeral.marked_ne_hex digits 4 n hn

theorem assemble_listed {recs : List Record} {ins : Instruction}
    (h : ins ∈ (ofStatements (listed recs)).instructions) :
    ins.assemble (ofStatements (listed recs)).symbols = ins.assemble Bindings.empty := by
  obtain ⟨i, s, -, hs, hc⟩ := exists_line_of_mem h
  obtain ⟨r, -, rfl⟩ := List.mem_map.mp (List.mem_of_getElem? hs)
  have hcommand : r.command = ins.toCommand := Option.some.inj hc
  apply Instruction.assemble_congr
  intro op i token hop hkind htoken
  rw [← hcommand] at hop htoken
  change Op.ofMnemonic? r.mnemonic = some op at hop
  simp only [Record.command, hop] at htoken
  obtain ⟨digits, rfl⟩ := Word.exists_number_of_target hkind htoken
  rw [get?_listing_number, Bindings.get?_empty]

/-- Without their labels, the statements of a listing are those of the source lines. -/
theorem encode_listed (recs : List Record) :
    (ofStatements (listed recs)).encode =
      (ofStatements (recs.map fun r => ⟨none, some r.command⟩)).encode := by
  have hbare : (recs.map fun r => ⟨none, some r.command⟩) =
      (listed recs).map fun s => { s with label := none } := by
    rw [listed, List.map_map]
    rfl
  have hnone : (ofStatements (recs.map fun r => ⟨none, some r.command⟩)).symbols =
      Bindings.empty := by
    rw [ofStatements, definitionsFrom_commands]
    rfl
  have hblocks : (ofStatements (listed recs)).instructions.mapM
        (Instruction.assemble · (ofStatements (listed recs)).symbols) =
      (ofStatements (recs.map fun r => ⟨none, some r.command⟩)).instructions.mapM
        (Instruction.assemble · Bindings.empty) := by
    rw [mapM_congr_left fun ins hins => assemble_listed hins, hbare]
    simp only [ofStatements, instructionsFrom_unlabelled, List.mapM_map]
    rfl
  unfold encode
  rw [hblocks, hnone]

end Program

/-- **Plain listings.** Whatever words are disassembled from whatever address, with reserved words
folded or not, a listing without names and without the raw column assembles like the source lines
of its records: to the same words, or with the same error on the same line. -/
theorem assemble_listing (start : Address) (words : List Word) (config : Config)
    (columns : Columns) (hraw : columns.showsRaw = false) :
    let recs := { Disassembler.standard with config }.records start words
    assemble (listing columns recs) = assemble (sourceText recs) := by
  intro recs
  have hreads : ∀ r ∈ recs, r.Reads := fun r hr => Disassembler.reads_of_mem_records rfl rfl hr
  have hnotes : ∀ r ∈ recs, '\n' ∉ r.note := fun r hr => Disassembler.newline_not_mem_note hr
  unfold assemble Program.ofSource
  rw [Program.statements_listing hraw hreads hnotes, Program.statements_sourceText hreads,
    Program.encode_listed]

/-- Jumps and branches to addresses that are labels of the listing, around the end of the four-digit
addresses, with the reserved word of a call on a line of its own and an unknown word at the end. The
columns have a bit that means nothing. -/
theorem assemble_listing_unknown :
    let config : Config := { columns := .all, wordStride := true }
    let recs := { Disassembler.standard with config }.records 0xFFFC
      [0xD004, 0xE1FE, 0xFA12, 0x0000, 0x0123]
    let columns : Columns := ⟨0x42⟩
    columns.showsRaw = false ∧
      assemble (listing columns recs) = .error ⟨5, .unknownMnemonic "UNKNOWN_0".toList⟩ := by
  intro config recs columns
  have hraw : columns.showsRaw = false := by decide
  have hsource : assemble (sourceText recs) = .error ⟨5, .unknownMnemonic "UNKNOWN_0".toList⟩ := by
    decide
  exact ⟨hraw, (assemble_listing 0xFFFC _ config columns hraw).trans hsource⟩

end Assembly

end Cvere
