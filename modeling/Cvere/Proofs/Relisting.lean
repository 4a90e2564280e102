import Cvere.Proofs.Binding
import Cvere.Proofs.Reassembly
import Cvere.Proofs.Rendering
import Cvere.Proofs.Targets
import Cvere.Tool.Disassembler

/-!
# Symbolic listings are source text

A listing with names shows a name on a line before the record it belongs to, and jumps and branches
by the names of their targets. Without its raw column it can be assembled again. Its lines are then
read as labels and labelled instructions: each address becomes a label of its own, and each name is
bound again to the address of the record behind it.

**The text** (`Instruction.relisted`). What an instruction of the source becomes in the listing: a
label where its address has a name, and an instruction with the operands that are shown. The listing
is read as these statements, one instruction after another (`statements_labelledListing`).

**The layout.** Labels take no space and an instruction keeps its mnemonic, so every instruction has
its old address (`forall₂_relisted`). Hence the new symbols bind each name that is shown to the
address it was shown for (`get?_relisting_name`), if that is the address of an instruction at all.
Neither an address nor a number is taken for a name, because names do not begin with an upper-case
letter or a digit.

**The words.** An operand that is shown is read back as the field that it was shown for. For a
branch this is the point where its target has to be a label: the distance to a label is taken again
from the address of the branch (`displacement_branchTarget`), and a number would be taken as the
distance itself.

**Main result.** `assemble_outputText`: the listing of an assembled source text assembles to the
same words.
-/

namespace Cvere

open Disassembly

/-! ## What names have to look like -/

/-- The name begins with a lower-case letter, an underscore or a point, and has no comma. -/
def Text.IsPlainName (name : Text) : Prop :=
  (name.head?.any fun c => c.isLower || c == '_' || c == '.') = true ∧ ',' ∉ name

instance (name : Text) : Decidable name.IsPlainName :=
  inferInstanceAs (Decidable (_ ∧ _))

/-- Some name is bound to the address. -/
def Symbols.IsLabelled (s : Symbols) (a : Address) : Prop :=
  ∃ name ∈ s.keys, s.get? name = some a

instance (s : Symbols) (a : Address) : Decidable (s.IsLabelled a) :=
  List.decidableBEx _ s.keys

namespace Text.IsPlainName

variable {name : Text} (h : name.IsPlainName)
include h

theorem exists_head :
    ∃ c, name.head? = some c ∧ (c.isLower = true ∨ c = '_' ∨ c = '.') := by
  obtain ⟨c, hc, hplain⟩ := (Option.any_eq_true _ _).mp h.1
  refine ⟨c, hc, ?_⟩
  simpa [or_assoc] using hplain

/-- A plain name is no address of a listing. -/
theorem ne_hex (width n : Nat) : name ≠ Numeral.hex width n := by
  rintro rfl
  obtain ⟨c, hc, hplain⟩ := h.exists_head
  obtain ⟨⟨d, hd⟩, hlower⟩ := Numeral.hexDigit_of_mem_hex (List.mem_of_mem_head? hc)
  rcases hplain with hplain | rfl | rfl
  · rw [hplain] at hlower
    cases hlower
  · exact absurd hd (by simp [Numeral.hexDigit?])
  · exact absurd hd (by simp [Numeral.hexDigit?])

/-- A plain name is no number of a listing. -/
theorem ne_marked (digits : Text) : name ≠ "0x".toList ++ digits := by
  rintro rfl
  obtain ⟨c, hc, hplain⟩ := h.exists_head
  obtain rfl : '0' = c := by simpa using hc
  exact absurd hplain (by decide)

end Text.IsPlainName

/-- A number of a listing is no address of a listing. -/
theorem Numeral.marked_ne_hex (digits : Text) (width n : Nat) :
    "0x".toList ++ digits ≠ hex width n := by
  intro h
  have hx : 'x' ∈ hex width n := by
    rw [← h]
    simp
  obtain ⟨d, hd⟩ := (hexDigit_of_mem_hex hx).1
  exact absurd hd (by simp [hexDigit?])

/-! ## Bindings without a repeated key -/

theorem Bindings.get?_insertAll_of_unique {κ ν : Type} [DecidableEq κ] {ps : List (κ × ν)} {k : κ}
    {v : ν} (hmem : (k, v) ∈ ps) (hunique : ∀ w, (k, w) ∈ ps → w = v) :
    (empty.insertAll ps).get? k = some v := by
  have hsome : ((empty.insertAll ps).get? k).isSome := by
    rw [get?_insertAll, get?_empty, Option.or_none, List.lookup_isSome_iff]
    exact ⟨(k, v), List.mem_reverse.mpr hmem, beq_self_eq_true k⟩
  obtain ⟨w, hw⟩ := Option.isSome_iff_exists.mp hsome
  rw [hw, hunique w (mem_of_get?_insertAll hw)]

namespace Assembly

/-! ## Lists that correspond -/

theorem exists_of_mem_left {α β : Type} {R : α → β → Prop} {as : List α} {bs : List β}
    (h : List.Forall₂ R as bs) {a : α} (ha : a ∈ as) : ∃ b ∈ bs, R a b := by
  induction h with
  | nil => cases ha
  | cons hab _ ih =>
    rcases List.mem_cons.mp ha with rfl | ha
    · exact ⟨_, List.mem_cons_self, hab⟩
    · obtain ⟨b, hb, hR⟩ := ih ha
      exact ⟨b, List.mem_cons_of_mem _ hb, hR⟩

/-- Lists that correspond give the same results. -/
theorem mapM_eq_of_forall₂ {ε α β γ : Type} {R : α → β → Prop} {f : α → Except ε γ}
    {g : β → Except ε γ} {as : List α} {bs : List β} (h : List.Forall₂ R as bs)
    (hfg : ∀ a ∈ as, ∀ b, R a b → g b = f a) : bs.mapM g = as.mapM f := by
  induction h with
  | nil => rfl
  | cons hab _ ih =>
    rw [List.forall_mem_cons] at hfg
    rw [List.mapM_cons, List.mapM_cons, hfg.1 _ hab, ih hfg.2]

/-! ## Operands one by one -/

namespace Operands

/-- The operands that a listing shows for an instruction at an address, one by one. -/
def shown (names : Names) (address : Address) (op : Op) (o : Operands) : List Text :=
  let register (n : Nibble) := Register.name (n.setWidth 8)
  let number (width : Nat) := "0x".toList ++ Numeral.hex width (o.decoded op).imm.toNat
  match op.family with
  | .register =>
    if op.isUnary then [register o.rd, register o.rs]
    else [register o.rd, register o.rs, register o.rt]
  | .immediate => [register o.rd, number 2]
  | .memory => [register o.rd, register o.rs, number 1]
  | .jump => [targetText names 3 ((o.decoded op).imm.setWidth 32)]
  | .branch =>
    [register o.rd, targetText names 4 (branchTarget address (o.decoded op).displacement)]
  | .extended | .special => []

variable {names : Names} {address : Address} {op : Op} {o : Operands}

theorem operandText_eq_commaList :
    (o.decoded op).operandText address names = commaList (o.shown names address op) := by
  have hfamily : (o.decoded op).family = op.family := rfl
  have hop : (o.decoded op).op = op := rfl
  unfold Decoded.operandText shown
  rw [hfamily, hop]
  cases op.family with
  | register => cases op.isUnary <;> rfl
  | jump => rw [commaList_singleton]
  | _ => rfl

theorem isOperand_targetText (hnames : ∀ a name, names.get? a = some name → name.IsOperand)
    (digits : Nat) (target : Address) : (targetText names digits target).IsOperand := by
  unfold targetText
  cases h : names.get? target with
  | none => exact (Numeral.isToken_hex digits _).isOperand
  | some name => exact hnames target name h

theorem isOperand_shown (hnames : ∀ a name, names.get? a = some name → name.IsOperand) :
    ∀ t ∈ o.shown names address op, Text.IsOperand t := by
  have hregister := fun n => (Register.isToken_name n).isOperand
  have hnumber := fun width n => (Numeral.isToken_hex width n).isOperand
  have htarget := isOperand_targetText hnames
  unfold shown
  cases op.family with
  | register => cases op.isUnary <;> simp [hregister]
  | immediate | memory | jump | branch =>
    simp only [List.forall_mem_cons, hregister, hnumber, htarget, true_and]
    exact List.forall_mem_nil _
  | extended | special => exact List.forall_mem_nil _

/-! ## Operands read back -/

/-- The number field holds the low bits of the number. -/
theorem setWidth_imm {w : Nat} (hspan : op.family.span = 1 <<< w) :
    (o.decoded op).imm.setWidth w = BitVec.ofInt w o.number := by
  rw [Nat.one_shiftLeft] at hspan
  have hlt := Int.emod_lt_of_pos o.number (Int.natCast_pos.mpr (Nat.two_pow_pos w))
  apply BitVec.eq_of_toNat_eq
  rw [BitVec.toNat_setWidth, BitVec.toNat_ofInt, toNat_imm, hspan, Nat.mod_eq_of_lt (by omega)]

/-- The distance of a branch is read back from the address that it leads to. -/
theorem displacement_branchTarget (hb : op.family = .branch) :
    (Target.label (branchTarget address (o.decoded op).displacement)).displacement address =
      BitVec.ofInt 8 o.number := by
  have htarget := toNat_branchTarget address (o.decoded op).displacement
  rw [toInt_displacement hb] at htarget
  have hmod : o.number.bmod 0x100 % 0x100 = o.number % 0x100 := Int.bmod_emod
  apply BitVec.eq_of_toNat_eq
  rw [Target.displacement, BitVec.toNat_ofInt, BitVec.toNat_ofInt, htarget]
  generalize o.number.bmod 0x100 = b at *
  omega

end Operands

namespace Instruction

variable {ins : Instruction} {symbols : Symbols} {names : Names} {op : Op} {o : Operands}

/-- A target that is shown by a number is read back as that number. -/
theorem target_of_number {i digits : Nat} {target : Address}
    (hnumbers : ∀ t, symbols.get? ("0x".toList ++ t) = none) (hname : names.get? target = none)
    (h : ins.operands[i]? = some (targetText names digits target)) :
    ins.target symbols i = .ok (.literal (BitVec.ofNat 64 target.toNat)) := by
  rw [targetText, hname, Option.getD_none] at h
  simp only [Instruction.target, operand, h, bind, Except.bind, hnumbers, Literal.parse?_hex]

/-- The operands that are shown for an instruction encode to its words, if names that are shown are
bound to the addresses they are shown for, numbers are no names, and branches are shown by name. -/
theorem encode_shown (hfits : o.Fits op) (hops : ins.operands = o.shown names ins.address op)
    (hnumbers : ∀ t, symbols.get? ("0x".toList ++ t) = none)
    (hnames : ∀ target name, (o.decoded op).target? ins.address = some target →
      names.get? target = some name → symbols.get? name = some target)
    (hbranch : op.family = .branch →
      ∃ name, names.get? (branchTarget ins.address (o.decoded op).displacement) = some name) :
    ins.encode op symbols = .ok (o.words op) := by
  have hfamily : (o.decoded op).family = op.family := rfl
  unfold Operands.shown at hops
  unfold Decoded.target? at hnames
  unfold encode Operands.words Operands.word
  rw [hfamily] at hnames
  cases hf : op.family with
  | register =>
    rw [hf] at hops
    cases hu : op.isUnary with
    | true =>
      have hrd : ins.register 0 = .ok o.rd := register_of_name (by rw [hops, hu]; rfl)
      have hrs : ins.register 1 = .ok o.rs := register_of_name (by rw [hops, hu]; rfl)
      have hrt : o.rt = 0 := by
        rw [Operands.Fits, hf] at hfits
        exact hfits.2 hu
      simp [hrd, hrs, hrt, bind, Except.bind, pure, Except.pure]
    | false =>
      have hrd : ins.register 0 = .ok o.rd := register_of_name (by rw [hops, hu]; rfl)
      have hrs : ins.register 1 = .ok o.rs := register_of_name (by rw [hops, hu]; rfl)
      have hrt : ins.register 2 = .ok o.rt := register_of_name (by rw [hops, hu]; rfl)
      simp [hrd, hrs, hrt, bind, Except.bind, pure, Except.pure]
  | immediate =>
    rw [hf] at hops
    have hrd : ins.register 0 = .ok o.rd := register_of_name (by rw [hops]; rfl)
    have himm : ins.immediate 1 = .ok (BitVec.ofNat 64 (o.decoded op).imm.toNat) :=
      immediate_of_hex (by rw [hops]; rfl)
    have hfield := @Operands.setWidth_imm op o 8 (by rw [hf]; rfl)
    simp [hrd, himm, ← hfield, bind, Except.bind, pure, Except.pure]
  | memory =>
    rw [hf] at hops
    have hrd : ins.register 0 = .ok o.rd := register_of_name (by rw [hops]; rfl)
    have hrs : ins.register 1 = .ok o.rs := register_of_name (by rw [hops]; rfl)
    have himm : ins.immediate 2 = .ok (BitVec.ofNat 64 (o.decoded op).imm.toNat) :=
      immediate_of_hex (by rw [hops]; rfl)
    have hfield := @Operands.setWidth_imm op o 4 (by rw [hf]; rfl)
    simp [hrd, hrs, himm, ← hfield, bind, Except.bind, pure, Except.pure]
  | jump =>
    rw [hf] at hops hnames
    have hfield := @Operands.setWidth_imm op o 12 (by rw [hf]; rfl)
    have hshown : ins.operands[0]? =
        some (targetText names 3 ((o.decoded op).imm.setWidth 32)) := by
      rw [hops]
      rfl
    cases hname : names.get? ((o.decoded op).imm.setWidth 32) with
    | none =>
      have ht := target_of_number hnumbers hname hshown
      rw [BitVec.toNat_setWidth_of_le (by decide)] at ht
      simp [ht, ← hfield, Target.absolute, bind, Except.bind, pure, Except.pure]
    | some name =>
      rw [targetText, hname] at hshown
      have ht := target_of_label hshown (hnames _ name rfl hname)
      simp [ht, ← hfield, Target.absolute, bind, Except.bind, pure, Except.pure]
  | branch =>
    -- Only a label is measured from the address of the branch, so the target has to have a name.
    rw [hf] at hops hnames
    obtain ⟨name, hname⟩ := hbranch hf
    have hrd : ins.register 0 = .ok o.rd := register_of_name (by rw [hops]; rfl)
    have ht : ins.target symbols 1 =
        .ok (.label (branchTarget ins.address (o.decoded op).displacement)) := by
      refine target_of_label ?_ (hnames _ name rfl hname)
      rw [hops]
      simp [targetText, hname]
    simp [hrd, ht, Operands.displacement_branchTarget hf, bind, Except.bind, pure, Except.pure]
  | extended => simp [pure, Except.pure]
  | special => simp [pure, Except.pure]

/-! ## The statements of a listing -/

/-- The operands that a listing shows for an instruction; none if it cannot be encoded. -/
def shown (symbols : Symbols) (names : Names) (ins : Instruction) : List Text :=
  match Op.ofMnemonic? ins.mnemonic with
  | none => []
  | some op =>
    match ins.read op symbols with
    | .error _ => []
    | .ok o => o.shown names ins.address op

/-- What an instruction becomes in a listing: a label where its address has a name, and an
instruction with its address as the label. -/
def relisted (symbols : Symbols) (names : Names) (ins : Instruction) : List Statement :=
  ((names.get? ins.address).toList.map fun name => ⟨some name, none⟩) ++
    [⟨some (Numeral.hex 4 ins.address.toNat), some ⟨ins.mnemonic, ins.shown symbols names⟩⟩]

theorem shown_eq (hop : Op.ofMnemonic? ins.mnemonic = some op) (ho : ins.read op symbols = .ok o) :
    ins.shown symbols names = o.shown names ins.address op := by
  rw [shown, hop]
  simp only [ho]

end Instruction

end Assembly

/-! ## Reading a listing -/

namespace Disassembly.Disassembler

theorem records_setColumns (d : Disassembler) (columns : Columns) (address : Address)
    (words : List Word) :
    (d.setColumns columns).records address words = d.records address words := by
  fun_induction records d address words with
  | case1 => rfl
  | case2 => rfl
  | case3 address raw next rest htakes ih =>
    have htakes' : (d.setColumns columns).takesReserved raw = true := htakes
    rw [records, if_pos htakes', ih]
    rfl
  | case4 address raw next rest htakes ih =>
    have htakes' : ¬ (d.setColumns columns).takesReserved raw = true := htakes
    rw [records, if_neg htakes', ih]
    rfl

end Disassembly.Disassembler

theorem Op.length_mnemonic (op : Op) : op.mnemonic.length < 6 := by
  cases op <;> decide

namespace Assembly

section Listing

variable {symbols : Symbols} {names : Names} {ins : Instruction} {r : Record} {columns : Columns}
  (hraw : columns.showsRaw = false)
  (hnames : ∀ a name, names.get? a = some name → name.IsOperand)
include hraw hnames

omit hraw in
theorem isLine_of_recorded (h : Recorded symbols names ins r) :
    (r.render columns).IsLine := by
  obtain ⟨op, o, -, -, -, rfl⟩ := h
  refine Record.isLine_render ?_ (Decoded.newline_not_mem_note _ _)
  exact Record.not_mem_assemblyText_of_ends op.isToken_mnemonic (Operands.isOperand_shown hnames)
    Operands.operandText_eq_commaList (.inr rfl)

/-- The record of an instruction is read as the instruction with the operands that are shown. -/
theorem parse_render_of_recorded (h : Recorded symbols names ins r) :
    Statement.parse (r.render columns) = ⟨some (Numeral.hex 4 ins.address.toNat),
      some ⟨ins.mnemonic, ins.shown symbols names⟩⟩ := by
  obtain ⟨op, o, hop, ho, -, rfl⟩ := h
  have hmnemonic : Text.upper op.mnemonic = ins.mnemonic := by
    rw [op.upper_mnemonic, Op.mnemonic_of_ofMnemonic? hop]
  rw [Instruction.shown_eq hop ho, ← hmnemonic]
  exact Record.parse_render op.isToken_mnemonic op.length_mnemonic
    (Operands.isOperand_shown hnames) Operands.operandText_eq_commaList hraw

theorem statements_labelledListing {is : List Instruction} {recs : List Record}
    (h : List.Forall₂ (Recorded symbols names) is recs) :
    Program.statements (Text.unlines (recs.flatMap fun r =>
        ((names.get? r.address).toList.map (· ++ [':'])) ++ [r.render columns])) =
      is.flatMap (·.relisted symbols names) := by
  rw [Program.statements, Text.lines_unlines, List.map_flatMap]
  · symm
    rw [← List.forall₂_eq_eq_eq]
    refine List.rel_flatMap h ?_
    intro ins r hr
    rw [List.forall₂_eq_eq_eq]
    have haddress : r.address = ins.address := by
      obtain ⟨op, o, -, -, -, rfl⟩ := hr
      rfl
    have hline := parse_render_of_recorded hraw hnames hr
    cases hname : names.get? ins.address with
    | none => simp [Instruction.relisted, haddress, hname, hline]
    | some name =>
      have hheader := Statement.parse_header (hnames _ name hname).1
      simp [Instruction.relisted, haddress, hname, hline, hheader]
  · intro l hl
    obtain ⟨r, hr, hl⟩ := List.mem_flatMap.mp hl
    rw [List.mem_append, List.mem_singleton, List.mem_map] at hl
    rcases hl with ⟨name, hname, rfl⟩ | rfl
    · exact Statement.isLine_header (hnames _ name (Option.mem_toList.mp hname)).1
    · obtain ⟨ins, -, hins⟩ := exists_of_mem_left (List.Forall₂.flip h) hr
      exact isLine_of_recorded hnames hins

end Listing

/-! ## The layout of a listing -/

namespace Program

variable (symbols : Symbols) (names : Names)

/-- What is relisted has the address that it had. The induction is on the statements of the source,
because they say where each instruction stands. -/
theorem forall₂_relisted (ss : List Statement) (line line' offset : Nat) :
    List.Forall₂
      (fun ins ins' => ins'.toCommand = ⟨ins.mnemonic, ins.shown symbols names⟩ ∧
        ins'.address = ins.address)
      (instructionsFrom line offset ss)
      (instructionsFrom line' offset
        ((instructionsFrom line offset ss).flatMap (·.relisted symbols names))) := by
  induction ss generalizing line line' offset with
  | nil => exact .nil
  | cons s rest ih =>
    rw [instructionsFrom]
    cases hs : s.command with
    | none => exact ih _ _ _
    | some c =>
      simp only [List.flatMap_cons, Instruction.relisted]
      -- A name moves the instruction down a line, but not to another address.
      cases names.get? (BitVec.ofNat 32 offset) with
      | none => exact .cons ⟨rfl, rfl⟩ (ih _ _ _)
      | some name => exact .cons ⟨rfl, rfl⟩ (ih _ _ _)

/-- The definitions of a listing: the names of instructions and their addresses. -/
theorem definitionsFrom_relisted (ss : List Statement) (line offset : Nat) :
    definitionsFrom offset ((instructionsFrom line offset ss).flatMap (·.relisted symbols names)) =
      (instructionsFrom line offset ss).flatMap fun ins =>
        ((names.get? ins.address).toList.map fun name => (name, ins.address)) ++
          [(Numeral.hex 4 ins.address.toNat, ins.address)] := by
  induction ss generalizing line offset with
  | nil => rfl
  | cons s rest ih =>
    rw [instructionsFrom]
    cases hs : s.command with
    | none => exact ih _ _
    | some c =>
      simp only [List.flatMap_cons, Instruction.relisted]
      cases names.get? (BitVec.ofNat 32 offset) with
      | none => exact congrArg _ (ih _ _)
      | some name => exact congrArg _ (congrArg _ (ih _ _))

/-- The program that the listing of laid-out statements is read as. -/
def relisting (ss : List Statement) : Program :=
  ofStatements ((ofStatements ss).instructions.flatMap (·.relisted symbols names))

variable {symbols names} {ss : List Statement} {name : Text} {a : Address}

/-- The names that a listing defines are those of its instructions' addresses, and the addresses. -/
theorem mem_definitions_relisting :
    (name, a) ∈ definitionsFrom 0 ((ofStatements ss).instructions.flatMap
        (·.relisted symbols names)) ↔
      ∃ ins ∈ (ofStatements ss).instructions, ins.address = a ∧
        (names.get? a = some name ∨ name = Numeral.hex 4 a.toNat) := by
  have hdefs := definitionsFrom_relisted symbols names ss 1 0
  change definitionsFrom 0 ((ofStatements ss).instructions.flatMap _) = _ at hdefs
  rw [hdefs, List.mem_flatMap]
  refine exists_congr fun ins => and_congr_right fun _ => ?_
  rw [List.mem_append, List.mem_singleton, List.mem_map]
  constructor
  · intro h
    rcases h with ⟨other, hother, h⟩ | h
    · cases h
      exact ⟨rfl, .inl (Option.mem_toList.mp hother)⟩
    · cases h
      exact ⟨rfl, .inr rfl⟩
  · intro h
    obtain ⟨rfl, h | rfl⟩ := h
    · exact .inl ⟨name, Option.mem_toList.mpr h, rfl⟩
    · exact .inr rfl

section Names

variable (hplain : ∀ a name, names.get? a = some name → name.IsPlainName)
include hplain

/-- A name that is shown for the address of an instruction is bound to that address again. -/
theorem get?_relisting_name (hinj : ∀ b, names.get? b = some name → b = a)
    (hname : names.get? a = some name)
    (hins : ∃ ins ∈ (ofStatements ss).instructions, ins.address = a) :
    (relisting symbols names ss).symbols.get? name = some a := by
  obtain ⟨ins, hins, haddress⟩ := hins
  refine Bindings.get?_insertAll_of_unique
    (mem_definitions_relisting.mpr ⟨ins, hins, haddress, .inl hname⟩) fun b hb => ?_
  obtain ⟨-, -, -, hb | hb⟩ := mem_definitions_relisting.mp hb
  · exact hinj b hb
  · exact absurd hb ((hplain a name hname).ne_hex _ _)

/-- A number is not bound. -/
theorem get?_relisting_number (digits : Text) :
    (relisting symbols names ss).symbols.get? ("0x".toList ++ digits) = none := by
  rw [Option.eq_none_iff_forall_ne_some]
  intro a h
  obtain ⟨-, -, -, hname | hhex⟩ :=
    mem_definitions_relisting.mp (Bindings.mem_of_get?_insertAll h)
  · exact (hplain a _ hname).ne_marked digits rfl
  · exact Numeral.marked_ne_hex digits _ _ hhex

end Names

/-! ## Labels of a source text -/

theorem isLabel_of_get?_symbols {source : Text}
    (h : (ofSource source).symbols.get? name = some a) : name.IsLabel := by
  rw [ofSource, get?_symbols, Option.map_eq_some_iff] at h
  obtain ⟨i, hi, -⟩ := h
  obtain ⟨s, hs, hlabel⟩ := Option.bind_eq_some_iff.mp (labelAt_of_lastDefinition? hi)
  obtain ⟨line, hline, rfl⟩ := List.mem_map.mp (List.mem_of_getElem? hs)
  exact Statement.isLabel_of_parse (Text.not_mem_of_mem_lines hline) hlabel

/-- A label stands at an instruction, unless it stands at the end. -/
theorem exists_address_of_get?_symbols (h : (ofStatements ss).symbols.get? name = some a)
    (hstop : a ≠ (ofStatements ss).stop) :
    ∃ ins ∈ (ofStatements ss).instructions, ins.address = a := by
  rw [get?_symbols, Option.map_eq_some_iff] at h
  obtain ⟨i, -, h⟩ := h
  unfold addressFrom at h
  cases hfind : (ofStatements ss).instructions.find? (i + 1 ≤ ·.line) with
  | none =>
    rw [hfind] at h
    exact absurd h.symm hstop
  | some ins =>
    rw [hfind] at h
    exact ⟨ins, List.mem_of_find?_eq_some hfind, h⟩

end Program

/-! ## Assembling a listing -/

/-- What a program keeps to whose listing is source text. -/
structure Program.Relistable (p : Program) (words : List Word) : Prop where
  names : ∀ name ∈ p.symbols.keys, name.IsPlainName
  /-- Every branch leads to a label. -/
  branches : ∀ r ∈ Disassembler.standard.records 0 words, ∀ d ∈ decode r.raw,
    d.family = .branch → p.symbols.IsLabelled (branchTarget r.address d.displacement)
  /-- No jump or branch leads to a label at the end, where there is no record. -/
  stop : p.symbols.IsLabelled p.stop → ∀ r ∈ Disassembler.standard.records 0 words,
    ∀ d ∈ decode r.raw, d.target? r.address ≠ some p.stop

section Relisted

variable {p : Program} {ss : List Statement} (hss : p = .ofStatements ss)
  (hplain : ∀ name ∈ p.symbols.keys, name.IsPlainName)
include hplain

theorem isPlainName_of_get?_names {a : Address} {name : Text}
    (h : p.symbols.names.get? a = some name) : name.IsPlainName := by
  refine hplain name ((Bindings.mem_keys_iff _ _).mpr ⟨a, ?_⟩)
  exact (Symbols.isLastName_of_get?_names h).1

include hss

/-- An instruction of the listing assembles to the words of the instruction it was shown for. -/
theorem assemble_relisted {ins ins' : Instruction} {op : Op} {o : Operands}
    (hop : Op.ofMnemonic? ins.mnemonic = some op) (ho : ins.read op p.symbols = .ok o)
    (hcommand : ins'.toCommand = ⟨ins.mnemonic, ins.shown p.symbols p.symbols.names⟩)
    (haddress : ins'.address = ins.address)
    (hbranch : op.family = .branch →
      p.symbols.IsLabelled (branchTarget ins.address (o.decoded op).displacement))
    (hstop : p.symbols.IsLabelled p.stop → (o.decoded op).target? ins.address ≠ some p.stop) :
    ins'.assemble (Program.relisting p.symbols p.symbols.names ss).symbols = .ok (o.words op) := by
  have hmnemonic : ins'.mnemonic = ins.mnemonic := by
    show ins'.toCommand.mnemonic = _
    rw [hcommand]
  have hops : ins'.operands = o.shown p.symbols.names ins'.address op := by
    show ins'.toCommand.operands = _
    rw [hcommand, haddress, Instruction.shown_eq hop ho]
  have hshown : ∀ a name, p.symbols.names.get? a = some name → name.IsPlainName :=
    fun _ _ => isPlainName_of_get?_names hplain
  rw [Instruction.assemble_eq_ok_iff]
  refine ⟨op, hmnemonic ▸ hop, Instruction.encode_shown (Instruction.fits_of_read ho) hops
    (Program.get?_relisting_number hshown) ?_ ?_⟩
  · intro target name htarget hname
    have hbound := (Symbols.isLastName_of_get?_names hname).1
    rw [haddress] at htarget
    refine Program.get?_relisting_name hshown (fun b hb => ?_) hname ?_
    · have hb := (Symbols.isLastName_of_get?_names hb).1
      exact Option.some.inj (hb.symm.trans hbound)
    · -- The target is labelled, so it is not the end, and a record stands there.
      have hne : target ≠ p.stop := by
        rintro rfl
        exact hstop ⟨name, (Bindings.mem_keys_iff _ _).mpr ⟨_, hbound⟩, hbound⟩ htarget
      rw [hss] at hbound hne
      exact Program.exists_address_of_get?_symbols hbound hne
  · intro hf
    obtain ⟨name, -, hname⟩ := hbranch hf
    rw [haddress]
    exact Symbols.exists_get?_names hname

end Relisted

section Source

variable {source : Text} {words : List Word} (h : assemble source = .ok words)
  (hquiet : ∀ e ∈ Program.empty.events (.assemble source), e.isCollision = false)
include h hquiet

/-- The listing of a source text is read as its instructions, relisted. -/
theorem statements_outputText
    (hplain : ∀ name ∈ (Program.ofSource source).symbols.keys, name.IsPlainName)
    {o : Tool.DisassemblerOptions} (hformat : o.format = .text)
    (hraw : o.config.columns.showsRaw = false) (hstride : o.config.wordStride = false) :
    let p := Program.ofSource source
    Program.statements (o.outputText 0 p.symbols.table words) =
      p.instructions.flatMap (·.relisted p.symbols p.symbols.names) := by
  intro p
  have hconfig : o.config = { Config.default with columns := o.config.columns } := by
    rw [Config.default, ← hstride]
  have hdisassembler : { Disassembler.standard with config := o.config }.extendLabels
      p.symbols.table = (Disassembler.named p.symbols.names).setColumns o.config.columns := by
    rw [hconfig]
    rfl
  have hnames : ∀ a name, p.symbols.names.get? a = some name → name.IsOperand := by
    intro a name hname
    refine ⟨?_, (isPlainName_of_get?_names hplain hname).2⟩
    exact Program.isLabel_of_get?_symbols (Symbols.isLastName_of_get?_names hname).1
  have hrecords := Program.forall₂_records p.symbols.names h hquiet
  rw [← Disassembler.records_setColumns _ o.config.columns] at hrecords
  simp only [Tool.DisassemblerOptions.outputText, hformat, hdisassembler]
  exact statements_labelledListing hraw hnames hrecords

/-- The instructions of the listing give the same blocks of words. -/
theorem mapM_relisting (hp : (Program.ofSource source).Relistable words) :
    let p := Program.ofSource source
    let q := Program.relisting p.symbols p.symbols.names (Program.statements source)
    q.instructions.mapM (·.assemble q.symbols) = p.instructions.mapM (·.assemble p.symbols) := by
  intro p q
  have hrecords := Program.forall₂_records Bindings.empty h hquiet
  refine mapM_eq_of_forall₂ (Program.forall₂_relisted _ _ (Program.statements source) 1 1 0) ?_
  intro ins hins ins' hins'
  obtain ⟨r, hr, op, o, hop, ho, hdecode, rfl⟩ := exists_of_mem_left hrecords hins
  rw [Instruction.assemble_eq_ok_iff_read.mpr ⟨op, o, hop, ho, rfl⟩]
  exact assemble_relisted rfl hp.names hop ho hins'.1 hins'.2 (hp.branches _ hr _ hdecode)
    fun hlabelled => hp.stop hlabelled _ hr _ hdecode

end Source

/-- **Symbolic listings are source text.** A source text that assembles without a branch that reads
as a fixed form, and that keeps to what `Relistable` says, comes back from its listing: what the
disassembler tool writes for its words with its labels, without the raw column, assembles to the
same words. -/
theorem assemble_outputText {source : Text} {words : List Word} (h : assemble source = .ok words)
    (hquiet : ∀ e ∈ Program.empty.events (.assemble source), e.isCollision = false)
    (hp : (Program.ofSource source).Relistable words) (o : Tool.DisassemblerOptions)
    (hformat : o.format = .text) (hraw : o.config.columns.showsRaw = false)
    (hstride : o.config.wordStride = false) :
    assemble (o.outputText 0 (Program.ofSource source).symbols.table words) = .ok words := by
  obtain ⟨blocks, hblocks, rfl⟩ := Program.encode_eq_ok_iff.mp h
  rw [assemble, Program.ofSource, statements_outputText h hquiet hp.names hformat hraw hstride]
  have hmapM := mapM_relisting h hquiet hp
  exact Program.encode_eq_ok_iff.mpr ⟨blocks, hmapM.trans hblocks, rfl⟩

/-- A forward branch, two names for one address twice, an extended instruction, a jump to a number
and a label at the end, listed with notes. -/
theorem assemble_outputText_named :
    let source := "a: beq r1, .z\nlp:\nloop: CALL\n JMP loop\n JMP 0x123\n".toList ++
      "_x:\n.z: BNE R2, a ; again\nend:".toList
    let words : List Word := [0xE104, 0xFA00, 0, 0xD002, 0xD123, 0xF2FA]
    let o : Tool.DisassemblerOptions := {
      input := "a.bin".toList, inputFormat := .binary, base := ['0'],
      config := { columns := .ofFlags false true, wordStride := false },
      labelsIn := some "a.json".toList, labels := [], format := .text, out := none }
    assemble source = .ok words ∧
      (∀ e ∈ Program.empty.events (.assemble source), e.isCollision = false) ∧
      (Program.ofSource source).Relistable words ∧
      assemble (o.outputText 0 (Program.ofSource source).symbols.table words) = .ok words := by
  intro source words o
  have h : assemble source = .ok words := by decide
  have hquiet : ∀ e ∈ Program.empty.events (.assemble source), e.isCollision = false := by decide
  have hp : (Program.ofSource source).Relistable words :=
    ⟨by decide, by decide, by decide⟩
  exact ⟨h, hquiet, hp, assemble_outputText h hquiet hp o rfl (by decide) rfl⟩

end Assembly

end Cvere
