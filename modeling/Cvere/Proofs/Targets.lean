import Cvere.Proofs.Alignment

/-!
# Where jumps and branches to labels lead

A jump keeps the low twelve bits of its label's address. A branch keeps the distance to its label,
in words, as a signed byte, and the disassembler turns the byte back into an address in the lowest
64 KiB. Nothing is refused on the way, so that a label out of reach silently becomes another
address.

**Reach** (`Reaches`). A branch gets back to its label exactly when the label is at most 128 words
before or 127 words behind the following word, around in 64 KiB. It is off by a multiple of 512
bytes otherwise, because the byte is the distance in words up to a multiple of 256.

**Names.** The symbol table lists the labels of one address in ascending order, and of several
names imported for an address the last one counts: the greatest name is shown.

**Main result.** `label_targets`: the reach of every jump and branch to a label, and the name that
a listing shows for it.
-/

namespace Cvere

open Disassembly

/-! ## The greatest name of an address -/

/-- The name is bound to the address, and no name bound to it is greater by code points. -/
def Symbols.IsLastName (s : Symbols) (a : Address) (name : Text) : Prop :=
  s.get? name = some a ∧ ∀ other, s.get? other = some a → Text.le other name = true

namespace Label

theorem le_iff {a b : Label} :
    a.le b = true ↔ a.address.toNat < b.address.toNat ∨
      a.address = b.address ∧ Text.le a.name b.name = true := by
  simp [le]

theorem le_trans {a b c : Label} (hab : a.le b = true) (hbc : b.le c = true) :
    a.le c = true := by
  rw [le_iff] at hab hbc ⊢
  rcases hab with hab | ⟨hab, hn⟩
  · rcases hbc with hbc | ⟨hbc, -⟩
    · exact .inl (Nat.lt_trans hab hbc)
    · exact .inl (hbc ▸ hab)
  · rcases hbc with hbc | ⟨hbc, hn'⟩
    · exact .inl (hab ▸ hbc)
    · exact .inr ⟨hab.trans hbc, Text.le_trans hn hn'⟩

theorem le_total (a b : Label) : (a.le b || b.le a) = true := by
  rw [Bool.or_eq_true, le_iff, le_iff]
  by_cases h : a.address = b.address
  · rcases Text.le_total a.name b.name with hn | hn
    · exact .inl (.inr ⟨h, hn⟩)
    · exact .inr (.inr ⟨h.symm, hn⟩)
  · have hne : a.address.toNat ≠ b.address.toNat := fun hn => h (BitVec.eq_of_toNat_eq hn)
    rcases Nat.lt_or_gt_of_ne hne with hlt | hlt
    · exact .inl (.inl hlt)
    · exact .inr (.inl hlt)

end Label

namespace Symbols

/-- The entries of the symbol table in the order of its import. -/
def imports (s : Symbols) : List (Address × Text) :=
  s.table.map fun l => (l.address, l.name)

theorem mem_imports {s : Symbols} {a : Address} {name : Text} :
    (a, name) ∈ s.imports ↔ s.get? name = some a := by
  rw [imports, List.mem_map]
  constructor
  · rintro ⟨l, hl, heq⟩
    cases heq
    exact (mem_table_iff s l).mp hl
  · intro h
    exact ⟨⟨a, name⟩, (mem_table_iff s _).mpr h, rfl⟩

theorem pairwise_imports (s : Symbols) :
    s.imports.Pairwise fun p q => Label.le ⟨p.1, p.2⟩ ⟨q.1, q.2⟩ = true := by
  rw [imports, List.pairwise_map]
  exact @List.pairwise_mergeSort _ Label.le (fun _ _ _ => Label.le_trans) Label.le_total _

/-- The names that a disassembler has after it imported the symbol table. -/
def names (s : Symbols) : Names :=
  Names.extend Bindings.empty s.table

theorem get?_names (s : Symbols) (a : Address) : s.names.get? a = s.imports.reverse.lookup a := by
  rw [names, Names.get?_extend, Bindings.get?_empty, Option.or_none, imports, List.map_reverse]

theorem isLastName_of_get?_names {s : Symbols} {a : Address} {name : Text}
    (h : s.names.get? a = some name) : s.IsLastName a name := by
  rw [get?_names, List.lookup_eq_some_iff] at h
  obtain ⟨after, before, hsplit, hfree⟩ := h
  have hsplit : s.imports = before.reverse ++ (a, name) :: after.reverse := by
    rw [← List.reverse_reverse s.imports, hsplit]
    simp
  have hsorted := s.pairwise_imports
  rw [hsplit, List.pairwise_append] at hsorted
  refine ⟨mem_imports.mp (by simp [hsplit]), fun other hother => ?_⟩
  have hmem := mem_imports.mpr hother
  rw [hsplit, List.mem_append, List.mem_cons] at hmem
  -- The other name was imported before, is the same, or would have replaced this one.
  rcases hmem with hmem | heq | hmem
  · have hle := hsorted.2.2 _ hmem _ List.mem_cons_self
    rcases Label.le_iff.mp hle with hlt | ⟨-, hle⟩
    · exact absurd hlt (Nat.lt_irrefl _)
    · exact hle
  · cases heq
    rcases Text.le_total name name with hle | hle <;> exact hle
  · have := hfree _ (List.mem_reverse.mp hmem)
    simp at this

theorem exists_get?_names {s : Symbols} {a : Address} {name : Text}
    (h : s.get? name = some a) : ∃ shown, s.names.get? a = some shown := by
  rw [← Option.isSome_iff_exists, get?_names, List.lookup_isSome_iff]
  exact ⟨(a, name), List.mem_reverse.mpr (mem_imports.mpr h), beq_self_eq_true a⟩

end Symbols

/-! ## The reach of a branch -/

/-- Where a branch at `origin` to a label leads: to the label exactly when it is within reach of a
signed byte of words, around in 64 KiB, and up to a multiple of 512 bytes in every case. -/
structure Reaches (origin label target : Address) : Prop where
  within : target.toNat = label.toNat % 0x10000 ↔ ∃ k : Int, -128 ≤ k ∧ k ≤ 127 ∧
    (label.toNat : Int) % 0x10000 = ((origin.toNat : Int) + 2 + 2 * k) % 0x10000
  near : -256 ≤ (label.toNat : Int) - (origin.toNat + 2) →
    (label.toNat : Int) - (origin.toNat + 2) ≤ 254 → target.toNat = label.toNat % 0x10000
  congruent : target.toNat % 512 = label.toNat % 512

theorem reaches_branchTarget {origin label : Address} {displacement : BitVec 16}
    (horigin : origin.toNat % 2 = 0) (hlabel : label.toNat % 2 = 0)
    (hd : displacement.toInt =
      (((label.toNat : Int) - ((origin.toNat : Int) + 2)) / 2).bmod 0x100) :
    Reaches origin label (branchTarget origin displacement) := by
  generalize hn : ((label.toNat : Int) - ((origin.toNat : Int) + 2)) / 2 = n at hd
  have hlow : -128 ≤ n.bmod 0x100 := Int.le_bmod (by decide)
  have hhigh : n.bmod 0x100 < 128 := Int.bmod_lt (by decide)
  have hmod : n.bmod 0x100 % 0x100 = n % 0x100 := Int.bmod_emod
  have htarget := toNat_branchTarget origin displacement
  rw [hd] at htarget
  generalize n.bmod 0x100 = b at *
  refine ⟨⟨fun h => ⟨b, hlow, by omega, by omega⟩, ?_⟩, fun _ _ => by omega, by omega⟩
  rintro ⟨k, hk, hk', heq⟩
  -- The distance in words is `k` up to a multiple of 32768, so `k` is the byte.
  obtain rfl : k = b := by omega
  omega

namespace Assembly

/-! ## Instructions with a label as their target -/

namespace Instruction

variable {ins : Instruction} {symbols : Symbols} {op : Op} {o : Operands} {name : Text}
  {label : Address}

theorem target_of_label {i : Nat} (hname : ins.operands[i]? = some name)
    (hlabel : symbols.get? name = some label) :
    ins.target symbols i = .ok (.label label) := by
  simp [target, operand, hname, hlabel, bind, Except.bind]

theorem number_of_jump (hf : op.family = .jump) (hname : ins.operands[0]? = some name)
    (hlabel : symbols.get? name = some label) (ho : ins.read op symbols = .ok o) :
    o.number = label.toNat := by
  simp only [read, hf, target_of_label hname hlabel, bind, Except.bind, pure, Except.pure,
    Except.ok.injEq] at ho
  rw [← ho]
  rfl

theorem number_of_branch (hf : op.family = .branch) (hname : ins.operands[1]? = some name)
    (hlabel : symbols.get? name = some label) (ho : ins.read op symbols = .ok o) :
    o.number = ((label.toNat : Int) - ((ins.address.toNat : Int) + 2)) / 2 := by
  simp only [read, hf, target_of_label hname hlabel, bind, Except.bind, pure, Except.pure] at ho
  split at ho
  · cases ho
  · cases ho
    rfl

end Instruction

/-- The first word of an instruction stands at its address. -/
theorem Program.LaidOut.getElem?_address {p : Program} (hp : p.LaidOut) {words : List Word}
    (h : p.encode = .ok words) {ins : Instruction} (hins : ins ∈ p.instructions) :
    ∃ op o, Op.ofMnemonic? ins.mnemonic = some op ∧ ins.read op p.symbols = .ok o ∧
      words[ins.address.toNat / 2]? = some (o.word op) := by
  obtain ⟨op, hop, hemit⟩ := hp.words words h ins hins
  unfold Instruction.emit at hemit
  rw [Instruction.encode_eq_map_read] at hemit
  cases ho : ins.read op p.symbols with
  | error cause => simp [ho, Except.map] at hemit
  | ok o =>
    refine ⟨op, o, hop, ho, ?_⟩
    rw [ho] at hemit
    have hwords : words.extract (ins.address.toNat / 2) ((ins.address.toNat + ins.size) / 2) =
        o.words op := (congrArg Prod.snd hemit).symm
    have hget := congrArg (·[0]?) hwords
    simp only [List.extract_eq_take_drop, List.getElem?_take, List.getElem?_drop, Nat.add_zero,
      Operands.words, List.getElem?_cons_zero] at hget
    split at hget
    · exact hget
    · cases hget

/-! ## Names in listings -/

/-- The record of a jump or branch shows its target by the greatest name of its address. -/
structure ShowsTarget (symbols : Symbols) (ins : Instruction) (r : Record) : Prop where
  address : r.address = ins.address
  target : ∃ d, decode r.raw = some d ∧ Op.ofMnemonic? ins.mnemonic = some d.op ∧
    ∀ name label, symbols.get? name = some label → d.target? r.address = some label →
      ∃ shown, symbols.IsLastName label shown ∧
        (d.op.family = .jump → r.operands = shown) ∧
        (d.op.family = .branch → r.operands = commaList [Register.name d.rd, shown])

theorem showsTarget_record {symbols : Symbols} {ins : Instruction} {op : Op} {o : Operands}
    (hop : Op.ofMnemonic? ins.mnemonic = some op)
    (hdecode : decode (o.word op) = some (o.decoded op)) :
    ShowsTarget symbols ins (o.record symbols.names ins.address op) where
  address := rfl
  target := by
    refine ⟨o.decoded op, hdecode, hop, ?_⟩
    have hfamily : (o.decoded op).family = (o.decoded op).op.family := rfl
    intro name label hname htarget
    obtain ⟨shown, hshown⟩ := Symbols.exists_get?_names hname
    refine ⟨shown, Symbols.isLastName_of_get?_names hshown, fun hf => ?_, fun hf => ?_⟩
    · change (o.decoded op).operandText ins.address symbols.names = shown
      simp only [Decoded.target?, hfamily, hf, Option.some.injEq] at htarget
      simp [Decoded.operandText, hfamily, hf, targetText, htarget, hshown]
    · change (o.decoded op).operandText ins.address symbols.names = _
      simp only [Decoded.target?, hfamily, hf, Option.some.injEq] at htarget
      have haddress : branchTarget ins.address (o.decoded op).displacement = label := htarget
      simp [Decoded.operandText, hfamily, hf, targetText, haddress, hshown]

/-! ## Jumps and branches of a program -/

section Program

variable {p : Program} (hp : p.LaidOut) {words : List Word} (h : p.encode = .ok words)
  {ins : Instruction} (hins : ins ∈ p.instructions) {op : Op}
  (hop : Op.ofMnemonic? ins.mnemonic = some op) {name : Text} {label : Address}
  (hlabel : p.symbols.get? name = some label) {w : Word}
  (hw : words[ins.address.toNat / 2]? = some w)

include hp h hins hop hlabel hw

theorem decode_jump (hf : op.family = .jump) (hname : ins.operands[0]? = some name) :
    ∃ d, decode w = some d ∧ d.op = op ∧ d.imm.toNat = label.toNat % 0x1000 := by
  obtain ⟨op', o, hop', ho, hw'⟩ := hp.getElem?_address h hins
  obtain rfl : op = op' := Option.some.inj (hop.symm.trans hop')
  obtain rfl : w = o.word op := Option.some.inj (hw.symm.trans hw')
  have hdecode := Operands.decode_word (Instruction.fits_of_read ho) (by simp [hf])
  refine ⟨_, hdecode, rfl, ?_⟩
  rw [Operands.toNat_imm, Instruction.number_of_jump hf hname hlabel ho, hf]
  simp only [Family.span]
  omega

theorem reaches_of_branch (hf : op.family = .branch) (hname : ins.operands[1]? = some name)
    (hc : Instruction.collides w = false) :
    ∃ d, decode w = some d ∧ d.op = op ∧
      Reaches ins.address label (branchTarget ins.address d.displacement) := by
  obtain ⟨op', o, hop', ho, hw'⟩ := hp.getElem?_address h hins
  obtain rfl : op = op' := Option.some.inj (hop.symm.trans hop')
  obtain rfl : w = o.word op := Option.some.inj (hw.symm.trans hw')
  have hdecode := Operands.decode_word (Instruction.fits_of_read ho) fun _ => hc
  have heven := (hp.label name label hlabel).1
  refine ⟨_, hdecode, rfl, reaches_branchTarget (hp.even ins hins) heven ?_⟩
  rw [Operands.toInt_displacement hf, Instruction.number_of_branch hf hname hlabel ho]

end Program

/-- **Label targets.** In a source text that assembles, a jump to a label keeps the low twelve bits
of its address, and a branch to a label reaches it as `Reaches` says unless it reads as a fixed
form. If no branch of the program does, then a listing with the symbol table imported shows every
jump and branch that leads to a label by the greatest name of its address. -/
theorem label_targets {source : Text} {words : List Word}
    (hsize : Program.codeSize (Program.statements source) < Address.count)
    (h : assemble source = .ok words) :
    let p := Program.ofSource source
    (∀ ins ∈ p.instructions, ∀ op name label, Op.ofMnemonic? ins.mnemonic = some op →
      p.symbols.get? name = some label →
      ∃ w, words[ins.address.toNat / 2]? = some w ∧
        (op.family = .jump → ins.operands[0]? = some name →
          ∃ d, decode w = some d ∧ d.op = op ∧ d.imm.toNat = label.toNat % 0x1000 ∧
            (d.imm.toNat = label.toNat ↔ label.toNat < 0x1000)) ∧
        (op.family = .branch → ins.operands[1]? = some name → Instruction.collides w = false →
          ∃ d, decode w = some d ∧ d.op = op ∧
            Reaches ins.address label (branchTarget ins.address d.displacement))) ∧
    ((∀ e ∈ Program.empty.events (.assemble source), e.isCollision = false) →
      List.Forall₂ (ShowsTarget p.symbols) p.instructions
        ((Disassembler.standard.extendLabels p.symbols.table).records 0 words)) := by
  have hp : (Program.ofSource source).LaidOut := Program.laidOut_ofStatements hsize
  refine ⟨fun ins hins op name label hop hlabel => ?_, fun hquiet => ?_⟩
  · obtain ⟨_, _, _, _, hw⟩ := hp.getElem?_address h hins
    refine ⟨_, hw, fun hf hname => ?_, reaches_of_branch hp h hins hop hlabel hw⟩
    obtain ⟨d, hd, hdop, himm⟩ := decode_jump hp h hins hop hlabel hw hf hname
    exact ⟨d, hd, hdop, himm, by omega⟩
  · refine (Program.forall₂_records _ h hquiet).imp ?_
    rintro ins r ⟨op, o, hop, -, hdecode, rfl⟩
    exact showsTarget_record hop hdecode

/-- A loop with two names at its start, left by a forward branch to the end. -/
theorem label_targets_loop :
    let source := "loop:\nlop: BEQ R1, end\n JMP loop\nend:".toList
    let p := Program.ofSource source
    Program.codeSize (Program.statements source) < Address.count ∧
      assemble source = .ok [0xE101, 0xD000] ∧
      List.Forall₂ (ShowsTarget p.symbols) p.instructions
        ((Disassembler.standard.extendLabels p.symbols.table).records 0 [0xE101, 0xD000]) :=
  ⟨by decide, by decide, (label_targets (by decide) (by decide)).2 (by decide)⟩

end Assembly

end Cvere
