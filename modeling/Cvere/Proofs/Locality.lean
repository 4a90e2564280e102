import Cvere.Proofs.Diagnosis
import Cvere.Proofs.Recovery

/-!
# Encoding is atomic and local

The encoder gets an instruction, the symbols of the whole program and the words so far. It either
fails and leaves the words as they are, or adds as many words as the layout has reserved. What it
adds depends on little: on the operands that the operation takes, and for a jump or a branch on the
one symbol that its target names. The address of the instruction matters only where the distance to
a label is measured.

**Two runs.** Each of these is a comparison of two runs. Operands beyond those that are taken are
compared through `HasOperands`, which says what the operands of an instruction are and mentions no
others. Symbols and addresses are compared in the encoder itself, because they must not change the
errors either (`encode_congr_symbols`, `encode_at`).

**Main result.** `emit_local`.
-/

namespace Cvere

namespace Assembly

namespace Instruction

variable {op : Op} {ins : Instruction} {symbols : Symbols}

/-- The text of the operand that says where a jump or a branch leads. -/
def targetToken? (op : Op) (ins : Instruction) : Option Text :=
  match op.family with
  | .jump => ins.operands[0]?
  | .branch => ins.operands[1]?
  | _ => none

/-- The instruction is a branch and its target is a label. -/
def BranchesToLabel (op : Op) (ins : Instruction) (symbols : Symbols) : Prop :=
  op.family = .branch ∧ ∃ token a, ins.targetToken? op = some token ∧ symbols.get? token = some a

/-! ## Further operands -/

section Append

variable (more : List Text) {i : Nat}

/-- The instruction with further operands. -/
def withMore (ins : Instruction) (more : List Text) : Instruction :=
  { ins with operands := ins.operands ++ more }

theorem operands_withMore {token : Text} (h : ins.operands[i]? = some token) :
    (ins.withMore more).operands[i]? = some token := by
  show (ins.operands ++ more)[i]? = some token
  rw [List.getElem?_append_left (List.getElem?_eq_some_iff.mp h).1, h]

theorem RegisterAt.withMore {r : Nibble} (h : ins.RegisterAt i r) :
    (ins.withMore more).RegisterAt i r := by
  obtain ⟨token, htoken, hr⟩ := h
  exact ⟨token, operands_withMore more htoken, hr⟩

theorem NumberAt.withMore {n : Int} (h : ins.NumberAt i n) :
    (ins.withMore more).NumberAt i n := by
  obtain ⟨token, v, htoken, hv⟩ := h
  exact ⟨token, v, operands_withMore more htoken, hv⟩

theorem TargetAt.withMore {t : Target} (h : ins.TargetAt symbols i t) :
    (ins.withMore more).TargetAt symbols i t := by
  obtain ⟨token, htoken, ht⟩ := h
  exact ⟨token, operands_withMore more htoken, ht⟩

/-- Operands that are there stay what they are when others follow. -/
theorem HasOperands.withMore {o : Operands} (h : ins.HasOperands op symbols o) :
    (ins.withMore more).HasOperands op symbols o := by
  unfold HasOperands at h ⊢
  cases hf : op.family with
  | register =>
    rw [hf] at h
    obtain ⟨hrd, hrs, hrt, hnumber⟩ := h
    refine ⟨hrd.withMore more, hrs.withMore more, ?_, hnumber⟩
    cases hu : op.isUnary with
    | true => simpa [hu] using hrt
    | false =>
      rw [hu] at hrt
      exact RegisterAt.withMore more hrt
  | immediate =>
    rw [hf] at h
    obtain ⟨hrd, hnumber, hrest⟩ := h
    exact ⟨hrd.withMore more, hnumber.withMore more, hrest⟩
  | memory =>
    rw [hf] at h
    obtain ⟨hrd, hrs, hnumber, hrest⟩ := h
    exact ⟨hrd.withMore more, hrs.withMore more, hnumber.withMore more, hrest⟩
  | jump =>
    rw [hf] at h
    obtain ⟨⟨t, ht, hnumber⟩, hrest⟩ := h
    exact ⟨⟨t, ht.withMore more, hnumber⟩, hrest⟩
  | branch =>
    rw [hf] at h
    obtain ⟨hrd, ⟨t, ht, hnumber⟩, hrest⟩ := h
    exact ⟨hrd.withMore more, ⟨t, ht.withMore more, hnumber⟩, hrest⟩
  | extended | special =>
    rw [hf] at h
    exact h

theorem emit_withMore {out words : List Word} (h : ins.emit op symbols out = (none, words)) :
    (ins.withMore more).emit op symbols out = (none, words) := by
  obtain ⟨o, ho, hwords⟩ := emit_eq_none_iff.mp h
  exact emit_eq_none_iff.mpr ⟨o, ho.withMore more, hwords⟩

end Append

/-! ## Symbols and addresses -/

theorem targetToken?_eq {i : Nat} (h : op.operandKinds[i]? = some OperandKind.target) :
    ins.targetToken? op = ins.operands[i]? := by
  cases hf : op.family with
  | jump =>
    simp only [Op.operandKinds, hf] at h
    obtain rfl : i = 0 := by simpa using (List.getElem?_eq_some_iff.mp h).1
    simp only [targetToken?, hf]
  | branch =>
    simp only [Op.operandKinds, hf] at h
    obtain rfl : i = 1 := by
      rcases i with _ | _ | i
      · cases h
      · rfl
      · cases h
    simp only [targetToken?, hf]
  | _ =>
    have hmem := List.mem_of_getElem? h
    exact absurd hmem (Op.target_not_mem_operandKinds (by simp [hf]) (by simp [hf]))

theorem targetToken?_eq_none (hjump : op.family ≠ .jump) (hbranch : op.family ≠ .branch) :
    ins.targetToken? op = none := by
  unfold targetToken?
  split
  · next hf => exact absurd hf hjump
  · next hf => exact absurd hf hbranch
  · rfl

/-- Only the symbol that the target names matters. -/
theorem encode_congr_symbols {symbols' : Symbols} (h : ∀ token, ins.targetToken? op = some token →
    symbols'.get? token = symbols.get? token) :
    ins.encode op symbols' = ins.encode op symbols := by
  refine encode_congr fun i hi => target_congr fun token htoken => ?_
  exact h token ((targetToken?_eq hi).trans htoken)

/-- The address matters only where a distance is measured from it. -/
theorem encode_at (h : ¬ ins.BranchesToLabel op symbols) (address : Address) :
    encode op { ins with address } symbols = ins.encode op symbols := by
  cases hf : op.family with
  | branch =>
    simp only [encode, hf]
    show (do
        let rc ← ins.register 0
        let t ← ins.target symbols 1
        return [Word.ofNibblesByte op.nibble rc (t.displacement address)]) = _
    cases ins.register 0 with
    | error cause => rfl
    | ok rc =>
      cases ht : ins.target symbols 1 with
      | error cause => rfl
      | ok t =>
        cases t with
        | literal v => rfl
        | label a =>
          obtain ⟨token, htoken, ⟨b, hb, -⟩ | ⟨-, v, -, hv⟩⟩ := target_eq_ok_iff.mp ht
          · refine absurd ⟨hf, token, b, ?_, hb⟩ h
            simpa only [targetToken?, hf] using htoken
          · cases hv
  | register | immediate | memory | jump =>
    simp only [encode, hf]
    rfl
  | extended | special => simp only [encode, hf]

/-! ## The output -/

theorem emit_congr {ins' : Instruction} {symbols' : Symbols}
    (h : ins'.encode op symbols' = ins.encode op symbols) (hline : ins'.line = ins.line)
    (out : List Word) :
    ins'.emit op symbols' out = ins.emit op symbols out := by
  unfold emit
  rw [h, hline]

/-- The output so far is kept, and what is added does not depend on it. -/
theorem emit_fails_or_adds (op : Op) (ins : Instruction) (symbols : Symbols) :
    (∃ e, ∀ out, ins.emit op symbols out = (some e, out)) ∨
      ∃ words, words.length = op.width / 2 ∧
        ∀ out, ins.emit op symbols out = (none, out ++ words) := by
  unfold emit
  cases hencode : ins.encode op symbols with
  | error cause => exact .inl ⟨_, fun out => rfl⟩
  | ok words =>
    refine .inr ⟨words, ?_, fun out => rfl⟩
    have hlength := length_encode hencode
    rw [Op.width, Family.width]
    omega

/-- **Encoding is atomic and local.** An instruction that is encoded as some operation either fails
and leaves the output as it was, or adds as many words as the operation has, whatever the output
was. Operands behind those that are taken change nothing when it is encoded. An operation without a
target depends neither on the symbols nor on the address; a jump or a branch depends on the symbols
only through the one that its target names, and on the address only if it is a branch to a label. -/
theorem emit_local (op : Op) (ins : Instruction) (symbols : Symbols) :
    ((∃ e, ∀ out, ins.emit op symbols out = (some e, out)) ∨
      ∃ words, words.length = op.width / 2 ∧
        ∀ out, ins.emit op symbols out = (none, out ++ words)) ∧
    (∀ more out words, ins.emit op symbols out = (none, words) →
      emit op { ins with operands := ins.operands ++ more } symbols out = (none, words)) ∧
    (op.family ≠ .jump → op.family ≠ .branch → ∀ symbols' address out,
      emit op { ins with address } symbols' out = ins.emit op symbols out) ∧
    (∀ symbols', (∀ token, ins.targetToken? op = some token →
        symbols'.get? token = symbols.get? token) →
      ∀ out, ins.emit op symbols' out = ins.emit op symbols out) ∧
    (¬ ins.BranchesToLabel op symbols → ∀ address out,
      emit op { ins with address } symbols out = ins.emit op symbols out) := by
  refine ⟨emit_fails_or_adds op ins symbols, fun more out words => emit_withMore more, ?_, ?_, ?_⟩
  · intro hjump hbranch symbols' address out
    have hsymbols : ∀ token, ins.targetToken? op = some token →
        symbols'.get? token = symbols.get? token := by
      intro token htoken
      rw [targetToken?_eq_none hjump hbranch] at htoken
      cases htoken
    calc
      emit op { ins with address } symbols' out = ins.emit op symbols' out :=
        emit_congr (encode_at (fun h => hbranch h.1) address) rfl out
      _ = ins.emit op symbols out := emit_congr (encode_congr_symbols hsymbols) rfl out
  · intro symbols' h out
    exact emit_congr (encode_congr_symbols h) rfl out
  · intro h address out
    exact emit_congr (encode_at h address) rfl out

/-- A branch by a number, with an operand too many and at two addresses; a branch to a label, with a
symbol that it does not name and at two addresses; and an addition that lacks an operand, under
other symbols. Only the branch to a label depends on where it stands. -/
theorem emit_local_branches :
    let symbols : Symbols := Bindings.empty.insert "x".toList 0x10
    let branch (target : String) : Instruction :=
      { mnemonic := "BEQ".toList, operands := ["R1".toList, target.toList], label := none,
        line := 3, address := 0x20 }
    (branch "5").emit .beq symbols [7] = (none, [7, 0xE105]) ∧
      emit .beq { branch "5" with operands := (branch "5").operands ++ ["?".toList] } symbols [7] =
        (none, [7, 0xE105]) ∧
      emit .beq { branch "5" with address := 0x40 } symbols [7] = (none, [7, 0xE105]) ∧
      (branch "x").emit .beq (symbols.insert "y".toList 2) [7] = (none, [7, 0xE1F7]) ∧
      emit .beq { branch "x" with address := 0x40 } symbols [7] = (none, [7, 0xE1E7]) ∧
      emit .add { branch "R2" with address := 0x40 } Bindings.empty [7] =
        (branch "R2").emit .add symbols [7] := by
  intro symbols branch
  have hliteral : (branch "5").emit .beq symbols [7] = (none, [7, 0xE105]) := by decide
  have hlabel : (branch "x").emit .beq symbols [7] = (none, [7, 0xE1F7]) := by decide
  have hnumber : ¬ (branch "5").BranchesToLabel .beq symbols := by
    rintro ⟨-, token, a, htoken, ha⟩
    cases htoken
    have hnone : symbols.get? "5".toList = none := by decide
    rw [hnone] at ha
    cases ha
  have hsame : ∀ token, (branch "x").targetToken? .beq = some token →
      (symbols.insert "y".toList 2).get? token = symbols.get? token := by
    intro token htoken
    cases htoken
    decide
  obtain ⟨-, hmore, -, -, haddress⟩ := emit_local .beq (branch "5") symbols
  obtain ⟨-, -, -, hsymbols, -⟩ := emit_local .beq (branch "x") symbols
  obtain ⟨-, -, hneither, -, -⟩ := emit_local .add (branch "R2") symbols
  refine ⟨hliteral, hmore _ _ _ hliteral, (haddress hnumber _ _).trans hliteral,
    (hsymbols _ hsame _).trans hlabel, by decide, ?_⟩
  exact hneither (by decide) (by decide) Bindings.empty 0x40 [7]

end Instruction

end Assembly

end Cvere
