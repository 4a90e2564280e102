import Cvere.Proofs.Binding
import Mathlib.Data.Nat.Find

/-!
# Which source texts assemble, and what is reported otherwise

A source text assembles when each of its instructions is well formed: its mnemonic is known, and its
leading operands are what the operation takes. The first instruction that is not is reported, with
its line and the leftmost operand that is wrong.

**The rules.** `operandKinds` lists what an operation takes, `Accepts` says which tokens are
operands of a kind, and `Rejects` says what is reported for an operand that is not. `WellFormed` and
`Fault` put these together for an instruction. None of them mentions the encoder.

**The check.** The encoder reads operands one after another and stops at the first that it cannot
use. What it makes of the others does not matter here: `map_encode` forgets the words and leaves a
check of the operands from left to right (`checkFrom`), which is compared with the rules by
induction on the kinds. The instructions of a text are a second check of the same form
(`mapM_eq_error_iff`).

**Main result.** `assemble_diagnosis`: the exact condition under which a source text assembles, and
the exact error when it does not.
-/

namespace Cvere

/-- What an operand can be. -/
inductive OperandKind where
  | register
  | immediate
  | target
  deriving DecidableEq, Repr

/-- The operands that an operation takes, from left to right. -/
def Op.operandKinds (op : Op) : List OperandKind :=
  match op.family with
  | .register =>
    if op.isUnary then [.register, .register] else [.register, .register, .register]
  | .immediate => [.register, .immediate]
  | .memory => [.register, .register, .immediate]
  | .jump => [.target]
  | .branch => [.register, .target]
  | .extended | .special => []

theorem Op.target_not_mem_operandKinds {op : Op} (hjump : op.family ≠ .jump)
    (hbranch : op.family ≠ .branch) : .target ∉ op.operandKinds := by
  cases op <;> first
    | exact absurd rfl hjump
    | exact absurd rfl hbranch
    | decide

/-- The token is an operand of the kind. A register has to fit four bits. -/
def OperandKind.Accepts (symbols : Symbols) (token : Text) : OperandKind → Prop
  | .register => ∃ n, Register.parse? token = some n ∧ n ≤ 15
  | .immediate => ∃ v, Literal.parse? token = some v
  | .target => token ∈ symbols.keys ∨ ∃ v, Literal.parse? token = some v

/-- The token begins with an alphabetic character, an underscore or a point. -/
def BeginsLikeName (token : Text) : Prop :=
  ∃ c rest, token = c :: rest ∧ (Text.isAlphabetic c = true ∨ c = '_' ∨ c = '.')

theorem looksLikeLabel_iff (token : Text) : looksLikeLabel token = true ↔ BeginsLikeName token := by
  unfold looksLikeLabel BeginsLikeName
  cases token with
  | nil => simp
  | cons c rest => simp [or_assoc]

theorem Bindings.get?_of_not_mem_keys {κ ν : Type} [DecidableEq κ] {m : Bindings κ ν} {k : κ}
    (h : k ∉ m.keys) : m.get? k = none := by
  rw [mem_keys_iff] at h
  exact Option.eq_none_iff_forall_ne_some.mpr (not_exists.mp h)

namespace Assembly

namespace Instruction

/-! ## The rules -/

/-- The operand at a position is there and of the kind. -/
def Takes (symbols : Symbols) (ins : Instruction) (i : Nat) (kind : OperandKind) : Prop :=
  ∃ token, ins.operands[i]? = some token ∧ kind.Accepts symbols token

/-- What is reported for an operand that is not there or not of the kind. -/
inductive Rejects (symbols : Symbols) (ins : Instruction) (i : Nat) : OperandKind → Cause → Prop
  | missing {kind : OperandKind} (absent : ins.operands[i]? = none) :
    Rejects symbols ins i kind (.missingOperand ins.mnemonic (i + 1))
  | invalidRegister {token : Text} (present : ins.operands[i]? = some token)
    (unread : Register.parse? token = none) :
    Rejects symbols ins i .register (.invalidRegister token)
  | registerOutOfRange {token : Text} {n : Nat} (present : ins.operands[i]? = some token)
    (read : Register.parse? token = some n) (large : 15 < n) :
    Rejects symbols ins i .register (.registerOutOfRange token)
  | invalidImmediate {token : Text} (present : ins.operands[i]? = some token)
    (unread : Literal.parse? token = none) :
    Rejects symbols ins i .immediate (.invalidImmediate token)
  | undefinedLabel {token : Text} (present : ins.operands[i]? = some token)
    (unknown : token ∉ symbols.keys) (unread : Literal.parse? token = none)
    (name : BeginsLikeName token) : Rejects symbols ins i .target (.undefinedLabel token)
  | invalidTarget {token : Text} (present : ins.operands[i]? = some token)
    (unknown : token ∉ symbols.keys) (unread : Literal.parse? token = none)
    (name : ¬ BeginsLikeName token) : Rejects symbols ins i .target (.invalidImmediate token)

/-- The mnemonic is known and the leading operands are those that the operation takes. -/
def WellFormed (symbols : Symbols) (ins : Instruction) : Prop :=
  ∃ op, Op.ofMnemonic? ins.mnemonic = some op ∧
    ∀ i kind, op.operandKinds[i]? = some kind → ins.Takes symbols i kind

/-- What is wrong with an instruction: its mnemonic, or else the leftmost operand that is wrong. -/
inductive Fault (symbols : Symbols) (ins : Instruction) : Cause → Prop
  | mnemonic (unknown : Op.ofMnemonic? ins.mnemonic = none) :
    Fault symbols ins (.unknownMnemonic ins.mnemonic)
  | operand {op : Op} {i : Nat} {kind : OperandKind} {cause : Cause}
    (known : Op.ofMnemonic? ins.mnemonic = some op) (required : op.operandKinds[i]? = some kind)
    (leftmost : ∀ j < i, ∀ k, op.operandKinds[j]? = some k → ins.Takes symbols j k)
    (rejected : ins.Rejects symbols i kind cause) : Fault symbols ins cause

/-! ## The check of one operand -/

variable {symbols : Symbols} {ins : Instruction} {i : Nat} {kind : OperandKind} {cause : Cause}

/-- Read an operand for its errors. -/
def check (symbols : Symbols) (ins : Instruction) (i : Nat) : OperandKind → Except Cause Unit
  | .register => (fun _ => ()) <$> ins.register i
  | .immediate => (fun _ => ()) <$> ins.immediate i
  | .target => (fun _ => ()) <$> ins.target symbols i

theorem map_eq_ok_iff {ε α : Type} {x : Except ε α} :
    (fun _ => ()) <$> x = .ok () ↔ ∃ a, x = .ok a := by
  cases x <;> simp [Functor.map, Except.map]

theorem map_eq_error_iff {ε α : Type} {x : Except ε α} {e : ε} :
    (fun _ => ()) <$> x = .error e ↔ x = .error e := by
  cases x <;> simp [Functor.map, Except.map]

theorem operand_of_present {token : Text} (h : ins.operands[i]? = some token) :
    ins.operand i = .ok token := by
  rw [operand, h]

theorem check_of_takes (h : ins.Takes symbols i kind) : ins.check symbols i kind = .ok () := by
  obtain ⟨token, present, accepted⟩ := h
  have hop := operand_of_present present
  cases kind with
  | register =>
    obtain ⟨n, hn, hle⟩ := accepted
    simp [check, register, hop, bind, Except.bind, hn, hle, Functor.map, Except.map]
  | immediate =>
    obtain ⟨v, hv⟩ := accepted
    simp [check, immediate, hop, bind, Except.bind, hv, Functor.map, Except.map]
  | target =>
    rcases accepted with hkey | ⟨v, hv⟩
    · obtain ⟨a, ha⟩ := (Bindings.mem_keys_iff _ _).mp hkey
      simp [check, target, hop, bind, Except.bind, ha, Functor.map, Except.map]
    · cases ha : symbols.get? token with
      | none => simp [check, target, hop, bind, Except.bind, ha, hv, Functor.map, Except.map]
      | some a => simp [check, target, hop, bind, Except.bind, ha, Functor.map, Except.map]

theorem check_of_rejects (h : ins.Rejects symbols i kind cause) :
    ins.check symbols i kind = .error cause := by
  cases h with
  | missing absent =>
    have hop : ins.operand i = .error (.missingOperand ins.mnemonic (i + 1)) := by
      rw [operand, absent]
    cases kind <;>
      simp [check, register, immediate, target, hop, bind, Except.bind, Functor.map, Except.map]
  | invalidRegister present unread =>
    simp [check, register, operand_of_present present, bind, Except.bind, unread, Functor.map,
      Except.map]
  | registerOutOfRange present read large =>
    have hle := Nat.not_le.mpr large
    simp [check, register, operand_of_present present, bind, Except.bind, read, hle, Functor.map,
      Except.map]
  | invalidImmediate present unread =>
    simp [check, immediate, operand_of_present present, bind, Except.bind, unread, Functor.map,
      Except.map]
  | undefinedLabel present unknown unread name =>
    have hname := (looksLikeLabel_iff _).mpr name
    simp [check, target, operand_of_present present, bind, Except.bind,
      Bindings.get?_of_not_mem_keys unknown, unread, hname, Functor.map, Except.map]
  | invalidTarget present unknown unread name =>
    have hname := Bool.eq_false_iff.mpr (mt (looksLikeLabel_iff _).mp name)
    simp [check, target, operand_of_present present, bind, Except.bind,
      Bindings.get?_of_not_mem_keys unknown, unread, hname, Functor.map, Except.map]

theorem takes_or_rejects (symbols : Symbols) (ins : Instruction) (i : Nat) (kind : OperandKind) :
    ins.Takes symbols i kind ∨ ∃ cause, ins.Rejects symbols i kind cause := by
  cases present : ins.operands[i]? with
  | none => exact .inr ⟨_, .missing present⟩
  | some token =>
    cases kind with
    | register =>
      cases hn : Register.parse? token with
      | none => exact .inr ⟨_, .invalidRegister present hn⟩
      | some n =>
        by_cases hle : n ≤ 15
        · exact .inl ⟨token, present, n, hn, hle⟩
        · exact .inr ⟨_, .registerOutOfRange present hn (by omega)⟩
    | immediate =>
      cases hv : Literal.parse? token with
      | none => exact .inr ⟨_, .invalidImmediate present hv⟩
      | some v => exact .inl ⟨token, present, v, hv⟩
    | target =>
      by_cases hkey : token ∈ symbols.keys
      · exact .inl ⟨token, present, .inl hkey⟩
      cases hv : Literal.parse? token with
      | some v => exact .inl ⟨token, present, .inr ⟨v, hv⟩⟩
      | none =>
        by_cases hname : BeginsLikeName token
        · exact .inr ⟨_, .undefinedLabel present hkey hv hname⟩
        · exact .inr ⟨_, .invalidTarget present hkey hv hname⟩

/-! ## The check of all operands -/

/-- Read operands from a position on for their errors. The first error counts. -/
def checkFrom (symbols : Symbols) (ins : Instruction) (i : Nat) :
    List OperandKind → Except Cause Unit
  | [] => pure ()
  | kind :: kinds => do
    ins.check symbols i kind
    ins.checkFrom symbols (i + 1) kinds

theorem map_encode (op : Op) (ins : Instruction) (symbols : Symbols) :
    (fun _ => ()) <$> ins.encode op symbols = ins.checkFrom symbols 0 op.operandKinds := by
  unfold encode Op.operandKinds
  cases op.family with
  | register =>
    cases op.isUnary with
    | true =>
      -- The third register is a constant here, which the laws of `do` do not see through.
      simp only [if_true, checkFrom, check]
      cases ins.register 0 with
      | error e => rfl
      | ok rd => cases ins.register 1 <;> rfl
    | false => simp [checkFrom, check]
  | _ => simp [checkFrom, check]

theorem checkFrom_of_takes {kinds : List OperandKind}
    (h : ∀ j kind, kinds[j]? = some kind → ins.Takes symbols (i + j) kind) :
    ins.checkFrom symbols i kinds = .ok () := by
  induction kinds generalizing i with
  | nil => rfl
  | cons kind kinds ih =>
    have hfirst := check_of_takes (h 0 kind rfl)
    have hrest : ins.checkFrom symbols (i + 1) kinds = .ok () := by
      refine ih fun j k hk => ?_
      rw [Nat.add_assoc, Nat.add_comm 1 j]
      exact h (j + 1) k hk
    rw [checkFrom, show i = i + 0 from rfl, hfirst]
    exact hrest

/-- The check stops at the first operand that is not taken. -/
theorem checkFrom_of_rejects {kinds : List OperandKind} {j : Nat} (hj : kinds[j]? = some kind)
    (hbefore : ∀ k < j, ∀ kind, kinds[k]? = some kind → ins.Takes symbols (i + k) kind)
    (h : ins.Rejects symbols (i + j) kind cause) :
    ins.checkFrom symbols i kinds = .error cause := by
  induction kinds generalizing i j with
  | nil => cases hj
  | cons first kinds ih =>
    rw [checkFrom]
    cases j with
    | zero =>
      obtain rfl : first = kind := by simpa using hj
      rw [show i = i + 0 from rfl, check_of_rejects h]
      rfl
    | succ j =>
      have hfirst : ins.check symbols i first = .ok () :=
        check_of_takes (hbefore 0 (by omega) first rfl)
      have hrest : ins.checkFrom symbols (i + 1) kinds = .error cause := by
        refine ih hj (fun k hk kind hkind => ?_) ?_
        · rw [Nat.add_assoc, Nat.add_comm 1 k]
          exact hbefore (k + 1) (by omega) kind hkind
        · rw [Nat.add_assoc, Nat.add_comm 1 j]
          exact h
      rw [hfirst]
      exact hrest

/-- Either all operands are taken, or there is a leftmost one that is not. -/
theorem takes_or_exists_rejects (symbols : Symbols) (ins : Instruction)
    (kinds : List OperandKind) :
    (∀ i kind, kinds[i]? = some kind → ins.Takes symbols i kind) ∨
      ∃ i kind cause, kinds[i]? = some kind ∧
        (∀ j < i, ∀ k, kinds[j]? = some k → ins.Takes symbols j k) ∧
        ins.Rejects symbols i kind cause := by
  by_cases h : ∃ i kind, kinds[i]? = some kind ∧ ¬ ins.Takes symbols i kind
  · -- The least position that is not taken is the leftmost operand that is wrong.
    classical
    obtain ⟨kind, hkind, hnot⟩ := Nat.find_spec h
    obtain ⟨cause, hcause⟩ := (takes_or_rejects symbols ins (Nat.find h) kind).resolve_left hnot
    refine .inr ⟨Nat.find h, kind, cause, hkind, ?_, hcause⟩
    intro j hj k hk
    by_contra hnot
    exact Nat.find_min h hj ⟨k, hk, hnot⟩
  · refine .inl fun i kind hkind => ?_
    by_contra hnot
    exact h ⟨i, kind, hkind, hnot⟩

/-! ## Instructions -/

theorem wellFormed_or_fault (symbols : Symbols) (ins : Instruction) :
    ins.WellFormed symbols ∨ ∃ cause, ins.Fault symbols cause := by
  cases known : Op.ofMnemonic? ins.mnemonic with
  | none => exact .inr ⟨_, .mnemonic known⟩
  | some op =>
    rcases takes_or_exists_rejects symbols ins op.operandKinds with h | h
    · exact .inl ⟨op, known, h⟩
    · obtain ⟨i, kind, cause, required, leftmost, rejected⟩ := h
      exact .inr ⟨cause, .operand known required leftmost rejected⟩

theorem assemble_of_wellFormed (h : ins.WellFormed symbols) :
    ∃ words, ins.assemble symbols = .ok words := by
  obtain ⟨op, known, takes⟩ := h
  have hcheck : (fun _ => ()) <$> ins.encode op symbols = .ok () := by
    rw [map_encode]
    refine checkFrom_of_takes fun j kind hkind => ?_
    rw [Nat.zero_add]
    exact takes j kind hkind
  obtain ⟨words, hwords⟩ := map_eq_ok_iff.mp hcheck
  exact ⟨words, assemble_eq_ok_iff.mpr ⟨op, known, hwords⟩⟩

theorem assemble_of_fault (h : ins.Fault symbols cause) :
    ins.assemble symbols = .error { line := ins.line, cause } := by
  unfold assemble
  cases h with
  | mnemonic unknown => rw [unknown]
  | operand known required leftmost rejected =>
    rename_i op i kind
    have hcheck : (fun _ => ()) <$> ins.encode op symbols = .error cause := by
      rw [map_encode]
      refine checkFrom_of_rejects required (fun j hj k hk => ?_) ?_
      · rw [Nat.zero_add]
        exact leftmost j hj k hk
      · rw [Nat.zero_add]
        exact rejected
    simp [known, map_eq_error_iff.mp hcheck, Except.mapError]

theorem exists_assemble_iff : (∃ words, ins.assemble symbols = .ok words) ↔
    ins.WellFormed symbols := by
  refine ⟨fun h => ?_, assemble_of_wellFormed⟩
  obtain ⟨words, hwords⟩ := h
  refine (wellFormed_or_fault symbols ins).resolve_right fun hfault => ?_
  obtain ⟨cause, hcause⟩ := hfault
  rw [assemble_of_fault hcause] at hwords
  cases hwords

theorem assemble_eq_error_iff {e : Error} : ins.assemble symbols = .error e ↔
    e.line = ins.line ∧ ins.Fault symbols e.cause := by
  constructor
  · intro h
    rcases wellFormed_or_fault symbols ins with hok | hfault
    · obtain ⟨words, hwords⟩ := assemble_of_wellFormed hok
      rw [hwords] at h
      cases h
    · obtain ⟨cause, hcause⟩ := hfault
      rw [assemble_of_fault hcause] at h
      cases h
      exact ⟨rfl, hcause⟩
  · intro h
    obtain ⟨hline, hcause⟩ := h
    rw [assemble_of_fault hcause, ← hline]

theorem not_wellFormed_of_fault (h : ins.Fault symbols cause) : ¬ ins.WellFormed symbols := by
  rw [← exists_assemble_iff, assemble_of_fault h]
  simp

/-! ## Labels and targets -/

section Symbols

variable {symbols' : Symbols}

theorem target_congr (h : ∀ token, ins.operands[i]? = some token →
    symbols.get? token = symbols'.get? token) : ins.target symbols i = ins.target symbols' i := by
  unfold target
  cases present : ins.operands[i]? with
  | none =>
    rw [operand, present]
    rfl
  | some token =>
    rw [operand_of_present present]
    simp only [bind, Except.bind, h token present]

theorem encode_congr {op : Op} (h : ∀ i, op.operandKinds[i]? = some OperandKind.target →
    ins.target symbols i = ins.target symbols' i) :
    ins.encode op symbols = ins.encode op symbols' := by
  unfold Op.operandKinds at h
  cases hf : op.family with
  | jump =>
    rw [hf] at h
    simp only [encode, hf, h 0 rfl]
  | branch =>
    rw [hf] at h
    simp only [encode, hf, h 1 rfl]
  | _ => simp only [encode, hf]

/-- The labels of a program matter to an instruction only where it takes a target. -/
theorem assemble_congr (h : ∀ op (i : Nat) token, Op.ofMnemonic? ins.mnemonic = some op →
      op.operandKinds[i]? = some OperandKind.target → ins.operands[i]? = some token →
      symbols.get? token = symbols'.get? token) :
    ins.assemble symbols = ins.assemble symbols' := by
  unfold assemble
  cases known : Op.ofMnemonic? ins.mnemonic with
  | none => rfl
  | some op =>
    have hencode : ins.encode op symbols = ins.encode op symbols' := by
      apply encode_congr
      intro i hi
      exact target_congr fun token => h op i token known hi
    simp only [hencode]

end Symbols

end Instruction

/-! ## Programs -/

/-- A check of a list succeeds when it succeeds for each element. -/
theorem exists_mapM_iff {ε α β : Type} {f : α → Except ε β} {xs : List α} :
    (∃ ys, xs.mapM f = .ok ys) ↔ ∀ x ∈ xs, ∃ y, f x = .ok y := by
  induction xs with
  | nil => exact iff_of_true ⟨[], rfl⟩ (by simp)
  | cons x xs ih =>
    rw [List.forall_mem_cons, ← ih]
    constructor
    · intro h
      obtain ⟨ys, hys⟩ := h
      obtain ⟨y, ys', hy, hys', -⟩ := Program.mapM_cons_eq_ok_iff.mp hys
      exact ⟨⟨y, hy⟩, ys', hys'⟩
    · intro h
      obtain ⟨⟨y, hy⟩, ys, hys⟩ := h
      exact ⟨y :: ys, Program.mapM_cons_eq_ok_iff.mpr ⟨y, ys, hy, hys, rfl⟩⟩

theorem mapM_cons_eq_error_iff {ε α β : Type} {f : α → Except ε β} {x : α} {xs : List α} {e : ε} :
    (x :: xs).mapM f = .error e ↔
      f x = .error e ∨ (∃ y, f x = .ok y) ∧ xs.mapM f = .error e := by
  rw [List.mapM_cons]
  cases f x with
  | error d => simp [bind, Except.bind]
  | ok y => cases xs.mapM f <;> simp [bind, Except.bind, pure, Except.pure]

/-- A check of a list fails with the error of the first element that fails. -/
theorem mapM_eq_error_iff {ε α β : Type} {f : α → Except ε β} {xs : List α} {e : ε} :
    xs.mapM f = .error e ↔ ∃ before x after, xs = before ++ x :: after ∧
      (∀ y ∈ before, ∃ z, f y = .ok z) ∧ f x = .error e := by
  constructor
  · intro h
    induction xs with
    | nil => cases h
    | cons x xs ih =>
      rcases mapM_cons_eq_error_iff.mp h with hx | ⟨hx, hxs⟩
      · exact ⟨[], x, xs, rfl, by simp, hx⟩
      · obtain ⟨before, y, after, rfl, hbefore, hy⟩ := ih hxs
        exact ⟨x :: before, y, after, rfl, List.forall_mem_cons.mpr ⟨hx, hbefore⟩, hy⟩
  · intro h
    obtain ⟨before, x, after, rfl, hbefore, hx⟩ := h
    induction before with
    | nil => exact mapM_cons_eq_error_iff.mpr (.inl hx)
    | cons y before ih =>
      rw [List.forall_mem_cons] at hbefore
      exact mapM_cons_eq_error_iff.mpr (.inr ⟨hbefore.1, ih hbefore.2⟩)

theorem mapM_congr_left {ε α β : Type} {f g : α → Except ε β} {xs : List α}
    (h : ∀ x ∈ xs, f x = g x) : xs.mapM f = xs.mapM g := by
  induction xs with
  | nil => rfl
  | cons x xs ih =>
    rw [List.forall_mem_cons] at h
    rw [List.mapM_cons, List.mapM_cons, h.1, ih h.2]

namespace Program

variable {p : Program}

theorem exists_encode_iff : (∃ words, p.encode = .ok words) ↔
    ∀ ins ∈ p.instructions, ins.WellFormed p.symbols := by
  have hblocks : (∃ words, p.encode = .ok words) ↔
      ∃ blocks, p.instructions.mapM (·.assemble p.symbols) = .ok blocks := by
    simp only [encode_eq_ok_iff]
    constructor
    · intro h
      obtain ⟨-, blocks, hblocks, -⟩ := h
      exact ⟨blocks, hblocks⟩
    · intro h
      obtain ⟨blocks, hblocks⟩ := h
      exact ⟨blocks.flatten, blocks, hblocks, rfl⟩
  rw [hblocks, exists_mapM_iff]
  simp only [Instruction.exists_assemble_iff]

/-- The error of a program is that of the first instruction that is not well formed. -/
theorem encode_eq_error_iff {e : Error} : p.encode = .error e ↔ ∃ before ins after,
    p.instructions = before ++ ins :: after ∧
    (∀ earlier ∈ before, earlier.WellFormed p.symbols) ∧
    e.line = ins.line ∧ ins.Fault p.symbols e.cause := by
  have hmapM : p.encode = .error e ↔
      p.instructions.mapM (·.assemble p.symbols) = .error e := by
    unfold encode
    cases p.instructions.mapM (·.assemble p.symbols) with
    | error d => simp [bind, Except.bind]
    | ok blocks => simp [bind, Except.bind, pure, Except.pure]
  rw [hmapM, mapM_eq_error_iff]
  simp only [Instruction.exists_assemble_iff, Instruction.assemble_eq_error_iff]

/-- An instruction stands on the line of the source text that it is numbered with. -/
theorem exists_line_of_mem_ofSource {source : Text} {ins : Instruction}
    (h : ins ∈ (ofSource source).instructions) :
    1 ≤ ins.line ∧ ∃ line, (Text.lines source)[ins.line - 1]? = some line ∧
      (Statement.parse line).command = some ins.toCommand := by
  obtain ⟨i, s, hline, hs, hc⟩ := exists_line_of_mem h
  rw [statements, List.getElem?_map, Option.map_eq_some_iff] at hs
  obtain ⟨line, hget, rfl⟩ := hs
  have hi : ins.line - 1 = i := by omega
  exact ⟨by omega, line, hi ▸ hget, hc⟩

end Program

/-- **Acceptance and diagnosis.** A source text assembles exactly when all of its instructions are
well formed. Otherwise the error is that of the first instruction in source order that is not: its
line, and what is wrong with it. -/
theorem assemble_diagnosis (source : Text) :
    let p := Program.ofSource source
    ((∃ words, assemble source = .ok words) ↔
      ∀ ins ∈ p.instructions, ins.WellFormed p.symbols) ∧
    (∀ e, assemble source = .error e ↔ ∃ before ins after,
      p.instructions = before ++ ins :: after ∧
      (∀ earlier ∈ before, earlier.WellFormed p.symbols) ∧
      ¬ ins.WellFormed p.symbols ∧ e.line = ins.line ∧ ins.Fault p.symbols e.cause) ∧
    (∀ ins ∈ p.instructions, 1 ≤ ins.line ∧ ∃ line, (Text.lines source)[ins.line - 1]? = some line ∧
      (Statement.parse line).command = some ins.toCommand) ∧
    p.instructions.Pairwise fun a b => a.line < b.line := by
  intro p
  refine ⟨Program.exists_encode_iff, ?_, ?_, Program.pairwise_line _ 1 0⟩
  · intro e
    show p.encode = .error e ↔ _
    rw [Program.encode_eq_error_iff]
    constructor
    · intro h
      obtain ⟨before, ins, after, hins, hbefore, hline, hfault⟩ := h
      have hnot := Instruction.not_wellFormed_of_fault hfault
      exact ⟨before, ins, after, hins, hbefore, hnot, hline, hfault⟩
    · intro h
      obtain ⟨before, ins, after, hins, hbefore, -, hline, hfault⟩ := h
      exact ⟨before, ins, after, hins, hbefore, hline, hfault⟩
  · intro ins hins
    exact Program.exists_line_of_mem_ofSource hins

end Assembly

end Cvere
