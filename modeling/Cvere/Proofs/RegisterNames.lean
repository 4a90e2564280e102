import Cvere.Proofs.Diagnosis
import Cvere.Proofs.Numerals

/-!
# Which operands name a register

A register is named by one of four special names, or by the letter `R` and a number: one
hexadecimal digit, a hexadecimal number with the mark `0X`, or two or more decimal digits. These are
the names of `Names`, in upper case.

**Signs.** The reader of bounded numerals takes a plus sign in front of the digits, and it is not
kept from doing so here. This gives a register more names than it should have (`NamesSigned`), such
as `R+5` and `R0X+F`. `not_names_of_namesSigned` says that none of them is a name by the rules.

**Main result.** `parse?_acceptance`: an operand is read as a register exactly when it is a name by
the rules or a signed one, so that the rules are met exactly where there is no signed name.
-/

namespace Cvere

namespace Register

/-! ## The rules -/

/-- What may follow the letter `R`, with the number that it gives the register. -/
inductive Number : Text → Nat → Prop
  | marked {digits : Text} {n : Nat} : Numeral.Writes 16 digits n → n < 0x100000000 →
      Number ('0' :: 'X' :: digits) n
  | digit {c : Char} {n : Nat} : Numeral.IsDigit 16 c n → Number [c] n
  | decimal {digits : Text} {n : Nat} : 2 ≤ digits.length → Numeral.Writes 10 digits n →
      n < 0x100000000 → Number digits n

/-- The upper-case names of registers. -/
inductive Names : Text → Nat → Prop
  | pc : Names "PC".toList 16
  | sp : Names "SP".toList 17
  | lr : Names "LR".toList 18
  | sr : Names "SR".toList 19
  | numbered {number : Text} {n : Nat} : Number number n → Names ('R' :: number) n

/-- What is also read after the letter `R`: a number with a plus sign in front of its digits. -/
inductive SignedNumber : Text → Nat → Prop
  | marked {digits : Text} {n : Nat} : Numeral.Writes 16 digits n → n < 0x100000000 →
      SignedNumber ('0' :: 'X' :: '+' :: digits) n
  | decimal {digits : Text} {n : Nat} : Numeral.Writes 10 digits n → n < 0x100000000 →
      SignedNumber ('+' :: digits) n

/-- The letter `R` and a number with a plus sign. -/
def NamesSigned (t : Text) (n : Nat) : Prop :=
  ∃ number, t = 'R' :: number ∧ SignedNumber number n

/-! ## Signs -/

theorem Number.plus_not_mem {t : Text} {n : Nat} (h : Number t n) : '+' ∉ t := by
  cases h with
  | marked hw _ => simp [hw.not_mem (by decide) (by decide : Numeral.digit? 16 '+' = none)]
  | digit hc => exact (Numeral.writes_singleton_iff.mpr hc).not_mem (by decide) (by decide)
  | decimal _ hw _ => exact hw.not_mem (by decide) (by decide)

theorem SignedNumber.plus_mem {t : Text} {n : Nat} (h : SignedNumber t n) : '+' ∈ t := by
  cases h <;> simp

/-- A signed name is no name by the rules, for whatever register. -/
theorem not_names_of_namesSigned {t : Text} {m n : Nat} (h : NamesSigned t m) : ¬ Names t n := by
  obtain ⟨number, rfl, hsigned⟩ := h
  intro hnames
  cases hnames with
  | numbered hnumber => exact hnumber.plus_not_mem hsigned.plus_mem

/-! ## The reader -/

theorem read_eq_some_iff {radix : Nat} {t : Text} {n : Nat} (hr : 0 < radix) (hr16 : radix ≤ 16) :
    (Numeral.read radix bound t).toOption = some n ↔
      ∃ digits, (t = digits ∨ t = '+' :: digits) ∧ Numeral.Writes radix digits n ∧ n < bound :=
  Numeral.toOption_read_eq_some_iff hr hr16 (by decide)

theorem number?_of_length_le {t : Text} (h : t.length ≤ 1) :
    number? t = (Numeral.read 16 bound t).toOption := by
  unfold number?
  split
  · simp at h
  · exact if_pos h

theorem number?_of_two_le_length {t : Text} (hmark : ∀ digits, t ≠ '0' :: 'X' :: digits)
    (h : 2 ≤ t.length) : number? t = (Numeral.read 10 bound t).toOption := by
  unfold number?
  split
  · exact absurd rfl (hmark _)
  · exact if_neg (by omega)

theorem number?_of_number {t : Text} {n : Nat} (h : Number t n) : number? t = some n := by
  cases h with
  | marked hw hlt =>
    exact (read_eq_some_iff (by decide) (by decide)).mpr ⟨_, .inl rfl, hw, hlt⟩
  | digit hc =>
    have hlt : n < bound := Nat.lt_trans hc.1 (by decide)
    rw [number?_of_length_le (by simp), read_eq_some_iff (by decide) (by decide)]
    exact ⟨_, .inl rfl, Numeral.writes_singleton_iff.mpr hc, hlt⟩
  | decimal hlen hw hlt =>
    have hmark : ∀ digits, t ≠ '0' :: 'X' :: digits := by
      rintro digits rfl
      exact hw.not_mem (c := 'X') (by decide) (by decide) (by simp)
    rw [number?_of_two_le_length hmark hlen, read_eq_some_iff (by decide) (by decide)]
    exact ⟨t, .inl rfl, hw, hlt⟩

theorem number?_of_signedNumber {t : Text} {n : Nat} (h : SignedNumber t n) :
    number? t = some n := by
  cases h with
  | marked hw hlt =>
    exact (read_eq_some_iff (by decide) (by decide)).mpr ⟨_, .inr rfl, hw, hlt⟩
  | @decimal digits _ hw hlt =>
    have hlen : 2 ≤ ('+' :: digits).length := by
      have hpos := List.length_pos_iff.mpr hw.1
      rw [List.length_cons]
      omega
    rw [number?_of_two_le_length (by simp) hlen, read_eq_some_iff (by decide) (by decide)]
    exact ⟨digits, .inr rfl, hw, hlt⟩

/-- Whatever is read after the letter `R` is a number by the rules or a signed one. -/
theorem number_of_number? {t : Text} {n : Nat} (h : number? t = some n) :
    Number t n ∨ SignedNumber t n := by
  unfold number? at h
  split at h
  · obtain ⟨digits, rfl | rfl, hw, hlt⟩ := (read_eq_some_iff (by decide) (by decide)).mp h
    · exact .inl (.marked hw hlt)
    · exact .inr (.marked hw hlt)
  split at h
  · next hlen =>
    obtain ⟨digits, rfl | rfl, hw, -⟩ := (read_eq_some_iff (by decide) (by decide)).mp h
    · have hone : t.length = 1 := by
        have hpos := List.length_pos_iff.mpr hw.1
        omega
      obtain ⟨c, rfl⟩ := List.length_eq_one_iff.mp hone
      exact .inl (.digit (Numeral.writes_singleton_iff.mp hw))
    · -- A plus sign alone is followed by no digits.
      have hnil : digits = [] := by simpa using hlen
      exact absurd hnil hw.1
  · next hlen =>
    obtain ⟨digits, rfl | rfl, hw, hlt⟩ := (read_eq_some_iff (by decide) (by decide)).mp h
    · exact .inl (.decimal (by omega) hw hlt)
    · exact .inr (.decimal hw hlt)

theorem names_of_lookup {t : Text} {n : Nat} (h : special.lookup t = some n) : Names t n := by
  obtain ⟨front, back, hsplit, -⟩ := List.lookup_eq_some_iff.mp h
  have hmem : (t, n) ∈ special := by
    rw [hsplit]
    simp
  simp only [special, List.mem_cons, Prod.mk.injEq, List.not_mem_nil, or_false] at hmem
  rcases hmem with ⟨rfl, rfl⟩ | ⟨rfl, rfl⟩ | ⟨rfl, rfl⟩ | ⟨rfl, rfl⟩
  · exact .pc
  · exact .sp
  · exact .lr
  · exact .sr

/-- No special name begins with the letter of the numbered ones. -/
theorem ofUpper?_numbered (number : Text) : ofUpper? ('R' :: number) = number? number := by
  have hlookup : special.lookup ('R' :: number) = none := by
    simp [special, List.lookup_cons]
  simp only [ofUpper?, hlookup]

theorem ofUpper?_eq_some_iff {t : Text} {n : Nat} :
    ofUpper? t = some n ↔ Names t n ∨ NamesSigned t n := by
  constructor
  · intro h
    unfold ofUpper? at h
    split at h
    · next hspecial =>
      cases h
      exact .inl (names_of_lookup hspecial)
    · rcases number_of_number? h with h | h
      · exact .inl (.numbered h)
      · exact .inr ⟨_, rfl, h⟩
    · cases h
  · rintro (h | ⟨number, rfl, h⟩)
    · cases h with
      | pc | sp | lr | sr => rfl
      | numbered h => rw [ofUpper?_numbered, number?_of_number h]
    · rw [ofUpper?_numbered, number?_of_signedNumber h]

theorem parse?_eq_none_iff {token : Text} :
    parse? token = none ↔ ∀ n, ¬ Names (Text.upper (Text.trim token)) n ∧
      ¬ NamesSigned (Text.upper (Text.trim token)) n := by
  simp only [Option.eq_none_iff_forall_ne_some, ne_eq, parse?, ofUpper?_eq_some_iff, not_or]

end Register

/-! ## Instructions -/

namespace Assembly

variable {symbols : Symbols} {ins : Instruction} {op : Op} {i : Nat} {token : Text}

/-- A register operand is reported exactly when it cannot be read, once the operands before it are
taken. -/
theorem Instruction.assemble_eq_invalidRegister_iff (known : Op.ofMnemonic? ins.mnemonic = some op)
    (required : op.operandKinds[i]? = some .register) (present : ins.operands[i]? = some token)
    (leftmost : ∀ j < i, ∀ k, op.operandKinds[j]? = some k → ins.Takes symbols j k) :
    ins.assemble symbols = .error ⟨ins.line, .invalidRegister token⟩ ↔
      Register.parse? token = none := by
  rw [assemble_eq_error_iff]
  constructor
  · rintro ⟨-, hfault⟩
    cases hfault with
    | operand _ _ _ rejected =>
      cases rejected with
      | invalidRegister _ unread => exact unread
  · intro unread
    exact ⟨rfl, .operand known required leftmost (.invalidRegister present unread)⟩

end Assembly

namespace Register

open Assembly

/-- **Register names.** An operand is read as a register exactly when its trimmed, upper-case text
is a name by the rules, or `R` and a number with a plus sign in front of its digits. So the rules
are met exactly by the operands that are no signed names. An instruction is refused for a register
operand, after operands that it takes, exactly when the operand is neither. -/
theorem parse?_acceptance (token : Text) :
    let t := Text.upper (Text.trim token)
    (∀ n, parse? token = some n ↔ Names t n ∨ NamesSigned t n) ∧
    ((∀ n, parse? token = some n ↔ Names t n) ↔ ¬ ∃ n, NamesSigned t n) ∧
    ∀ (symbols : Symbols) (ins : Instruction) (op : Op) (i : Nat),
      Op.ofMnemonic? ins.mnemonic = some op → op.operandKinds[i]? = some .register →
      ins.operands[i]? = some token →
      (∀ j < i, ∀ kind, op.operandKinds[j]? = some kind → ins.Takes symbols j kind) →
      (ins.assemble symbols = .error ⟨ins.line, .invalidRegister token⟩ ↔
        ∀ n, ¬ Names t n ∧ ¬ NamesSigned t n) := by
  intro t
  have hread : ∀ n, parse? token = some n ↔ Names t n ∨ NamesSigned t n :=
    fun n => ofUpper?_eq_some_iff
  refine ⟨hread, ?_, ?_⟩
  · constructor
    · rintro hrules ⟨n, hsigned⟩
      have hnames := (hrules n).mp ((hread n).mpr (.inr hsigned))
      exact not_names_of_namesSigned hsigned hnames
    · intro hunsigned n
      rw [hread, or_iff_left]
      exact fun hsigned => hunsigned ⟨n, hsigned⟩
  · intro symbols ins op i known required present leftmost
    rw [Instruction.assemble_eq_invalidRegister_iff known required present leftmost,
      parse?_eq_none_iff]

/-- A minus sign is refused, as the rules say. -/
theorem parse?_acceptance_minus :
    let ins : Instruction :=
      { mnemonic := "ADDI".toList, operands := ["R-5".toList, "1".toList], label := none, line := 1,
        address := 0 }
    let t := Text.upper (Text.trim "R-5".toList)
    Op.ofMnemonic? ins.mnemonic = some .addi ∧
      ins.assemble Bindings.empty = .error ⟨1, .invalidRegister "R-5".toList⟩ ∧
      ∀ n, ¬ Names t n ∧ ¬ NamesSigned t n := by
  intro ins t
  have hrefused : ins.assemble Bindings.empty = .error ⟨1, .invalidRegister "R-5".toList⟩ := by
    decide
  have hiff := (parse?_acceptance "R-5".toList).2.2 Bindings.empty ins .addi 0 (by decide)
    (by decide) (by decide) (by simp)
  exact ⟨by decide, hrefused, hiff.mp hrefused⟩

/-- A plus sign among the digits is no part of a register name, and yet the operand is read and the
instruction assembles. -/
theorem parse?_plus_five :
    parse? "R+5".toList = some 5 ∧ (∀ n, ¬ Names (Text.upper (Text.trim "R+5".toList)) n) ∧
      assemble "ADDI R+5, 1".toList = .ok [0x2501] := by
  have hfive : Numeral.Writes 10 ['5'] 5 :=
    Numeral.writes_singleton_iff.mpr ⟨by decide, .inl rfl⟩
  refine ⟨by decide, fun n => ?_, by decide⟩
  exact not_names_of_namesSigned (m := 5) ⟨['+', '5'], by decide, .decimal hfive (by decide)⟩

end Register

end Cvere
