import Cvere.Proofs.Numerals
import Cvere.Proofs.Recovery
import Mathlib.Data.Int.ModEq

/-!
# Literals of any length

A literal may have any number of digits. It is read in sixty-four bits, and the instruction keeps
four, eight or twelve of them, but neither loses anything that the field could hold: the field is
the exact integer modulo the number of values that the field has.

**The grammar.** `Denotes` says which texts are literals and which integer each of them writes: an
optional sign, and digits with or without a mark. It does not mention the reader.

**Two reductions.** The literal is the integer modulo `2 ^ 64` (`eq_ofInt_iff_modEq`), and the field
is the literal modulo a smaller power of two, which divides the other (`toNat_ofInt_of_modEq`).

**Main result.** `literal_fields`: the texts that are literals, their values, and the fields of
instructions with literals.
-/

namespace Cvere

namespace Literal

/-! ## The grammar -/

/-- The number that a literal without a sign writes. -/
inductive Magnitude : Text → Nat → Prop
  | hexadecimal {mark digits : Text} {n : Nat} : mark = ['0', 'x'] ∨ mark = ['0', 'X'] →
      Numeral.Writes 16 digits n → Magnitude (mark ++ digits) n
  | binary {mark digits : Text} {n : Nat} : mark = ['0', 'b'] ∨ mark = ['0', 'B'] →
      Numeral.Writes 2 digits n → Magnitude (mark ++ digits) n
  | decimal {digits : Text} {n : Nat} : Numeral.Writes 10 digits n → Magnitude digits n

/-- The exact integer that a literal writes. -/
inductive Denotes : Text → Int → Prop
  | unsigned {t : Text} {n : Nat} : Magnitude t n → Denotes t n
  | plus {t : Text} {n : Nat} : Magnitude t n → Denotes ('+' :: t) n
  | minus {t : Text} {n : Nat} : Magnitude t n → Denotes ('-' :: t) (-n)

/-! ## Readers -/

theorem binaryMarked?_eq_some_iff {t digits : Text} :
    binaryMarked? t = some digits ↔ t = '0' :: 'b' :: digits ∨ t = '0' :: 'B' :: digits := by
  unfold binaryMarked?
  split
  · simp
  · simp
  · next hlower hupper =>
    simp only [reduceCtorEq, false_iff, not_or]
    exact ⟨hlower digits, hupper digits⟩

/-- Decimal digits have no mark of a binary number in them. -/
theorem binaryMarked?_eq_none {t : Text} {n : Nat} (h : Numeral.Writes 10 t n) :
    binaryMarked? t = none := by
  rw [Option.eq_none_iff_forall_ne_some]
  intro digits hdigits
  rcases binaryMarked?_eq_some_iff.mp hdigits with rfl | rfl
  · exact h.not_mem (c := 'b') (by decide) (by decide) (by simp)
  · exact h.not_mem (c := 'B') (by decide) (by decide) (by simp)

theorem unsigned?_eq_some_iff {t : Text} {n : Nat} :
    unsigned? Numeral.natural? t = some n ↔ Magnitude t n := by
  constructor
  · intro h
    unfold unsigned? at h
    split at h
    · next digits _ hmark =>
      have hw := (Numeral.natural?_eq_some_iff (by decide)).mp h
      rcases Numeral.hexMarked?_eq_some_iff.mp hmark with rfl | rfl
      · exact .hexadecimal (.inl rfl) hw
      · exact .hexadecimal (.inr rfl) hw
    · next digits _ hmark =>
      have hw := (Numeral.natural?_eq_some_iff (by decide)).mp h
      rcases binaryMarked?_eq_some_iff.mp hmark with rfl | rfl
      · exact .binary (.inl rfl) hw
      · exact .binary (.inr rfl) hw
    · exact .decimal ((Numeral.natural?_eq_some_iff (by decide)).mp h)
  · intro h
    cases h with
    | hexadecimal hmark hw =>
      have hread := (Numeral.natural?_eq_some_iff (by decide)).mpr hw
      rcases hmark with rfl | rfl
      · exact hread
      · exact hread
    | binary hmark hw =>
      have hread := (Numeral.natural?_eq_some_iff (by decide)).mpr hw
      rcases hmark with rfl | rfl
      · exact hread
      · exact hread
    | decimal hw =>
      unfold unsigned?
      rw [hw.hexMarked?_eq_none (by decide), binaryMarked?_eq_none hw]
      exact (Numeral.natural?_eq_some_iff (by decide)).mpr hw

/-- A sign is no part of the number behind it. -/
theorem Magnitude.sign_not_mem {t : Text} {n : Nat} (h : Magnitude t n) {c : Char}
    (hc : c = '+' ∨ c = '-') : c ∉ t := by
  have hdigit : Numeral.hexDigit? c = none := by
    rcases hc with rfl | rfl <;> decide
  have hmark : c ≠ '0' ∧ c ≠ 'x' ∧ c ≠ 'X' ∧ c ≠ 'b' ∧ c ≠ 'B' := by
    rcases hc with rfl | rfl <;> decide
  have hfree : ∀ {radix : Nat} {digits : Text}, radix ≤ 16 → Numeral.Writes radix digits n →
      c ∉ digits := by
    intro radix digits hr hw
    exact hw.not_mem hr (Numeral.digit?_eq_none hdigit radix)
  cases h with
  | hexadecimal hm hw => rcases hm with rfl | rfl <;> simp [hmark, hfree (by decide) hw]
  | binary hm hw => rcases hm with rfl | rfl <;> simp [hmark, hfree (by decide) hw]
  | decimal hw => exact hfree (by decide) hw

theorem integer?_eq_some_iff {t : Text} {n : Int} : integer? t = some n ↔ Denotes t n := by
  have hunsigned : ∀ {t : Text} {n : Int},
      unsigned? (fun radix digits => (Numeral.natural? radix digits).map Int.ofNat) t = some n ↔
        ∃ m : Nat, Magnitude t m ∧ (m : Int) = n := by
    intro t n
    rw [unsigned?_map, Option.map_eq_some_iff]
    simp only [unsigned?_eq_some_iff]
    rfl
  constructor
  · intro h
    unfold integer? signed? at h
    split at h
    · obtain ⟨a, ha, rfl⟩ := Option.map_eq_some_iff.mp h
      obtain ⟨m, hm, rfl⟩ := hunsigned.mp ha
      exact .minus hm
    · obtain ⟨m, hm, rfl⟩ := hunsigned.mp h
      exact .plus hm
    · obtain ⟨m, hm, rfl⟩ := hunsigned.mp h
      exact .unsigned hm
  · intro h
    unfold integer?
    cases h with
    | @unsigned _ m hm =>
      have hplus := hm.sign_not_mem (.inl rfl)
      have hminus := hm.sign_not_mem (.inr rfl)
      unfold signed?
      split
      · exact absurd List.mem_cons_self hminus
      · exact absurd List.mem_cons_self hplus
      · exact hunsigned.mpr ⟨m, hm, rfl⟩
    | @plus _ m hm => exact hunsigned.mpr ⟨m, hm, rfl⟩
    | @minus _ m hm =>
      exact Option.map_eq_some_iff.mpr ⟨m, hunsigned.mpr ⟨m, hm, rfl⟩, rfl⟩

/-! ## Values -/

/-- The literal for an integer is the one that is congruent to it. -/
theorem eq_ofInt_iff_modEq {v : Literal} {n : Int} :
    v = BitVec.ofInt 64 n ↔ v.toInt ≡ n [ZMOD 2 ^ 64] := by
  constructor
  · rintro rfl
    rw [BitVec.toInt_ofInt]
    exact Int.bmod_emod
  · intro h
    have htoNat : (BitVec.ofInt 64 v.toInt).toNat = (BitVec.ofInt 64 n).toNat := by
      rw [BitVec.toNat_ofInt, BitVec.toNat_ofInt]
      exact congrArg Int.toNat h
    rw [BitVec.ofInt_toInt] at htoNat
    exact BitVec.eq_of_toNat_eq htoNat

theorem parse?_eq_some_iff {token : Text} {v : Literal} :
    parse? token = some v ↔ ∃ n, Denotes (Text.trim token) n ∧ v.toInt ≡ n [ZMOD 2 ^ 64] := by
  rw [parse?_eq_map_integer?, Option.map_eq_some_iff]
  simp only [integer?_eq_some_iff, ← eq_ofInt_iff_modEq, @eq_comm _ v]

/-- A literal is read as the one value that is congruent to the integer it writes. -/
theorem modEq_of_parse? {token : Text} {v : Literal} {n : Int} (hv : parse? token = some v)
    (hn : Denotes (Text.trim token) n) : v.toInt ≡ n [ZMOD 2 ^ 64] := by
  rw [parse?_eq_map_integer?, integer?_eq_some_iff.mpr hn] at hv
  cases hv
  exact eq_ofInt_iff_modEq.mp rfl

/-- A field of at most sixty-four bits does not tell congruent integers apart. -/
theorem toNat_ofInt_of_modEq {w : Nat} (hw : w ≤ 64) {m n : Int} (h : m ≡ n [ZMOD 2 ^ 64]) :
    ((BitVec.ofInt w m).toNat : Int) = n % 2 ^ w := by
  have hpos : (0 : Int) < 2 ^ w := by positivity
  have hcast : ((2 ^ w : Nat) : Int) = 2 ^ w := by norm_cast
  rw [BitVec.toNat_ofInt, hcast, Int.toNat_of_nonneg (Int.emod_nonneg m hpos.ne')]
  exact h.of_dvd (pow_dvd_pow 2 hw)

end Literal

/-! ## Fields -/

namespace Assembly

namespace Instruction

/-- The operand at a position is a literal that writes the integer. -/
def LiteralAt (ins : Instruction) (i : Nat) (n : Int) : Prop :=
  ∃ token, ins.operands[i]? = some token ∧ Literal.Denotes (Text.trim token) n

/-- The operand at a position is a literal that writes the integer, and no label has its text. -/
def LiteralTargetAt (symbols : Symbols) (ins : Instruction) (i : Nat) (n : Int) : Prop :=
  ∃ token, ins.operands[i]? = some token ∧ symbols.get? token = none ∧
    Literal.Denotes (Text.trim token) n

/-- The number of the instruction, taken as one of the given operation, is written as a literal. -/
def WritesNumber (op : Op) (ins : Instruction) (symbols : Symbols) (n : Int) : Prop :=
  match op.family with
  | .immediate => ins.LiteralAt 1 n
  | .memory => ins.LiteralAt 2 n
  | .jump => ins.LiteralTargetAt symbols 0 n
  | .branch => ins.LiteralTargetAt symbols 1 n
  | .register | .extended | .special => False

variable {op : Op} {ins : Instruction} {symbols : Symbols} {i : Nat} {m n : Int}

theorem modEq_of_numberAt (hm : ins.NumberAt i m) (hn : ins.LiteralAt i n) :
    m ≡ n [ZMOD 2 ^ 64] := by
  obtain ⟨token, v, htoken, hv, rfl⟩ := hm
  obtain ⟨token', htoken', hdenotes⟩ := hn
  cases htoken.symm.trans htoken'
  exact Literal.modEq_of_parse? hv hdenotes

theorem modEq_of_targetAt {t : Target} (ht : ins.TargetAt symbols i t)
    (hn : ins.LiteralTargetAt symbols i n) :
    ∃ v, t = .literal v ∧ v.toInt ≡ n [ZMOD 2 ^ 64] := by
  obtain ⟨token, htoken, hread⟩ := ht
  obtain ⟨token', htoken', hunknown, hdenotes⟩ := hn
  cases htoken.symm.trans htoken'
  rcases hread with ⟨a, ha, -⟩ | ⟨-, v, hv, rfl⟩
  · rw [hunknown] at ha
    cases ha
  · exact ⟨v, rfl, Literal.modEq_of_parse? hv hdenotes⟩

/-- The number that is packed is congruent to the integer that the literal writes. -/
theorem modEq_of_hasOperands {o : Operands} (ho : ins.HasOperands op symbols o)
    (hn : ins.WritesNumber op symbols n) : o.number ≡ n [ZMOD 2 ^ 64] := by
  unfold HasOperands at ho
  unfold WritesNumber at hn
  cases hf : op.family with
  | immediate =>
    rw [hf] at ho hn
    exact modEq_of_numberAt ho.2.1 hn
  | memory =>
    rw [hf] at ho hn
    exact modEq_of_numberAt ho.2.2.1 hn
  | jump =>
    rw [hf] at ho hn
    obtain ⟨⟨t, ht, hnumber⟩, -⟩ := ho
    obtain ⟨v, rfl, hv⟩ := modEq_of_targetAt ht hn
    rw [hnumber]
    exact hv
  | branch =>
    rw [hf] at ho hn
    obtain ⟨-, ⟨t, ht, hnumber⟩, -⟩ := ho
    obtain ⟨v, rfl, hv⟩ := modEq_of_targetAt ht hn
    rw [hnumber]
    exact hv
  | register | extended | special =>
    rw [hf] at hn
    cases hn

theorem words_of_writesNumber {words : List Word} (h : ins.encode op symbols = .ok words)
    (hn : ins.WritesNumber op symbols n) :
    ∃ o : Operands, words = [o.word op] ∧ o.number ≡ n [ZMOD 2 ^ 64] := by
  rw [encode_eq_map_read] at h
  cases hread : ins.read op symbols with
  | error cause =>
    rw [hread] at h
    cases h
  | ok o =>
    rw [hread] at h
    cases h
    refine ⟨o, ?_, modEq_of_hasOperands (read_eq_ok_iff.mp hread) hn⟩
    have hone : op.family ≠ .extended := by
      intro hf
      rw [WritesNumber, hf] at hn
      cases hn
    rw [Operands.words, if_neg hone]

end Instruction

/-- **Literals.** An operand is a literal exactly when its trimmed text is an optional sign and
hexadecimal, binary or decimal digits, however many, and its value is then the one sixty-four bit
number that is congruent to the integer written. When an instruction with a literal is encoded as
whatever operation, its number field is that integer modulo the number of values of the field. A
target is a literal when no label has its text. -/
theorem literal_fields :
    (∀ (token : Text) (v : Literal), Literal.parse? token = some v ↔
      ∃ n, Literal.Denotes (Text.trim token) n ∧ v.toInt ≡ n [ZMOD 2 ^ 64] ∧
        ∀ u : Literal, u.toInt ≡ n [ZMOD 2 ^ 64] → u = v) ∧
    ∀ (op : Op) (ins : Instruction) (symbols : Symbols) (words : List Word) (n : Int),
      ins.encode op symbols = .ok words → ins.WritesNumber op symbols n →
      ∃ word, words = [word] ∧
        (op.family = .immediate → (word.lowByte.toNat : Int) = n % 256) ∧
        (op.family = .memory → (word.fourth.toNat : Int) = n % 16) ∧
        (op.family = .jump → (word.tail.toNat : Int) = n % 4096) ∧
        (op.family = .branch → (word.lowByte.toNat : Int) = n % 256) := by
  constructor
  · intro token v
    rw [Literal.parse?_eq_some_iff]
    constructor
    · intro h
      obtain ⟨n, hn, hv⟩ := h
      refine ⟨n, hn, hv, fun u hu => ?_⟩
      rw [Literal.eq_ofInt_iff_modEq.mpr hu, Literal.eq_ofInt_iff_modEq.mpr hv]
    · intro h
      obtain ⟨n, hn, hv, -⟩ := h
      exact ⟨n, hn, hv⟩
  · intro op ins symbols words n hencode hn
    obtain ⟨o, rfl, hmod⟩ := Instruction.words_of_writesNumber hencode hn
    refine ⟨o.word op, rfl, ?_, ?_, ?_, ?_⟩
    · intro hf
      rw [Operands.word, hf, Word.lowByte_ofNibblesByte]
      exact Literal.toNat_ofInt_of_modEq (by decide) hmod
    · intro hf
      rw [Operands.word, hf, Word.fourth_ofNibbles]
      exact Literal.toNat_ofInt_of_modEq (by decide) hmod
    · intro hf
      rw [Operands.word, hf, Word.tail_ofNibbleTail]
      exact Literal.toNat_ofInt_of_modEq (by decide) hmod
    · intro hf
      rw [Operands.word, hf, Word.lowByte_ofNibblesByte]
      exact Literal.toNat_ofInt_of_modEq (by decide) hmod

/-- A negative literal of more than sixty-four bits as an immediate, and a binary one as a jump
behind a label with another name. -/
theorem literal_fields_wide :
    let load : Instruction :=
      { mnemonic := "LOADI".toList, operands := ["r1".toList, "-0x10000000000000105".toList],
        label := none, line := 1, address := 0 }
    let jump : Instruction :=
      { mnemonic := "JMP".toList, operands := ["+0b1000000000101".toList], label := none, line := 2,
        address := 2 }
    let symbols : Symbols := Bindings.empty.insert "x".toList 2
    load.encode .loadi symbols = .ok [0xC1FB] ∧
      load.WritesNumber .loadi symbols (-0x10000000000000105) ∧
      ((0xC1FB : Word).lowByte.toNat : Int) = -0x10000000000000105 % 256 ∧
      jump.encode .jmp symbols = .ok [0xD005] ∧ jump.WritesNumber .jmp symbols 0x1005 ∧
      ((0xD005 : Word).tail.toNat : Int) = 0x1005 % 4096 := by
  intro load jump symbols
  have hload : load.encode .loadi symbols = .ok [0xC1FB] := by decide
  have hjump : jump.encode .jmp symbols = .ok [0xD005] := by decide
  have hloadNumber : load.WritesNumber .loadi symbols (-0x10000000000000105) :=
    ⟨_, rfl, Literal.integer?_eq_some_iff.mp (by decide)⟩
  have hjumpNumber : jump.WritesNumber .jmp symbols 0x1005 :=
    ⟨_, rfl, by decide, Literal.integer?_eq_some_iff.mp (by decide)⟩
  refine ⟨hload, hloadNumber, ?_, hjump, hjumpNumber, ?_⟩
  · obtain ⟨word, hword, himmediate, -⟩ := literal_fields.2 _ _ _ _ _ hload hloadNumber
    cases hword
    exact himmediate rfl
  · obtain ⟨word, hword, -, -, htail, -⟩ := literal_fields.2 _ _ _ _ _ hjump hjumpNumber
    cases hword
    exact htail rfl

end Assembly

end Cvere
