import Cvere.Disassembly.Operands
import Cvere.Literal
import Cvere.Statement
import Cvere.Text.Line
import Mathlib.Data.List.TakeWhile

/-!
# Reading what was written

A listing writes an instruction as a mnemonic, a blank and operands with commas between them. Here
this is read back: a text of such lines falls into its lines again (`lines_unlines`), a line into
its mnemonic and operands (`parse_instruction`), and a register name or a hexadecimal number into
the number that was written (`Register.parse?_name`, `Literal.parse?_hex`).

**Trimming.** Blanks around the operands do not matter, because every operand is trimmed after the
split: `splitOperands_trim`. That is what lets the three trims of a line be ignored.
-/

namespace Cvere

namespace Text

/-! ## Trimming -/

theorem trimEnd_append (s t : Text) :
    trimEnd (s ++ t) = if trimEnd t = [] then trimEnd s else s ++ trimEnd t := by
  unfold trimEnd
  rw [List.reverse_append, List.dropWhile_append]
  cases t.reverse.dropWhile isBlank with
  | nil => rfl
  | cons c rest => simp

theorem trimEnd_eq_nil_iff {t : Text} : trimEnd t = [] ↔ ∀ c ∈ t, isBlank c = true := by
  unfold trimEnd
  rw [List.reverse_eq_nil_iff, List.dropWhile_eq_nil_iff]
  simp only [List.mem_reverse]

theorem trimStart_append_of_blank {a : Text} (ha : ∀ c ∈ a, isBlank c = true) (t : Text) :
    trimStart (a ++ t) = trimStart t :=
  List.dropWhile_append_of_pos ha

theorem trim_append_of_blank {a : Text} (ha : ∀ c ∈ a, isBlank c = true) (t : Text) :
    trim (a ++ t) = trim t := by
  rw [trim, trimStart_append_of_blank ha, ← trim]

theorem trim_append_blank {s : Text} (hs : ∀ c ∈ s, isBlank c = true) (t : Text) :
    trim (t ++ s) = trim t := by
  have hend : ∀ t, trimEnd (t ++ s) = trimEnd t := by
    intro t
    rw [trimEnd_append, if_pos (trimEnd_eq_nil_iff.mpr hs)]
  have hstart : trimStart s = [] := List.dropWhile_eq_nil_iff.mpr hs
  unfold trim
  rw [trimStart, List.dropWhile_append]
  split
  · next h =>
    have ht : trimStart t = [] := List.isEmpty_iff.mp h
    change trimEnd (trimStart s) = trimEnd (trimStart t)
    rw [hstart, ht]
  · exact hend _

theorem mem_of_mem_trim {t : Text} {c : Char} (h : c ∈ trim t) : c ∈ t := by
  unfold trim trimEnd at h
  have h := (List.dropWhile_sublist _).subset (List.mem_reverse.mp h)
  exact (List.dropWhile_sublist _).subset (List.mem_reverse.mp h)

/-- A text without blanks is trimmed. -/
theorem trimmed_of_not_blank {t : Text} (h : ∀ c ∈ t, isBlank c = false) : Trimmed t :=
  ⟨fun c hc => h c (List.mem_of_mem_head? hc), fun c hc => h c (List.mem_of_mem_getLast? hc)⟩

theorem before_eq_self {c : Char} {t : Text} (h : c ∉ t) : before c t = t := by
  rw [before, List.takeWhile_eq_self_iff]
  intro x hx
  simpa using fun hxc : x = c => h (hxc ▸ hx)

/-! ## Lines -/

/-- Lines that are put together come apart again. -/
theorem lines_unlines {ls : List Text}
    (h : ∀ l ∈ ls, l ≠ [] ∧ '\n' ∉ l ∧ l.getLast? ≠ some '\r') : lines (unlines ls) = ls := by
  induction ls with
  | nil => rfl
  | cons l ls ih =>
    obtain ⟨hne, hnl, hcr⟩ := h l List.mem_cons_self
    cases ls with
    | nil =>
      change lines (List.intercalate ['\n'] [l]) = [l]
      rw [List.intercalate_singleton, lines_of_not_mem hnl, if_neg (by simpa using hne)]
    | cons l' ls =>
      have hsplit : unlines (l :: l' :: ls) = l ++ '\n' :: unlines (l' :: ls) := by
        simp [unlines, join]
      rw [hsplit, lines_append_newline hnl, dropReturn_eq_self hcr,
        ih fun x hx => h x (List.mem_cons_of_mem _ hx)]

end Text

/-! ## Operands -/

namespace Disassembly

theorem commaList_singleton (o : Text) : commaList [o] = o := by
  simp [commaList, Text.join]

theorem commaList_cons_cons (o o' : Text) (ops : List Text) :
    commaList (o :: o' :: ops) = o ++ ',' :: ([' '] ++ commaList (o' :: ops)) := by
  simp [commaList, Text.join]

theorem mem_commaList {ops : List Text} {c : Char} (h : c ∈ commaList ops) :
    c = ',' ∨ c = ' ' ∨ ∃ o ∈ ops, c ∈ o := by
  induction ops with
  | nil => cases h
  | cons o ops ih =>
    cases ops with
    | nil =>
      rw [commaList_singleton] at h
      exact .inr (.inr ⟨o, List.mem_cons_self, h⟩)
    | cons o' ops =>
      rw [commaList_cons_cons, List.mem_append, List.mem_cons, List.mem_append,
        List.mem_singleton] at h
      rcases h with h | h | h | h
      · exact .inr (.inr ⟨o, List.mem_cons_self, h⟩)
      · exact .inl h
      · exact .inr (.inl h)
      · rcases ih h with h | h | ⟨o'', ho, h⟩
        · exact .inl h
        · exact .inr (.inl h)
        · exact .inr (.inr ⟨o'', List.mem_cons_of_mem _ ho, h⟩)

/-- Operands that show nothing are none, or one that is empty. -/
theorem trimEnd_commaList_eq_nil {ops : List Text} (h : ∀ o ∈ ops, Text.Trimmed o)
    (hnil : Text.trimEnd (commaList ops) = []) : ops = [] ∨ ops = [[]] := by
  rw [Text.trimEnd_eq_nil_iff] at hnil
  cases ops with
  | nil => exact .inl rfl
  | cons o ops =>
    cases ops with
    | nil =>
      rw [commaList_singleton] at hnil
      cases o with
      | nil => exact .inr rfl
      | cons c o =>
        have hc := (h _ List.mem_cons_self).1 c rfl
        rw [hnil c List.mem_cons_self] at hc
        cases hc
    | cons o' ops =>
      have hcomma := hnil ',' (by simp [commaList_cons_cons])
      exact absurd hcomma (by decide)

end Disassembly

namespace Command

theorem splitOperands_of_not_mem {t : Text} (h : ',' ∉ t) : splitOperands t = [Text.trim t] := by
  rw [splitOperands, List.splitOn_eq_singleton h]
  rfl

theorem splitOperands_append_comma {a : Text} (h : ',' ∉ a) (t : Text) :
    splitOperands (a ++ ',' :: t) = Text.trim a :: splitOperands t := by
  rw [splitOperands, List.splitOn_append_cons_self_of_not_mem h]
  rfl

theorem splitOperands_append_of_blank {a : Text} (ha : ∀ c ∈ a, Text.isBlank c = true) (t : Text) :
    splitOperands (a ++ t) = splitOperands t := by
  have hcomma : ',' ∉ a := fun h => absurd (ha _ h) (by decide)
  by_cases ht : ',' ∈ t
  · obtain ⟨b, rest, rfl, hb⟩ := List.eq_append_cons_of_mem ht
    have hab : ',' ∉ a ++ b := by simp [hcomma, hb]
    rw [← List.append_assoc, splitOperands_append_comma hab, splitOperands_append_comma hb,
      Text.trim_append_of_blank ha]
  · have hat : ',' ∉ a ++ t := by simp [hcomma, ht]
    rw [splitOperands_of_not_mem ht, splitOperands_of_not_mem hat, Text.trim_append_of_blank ha]

/-- The induction is on the commas, from the front: the blanks reach the last operand at its end. -/
theorem splitOperands_append_blank {s : Text} (hs : ∀ c ∈ s, Text.isBlank c = true) (t : Text) :
    splitOperands (t ++ s) = splitOperands t := by
  have hcomma : ',' ∉ s := fun h => absurd (hs _ h) (by decide)
  induction hn : t.length using Nat.strongRecOn generalizing t with
  | ind n ih =>
    by_cases ht : ',' ∈ t
    · obtain ⟨b, rest, rfl, hb⟩ := List.eq_append_cons_of_mem ht
      have hlt : rest.length < n := by
        rw [← hn, List.length_append, List.length_cons]
        omega
      rw [List.append_assoc, List.cons_append, splitOperands_append_comma hb,
        splitOperands_append_comma hb, ih _ hlt rest rfl]
    · have hts : ',' ∉ t ++ s := by simp [hcomma, ht]
      rw [splitOperands_of_not_mem ht, splitOperands_of_not_mem hts, Text.trim_append_blank hs]

theorem splitOperands_trimEnd (t : Text) : splitOperands (Text.trimEnd t) = splitOperands t := by
  obtain ⟨s, hs, hblank⟩ := Text.exists_append_trimEnd t
  conv => rhs; rw [hs]
  exact (splitOperands_append_blank hblank _).symm

/-- Blanks around the operands do not matter. -/
theorem splitOperands_trim (t : Text) : splitOperands (Text.trim t) = splitOperands t := by
  rw [Text.trim, splitOperands_trimEnd]
  conv => rhs; rw [← @List.takeWhile_append_dropWhile _ Text.isBlank t]
  refine (splitOperands_append_of_blank (fun c hc => ?_) _).symm
  exact List.all_eq_true.mp List.all_takeWhile c hc

open Disassembly in
/-- Operands that are put together with commas come apart again. -/
theorem splitOperands_commaList {ops : List Text} (hne : ops ≠ [])
    (h : ∀ o ∈ ops, Text.Trimmed o ∧ ',' ∉ o) : splitOperands (commaList ops) = ops := by
  induction ops with
  | nil => exact absurd rfl hne
  | cons o ops ih =>
    obtain ⟨htrim, hcomma⟩ := h o List.mem_cons_self
    have ho := Text.trim_eq_self_iff.mpr htrim
    cases ops with
    | nil =>
      rw [commaList_singleton, splitOperands_of_not_mem hcomma, ho]
    | cons o' ops =>
      rw [commaList_cons_cons, splitOperands_append_comma hcomma, ho,
        splitOperands_append_of_blank (List.forall_mem_singleton.mpr rfl),
        ih (by simp) fun x hx => h x (List.mem_cons_of_mem _ hx)]

/-! ## Instructions -/

theorem parse?_of_not_blank {m : Text} (hm : m ≠ []) (hblank : ∀ c ∈ m, Text.isBlank c = false) :
    parse? m = some ⟨Text.upper m, []⟩ := by
  rw [parse?, if_neg (by simpa using hm), Text.cut?_eq_none_iff.mpr hblank]

theorem parse?_append_blank {m : Text} {b : Char} (hblank : ∀ c ∈ m, Text.isBlank c = false)
    (hb : Text.isBlank b = true) (rest : Text) :
    parse? (m ++ b :: rest) = some ⟨Text.upper m, splitOperands rest⟩ := by
  rw [parse?, if_neg (by simp), Text.cut?_append rest hblank hb]
  simp only [splitOperands_trim]

/-- A mnemonic, a blank and what follows. When only blanks follow, there are no operands. -/
theorem parse?_trim_append {m : Text} {b : Char} (hm : m ≠ [])
    (hblank : ∀ c ∈ m, Text.isBlank c = false) (hb : Text.isBlank b = true) (rest : Text) :
    parse? (Text.trim (m ++ b :: rest)) =
      some ⟨Text.upper m, if Text.trimEnd rest = [] then [] else splitOperands rest⟩ := by
  have htrim := Text.trimmed_of_not_blank hblank
  have hstart : Text.trimStart (m ++ b :: rest) = m ++ b :: rest := by
    refine Text.trimStart_eq_self fun c hc => htrim.1 c ?_
    cases m with
    | nil => exact absurd rfl hm
    | cons x m => exact hc
  have hrest : Text.trimEnd (b :: rest) =
      if Text.trimEnd rest = [] then [] else b :: Text.trimEnd rest := by
    have hone : Text.trimEnd [b] = [] :=
      Text.trimEnd_eq_nil_iff.mpr (List.forall_mem_singleton.mpr hb)
    rw [← List.singleton_append, Text.trimEnd_append, hone]
    rfl
  rw [Text.trim, hstart, Text.trimEnd_append, hrest]
  by_cases h : Text.trimEnd rest = []
  · rw [if_pos h, if_pos h, if_pos rfl, Text.trimEnd_eq_self htrim.2,
      parse?_of_not_blank hm hblank]
  · rw [if_neg h, if_neg h, if_neg (by simp), parse?_append_blank hblank hb,
      splitOperands_trimEnd]

end Command

open Disassembly in
/-- A written instruction reads as its mnemonic and operands. -/
theorem Statement.parse_instruction {m : Text} {ops : List Text} (hm : m ≠ [])
    (hmnemonic : ∀ c ∈ m, Text.isBlank c = false ∧ c ≠ ':' ∧ c ≠ ';') (hne : ops ≠ [[]])
    (htrim : ∀ o ∈ ops, Text.Trimmed o) (hops : ∀ o ∈ ops, ∀ c ∈ o, c ≠ ',' ∧ c ≠ ':' ∧ c ≠ ';') :
    Statement.parse (m ++ ' ' :: commaList ops) = ⟨none, some ⟨Text.upper m, ops⟩⟩ := by
  have hfree : ∀ c ∈ m ++ ' ' :: commaList ops, c ≠ ':' ∧ c ≠ ';' := by
    intro c hc
    rw [List.mem_append, List.mem_cons] at hc
    rcases hc with hc | rfl | hc
    · exact (hmnemonic c hc).2
    · decide
    · rcases mem_commaList hc with rfl | rfl | ⟨o, ho, hc⟩
      · decide
      · decide
      · exact (hops o ho c hc).2
  have hcode : code (m ++ ' ' :: commaList ops) = Text.trim (m ++ ' ' :: commaList ops) := by
    rw [code, Text.before_eq_self fun h => (hfree _ h).2 rfl]
  have hcut : Text.cut? (· == ':') (Text.trim (m ++ ' ' :: commaList ops)) = none := by
    refine Text.cut?_eq_none_iff.mpr fun c hc => ?_
    simpa using (hfree c (Text.mem_of_mem_trim hc)).1
  rw [parse, hcode, hcut, Command.parse?_trim_append hm (fun c hc => (hmnemonic c hc).1) rfl]
  by_cases hnil : Text.trimEnd (commaList ops) = []
  · obtain rfl : ops = [] := (trimEnd_commaList_eq_nil htrim hnil).resolve_right hne
    rw [if_pos hnil]
  · have hsome : ops ≠ [] := by
      rintro rfl
      exact hnil rfl
    rw [if_neg hnil, Command.splitOperands_commaList hsome
      fun o ho => ⟨htrim o ho, fun hc => (hops o ho _ hc).1 rfl⟩]

/-! ## Tokens -/

/-- A token of a listing: not empty, and without any character that ends a token. -/
def Text.IsToken (t : Text) : Prop :=
  t ≠ [] ∧ ∀ c ∈ t, isBlank c = false ∧ c ≠ ',' ∧ c ≠ ':' ∧ c ≠ ';'

instance (t : Text) : Decidable t.IsToken :=
  @instDecidableAnd _ _ inferInstance (List.decidableBAll _ t)

theorem Text.IsToken.trimmed {t : Text} (h : t.IsToken) : Trimmed t :=
  trimmed_of_not_blank fun c hc => (h.2 c hc).1

section Tokens

variable {m : Text} {ops : List Text} (hm : m.IsToken) (hops : ∀ o ∈ ops, Text.IsToken o)
include hm hops

open Disassembly

theorem Statement.parse_tokens :
    Statement.parse (m ++ ' ' :: commaList ops) = ⟨none, some ⟨Text.upper m, ops⟩⟩ := by
  have hne : ops ≠ [[]] := by
    rintro rfl
    exact (hops [] List.mem_cons_self).1 rfl
  refine Statement.parse_instruction hm.1 (fun c hc => ?_) hne (fun o ho => (hops o ho).trimmed)
    fun o ho c hc => ((hops o ho).2 c hc).2
  obtain ⟨hblank, -, hcolon, hsemi⟩ := hm.2 c hc
  exact ⟨hblank, hcolon, hsemi⟩

/-- A line of tokens has no line ends in it. -/
theorem Text.not_mem_tokens {c : Char} (hblank : isBlank c = true) (hc : c ≠ ' ') :
    c ∉ m ++ ' ' :: commaList ops := by
  have hcomma : c ≠ ',' := by
    rintro rfl
    exact absurd hblank (by decide)
  have htoken : ∀ t : Text, t.IsToken → c ∉ t := by
    intro t ht hmem
    rw [(ht.2 c hmem).1] at hblank
    cases hblank
  intro h
  rw [List.mem_append, List.mem_cons] at h
  rcases h with h | h | h
  · exact htoken m hm h
  · exact hc h
  · rcases mem_commaList h with h | h | ⟨o, ho, h⟩
    · exact hcomma h
    · exact hc h
    · exact htoken o (hops o ho) h

end Tokens

/-! ## Numbers and registers -/

namespace Numeral

theorem exists_digit_of_mapM {radix : Nat} {t : Text} {ds : List Nat}
    (h : t.mapM (digit? radix) = some ds) {c : Char} (hc : c ∈ t) :
    ∃ d, digit? radix c = some d := by
  induction t generalizing ds with
  | nil => cases hc
  | cons x t ih =>
    rw [List.mapM_cons] at h
    obtain ⟨d, hd, h⟩ := Option.bind_eq_some_iff.mp h
    obtain ⟨es, hes, -⟩ := Option.bind_eq_some_iff.mp h
    rcases List.mem_cons.mp hc with rfl | hc
    · exact ⟨d, hd⟩
    · exact ih hes hc

/-- A hexadecimal digit ends no token. -/
theorem not_blank_of_hexDigit? {c : Char} {d : Nat} (h : hexDigit? c = some d) :
    Text.isBlank c = false ∧ c ≠ ',' ∧ c ≠ ':' ∧ c ≠ ';' := by
  have hrange : 0x30 ≤ c.toNat ∧ c.toNat ≤ 0x39 ∨ 0x61 ≤ c.toNat ∧ c.toNat ≤ 0x66 ∨
      0x41 ≤ c.toNat ∧ c.toNat ≤ 0x46 := by
    unfold hexDigit? at h
    split at h
    · next hc => exact .inl hc
    split at h
    · next hc => exact .inr (.inl hc)
    split at h
    · next hc => exact .inr (.inr hc)
    · cases h
  refine ⟨?_, ?_, ?_, ?_⟩
  · rw [Bool.eq_false_iff]
    intro hb
    simp only [Text.isBlank, Bool.or_eq_true, Bool.and_eq_true, decide_eq_true_eq, beq_iff_eq] at hb
    omega
  all_goals
    rintro rfl
    revert hrange
    decide

theorem isToken_hex (width n : Nat) : Text.IsToken ("0x".toList ++ hex width n) := by
  refine ⟨by simp, fun c hc => ?_⟩
  rw [List.mem_append] at hc
  rcases hc with hc | hc
  · have hmark : Text.IsToken "0x".toList := by decide
    exact hmark.2 c hc
  · have hread := natural?_hex width n
    unfold natural? at hread
    split at hread
    · cases hread
    · obtain ⟨ds, hds, -⟩ := Option.map_eq_some_iff.mp hread
      obtain ⟨d, hd⟩ := exists_digit_of_mapM hds hc
      exact not_blank_of_hexDigit? (Option.filter_eq_some_iff.mp hd).1

end Numeral

/-- A number in hexadecimal is a literal for itself. -/
theorem Literal.parse?_hex (width n : Nat) :
    Literal.parse? ("0x".toList ++ Numeral.hex width n) = some (BitVec.ofNat 64 n) := by
  have htrim := Text.trim_eq_self_iff.mpr (Numeral.isToken_hex width n).trimmed
  have hread : Literal.integer? ("0x".toList ++ Numeral.hex width n) = some (n : Int) := by
    change (Numeral.natural? 16 (Numeral.hex width n)).map Int.ofNat = some (n : Int)
    rw [Numeral.natural?_hex]
    rfl
  rw [Literal.parse?_eq_map_integer?, htrim, hread]
  exact congrArg some (BitVec.ofInt_natCast 64 n)

theorem Register.isToken_name : ∀ n : Nibble, Text.IsToken (Register.name (n.setWidth 8)) := by
  decide

theorem Op.isToken_mnemonic (op : Op) : Text.IsToken op.mnemonic := by
  cases op <;> decide

theorem Op.upper_mnemonic (op : Op) : Text.upper op.mnemonic = op.mnemonic := by
  cases op <;> decide

end Cvere
