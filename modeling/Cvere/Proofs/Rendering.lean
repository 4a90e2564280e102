import Cvere.Disassembly.Record
import Cvere.Proofs.Spelling

/-!
# Reading rendered lines

A line of a listing is meant for readers: an address with a colon, a mnemonic filled up to a column,
operands, and a note behind a semicolon. As source text it is a labelled instruction with a comment.
Here it is read back as such.

**Labels.** What stands before the colon is read as a label when it is not empty, has no blank end
and none of the characters that end a label or a line (`Text.IsLabel`). Every label of a source text
is of this kind (`isLabel_of_parse`), and so are the operands of a listing, which have no commas
besides (`Text.IsOperand`).

**Main results.** `parse_render`: a rendered record without its raw column is read as its address,
its mnemonic and its operands, with or without its note. `parse_header`: a name and a colon is a
label and nothing else.
-/

namespace Cvere

namespace Text

/-! ## Labels and operands -/

/-- A text that a line can have as its label. -/
def IsLabel (t : Text) : Prop :=
  t ≠ [] ∧ Trimmed t ∧ ∀ c ∈ t, c ≠ ':' ∧ c ≠ ';' ∧ c ≠ '\n'

/-- A text that can stand between commas. -/
def IsOperand (t : Text) : Prop :=
  t.IsLabel ∧ ',' ∉ t

/-- A text that is one line among others: not empty, without a line feed, and without a carriage
return at its end that would be lost. -/
def IsLine (t : Text) : Prop :=
  t ≠ [] ∧ '\n' ∉ t ∧ t.getLast? ≠ some '\r'

theorem IsToken.isLabel {t : Text} (h : t.IsToken) : t.IsLabel := by
  refine ⟨h.1, h.trimmed, fun c hc => ?_⟩
  obtain ⟨hblank, -, hcolon, hsemi⟩ := h.2 c hc
  refine ⟨hcolon, hsemi, ?_⟩
  rintro rfl
  exact absurd hblank (by decide)

theorem IsToken.isOperand {t : Text} (h : t.IsToken) : t.IsOperand :=
  ⟨h.isLabel, fun hc => (h.2 _ hc).2.1 rfl⟩

/-! ## Lines without line feeds -/

/-- Only a blank is dropped from the end of a line. -/
theorem exists_append_dropReturn (t : Text) :
    ∃ s : Text, t = dropReturn t ++ s ∧ ∀ c ∈ s, isBlank c = true := by
  unfold dropReturn
  split
  · next h =>
    obtain ⟨front, rfl⟩ := List.getLast?_eq_some_iff.mp h
    exact ⟨['\r'], by rw [List.dropLast_concat], List.forall_mem_singleton.mpr rfl⟩
  · exact ⟨[], (List.append_nil t).symm, List.forall_mem_nil _⟩

theorem mem_of_mem_dropReturn {t : Text} {c : Char} (h : c ∈ dropReturn t) : c ∈ t := by
  unfold dropReturn at h
  split at h
  · exact List.dropLast_subset _ h
  · exact h

/-- The induction is on the line feeds, from the front. -/
theorem not_mem_of_mem_lines {t l : Text} (h : l ∈ lines t) : '\n' ∉ l := by
  induction hn : t.length using Nat.strongRecOn generalizing t with
  | ind n ih =>
    by_cases ht : '\n' ∈ t
    · obtain ⟨a, rest, rfl, ha⟩ := List.eq_append_cons_of_mem ht
      rw [lines_append_newline ha, List.mem_cons] at h
      rcases h with rfl | h
      · exact fun hmem => ha (mem_of_mem_dropReturn hmem)
      · refine ih rest.length ?_ h rfl
        rw [← hn, List.length_append, List.length_cons]
        omega
    · rw [lines_of_not_mem ht] at h
      split at h
      · cases h
      · rw [List.mem_singleton.mp h]
        exact ht

theorem mem_of_mem_trimEnd {t : Text} {c : Char} (h : c ∈ trimEnd t) : c ∈ t := by
  obtain ⟨s, hs, -⟩ := exists_append_trimEnd t
  rw [hs]
  exact List.mem_append_left _ h

theorem isBlank_gap : ∀ c ∈ [' ', ' '], isBlank c = true :=
  List.forall_mem_cons.mpr ⟨rfl, List.forall_mem_singleton.mpr rfl⟩

theorem trimStart_append_of_not_blank {c : Char} (hc : isBlank c = false) (s t : Text) :
    trimStart (s ++ c :: t) = trimStart s ++ c :: t := by
  unfold trimStart
  rw [List.dropWhile_append]
  split
  · next h => rw [List.isEmpty_iff.mp h, List.nil_append, List.dropWhile_cons_of_neg (by simp [hc])]
  · rfl

theorem trimEnd_append_of_not_blank {c : Char} (hc : isBlank c = false) (s t : Text) :
    trimEnd (s ++ c :: t) = s ++ c :: trimEnd t := by
  have h := trimStart_append_of_not_blank hc t.reverse s.reverse
  unfold trimStart at h
  unfold trimEnd
  rw [List.reverse_append, List.reverse_cons, List.append_assoc, List.singleton_append, h]
  simp

theorem trim_trimStart (t : Text) : trim (trimStart t) = trim t := by
  rw [trim, trimStart_eq_self fun c hc => head?_trimStart_not_blank hc, ← trim]

theorem trim_trimEnd (t : Text) : trim (trimEnd t) = trim t := by
  obtain ⟨s, hs, hblank⟩ := exists_append_trimEnd t
  conv => rhs; rw [hs]
  exact (trim_append_blank hblank _).symm

end Text

/-! ## Labelled lines -/

namespace Statement

theorem code_append_blank {s : Text} (hs : ∀ c ∈ s, Text.isBlank c = true) (t : Text) :
    code (t ++ s) = code t := by
  have hsemi : ';' ∉ s := fun h => absurd (hs _ h) (by decide)
  unfold code Text.before
  rw [List.takeWhile_append]
  split
  · next h =>
    have ht : t.takeWhile (· != ';') = t := (List.takeWhile_sublist _).eq_of_length h
    have hall : s.takeWhile (· != ';') = s := Text.before_eq_self hsemi
    rw [ht, hall, Text.trim_append_blank hs]
  · rfl

theorem code_append_of_blank {s : Text} (hs : ∀ c ∈ s, Text.isBlank c = true) (t : Text) :
    code (s ++ t) = code t := by
  have hsemi : ∀ c ∈ s, (c != ';') = true := by
    intro c hc
    rw [bne_iff_ne]
    rintro rfl
    exact absurd (hs _ hc) (by decide)
  unfold code Text.before
  rw [List.takeWhile_append_of_pos hsemi, Text.trim_append_of_blank hs]

theorem code_trimEnd (t : Text) : code (Text.trimEnd t) = code t := by
  obtain ⟨s, hs, hblank⟩ := Text.exists_append_trimEnd t
  conv => rhs; rw [hs]
  exact (code_append_blank hblank _).symm

/-- A comment is no code. -/
theorem code_append_comment (t comment : Text) : code (t ++ ';' :: comment) = code t := by
  unfold code Text.before
  rw [List.takeWhile_append]
  split
  · next h =>
    have ht : t.takeWhile (· != ';') = t := (List.takeWhile_sublist _).eq_of_length h
    simp [ht]
  · rfl

/-- A statement is read from the code of its line alone. -/
theorem parse_congr {a b : Text} (h : code a = code b) : parse a = parse b := by
  unfold parse
  rw [h]

/-- Before the first colon stands the label, and behind it the command. -/
theorem parse_colon {name : Text} (hcolon : ':' ∉ name) (hsemi : ';' ∉ name) (body : Text) :
    parse (name ++ ':' :: body) = ⟨labelOf (Text.trim name), Command.parse? (code body)⟩ := by
  have hbefore : Text.before ';' (name ++ ':' :: body) = name ++ ':' :: Text.before ';' body := by
    unfold Text.before
    rw [List.takeWhile_append_of_pos fun c hc => by simpa using fun h : c = ';' => hsemi (h ▸ hc)]
    rfl
  -- The colon is not blank, so trimming the line stops at it from both sides.
  have hcode : code (name ++ ':' :: body) =
      Text.trimStart name ++ ':' :: Text.trimEnd (Text.before ';' body) := by
    rw [code, hbefore, Text.trim, Text.trimStart_append_of_not_blank (by decide),
      Text.trimEnd_append_of_not_blank (by decide)]
  have hcut : Text.cut? (· == ':') (code (name ++ ':' :: body)) =
      some (Text.trimStart name, Text.trimEnd (Text.before ';' body)) := by
    rw [hcode]
    refine Text.cut?_append _ (fun c hc => ?_) (by decide)
    have hmem : c ∈ name := (List.dropWhile_sublist _).subset hc
    simpa using fun h : c = ':' => hcolon (h ▸ hmem)
  rw [parse, hcut]
  simp only [Text.trim_trimStart, Text.trim_trimEnd]
  rfl

theorem parse_labelled {name body : Text} (hname : name.IsLabel) (hbody : ';' ∉ body) :
    parse (name ++ ':' :: body) = ⟨some name, Command.parse? (Text.trim body)⟩ := by
  obtain ⟨hne, htrim, hfree⟩ := hname
  have hlabel : labelOf (Text.trim name) = some name := by
    rw [Text.trim_eq_self_iff.mpr htrim, labelOf, if_neg (by simpa using hne)]
  rw [parse_colon (fun h => (hfree _ h).1 rfl) (fun h => (hfree _ h).2.1 rfl), hlabel, code,
    Text.before_eq_self hbody]

/-- A name and a colon is a label and nothing else. -/
theorem parse_header {name : Text} (hname : name.IsLabel) :
    parse (name ++ [':']) = ⟨some name, none⟩ :=
  parse_labelled hname (by simp)

theorem isLine_header {name : Text} (hname : name.IsLabel) : (name ++ [':']).IsLine := by
  refine ⟨by simp, ?_, by simp⟩
  intro h
  rw [List.mem_append, List.mem_singleton] at h
  rcases h with h | h
  · exact (hname.2.2 _ h).2.2 rfl
  · exact absurd h (by decide)

/-- A label that is read has something in it and no blank at an end, and its characters are those of
the line other than a colon and a semicolon. -/
theorem label_of_parse {line name : Text} (h : (parse line).label = some name) :
    name ≠ [] ∧ Text.Trimmed name ∧ ∀ c ∈ name, c ≠ ':' ∧ c ≠ ';' ∧ c ∈ line := by
  unfold parse at h
  cases hcut : Text.cut? (· == ':') (code line) with
  | none =>
    rw [hcut] at h
    cases h
  | some halves =>
    obtain ⟨a, b⟩ := halves
    rw [hcut] at h
    obtain ⟨hfree, c, -, hcode⟩ := Text.append_of_cut? hcut
    change labelOf (Text.trim a) = some name at h
    unfold labelOf at h
    split at h
    · cases h
    · next hne =>
      cases h
      refine ⟨by simpa using hne, Text.trimmed_trim a, fun x hx => ?_⟩
      have hxa := Text.mem_of_mem_trim hx
      have hxcode : x ∈ code line := by rw [hcode]; exact List.mem_append_left _ hxa
      have hxbefore := Text.mem_of_mem_trim hxcode
      exact ⟨by simpa using hfree x hxa, Text.ne_of_mem_before hxbefore,
        (List.takeWhile_sublist _).subset hxbefore⟩

/-- The label of a line can be the label of a line. -/
theorem isLabel_of_parse {line name : Text} (hline : '\n' ∉ line)
    (h : (parse line).label = some name) : name.IsLabel := by
  obtain ⟨hne, htrim, hfree⟩ := label_of_parse h
  refine ⟨hne, htrim, fun x hx => ?_⟩
  obtain ⟨hcolon, hsemi, hmem⟩ := hfree x hx
  refine ⟨hcolon, hsemi, ?_⟩
  rintro rfl
  exact hline hmem

end Statement

/-! ## Filled mnemonics -/

open Disassembly

/-- A mnemonic, blanks and operands. -/
theorem Command.parse?_trim_padded {m blanks : Text} {ops : List Text} (hm : m.IsToken)
    (hblanks : ∀ c ∈ blanks, Text.isBlank c = true) (hops : ∀ o ∈ ops, Text.IsOperand o) :
    parse? (Text.trim (m ++ ' ' :: (blanks ++ commaList ops))) = some ⟨Text.upper m, ops⟩ := by
  rw [parse?_trim_append hm.1 (fun c hc => (hm.2 c hc).1) rfl]
  by_cases hnil : Text.trimEnd (blanks ++ commaList ops) = []
  · have hlist : Text.trimEnd (commaList ops) = [] := by
      rw [Text.trimEnd_eq_nil_iff] at hnil ⊢
      exact fun c hc => hnil c (List.mem_append_right _ hc)
    rw [if_pos hnil]
    rcases trimEnd_commaList_eq_nil (fun o ho => (hops o ho).1.2.1) hlist with rfl | rfl
    · rfl
    · exact absurd rfl (hops [] List.mem_cons_self).1.1
  · have hne : ops ≠ [] := by
      rintro rfl
      refine hnil (Text.trimEnd_eq_nil_iff.mpr fun c hc => hblanks c ?_)
      simpa [commaList, Text.join] using hc
    rw [if_neg hnil, splitOperands_append_of_blank hblanks,
      splitOperands_commaList hne fun o ho => ⟨(hops o ho).1.2.1, (hops o ho).2⟩]

/-! ## Numbers and notes -/

namespace Numeral

theorem exists_digitChar_of_mem_toDigits {n : Nat} {c : Char} (h : c ∈ Nat.toDigits 16 n) :
    ∃ d < 16, c = Nat.digitChar d := by
  induction n using Nat.strongRecOn with
  | ind n ih =>
    rw [Nat.toDigits_eq_if (by decide)] at h
    split at h
    · next hlt => exact ⟨n, hlt, List.mem_singleton.mp h⟩
    · rw [List.mem_append] at h
      rcases h with h | h
      · exact ih _ (by omega) h
      · exact ⟨n % 16, Nat.mod_lt n (by decide), List.mem_singleton.mp h⟩

/-- Hexadecimal numbers are written with upper-case digits. -/
theorem hexDigit_of_mem_hex {width n : Nat} {c : Char} (h : c ∈ hex width n) :
    (∃ d, hexDigit? c = some d) ∧ c.isLower = false := by
  unfold hex List.leftpad at h
  rw [List.mem_append] at h
  rcases h with h | h
  · rw [(List.mem_replicate.mp h).2]
    exact ⟨⟨0, by decide⟩, by decide⟩
  · obtain ⟨x, hx, rfl⟩ := List.mem_map.mp h
    obtain ⟨d, hd, rfl⟩ := exists_digitChar_of_mem_toDigits hx
    have hdigits : ∀ d < 16, hexDigit? (Nat.digitChar d).toUpper = some d ∧
        (Nat.digitChar d).toUpper.isLower = false := by decide
    exact ⟨⟨d, (hdigits d hd).1⟩, (hdigits d hd).2⟩

theorem hex_ne_nil (width n : Nat) : hex width n ≠ [] := by
  simp [hex, List.leftpad]

theorem isToken_hexDigits (width n : Nat) : Text.IsToken (hex width n) := by
  refine ⟨hex_ne_nil width n, fun c hc => ?_⟩
  obtain ⟨d, hd⟩ := (hexDigit_of_mem_hex hc).1
  exact not_blank_of_hexDigit? hd

theorem not_mem_hex {c : Char} (hc : hexDigit? c = none) (width n : Nat) : c ∉ hex width n := by
  intro h
  obtain ⟨d, hd⟩ := (hexDigit_of_mem_hex h).1
  rw [hc] at hd
  cases hd

theorem newline_not_mem_hex (width n : Nat) : '\n' ∉ hex width n :=
  not_mem_hex (by decide) width n

end Numeral

theorem Disassembly.not_mem_commaList {ops : List Text} {c : Char} (hcomma : c ≠ ',')
    (hblank : c ≠ ' ') (h : ∀ o ∈ ops, c ∉ o) : c ∉ commaList ops := by
  intro hmem
  rcases mem_commaList hmem with hc | hc | ⟨o, ho, hc⟩
  · exact hcomma hc
  · exact hblank hc
  · exact h o ho hc

theorem Decoded.newline_not_mem_note (d : Decoded) (address : Address) :
    '\n' ∉ d.note address := by
  unfold note
  cases d.family with
  | register =>
    cases d.op.isUnary <;>
      exact not_mem_commaList (by decide) (by decide) (by simp [field, Numeral.newline_not_mem_hex])
  | immediate | memory | branch =>
    exact not_mem_commaList (by decide) (by decide) (by simp [field, Numeral.newline_not_mem_hex])
  | jump => simp [field, Numeral.newline_not_mem_hex]
  | extended => simp
  | special => by_cases h : d.op = .halt <;> simp [h]

/-! ## Rendered records -/

namespace Disassembly.Record

variable {r : Record} {columns : Columns} {ops : List Text}

theorem render_eq : r.render columns = Text.trimEnd (Numeral.hex 4 r.address.toNat ++ ':' ::
    ((if columns.showsRaw then [' ', ' '] ++ r.rawText else []) ++
      ([' ', ' '] ++ r.assemblyText)) ++
    if columns.showsNote && !r.note.isEmpty then [' ', ' '] ++ ';' :: ' ' :: r.note else []) := by
  unfold render cells
  cases columns.showsRaw <;> cases columns.showsNote && !r.note.isEmpty <;>
    simp [Text.join, List.intercalate]

theorem code_render (hraw : columns.showsRaw = false) :
    Statement.code (r.render columns) =
      Statement.code (Numeral.hex 4 r.address.toNat ++ ':' :: ([' ', ' '] ++ r.assemblyText)) := by
  rw [render_eq, hraw, Statement.code_trimEnd, if_neg Bool.false_ne_true, List.nil_append]
  split
  · rw [← List.append_assoc, Statement.code_append_comment,
      Statement.code_append_blank Text.isBlank_gap]
  · rw [List.append_nil]

theorem not_mem_assemblyText {c : Char} (hc : c ≠ ' ') (hm : c ∉ r.mnemonic)
    (hops : c ∉ r.operands) : c ∉ r.assemblyText := by
  have hpad : c ∉ Text.padRight 6 r.mnemonic := by
    simp [Text.padRight, List.rightpad, List.mem_replicate, hc, hm]
  unfold assemblyText
  split
  · exact hpad
  · simp [hpad, hc, hops]

theorem newline_not_mem_rawText : '\n' ∉ r.rawText := by
  unfold rawText
  cases r.reserved <;> simp [Numeral.newline_not_mem_hex]

/-- A rendered record is one line. -/
theorem isLine_render (htext : '\n' ∉ r.assemblyText) (hnote : '\n' ∉ r.note) :
    (r.render columns).IsLine := by
  rw [render_eq]
  refine ⟨?_, ?_, ?_⟩
  · intro h
    have hcolon := Text.trimEnd_eq_nil_iff.mp h ':' (by simp)
    exact absurd hcolon (by decide)
  · intro h
    have h := Text.mem_of_mem_trimEnd h
    have hhex := Numeral.newline_not_mem_hex 4 r.address.toNat
    have hraw := r.newline_not_mem_rawText
    cases columns.showsRaw <;> split at h <;> simp [htext, hhex, hraw, hnote] at h
  · intro h
    exact absurd (Text.getLast?_trimEnd_not_blank h) (by decide)

section Shown

variable (hm : r.mnemonic.IsToken) (hwidth : r.mnemonic.length < 6)
  (hops : ∀ o ∈ ops, Text.IsOperand o) (hshown : r.operands = commaList ops)
include hm hwidth hops hshown

omit hwidth in
/-- What ends a code or a line is not in the assembly text. -/
theorem not_mem_assemblyText_of_ends {c : Char} (hc : c = ';' ∨ c = '\n') :
    c ∉ r.assemblyText := by
  refine not_mem_assemblyText ?_ (fun h => ?_) ?_
  · rcases hc with rfl | rfl <;> decide
  · have hfree := hm.isLabel.2.2 c h
    rcases hc with rfl | rfl
    · exact hfree.2.1 rfl
    · exact hfree.2.2 rfl
  · rw [hshown]
    refine not_mem_commaList ?_ ?_ fun o ho h => ?_
    · rcases hc with rfl | rfl <;> decide
    · rcases hc with rfl | rfl <;> decide
    · have hfree := (hops o ho).1.2.2 c h
      rcases hc with rfl | rfl
      · exact hfree.2.1 rfl
      · exact hfree.2.2 rfl

omit hm hops in
/-- The mnemonic is followed by at least one blank, and then by the operands. -/
theorem exists_assemblyText_eq : ∃ blanks : Text, (∀ c ∈ blanks, Text.isBlank c = true) ∧
    r.assemblyText = r.mnemonic ++ ' ' :: (blanks ++ commaList ops) := by
  have hpad : Text.padRight 6 r.mnemonic =
      r.mnemonic ++ ' ' :: List.replicate (5 - r.mnemonic.length) ' ' := by
    rw [Text.padRight, List.rightpad, ← List.replicate_succ]
    congr 2
    omega
  have hblank : ∀ k, ∀ c ∈ List.replicate k ' ', Text.isBlank c = true := by
    intro k c hc
    rw [(List.mem_replicate.mp hc).2]
    decide
  unfold assemblyText
  rw [hpad, hshown]
  -- Without operands the padding ends the text, with operands one more blank stands before them.
  split
  · next hempty =>
    refine ⟨List.replicate (5 - r.mnemonic.length) ' ', hblank _, ?_⟩
    rw [List.isEmpty_iff.mp hempty, List.append_nil]
  · refine ⟨List.replicate (5 - r.mnemonic.length) ' ' ++ [' '], fun c hc => ?_, by simp⟩
    rw [List.mem_append, List.mem_singleton] at hc
    rcases hc with hc | rfl
    · exact hblank _ c hc
    · decide

/-- A rendered record is read as an instruction with its address as the label. -/
theorem parse_render (hraw : columns.showsRaw = false) :
    Statement.parse (r.render columns) =
      ⟨some (Numeral.hex 4 r.address.toNat), some ⟨Text.upper r.mnemonic, ops⟩⟩ := by
  obtain ⟨blanks, hblanks, htext⟩ := exists_assemblyText_eq hwidth hshown
  have hbody : ';' ∉ [' ', ' '] ++ r.assemblyText := by
    simp [not_mem_assemblyText_of_ends hm hops hshown (.inl rfl)]
  rw [Statement.parse_congr (code_render hraw),
    Statement.parse_labelled (Numeral.isToken_hexDigits 4 _).isLabel hbody,
    Text.trim_append_of_blank Text.isBlank_gap, htext, Command.parse?_trim_padded hm hblanks hops]

end Shown

end Disassembly.Record

end Cvere
