import Cvere.Proofs.PlainListing

/-!
# Listings with raw words

A listing that shows the raw words of its records says which words were disassembled and where they
began, whatever else it shows. Two disassemblers can have different names, different columns and
different ways with reserved words: if their listings are the same text, they were given the same
words from the same address.

**One line.** A line begins with the address and a colon, and neither the digits of a number nor the
blanks between words can be mistaken for the end of either. A record of one word is told from one of
two words by what follows the first of them: a second blank, or a digit (`eq_of_rawCell_eq`). The
blanks at the end of a line are dropped, but never the blanks in front of the mnemonic.

**All lines.** No part of a record has a line feed in it, as long as no name has one, so the lines
of a listing are its records again (`lines_listing`).

**Main result.** `listing_determines`.
-/

namespace Cvere

/-! ## Fields and separators -/

/-- What stands before the first separator is told from what stands behind it. -/
theorem Text.append_cons_inj {a b x y : Text} {c : Char} (ha : c ∉ a) (hb : c ∉ b)
    (h : a ++ c :: x = b ++ c :: y) : a = b ∧ x = y := by
  have hcut : ∀ {t : Text} (rest : Text), c ∉ t →
      cut? (· == c) (t ++ c :: rest) = some (t, rest) := by
    intro t rest ht
    refine cut?_append rest (fun d hd => ?_) (beq_self_eq_true c)
    simpa using fun hdc : d = c => ht (hdc ▸ hd)
  have heq : some (a, x) = some (b, y) := by
    rw [← hcut x ha, ← hcut y hb, h]
  exact Prod.mk.inj (Option.some.inj heq)

theorem Numeral.hex_inj {width width' m n : Nat} (h : hex width m = hex width' n) : m = n := by
  have hread := natural?_hex width m
  rw [h, natural?_hex] at hread
  exact (Option.some.inj hread).symm

theorem Register.newline_not_mem_name (n : BitVec 8) : '\n' ∉ Register.name n := by
  have hdecimal : '\n' ∉ Numeral.decimal n.toNat := by
    intro h
    have hdigit := Nat.isDigit_of_mem_toDigits (by decide) (by decide) h
    exact absurd hdigit (by decide)
  unfold name
  repeat' split
  all_goals simp [Numeral.newline_not_mem_hex, hdecimal]

namespace Disassembly

/-! ## Words -/

/-- Words in hexadecimal with a blank behind each. -/
def rawCell (words : List Word) : Text :=
  words.flatMap fun w => Numeral.hex 4 w.toNat ++ [' ']

theorem rawText_append_blank (r : Record) : r.rawText ++ [' '] = rawCell r.words := by
  unfold Record.rawText Record.words
  cases r.reserved <;> simp [rawCell]

/-- A blank is not the beginning of a word. -/
theorem blank_ne_rawCell_cons {x y : Text} {w : Word} {words : List Word} :
    ' ' :: x ≠ rawCell (w :: words) ++ y := by
  intro h
  cases hhex : Numeral.hex 4 w.toNat with
  | nil => exact Numeral.hex_ne_nil 4 w.toNat hhex
  | cons c rest =>
    have hblank : ' ' ∈ Numeral.hex 4 w.toNat := by
      rw [rawCell, List.flatMap_cons, hhex] at h
      rw [hhex, (List.cons.inj h).1]
      exact List.mem_cons_self
    exact Numeral.not_mem_hex (by decide) 4 w.toNat hblank

/-- The words end where a second blank follows. -/
theorem eq_of_rawCell_eq {v w : List Word} {x y : Text}
    (h : rawCell v ++ ' ' :: x = rawCell w ++ ' ' :: y) : v = w := by
  induction v generalizing w with
  | nil =>
    cases w with
    | nil => rfl
    | cons b w => exact absurd h blank_ne_rawCell_cons
  | cons a v ih =>
    cases w with
    | nil => exact absurd h.symm blank_ne_rawCell_cons
    | cons b w =>
      have hfree := Numeral.not_mem_hex (c := ' ') (by decide) 4
      simp only [rawCell, List.flatMap_cons, List.append_assoc, List.cons_append,
        List.nil_append] at h
      obtain ⟨hword, hrest⟩ := Text.append_cons_inj (hfree _) (hfree _) h
      rw [BitVec.eq_of_toNat_eq (Numeral.hex_inj hword), ih hrest]

/-! ## One record -/

namespace Record

variable {r s : Record} {columns columns' : Columns}

/-- The trimmed line keeps its address and its words, since the mnemonic behind them is no blank. -/
theorem exists_render_eq (hm : r.mnemonic.IsToken) (hraw : columns.showsRaw = true) :
    ∃ rest, r.render columns = Numeral.hex 4 r.address.toNat ++ ':' ::
      (' ' :: ' ' :: (rawCell r.words ++ ' ' :: rest)) := by
  obtain ⟨c, hc⟩ := List.exists_mem_of_ne_nil _ hm.1
  have hshown : c ∈ r.assemblyText := by
    unfold assemblyText Text.padRight List.rightpad
    split <;> simp [hc]
  generalize hnote : (if columns.showsNote && !r.note.isEmpty then
    [' ', ' '] ++ ';' :: ' ' :: r.note else []) = note
  have hkept : Text.trimEnd (r.assemblyText ++ note) ≠ [] := by
    intro h
    have hblank := Text.trimEnd_eq_nil_iff.mp h c (List.mem_append_left _ hshown)
    rw [(hm.2 c hc).1] at hblank
    cases hblank
  refine ⟨Text.trimEnd (r.assemblyText ++ note), ?_⟩
  have hline : Numeral.hex 4 r.address.toNat ++ ':' ::
      (([' ', ' '] ++ r.rawText) ++ ([' ', ' '] ++ r.assemblyText)) ++ note =
      (Numeral.hex 4 r.address.toNat ++ ':' :: ' ' :: ' ' :: (rawCell r.words ++ [' '])) ++
        (r.assemblyText ++ note) := by
    rw [← rawText_append_blank]
    simp
  rw [render_eq, hnote, if_pos hraw, hline, Text.trimEnd_append, if_neg hkept]
  simp

/-- Records with the same line have the same address and the same words. -/
theorem eq_of_render_eq (hr : r.mnemonic.IsToken) (hs : s.mnemonic.IsToken)
    (hraw : columns.showsRaw = true) (hraw' : columns'.showsRaw = true)
    (h : r.render columns = s.render columns') : (r.address, r.words) = (s.address, s.words) := by
  obtain ⟨x, hx⟩ := exists_render_eq hr hraw
  obtain ⟨y, hy⟩ := exists_render_eq hs hraw'
  rw [hx, hy] at h
  have hfree := Numeral.not_mem_hex (c := ':') (by decide) 4
  obtain ⟨haddress, hrest⟩ := Text.append_cons_inj (hfree _) (hfree _) h
  have hwords := eq_of_rawCell_eq (List.cons.inj (List.cons.inj hrest).2).2
  rw [BitVec.eq_of_toNat_eq (Numeral.hex_inj haddress), hwords]

/-- Lists of records with the same lines have the same addresses and the same words. -/
theorem map_eq_of_map_render_eq {recs recs' : List Record}
    (hr : ∀ r ∈ recs, r.mnemonic.IsToken) (hs : ∀ r ∈ recs', r.mnemonic.IsToken)
    (hraw : columns.showsRaw = true) (hraw' : columns'.showsRaw = true)
    (h : recs.map (·.render columns) = recs'.map (·.render columns')) :
    recs.map (fun r => (r.address, r.words)) = recs'.map fun r => (r.address, r.words) := by
  induction recs generalizing recs' with
  | nil => rw [List.map_eq_nil_iff.mp h.symm]
  | cons r recs ih =>
    cases recs' with
    | nil => cases h
    | cons s recs' =>
      obtain ⟨hline, hlines⟩ := List.cons.inj h
      rw [List.forall_mem_cons] at hr hs
      rw [List.map_cons, List.map_cons, ih hr.2 hs.2 hlines,
        eq_of_render_eq hr.1 hs.1 hraw hraw' hline]

end Record

end Disassembly

/-! ## Operands with names -/

open Disassembly

theorem Decoded.newline_not_mem_operandText {names : Names} (d : Decoded) (address : Address)
    (hnames : ∀ a name, names.get? a = some name → '\n' ∉ name) :
    '\n' ∉ d.operandText address names := by
  have htarget : ∀ digits target, '\n' ∉ targetText names digits target := by
    intro digits target
    unfold targetText
    cases hname : names.get? target with
    | some name => exact hnames target name hname
    | none => simp [Numeral.newline_not_mem_hex]
  unfold operandText
  cases d.family with
  | register =>
    cases d.op.isUnary <;>
      exact not_mem_commaList (by decide) (by decide) (by simp [Register.newline_not_mem_name])
  | immediate | memory | branch =>
    exact not_mem_commaList (by decide) (by decide)
      (by simp [Register.newline_not_mem_name, Numeral.newline_not_mem_hex, htarget])
  | jump => exact htarget 3 _
  | extended | special => exact List.not_mem_nil

namespace Disassembly.Disassembler

/-- The listings of the disassembler show the words of the instruction set, and no name breaks a
line in two. -/
structure ShowsWords (d : Disassembler) : Prop where
  decoder : d.decoder = decode
  raw : d.config.columns.showsRaw = true
  names : ∀ address name, d.names.get? address = some name → '\n' ∉ name

theorem showsWords_standard : standard.ShowsWords where
  decoder := rfl
  raw := by decide
  names _ _ h := by cases h

namespace ShowsWords

theorem addLabel {d : Disassembler} (h : d.ShowsWords) (address : Address) {name : Text}
    (hname : '\n' ∉ name) : (d.addLabel address name).ShowsWords where
  decoder := h.decoder
  raw := h.raw
  names a n hn := by
    change (d.names.insert address name).get? a = some n at hn
    rw [Bindings.get?_insert] at hn
    split at hn
    · cases hn
      exact hname
    · exact h.names a n hn

variable {d : Disassembler} {start : Address} {words : List Word} {r : Record} (h : d.ShowsWords)
include h

theorem isToken_mnemonic (hr : r ∈ d.records start words) : r.mnemonic.IsToken := by
  obtain ⟨address, raw, reserved, rfl, -⟩ := exists_record_of_mem hr
  unfold record
  rw [h.decoder]
  cases hraw : decode raw with
  | some decoded =>
    show decoded.mnemonic.IsToken
    rw [mnemonic_of_decode hraw]
    exact decoded.op.isToken_mnemonic
  | none =>
    simp only [(decode_eq_none_iff.mp hraw).2]
    decide

theorem newline_not_mem_operands (hr : r ∈ d.records start words) : '\n' ∉ r.operands := by
  obtain ⟨address, raw, reserved, rfl, -⟩ := exists_record_of_mem hr
  unfold record
  cases d.decoder raw with
  | some decoded => exact decoded.newline_not_mem_operandText address h.names
  | none => exact List.not_mem_nil

theorem isLine_render (hr : r ∈ d.records start words) (columns : Columns) :
    (r.render columns).IsLine := by
  have hmnemonic : '\n' ∉ r.mnemonic :=
    fun hc => ((h.isToken_mnemonic hr).isLabel.2.2 _ hc).2.2 rfl
  exact Record.isLine_render
    (Record.not_mem_assemblyText (by decide) hmnemonic (h.newline_not_mem_operands hr))
    (newline_not_mem_note hr)

/-- A listing has one line for each record. -/
theorem lines_listing (start : Address) (words : List Word) :
    Text.lines (d.listing start words) =
      (d.records start words).map (·.render d.config.columns) := by
  apply Text.lines_unlines
  intro line hline
  obtain ⟨r, hr, rfl⟩ := List.mem_map.mp hline
  exact h.isLine_render hr d.config.columns

end ShowsWords

/-- Records that agree in their addresses and words are those of the same words. -/
theorem eq_of_map_records_eq {d e : Disassembler} {s t : Address} {v w : List Word}
    (h : (d.records s v).map (fun r => (r.address, r.words)) =
      (e.records t w).map fun r => (r.address, r.words)) : v = w ∧ (v ≠ [] → s = t) := by
  constructor
  · have hwords := congrArg (List.flatMap Prod.snd) h
    rw [List.flatMap_map, List.flatMap_map] at hwords
    rw [← d.flatMap_words_records s v, ← e.flatMap_words_records t w]
    exact hwords
  · intro hne
    cases hd : d.records s v with
    | nil =>
      have hnil := d.flatMap_words_records s v
      rw [hd] at hnil
      exact absurd hnil.symm hne
    | cons r recs =>
      have hhead := congrArg (·[0]?) h
      simp only [List.getElem?_map, hd, List.getElem?_cons_zero] at hhead
      obtain ⟨r', hr', heq⟩ := Option.map_eq_some_iff.mp hhead.symm
      have hr : (d.records s v)[0]? = some r := by rw [hd, List.getElem?_cons_zero]
      rw [← d.address_of_head hr, ← e.address_of_head hr', (Prod.mk.inj heq).1]

/-- **Listings with raw words.** Two disassemblers that show raw words, with whatever names without
line feeds, columns and ways with reserved words, give the same listing only for the same words from
the same start; a listing of no words does not show its start. The lines of a listing are its
records, one to a line. -/
theorem listing_determines {d e : Disassembler} (hd : d.ShowsWords) (he : e.ShowsWords)
    (s t : Address) (v w : List Word) :
    (d.listing s v = e.listing t w → v = w ∧ (s = t ∨ (v = [] ∧ w = []))) ∧
    Text.lines (d.listing s v) = (d.records s v).map (·.render d.config.columns) := by
  refine ⟨fun h => ?_, hd.lines_listing s v⟩
  have hlines := hd.lines_listing s v
  rw [h, he.lines_listing t w] at hlines
  have hrecords := Record.map_eq_of_map_render_eq (fun r hr => hd.isToken_mnemonic hr)
    (fun r hr => he.isToken_mnemonic hr) hd.raw he.raw hlines.symm
  obtain ⟨hwords, hstart⟩ := eq_of_map_records_eq hrecords
  refine ⟨hwords, ?_⟩
  by_cases hv : v = []
  · exact .inr ⟨hv, hwords ▸ hv⟩
  · exact .inl (hstart hv)

/-- A name that looks like the columns of a listing, addresses of five digits, and a call without
its reserved word at the end. The disassemblers have different columns, names and strides. -/
theorem listing_determines_modes :
    let d := Disassembler.standard.addLabel 4 "0:  FA12  ; ".toList
    let e := ((d.addLabel 6 "other".toList).setColumns ⟨0x43⟩).setWordStride true
    let words : List Word := [0x1123, 0xD004, 0xFA12]
    d.ShowsWords ∧ e.ShowsWords ∧ d.listing 0xFFFE words = e.listing 0xFFFE words ∧
      (words = words ∧ ((0xFFFE : Address) = 0xFFFE ∨ (words = [] ∧ words = []))) ∧
      (Text.lines (d.listing 0xFFFE words)).length = 3 := by
  intro d e words
  have hd : d.ShowsWords := showsWords_standard.addLabel 4 (by decide)
  have he : e.ShowsWords := ⟨rfl, by decide, (hd.addLabel 6 (by decide)).names⟩
  have hsame : d.listing 0xFFFE words = e.listing 0xFFFE words := by decide
  obtain ⟨hdetermines, hlines⟩ := listing_determines hd he 0xFFFE 0xFFFE words words
  refine ⟨hd, he, hsame, hdetermines hsame, ?_⟩
  rw [hlines, List.length_map]
  decide

end Disassembly.Disassembler

end Cvere
