import Cvere.Image
import Cvere.Proofs.Numerals

/-!
# Which texts are hexadecimal listings

A listing has one word to a line. Empty lines and remarks are passed over, but they are counted, so
that a line that is no word is reported with its number in the whole text.

**The rules.** `Significant` says which lines carry a word, and `WritesWord` which word a trimmed
line writes: an optional mark, an optional plus sign, and hexadecimal digits. Neither mentions the
reader.

**Main result.** `parseListing_acceptance`: which texts are accepted, the words that are read, and
the line that is reported otherwise.
-/

namespace Cvere

namespace Image

/-! ## The rules -/

/-- The line has something on it that is no remark. -/
def Significant (line : Text) : Prop :=
  Text.trim line ≠ [] ∧ (Text.trim line).head? ≠ some ';' ∧ (Text.trim line).head? ≠ some '#'

instance : DecidablePred Significant :=
  fun _ => inferInstanceAs (Decidable (_ ∧ _ ∧ _))

/-- The text is a word: the mark `0x` or none, a plus sign or none, and digits that write the number
of the word. -/
def WritesWord (t : Text) (w : Word) : Prop :=
  ∃ mark sign digits : Text, t = mark ++ (sign ++ digits) ∧
    (mark = [] ∨ mark = ['0', 'x'] ∨ mark = ['0', 'X']) ∧ (sign = [] ∨ sign = ['+']) ∧
    Numeral.Writes 16 digits w.toNat

/-- The line is a word, with blanks around it allowed. -/
def Good (line : Text) : Prop :=
  ∃ w, WritesWord (Text.trim line) w

/-! ## One line -/

theorem isRemark_eq_false_iff {line : Text} :
    isRemark (Text.trim line) = false ↔ Significant line := by
  unfold isRemark Significant
  cases Text.trim line with
  | nil => simp
  | cons c t => simp

theorem read_word_iff {t : Text} {w : Word} :
    (Numeral.read 16 Word.count t).toOption.map (BitVec.ofNat 16) = some w ↔
      ∃ digits, (t = digits ∨ t = '+' :: digits) ∧ Numeral.Writes 16 digits w.toNat := by
  have hread : ∀ n, (Numeral.read 16 Word.count t).toOption = some n ↔ _ :=
    fun n => Numeral.toOption_read_eq_some_iff (by decide) (by decide) (by decide)
  rw [Option.map_eq_some_iff]
  constructor
  · rintro ⟨n, hn, rfl⟩
    obtain ⟨digits, hdigits, hw, hlt⟩ := (hread n).mp hn
    refine ⟨digits, hdigits, ?_⟩
    rwa [BitVec.toNat_ofNat, Nat.mod_eq_of_lt hlt]
  · rintro ⟨digits, hdigits, hw⟩
    refine ⟨w.toNat, (hread _).mpr ⟨digits, hdigits, hw, w.isLt⟩, ?_⟩
    rw [BitVec.ofNat_toNat, BitVec.setWidth_eq]

/-- A trimmed line is read exactly as the word it writes. -/
theorem parseWord?_eq_some_iff {t : Text} {w : Word} :
    parseWord? t = some w ↔ WritesWord t w := by
  unfold parseWord?
  rw [read_word_iff]
  constructor
  · rintro ⟨digits, hdigits, hw⟩
    have hsign : ∃ sign : Text, (Numeral.hexMarked? t).getD t = sign ++ digits ∧
        (sign = [] ∨ sign = ['+']) := by
      rcases hdigits with h | h
      · exact ⟨[], h, .inl rfl⟩
      · exact ⟨['+'], h, .inr rfl⟩
    obtain ⟨sign, hrest, hsign⟩ := hsign
    cases hmark : Numeral.hexMarked? t with
    | none =>
      rw [hmark] at hrest
      exact ⟨[], sign, digits, hrest, .inl rfl, hsign, hw⟩
    | some rest =>
      rw [hmark] at hrest
      obtain rfl : rest = sign ++ digits := hrest
      rcases Numeral.hexMarked?_eq_some_iff.mp hmark with rfl | rfl
      · exact ⟨['0', 'x'], sign, digits, rfl, .inr (.inl rfl), hsign, hw⟩
      · exact ⟨['0', 'X'], sign, digits, rfl, .inr (.inr rfl), hsign, hw⟩
  · rintro ⟨mark, sign, digits, rfl, hmark, hsign, hw⟩
    have hrest : (Numeral.hexMarked? (mark ++ (sign ++ digits))).getD (mark ++ (sign ++ digits)) =
        sign ++ digits := by
      rcases hmark with rfl | rfl | rfl
      · have hnone : Numeral.hexMarked? (sign ++ digits) = none := by
          rcases hsign with rfl | rfl
          · exact hw.hexMarked?_eq_none (by decide)
          · rfl
        rw [List.nil_append, hnone]
        rfl
      · rfl
      · rfl
    refine ⟨digits, ?_, hw⟩
    rw [hrest]
    rcases hsign with rfl | rfl
    · exact .inl rfl
    · exact .inr rfl

/-! ## All lines -/

theorem good_iff {line : Text} : Good line ↔ ∃ w, parseWord? (Text.trim line) = some w := by
  unfold Good
  simp only [parseWord?_eq_some_iff]

section Lines

variable {n : Nat} {line : Text} {rest : List Text}

theorem parseLines_cons_of_not_significant (h : ¬ Significant line) :
    parseLines n (line :: rest) = parseLines (n + 1) rest := by
  have hremark : isRemark (Text.trim line) = true := by
    rwa [← isRemark_eq_false_iff, Bool.not_eq_false] at h
  rw [parseLines]
  exact if_pos hremark

theorem parseLines_cons_of_writes (h : Significant line) {w : Word}
    (hw : WritesWord (Text.trim line) w) :
    parseLines n (line :: rest) = (parseLines (n + 1) rest).map (w :: ·) := by
  rw [parseLines]
  simp only [isRemark_eq_false_iff.mpr h, Bool.false_eq_true, if_false,
    parseWord?_eq_some_iff.mpr hw]

theorem parseLines_cons_of_not_good (h : Significant line) (hbad : ¬ Good line) :
    parseLines n (line :: rest) = .error ⟨n, Text.trim line⟩ := by
  have hnone : parseWord? (Text.trim line) = none := by
    rw [good_iff, not_exists] at hbad
    exact Option.eq_none_iff_forall_ne_some.mpr hbad
  rw [parseLines]
  simp only [isRemark_eq_false_iff.mpr h, Bool.false_eq_true, if_false, hnone]

end Lines

/-- When all significant lines are good, their words are read in order. -/
theorem parseLines_of_forall₂ {ls : List Text} {words : List Word} (n : Nat)
    (h : List.Forall₂ (fun line w => WritesWord (Text.trim line) w) (ls.filter (Significant ·))
      words) : parseLines n ls = .ok words := by
  induction ls generalizing n words with
  | nil =>
    cases h
    rfl
  | cons line ls ih =>
    by_cases hs : Significant line
    · rw [List.filter_cons_of_pos (by simpa using hs)] at h
      cases h with
      | cons hw hrest =>
        rw [parseLines_cons_of_writes hs hw, ih (n + 1) hrest]
        rfl
    · rw [List.filter_cons_of_neg (by simpa using hs)] at h
      rw [parseLines_cons_of_not_significant hs, ih (n + 1) h]

/-- A significant line that is not good is reported, when all before it are good. -/
theorem parseLines_of_not_good {before after : List Text} {line : Text} (n : Nat)
    (hbefore : ∀ l ∈ before, Significant l → Good l) (hs : Significant line)
    (hbad : ¬ Good line) :
    parseLines n (before ++ line :: after) = .error ⟨n + before.length, Text.trim line⟩ := by
  induction before generalizing n with
  | nil => exact parseLines_cons_of_not_good hs hbad
  | cons l before ih =>
    rw [List.forall_mem_cons] at hbefore
    have hrest := ih (n + 1) hbefore.2
    have hcount : n + 1 + before.length = n + (l :: before).length := by
      rw [List.length_cons]
      omega
    rw [hcount] at hrest
    rw [List.cons_append]
    by_cases hl : Significant l
    · obtain ⟨w, hw⟩ := hbefore.1 hl
      rw [parseLines_cons_of_writes hl hw, hrest]
      rfl
    · rw [parseLines_cons_of_not_significant hl, hrest]

/-- Either all significant lines are good, or there is a first that is not. -/
theorem forall_good_or_exists_not_good (ls : List Text) :
    (∃ words, List.Forall₂ (fun line w => WritesWord (Text.trim line) w)
      (ls.filter (Significant ·)) words) ∨
    ∃ before line after, ls = before ++ line :: after ∧
      (∀ l ∈ before, Significant l → Good l) ∧ Significant line ∧ ¬ Good line := by
  induction ls with
  | nil => exact .inl ⟨[], .nil⟩
  | cons line ls ih =>
    by_cases hbad : Significant line ∧ ¬ Good line
    · exact .inr ⟨[], line, ls, rfl, by simp, hbad⟩
    · have hgood : Significant line → Good line := by
        intro hs
        by_contra hnot
        exact hbad ⟨hs, hnot⟩
      rcases ih with ⟨words, hwords⟩ | ⟨before, bad, after, rfl, hbefore, hs, hnot⟩
      · left
        by_cases hs : Significant line
        · obtain ⟨w, hw⟩ := hgood hs
          refine ⟨w :: words, ?_⟩
          rw [List.filter_cons_of_pos (by simpa using hs)]
          exact .cons hw hwords
        · refine ⟨words, ?_⟩
          rwa [List.filter_cons_of_neg (by simpa using hs)]
      · exact .inr ⟨line :: before, bad, after, rfl,
          List.forall_mem_cons.mpr ⟨hgood, hbefore⟩, hs, hnot⟩

theorem parseLines_eq_ok_iff {n : Nat} {ls : List Text} {words : List Word} :
    parseLines n ls = .ok words ↔
      List.Forall₂ (fun line w => WritesWord (Text.trim line) w) (ls.filter (Significant ·))
        words := by
  refine ⟨fun h => ?_, parseLines_of_forall₂ n⟩
  rcases forall_good_or_exists_not_good ls with
    ⟨words', hwords⟩ | ⟨before, line, after, rfl, hbefore, hs, hbad⟩
  · rw [parseLines_of_forall₂ n hwords] at h
    cases h
    exact hwords
  · rw [parseLines_of_not_good n hbefore hs hbad] at h
    cases h

theorem parseLines_eq_error_iff {n : Nat} {ls : List Text} {e : ListingError} :
    parseLines n ls = .error e ↔ ∃ before line after, ls = before ++ line :: after ∧
      (∀ l ∈ before, Significant l → Good l) ∧ Significant line ∧ ¬ Good line ∧
      e = ⟨n + before.length, Text.trim line⟩ := by
  constructor
  · intro h
    rcases forall_good_or_exists_not_good ls with
      ⟨words, hwords⟩ | ⟨before, line, after, rfl, hbefore, hs, hbad⟩
    · rw [parseLines_of_forall₂ n hwords] at h
      cases h
    · rw [parseLines_of_not_good n hbefore hs hbad] at h
      cases h
      exact ⟨before, line, after, rfl, hbefore, hs, hbad, rfl⟩
  · rintro ⟨before, line, after, rfl, hbefore, hs, hbad, rfl⟩
    exact parseLines_of_not_good n hbefore hs hbad

theorem exists_parseLines_iff {n : Nat} {ls : List Text} :
    (∃ words, parseLines n ls = .ok words) ↔ ∀ line ∈ ls, Significant line → Good line := by
  constructor
  · rintro ⟨words, hwords⟩ line hline hs
    have hmem : line ∈ ls.filter (Significant ·) := List.mem_filter.mpr ⟨hline, by simpa using hs⟩
    have hwords := parseLines_eq_ok_iff.mp hwords
    obtain ⟨i, hi, rfl⟩ := List.getElem_of_mem hmem
    have hi' : i < words.length := hwords.length_eq ▸ hi
    exact ⟨words[i], hwords.get hi hi'⟩
  · intro h
    cases hparse : parseLines n ls with
    | ok words => exact ⟨words, rfl⟩
    | error e =>
      obtain ⟨before, line, after, rfl, -, hs, hbad, -⟩ := parseLines_eq_error_iff.mp hparse
      exact absurd (h line (by simp) hs) hbad

/-- **Hexadecimal listings.** A text is accepted exactly when each of its significant lines is a
word, and then the words are those of the significant lines, in order. Otherwise the first
significant line that is no word is reported, with its number among all lines and its trimmed
text. -/
theorem parseListing_acceptance (t : Text) :
    ((∃ words, parseListing t = .ok words) ↔
      ∀ line ∈ Text.lines t, Significant line → Good line) ∧
    (∀ words, parseListing t = .ok words ↔
      List.Forall₂ (fun line w => WritesWord (Text.trim line) w)
        ((Text.lines t).filter (Significant ·)) words) ∧
    (∀ e, parseListing t = .error e ↔ ∃ before line after,
      Text.lines t = before ++ line :: after ∧ (∀ l ∈ before, Significant l → Good l) ∧
      Significant line ∧ ¬ Good line ∧ e.line = before.length + 1 ∧ e.text = Text.trim line) := by
  refine ⟨exists_parseLines_iff, fun words => parseLines_eq_ok_iff, fun e => ?_⟩
  obtain ⟨number, text⟩ := e
  unfold parseListing
  simp only [parseLines_eq_error_iff, ListingError.mk.injEq, Nat.add_comm 1]

/-- Remarks and empty lines are counted, a carriage return belongs to the line end, and leading
zeros do not matter. -/
example : parseListing "; a\r\n\n 0X+000fF \r\n# b\n-1".toList = .error ⟨5, "-1".toList⟩ := by
  decide

end Image

end Cvere
