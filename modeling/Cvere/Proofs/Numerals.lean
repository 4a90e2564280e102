import Cvere.Numeral
import Mathlib.Data.List.Forall2
import Mathlib.Data.List.Induction
import Mathlib.Data.Nat.Digits.Defs

/-!
# The numbers that texts write

Registers, literals, addresses and hexadecimal listings all hold numbers, and all of them are read
digit by digit. Here it is said which texts write which number, without regard to how they are read.

**The grammar.** A digit is one of the characters `0` to `9` and `a` to `f`, with the letters in
either case (`IsDigit`). A text writes a number when it is one or more digits and the number is
their sum with the powers of the radix as weights (`Writes`).

**Main results.** `natural?_eq_some_iff` and `read_eq_ok_iff`: the two readers accept exactly these
texts and give the number they write. The bounded reader also takes one plus sign in front, and no
other sign. `read_eq_error_iff`: what it reports otherwise is decided by the leftmost character that
is no digit or makes the number too large (`Refused`).
-/

namespace Cvere

namespace Numeral

/-! ## Grammar -/

/-- The character is a digit of the radix and stands for `d`. -/
def IsDigit (radix : Nat) (c : Char) (d : Nat) : Prop :=
  d < radix ∧ (c = Nat.digitChar d ∨ c = (Nat.digitChar d).toUpper)

/-- The text is one or more digits of the radix, most significant first, and they write `n`. -/
def Writes (radix : Nat) (t : Text) (n : Nat) : Prop :=
  t ≠ [] ∧ ∃ ds, List.Forall₂ (IsDigit radix) t ds ∧ Nat.ofDigits radix ds.reverse = n

/-- The text is digits of the radix and they write `n`; no digits write zero. -/
def Digits (radix : Nat) (t : Text) (n : Nat) : Prop :=
  ∃ ds, List.Forall₂ (IsDigit radix) t ds ∧ Nat.ofDigits radix ds.reverse = n

/-- The leftmost character that keeps a text from being digits of a number below the bound decides
what is wrong. The characters before it are digits and write a number below the bound; it is no
digit itself, or it makes the number too large. -/
inductive Breaks (radix bound : Nat) : Text → Error → Prop
  | invalidDigit {front rest : Text} {c : Char} {n : Nat} : Digits radix front n → n < bound →
      (∀ d, ¬ IsDigit radix c d) → Breaks radix bound (front ++ c :: rest) .invalidDigit
  | tooLarge {front rest : Text} {c : Char} {n m : Nat} : Digits radix front n → n < bound →
      Digits radix (front ++ [c]) m → bound ≤ m → Breaks radix bound (front ++ c :: rest) .tooLarge

/-- Why a numeral is refused. One plus sign in front is passed over, but not alone. -/
inductive Refused (radix bound : Nat) : Text → Error → Prop
  | empty : Refused radix bound [] .empty
  | sign : Refused radix bound ['+'] .invalidDigit
  | signed {t : Text} {e : Error} : Breaks radix bound t e → Refused radix bound ('+' :: t) e
  | plain {t : Text} {e : Error} : (∀ rest, t ≠ '+' :: rest) → Breaks radix bound t e →
      Refused radix bound t e

/-! ## Digits -/

theorem hexDigit?_digitChar : ∀ d < 16, hexDigit? (Nat.digitChar d) = some d ∧
    hexDigit? (Nat.digitChar d).toUpper = some d := by
  decide

theorem toNat_of_hexDigit? {c : Char} {d : Nat} (h : hexDigit? c = some d) : c.toNat < 128 := by
  unfold hexDigit? at h
  split at h
  · next hc => exact Nat.lt_of_le_of_lt hc.2 (by decide)
  split at h
  · next hc => exact Nat.lt_of_le_of_lt hc.2 (by decide)
  split at h
  · next hc => exact Nat.lt_of_le_of_lt hc.2 (by decide)
  · cases h

/-- A hexadecimal digit is found among the ASCII characters. -/
theorem isDigit_of_hexDigit? {c : Char} {d : Nat} (h : hexDigit? c = some d) : IsDigit 16 c d := by
  have hascii : ∀ n < 128, ∀ d ∈ hexDigit? (Char.ofNat n), d < 16 ∧
      (Char.ofNat n = Nat.digitChar d ∨ Char.ofNat n = (Nat.digitChar d).toUpper) := by
    decide
  have hc := hascii c.toNat (toNat_of_hexDigit? h) d
  rw [Char.ofNat_toNat] at hc
  exact hc h

section Radix

variable {radix : Nat} (hr : radix ≤ 16)
include hr

theorem digit?_eq_some_iff {c : Char} {d : Nat} : digit? radix c = some d ↔ IsDigit radix c d := by
  unfold digit?
  rw [Option.filter_eq_some_iff, decide_eq_true_eq]
  constructor
  · rintro ⟨hc, hd⟩
    exact ⟨hd, (isDigit_of_hexDigit? hc).2⟩
  · rintro ⟨hd, hc⟩
    obtain ⟨hlower, hupper⟩ := hexDigit?_digitChar d (by omega)
    refine ⟨?_, hd⟩
    rcases hc with rfl | rfl
    · exact hlower
    · exact hupper

theorem mapM_digit?_eq_some_iff {t : Text} {ds : List Nat} :
    t.mapM (digit? radix) = some ds ↔ List.Forall₂ (IsDigit radix) t ds := by
  induction t generalizing ds with
  | nil => simp [eq_comm]
  | cons c t ih =>
    simp only [List.mapM_cons, bind, Option.bind_eq_some_iff, pure, Option.some.injEq,
      digit?_eq_some_iff hr, ih, List.forall₂_cons_left_iff]
    constructor
    · rintro ⟨d, hd, es, hes, rfl⟩
      exact ⟨d, es, hd, hes, rfl⟩
    · rintro ⟨d, es, hd, hes, rfl⟩
      exact ⟨d, hd, es, hes, rfl⟩

end Radix

/-! ## Values -/

/-- A number goes on from its last digit, whose weight is one. -/
theorem value_concat (radix : Nat) (ds : List Nat) (d : Nat) :
    value radix (ds ++ [d]) = value radix ds * radix + d :=
  valueFrom_append radix 0 ds [d]

theorem value_eq_ofDigits (radix : Nat) (ds : List Nat) :
    value radix ds = Nat.ofDigits radix ds.reverse := by
  induction ds using List.reverseRecOn with
  | nil => rfl
  | append_singleton ds d ih =>
    rw [value_concat, ih, List.reverse_append, List.reverse_singleton, List.singleton_append,
      Nat.ofDigits_cons, Nat.mul_comm, Nat.add_comm]

/-! ## Readers -/

section Readers

variable {radix bound n : Nat} {t : Text}

/-- Every character of a written number is a digit. -/
theorem Writes.not_mem (h : Writes radix t n) (hr : radix ≤ 16) {c : Char}
    (hc : digit? radix c = none) : c ∉ t := by
  obtain ⟨-, ds, hds, -⟩ := h
  induction hds with
  | nil => exact List.not_mem_nil
  | cons hd _ ih =>
    rw [List.mem_cons, not_or]
    refine ⟨?_, ih⟩
    rintro rfl
    rw [← digit?_eq_some_iff hr, hc] at hd
    cases hd

theorem digit?_eq_none {c : Char} (hc : hexDigit? c = none) (radix : Nat) :
    digit? radix c = none := by
  rw [digit?, hc, Option.filter_none]

theorem hexMarked?_eq_some_iff {digits : Text} :
    hexMarked? t = some digits ↔ t = '0' :: 'x' :: digits ∨ t = '0' :: 'X' :: digits := by
  unfold hexMarked?
  split
  · simp
  · simp
  · next hlower hupper =>
    simp only [reduceCtorEq, false_iff, not_or]
    exact ⟨hlower digits, hupper digits⟩

/-- A written number has no mark of its own. -/
theorem Writes.hexMarked?_eq_none (h : Writes radix t n) (hr : radix ≤ 16) :
    hexMarked? t = none := by
  rw [Option.eq_none_iff_forall_ne_some]
  intro digits hdigits
  rcases hexMarked?_eq_some_iff.mp hdigits with rfl | rfl
  · exact h.not_mem hr (c := 'x') (digit?_eq_none (by decide) radix) (by simp)
  · exact h.not_mem hr (c := 'X') (digit?_eq_none (by decide) radix) (by simp)

theorem natural?_eq_some_iff (hr : radix ≤ 16) : natural? radix t = some n ↔ Writes radix t n := by
  unfold natural? Writes
  cases t with
  | nil => simp
  | cons c t =>
    simp only [List.isEmpty_cons, Bool.false_eq_true, if_false, Option.map_eq_some_iff,
      mapM_digit?_eq_some_iff hr, value_eq_ofDigits, ne_eq, reduceCtorEq, not_false_eq_true,
      true_and]

/-- The digits of a bounded numeral, without its sign. -/
theorem readDigits_eq_ok_iff_writes (hr : 0 < radix) (hr16 : radix ≤ 16) (hb : 0 < bound)
    (ht : t ≠ []) : readDigits radix bound 0 t = .ok n ↔ Writes radix t n ∧ n < bound := by
  rw [readDigits_eq_ok_iff hr hb]
  unfold Writes
  simp only [mapM_digit?_eq_some_iff hr16, ← value_eq_ofDigits]
  constructor
  · rintro ⟨ds, hds, rfl, hlt⟩
    exact ⟨⟨ht, ds, hds, rfl⟩, hlt⟩
  · rintro ⟨⟨-, ds, hds, rfl⟩, hlt⟩
    exact ⟨ds, hds, rfl, hlt⟩

/-- **Bounded numerals.** A numeral is accepted exactly when it is one or more digits, with or
without one plus sign in front, and its number is below the bound. -/
theorem read_eq_ok_iff (hr : 0 < radix) (hr16 : radix ≤ 16) (hb : 0 < bound) :
    read radix bound t = .ok n ↔
      ∃ digits, (t = digits ∨ t = '+' :: digits) ∧ Writes radix digits n ∧ n < bound := by
  have hplus : ∀ digits, ¬ Writes radix ('+' :: digits) n := fun digits h =>
    h.not_mem hr16 (digit?_eq_none (by decide) radix) List.mem_cons_self
  unfold read
  split
  · simp [Writes]
  · simp only [reduceCtorEq, false_iff]
    rintro ⟨digits, rfl | hdigits, hw, -⟩
    · exact hplus _ hw
    · exact hw.1 (List.cons.inj hdigits).2.symm
  · next cs hne =>
    have hcs : cs ≠ [] := fun h => hne (by rw [h])
    rw [readDigits_eq_ok_iff_writes hr hr16 hb hcs]
    constructor
    · intro h
      exact ⟨cs, .inr rfl, h⟩
    · rintro ⟨digits, rfl | hdigits, hw, hlt⟩
      · exact absurd hw (hplus cs)
      · rw [(List.cons.inj hdigits).2]
        exact ⟨hw, hlt⟩
  · next hne _ hsign =>
    rw [readDigits_eq_ok_iff_writes hr hr16 hb hne]
    constructor
    · intro h
      exact ⟨t, .inl rfl, h⟩
    · rintro ⟨digits, rfl | rfl, hw, hlt⟩
      · exact ⟨hw, hlt⟩
      · exact absurd rfl (hsign digits)

theorem toOption_read_eq_some_iff (hr : 0 < radix) (hr16 : radix ≤ 16) (hb : 0 < bound) :
    (read radix bound t).toOption = some n ↔
      ∃ digits, (t = digits ∨ t = '+' :: digits) ∧ Writes radix digits n ∧ n < bound := by
  rw [← read_eq_ok_iff hr hr16 hb]
  cases read radix bound t <;> simp [Except.toOption]

/-- One digit writes what it stands for. -/
theorem writes_singleton_iff {c : Char} : Writes radix [c] n ↔ IsDigit radix c n := by
  unfold Writes
  simp only [List.forall₂_cons_left_iff, List.forall₂_nil_left_iff]
  constructor
  · rintro ⟨-, ds, ⟨d, es, hd, rfl, rfl⟩, rfl⟩
    simpa using hd
  · intro h
    exact ⟨by simp, [n], ⟨n, [], h, rfl, rfl⟩, by simp⟩

end Readers

/-! ## Refusals -/

section Refusals

variable {radix bound n : Nat} {front t : Text} {e : Error}

theorem digits_nil_iff : Digits radix [] n ↔ n = 0 := by
  simp [Digits, eq_comm]

/-- One more digit at the end, whose weight is one. -/
theorem digits_concat_iff {c : Char} : Digits radix (t ++ [c]) n ↔
    ∃ m d, Digits radix t m ∧ IsDigit radix c d ∧ n = m * radix + d := by
  have hreverse : ∀ {t n}, Digits radix t n ↔
      ∃ ds, List.Forall₂ (IsDigit radix) t.reverse ds ∧ Nat.ofDigits radix ds = n := by
    intro t n
    constructor
    · rintro ⟨ds, hds, hn⟩
      exact ⟨ds.reverse, List.forall₂_reverse_iff.mpr hds, hn⟩
    · rintro ⟨ds, hds, hn⟩
      refine ⟨ds.reverse, ?_, by rwa [List.reverse_reverse]⟩
      rwa [← List.forall₂_reverse_iff, List.reverse_reverse]
  simp only [hreverse, List.reverse_append, List.reverse_singleton, List.singleton_append,
    List.forall₂_cons_left_iff]
  constructor
  · rintro ⟨_, ⟨d, ds, hd, hds, rfl⟩, rfl⟩
    refine ⟨_, d, ⟨ds, hds, rfl⟩, hd, ?_⟩
    rw [Nat.ofDigits_cons, Nat.mul_comm, Nat.add_comm]
  · rintro ⟨_, d, ⟨ds, hds, rfl⟩, hd, rfl⟩
    refine ⟨d :: ds, ⟨d, ds, hd, hds, rfl⟩, ?_⟩
    rw [Nat.ofDigits_cons, Nat.mul_comm, Nat.add_comm]

theorem Digits.unique {m : Nat} (hr : radix ≤ 16) (hm : Digits radix t m) (hn : Digits radix t n) :
    m = n := by
  obtain ⟨ds, hds, rfl⟩ := hm
  obtain ⟨es, hes, rfl⟩ := hn
  rw [← mapM_digit?_eq_some_iff hr] at hds hes
  cases hds.symm.trans hes
  rfl

section Reader

variable (hr : 0 < radix) (hr16 : radix ≤ 16)
include hr hr16

/-- Digits are read one after another as long as their number is below the bound. -/
theorem readDigits_append (hfront : Digits radix front n) (hn : n < bound) (t : Text) :
    readDigits radix bound 0 (front ++ t) = readDigits radix bound n t := by
  induction front using List.reverseRecOn generalizing n t with
  | nil => rw [digits_nil_iff.mp hfront, List.nil_append]
  | append_singleton front c ih =>
    obtain ⟨m, d, hm, hd, rfl⟩ := digits_concat_iff.mp hfront
    have hle : m ≤ m * radix := Nat.le_mul_of_pos_right m hr
    rw [List.append_assoc, ih hm (by omega), List.singleton_append, readDigits]
    simp only [(digit?_eq_some_iff hr16).mpr hd, if_pos hn]

omit hr in
/-- The reader stops at the leftmost character that decides. The induction is on what is left to
read, behind digits that have been read already. -/
theorem breaks_of_readDigits (hfront : Digits radix front n) (hn : n < bound)
    (h : readDigits radix bound n t = .error e) : Breaks radix bound (front ++ t) e := by
  induction t generalizing front n with
  | nil => cases h
  | cons c t ih =>
    rw [readDigits] at h
    cases hc : digit? radix c with
    | none =>
      rw [hc] at h
      cases h
      refine .invalidDigit hfront hn fun d hd => ?_
      rw [← digit?_eq_some_iff hr16, hc] at hd
      cases hd
    | some d =>
      simp only [hc] at h
      have hnext : Digits radix (front ++ [c]) (n * radix + d) :=
        digits_concat_iff.mpr ⟨n, d, hfront, (digit?_eq_some_iff hr16).mp hc, rfl⟩
      by_cases hb : n * radix + d < bound
      · rw [if_pos hb] at h
        have hrest := ih hnext hb h
        rwa [List.append_assoc, List.singleton_append] at hrest
      · rw [if_neg hb] at h
        cases h
        exact .tooLarge hfront hn hnext (by omega)

theorem readDigits_eq_error_iff (hb : 0 < bound) :
    readDigits radix bound 0 t = .error e ↔ Breaks radix bound t e := by
  constructor
  · intro h
    exact breaks_of_readDigits hr16 (digits_nil_iff.mpr rfl) hb h
  · intro h
    cases h with
    | @invalidDigit front rest c n hfront hn hc =>
      have hnone : digit? radix c = none := by
        rw [Option.eq_none_iff_forall_ne_some]
        exact fun d hd => hc d ((digit?_eq_some_iff hr16).mp hd)
      rw [readDigits_append hr hr16 hfront hn, readDigits]
      simp only [hnone]
    | @tooLarge front rest c n m hfront hn hm hlarge =>
      obtain ⟨k, d, hk, hd, rfl⟩ := digits_concat_iff.mp hm
      obtain rfl : k = n := hk.unique hr16 hfront
      rw [readDigits_append hr hr16 hfront hn, readDigits]
      simp only [(digit?_eq_some_iff hr16).mpr hd, if_neg (Nat.not_lt.mpr hlarge)]

/-- **Refused numerals.** What is wrong with a numeral that is not accepted. -/
theorem read_eq_error_iff (hb : 0 < bound) :
    read radix bound t = .error e ↔ Refused radix bound t e := by
  have hnil : ∀ {e}, ¬ Breaks radix bound [] e := by
    intro e h
    generalize hs : ([] : Text) = s at h
    cases h <;> simp at hs
  unfold read
  split
  · constructor
    · intro h
      cases h
      exact .empty
    · intro h
      cases h with
      | empty => rfl
      | plain _ hbreaks => exact absurd hbreaks hnil
  · constructor
    · intro h
      cases h
      exact .sign
    · intro h
      cases h with
      | sign => rfl
      | signed hbreaks => exact absurd hbreaks hnil
      | plain hsign _ => exact absurd rfl (hsign _)
  · next cs hne =>
    rw [readDigits_eq_error_iff hr hr16 hb]
    constructor
    · exact .signed
    · intro h
      cases h with
      | sign => exact absurd rfl hne
      | signed hbreaks => exact hbreaks
      | plain hsign _ => exact absurd rfl (hsign _)
  · next hne _ hsign =>
    rw [readDigits_eq_error_iff hr hr16 hb]
    constructor
    · exact .plain hsign
    · intro h
      cases h with
      | empty => exact absurd rfl hne
      | sign => exact absurd rfl (hsign [])
      | signed _ => exact absurd rfl (hsign _)
      | plain _ hbreaks => exact hbreaks

end Reader

end Refusals

end Numeral

end Cvere
