import Cvere.Text.Basic

/-!
# Numerals

Digits in radix two, ten and sixteen, the numbers they write, and the two ways numbers are read:
`natural?` takes any number of digits and gives the exact value, `read` takes an optional plus sign
and a bound and says what is wrong with a numeral it refuses.

**Main results.** `valueFrom_append` relates a numeral to its leading digits, and
`readDigits_eq_ok_iff` says that a bounded numeral is accepted exactly when all its characters are
digits and its exact value is below the bound. `natural?_decimal` and `natural?_hex`: a number that
was written reads back.
-/

namespace Cvere

namespace Numeral

/-! ## Digits -/

/-- The value of a character as a hexadecimal digit, in either case. -/
def hexDigit? (c : Char) : Option Nat :=
  if '0' ≤ c ∧ c ≤ '9' then some (c.toNat - '0'.toNat)
  else if 'a' ≤ c ∧ c ≤ 'f' then some (c.toNat - 'a'.toNat + 10)
  else if 'A' ≤ c ∧ c ≤ 'F' then some (c.toNat - 'A'.toNat + 10)
  else none

/-- The value of a character as a digit of the given radix. -/
def digit? (radix : Nat) (c : Char) : Option Nat :=
  (hexDigit? c).filter (· < radix)

/-- The number that results when a number is continued with further digits. -/
def valueFrom (radix n : Nat) (digits : List Nat) : Nat :=
  digits.foldl (fun n d => n * radix + d) n

/-- The number written by a sequence of digits, most significant first. -/
def value (radix : Nat) (digits : List Nat) : Nat :=
  valueFrom radix 0 digits

/-- The exact number written by one or more digits. -/
def natural? (radix : Nat) (t : Text) : Option Nat :=
  if t.isEmpty then none else (t.mapM (digit? radix)).map (value radix)

/-! ## Bounded reading -/

/-- Why a bounded numeral is refused. -/
inductive Error where
  /-- There is nothing to read. -/
  | empty
  /-- A character is no digit of the radix. -/
  | invalidDigit
  /-- The digits read so far reach the bound. -/
  | tooLarge
  deriving DecidableEq, Repr

/-- The wording of a refusal. -/
def Error.message : Error → Text
  | .empty => "cannot parse integer from empty string".toList
  | .invalidDigit => "invalid digit found in string".toList
  | .tooLarge => "number too large to fit in target type".toList

/-- Continue a number with further digits. The leftmost character that is no digit, or that makes
the number reach the bound, decides. -/
def readDigits (radix bound : Nat) (n : Nat) : Text → Except Error Nat
  | [] => .ok n
  | c :: cs =>
    match digit? radix c with
    | none => .error .invalidDigit
    | some d =>
      if n * radix + d < bound then readDigits radix bound (n * radix + d) cs
      else .error .tooLarge

/-- Read a numeral below `bound`. One plus sign may come first; alone it is no digit. -/
def read (radix bound : Nat) : Text → Except Error Nat
  | [] => .error .empty
  | ['+'] => .error .invalidDigit
  | '+' :: cs => readDigits radix bound 0 cs
  | cs => readDigits radix bound 0 cs

/-- What follows the mark `0x` of a hexadecimal numeral, in either case. -/
def hexMarked? : Text → Option Text
  | '0' :: 'x' :: digits => some digits
  | '0' :: 'X' :: digits => some digits
  | _ => none

/-! ## Writing -/

/-- A number in decimal. -/
def decimal (n : Nat) : Text :=
  Nat.toDigits 10 n

/-- A signed number in decimal. -/
def signed : Int → Text
  | .ofNat n => decimal n
  | .negSucc n => '-' :: decimal (n + 1)

/-- A number in upper-case hexadecimal, filled with zeros up to a width. -/
def hex (width n : Nat) : Text :=
  ((Nat.toDigits 16 n).map Char.toUpper).leftpad width '0'

/-- A number in lower-case hexadecimal. -/
def lowerHex (n : Nat) : Text :=
  Nat.toDigits 16 n

/-! ## Laws -/

@[simp] theorem valueFrom_nil (radix n : Nat) : valueFrom radix n [] = n := rfl

@[simp] theorem valueFrom_cons (radix n d : Nat) (ds : List Nat) :
    valueFrom radix n (d :: ds) = valueFrom radix (n * radix + d) ds := rfl

/-- A number goes on where its leading digits end. -/
theorem valueFrom_append (radix n : Nat) (ds es : List Nat) :
    valueFrom radix n (ds ++ es) = valueFrom radix (valueFrom radix n ds) es :=
  List.foldl_append

/-- Further digits never make a number smaller. -/
theorem le_valueFrom {radix : Nat} (hr : 0 < radix) (n : Nat) (ds : List Nat) :
    n ≤ valueFrom radix n ds := by
  induction ds generalizing n with
  | nil => exact Nat.le_refl n
  | cons d ds ih =>
    have h : n ≤ n * radix := Nat.le_mul_of_pos_right n hr
    exact Nat.le_trans (Nat.le_trans h (Nat.le_add_right _ d)) (ih _)

/-- A continued numeral is accepted exactly when every character is a digit and the number stays
below the bound. -/
theorem readDigits_eq_ok_iff {radix bound n m : Nat} {t : Text} (hr : 0 < radix) (hn : n < bound) :
    readDigits radix bound n t = .ok m ↔
      ∃ ds, t.mapM (digit? radix) = some ds ∧ m = valueFrom radix n ds ∧ m < bound := by
  induction t generalizing n with
  | nil =>
    simp only [readDigits, Except.ok.injEq, List.mapM_nil, Option.pure_def, Option.some.injEq]
    constructor
    · rintro rfl
      exact ⟨[], rfl, rfl, hn⟩
    · rintro ⟨ds, rfl, rfl, -⟩
      rfl
  | cons c cs ih =>
    rw [readDigits, List.mapM_cons]
    cases hd : digit? radix c with
    | none => simp
    | some d =>
      have hcons : ∀ ds, (do
            let r ← some d
            let rs ← cs.mapM (digit? radix)
            pure (r :: rs)) = some ds ↔ ∃ es, cs.mapM (digit? radix) = some es ∧ ds = d :: es := by
        intro ds
        cases cs.mapM (digit? radix) <;> simp [eq_comm]
      by_cases hb : n * radix + d < bound
      · simp only [hb, if_true, ih hb, hcons]
        constructor
        · rintro ⟨es, hes, hm, hlt⟩
          exact ⟨d :: es, ⟨es, hes, rfl⟩, hm, hlt⟩
        · rintro ⟨ds, ⟨es, hes, rfl⟩, hm, hlt⟩
          exact ⟨es, hes, hm, hlt⟩
      · simp only [hb, if_false, reduceCtorEq, hcons, false_iff]
        rintro ⟨ds, ⟨es, hes, rfl⟩, hm, hlt⟩
        have := le_valueFrom hr (n * radix + d) es
        rw [valueFrom_cons] at hm
        omega

/-! ## Reading what was written -/

/-- The digits of a number, in any spelling that `digit?` reads, give the number back. -/
theorem exists_digits_toDigits {radix : Nat} (spell : Char → Char) (hr : 1 < radix)
    (hs : ∀ d < radix, digit? radix (spell (Nat.digitChar d)) = some d) (n : Nat) :
    ∃ ds, ((Nat.toDigits radix n).map spell).mapM (digit? radix) = some ds ∧
      value radix ds = n := by
  induction n using Nat.strongRecOn with
  | ind n ih =>
    rw [Nat.toDigits_eq_if hr]
    split
    · next hlt => exact ⟨[n], by simp [hs n hlt], by simp [value]⟩
    · next hge =>
      obtain ⟨ds, hds, hv⟩ := ih (n / radix) (Nat.div_lt_self (by omega) hr)
      refine ⟨ds ++ [n % radix], ?_, ?_⟩
      · rw [List.map_append, List.mapM_append, hds]
        simp [hs _ (Nat.mod_lt n (by omega))]
      · rw [value, valueFrom_append]
        change valueFrom radix (value radix ds) [n % radix] = n
        rw [hv, valueFrom_cons, valueFrom_nil, Nat.div_add_mod']

theorem natural?_eq_some {radix n : Nat} {t : Text} (hne : t ≠ [])
    (h : ∃ ds, t.mapM (digit? radix) = some ds ∧ value radix ds = n) :
    natural? radix t = some n := by
  obtain ⟨ds, hds, hv⟩ := h
  simp [natural?, hne, hds, hv]

/-- A number in decimal reads back. -/
theorem natural?_decimal (n : Nat) : natural? 10 (decimal n) = some n := by
  refine natural?_eq_some (by simp [decimal]) ?_
  have h := exists_digits_toDigits id (by decide : 1 < 10) (by decide) n
  simpa [decimal] using h

/-- Zeros at the front do not change a number. -/
theorem exists_digits_replicate_append {radix n : Nat} (hr : 0 < radix) (k : Nat) {t : Text}
    (h : ∃ ds, t.mapM (digit? radix) = some ds ∧ value radix ds = n) :
    ∃ ds, (List.replicate k '0' ++ t).mapM (digit? radix) = some ds ∧ value radix ds = n := by
  induction k with
  | zero => simpa using h
  | succ k ih =>
    obtain ⟨ds, hds, hv⟩ := ih
    refine ⟨0 :: ds, ?_, ?_⟩
    · have h0 : digit? radix '0' = some 0 := by
        have : hexDigit? '0' = some 0 := by decide
        simp [digit?, this, hr]
      rw [List.replicate_succ, List.cons_append, List.mapM_cons, h0, hds]
      rfl
    · simpa [value] using hv

/-- A number in hexadecimal reads back, whatever its width. -/
theorem natural?_hex (width n : Nat) : natural? 16 (hex width n) = some n := by
  have h := exists_digits_toDigits Char.toUpper (by decide : 1 < 16) (by decide) n
  refine natural?_eq_some ?_ ?_
  · simp [hex, List.leftpad]
  · exact exists_digits_replicate_append (by decide) _ h

end Numeral

end Cvere
