import Cvere.Text.Basic

/-!
# Blank characters and trimming

A character is blank when it has the Unicode property `White_Space`. The property is a closed
list of twenty-five characters, so it is written out.

**Main results.** `isBlank_of_isWhitespace`: the ASCII blanks of the core library are blank here
too. `trim_eq_self_iff` says that a text is trimmed exactly when neither end is blank, and
`trim_trim` that trimming once is enough.
-/

namespace Cvere

namespace Text

/-- The Unicode property `White_Space`. -/
def isBlank (c : Char) : Bool :=
  let n := c.toNat
  (0x09 ≤ n && n ≤ 0x0D) || n == 0x20 || n == 0x85 || n == 0xA0 || n == 0x1680 ||
    (0x2000 ≤ n && n ≤ 0x200A) || n == 0x2028 || n == 0x2029 || n == 0x202F || n == 0x205F ||
    n == 0x3000

/-- Drop the blanks at the front. -/
def trimStart (t : Text) : Text :=
  t.dropWhile isBlank

/-- Drop the blanks at the end. -/
def trimEnd (t : Text) : Text :=
  (t.reverse.dropWhile isBlank).reverse

/-- Drop the blanks at both ends. -/
def trim (t : Text) : Text :=
  trimEnd (trimStart t)

/-- Neither end of the text is blank. -/
def Trimmed (t : Text) : Prop :=
  (∀ c, t.head? = some c → isBlank c = false) ∧ ∀ c, t.getLast? = some c → isBlank c = false

theorem isBlank_of_isWhitespace {c : Char} (h : c.isWhitespace = true) : isBlank c = true := by
  simp only [Char.isWhitespace, Bool.or_eq_true, decide_eq_true_eq] at h
  rcases h with ((rfl | rfl) | rfl) | rfl <;> decide

/-! ## Laws of trimming -/

@[simp] theorem trimStart_nil : trimStart [] = [] := rfl

@[simp] theorem trimEnd_nil : trimEnd [] = [] := rfl

@[simp] theorem trim_nil : trim [] = [] := rfl

theorem head?_trimStart_not_blank {t : Text} {c : Char} (h : (trimStart t).head? = some c) :
    isBlank c = false := by
  induction t with
  | nil => simp at h
  | cons x t ih =>
    simp only [trimStart, List.dropWhile_cons] at h
    cases hx : isBlank x with
    | true => rw [hx, if_pos rfl] at h; exact ih h
    | false =>
      rw [hx, if_neg (by simp)] at h
      simp only [List.head?_cons, Option.some.injEq] at h
      exact h ▸ hx

theorem getLast?_trimEnd_not_blank {t : Text} {c : Char} (h : (trimEnd t).getLast? = some c) :
    isBlank c = false := by
  rw [trimEnd, List.getLast?_reverse] at h
  exact head?_trimStart_not_blank h

/-- Trimming the end keeps a front of the text. -/
theorem exists_append_trimEnd (t : Text) :
    ∃ s : Text, t = trimEnd t ++ s ∧ ∀ c ∈ s, isBlank c = true := by
  refine ⟨(t.reverse.takeWhile isBlank).reverse, ?_, fun c hc => ?_⟩
  · rw [trimEnd, ← List.reverse_append, List.takeWhile_append_dropWhile, List.reverse_reverse]
  · exact List.all_eq_true.mp List.all_takeWhile c (List.mem_reverse.mp hc)

theorem trimStart_eq_self {t : Text} (h : ∀ c, t.head? = some c → isBlank c = false) :
    trimStart t = t := by
  cases t with
  | nil => rfl
  | cons x t => simp [trimStart, h x rfl]

theorem trimEnd_eq_self {t : Text} (h : ∀ c, t.getLast? = some c → isBlank c = false) :
    trimEnd t = t := by
  have : trimStart t.reverse = t.reverse :=
    trimStart_eq_self fun c hc => h c (by rwa [List.head?_reverse] at hc)
  rw [trimEnd]
  exact (congrArg List.reverse this).trans (List.reverse_reverse t)

theorem trimmed_trim (t : Text) : Trimmed (trim t) := by
  refine ⟨fun c hc => ?_, fun c hc => getLast?_trimEnd_not_blank hc⟩
  obtain ⟨s, hs, -⟩ := exists_append_trimEnd (trimStart t)
  refine head?_trimStart_not_blank (t := t) ?_
  rw [hs, List.head?_append]
  change (trimEnd (trimStart t)).head? = some c at hc
  simp [hc]

theorem trim_eq_self_iff {t : Text} : trim t = t ↔ Trimmed t := by
  refine ⟨fun h => h ▸ trimmed_trim t, fun h => ?_⟩
  rw [trim, trimStart_eq_self h.1, trimEnd_eq_self h.2]

@[simp] theorem trim_trim (t : Text) : trim (trim t) = trim t :=
  trim_eq_self_iff.mpr (trimmed_trim t)

end Text

end Cvere
