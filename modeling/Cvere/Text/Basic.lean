/-!
# Text

Source lines, listings and messages are lists of characters. Lists make every split and trim a
structural function, and the concatenation laws of lists then say what a split does.

**Main results.** `cut?_append` finds the first separator of a text that is known to have one,
`append_of_cut?` puts the two halves back together, and `cut?_eq_none_iff` says when there is
nothing to split at.
-/

namespace Cvere

/-- A text: the sequence of its characters. -/
abbrev Text := List Char

namespace Text

/-- Split a text at the first character that satisfies `p`, which belongs to neither half.
There is no result when no character satisfies `p`. -/
def cut? (p : Char → Bool) (t : Text) : Option (Text × Text) :=
  match t.dropWhile fun c => !p c with
  | [] => none
  | _ :: rest => some (t.takeWhile fun c => !p c, rest)

/-- What stands before the first `c`, or the whole text when there is none. -/
def before (c : Char) (t : Text) : Text :=
  t.takeWhile (· != c)

/-- Fill a text with spaces up to a width; a wider text is left as it is. -/
def padRight (width : Nat) (t : Text) : Text :=
  t.rightpad width ' '

/-- Texts one after another with a separator between neighbours. -/
def join (separator : Text) (pieces : List Text) : Text :=
  List.intercalate separator pieces

/-! ## Laws of the split -/

@[simp] theorem cut?_nil (p : Char → Bool) : cut? p [] = none := rfl

theorem cut?_cons (p : Char → Bool) (c : Char) (t : Text) :
    cut? p (c :: t) =
      if p c then some ([], t) else (cut? p t).map fun h => (c :: h.1, h.2) := by
  unfold cut?
  cases hc : p c with
  | true => simp [hc]
  | false =>
    simp only [List.dropWhile_cons, List.takeWhile_cons, hc, Bool.not_false, if_true]
    cases t.dropWhile fun c => !p c <;> simp

/-- The first separator of `a ++ c :: b` is `c` when `a` has none. -/
theorem cut?_append {p : Char → Bool} {a : Text} {c : Char} (b : Text)
    (ha : ∀ x ∈ a, p x = false) (hc : p c = true) : cut? p (a ++ c :: b) = some (a, b) := by
  induction a with
  | nil => simp [cut?_cons, hc]
  | cons x a ih =>
    have hx : p x = false := ha x List.mem_cons_self
    simp [cut?_cons, hx, ih fun y hy => ha y (List.mem_cons_of_mem _ hy)]

/-- A split loses only the separator it was made at. -/
theorem append_of_cut? {p : Char → Bool} {t a b : Text} (h : cut? p t = some (a, b)) :
    (∀ x ∈ a, p x = false) ∧ ∃ c, p c = true ∧ t = a ++ c :: b := by
  induction t generalizing a with
  | nil => simp at h
  | cons x t ih =>
    rw [cut?_cons] at h
    cases hx : p x with
    | true =>
      simp only [hx, if_true, Option.some.injEq, Prod.mk.injEq] at h
      obtain ⟨rfl, rfl⟩ := h
      exact ⟨by simp, x, hx, rfl⟩
    | false =>
      simp only [hx, Bool.false_eq_true, if_false, Option.map_eq_some_iff] at h
      obtain ⟨⟨a', b'⟩, hcut, heq⟩ := h
      simp only [Prod.mk.injEq] at heq
      obtain ⟨rfl, rfl⟩ := heq
      obtain ⟨hfree, c, hc, rfl⟩ := ih hcut
      refine ⟨fun y hy => ?_, c, hc, rfl⟩
      rcases List.mem_cons.mp hy with rfl | hy
      · exact hx
      · exact hfree y hy

theorem cut?_eq_none_iff {p : Char → Bool} {t : Text} :
    cut? p t = none ↔ ∀ x ∈ t, p x = false := by
  induction t with
  | nil => simp
  | cons x t ih => cases hx : p x <;> simp [cut?_cons, hx, ih]

/-- Nothing before the first `c` is `c`. -/
theorem ne_of_mem_before {c x : Char} {t : Text} (h : x ∈ before c t) : x ≠ c := by
  simpa using List.all_eq_true.mp List.all_takeWhile x h

end Text

end Cvere
